import Stencil.Proofs.Script.Grammar

/-!
Everything that is read follows the grammar: one lemma for each reader, by recursion on the length
of what is left, as the readers themselves.
-/

namespace Stencil.Script

open Stencil.Text (Read)

set_option autoImplicit true

theorem derives_params (h : Items.params last s = .ok ⟨names, rest, hlt⟩) :
    Derives c .params s names rest := by
  rw [Items.params] at h
  split at h
  · rename_i r ha
    obtain ⟨_, s₁, h₁⟩ := r
    obtain ⟨line, rfl⟩ := Items.eq_of_after? ha
    cases h
    exact .noParams
  · obtain ⟨⟨first, s₁, h₁⟩, hn, h⟩ := bind_eq_ok h
    dsimp only at h
    obtain ⟨line₁, rfl, hw⟩ := Items.eq_of_name hn
    split at h
    · rename_i s₂ h₂ ha
      obtain ⟨line₂, rfl⟩ := Items.eq_of_after? ha
      obtain ⟨⟨more, s₃, h₃⟩, hp, h⟩ := bind_eq_ok h
      cases h
      exact .params hw (derives_params hp)
    · obtain ⟨⟨_, s₂, h₂⟩, hm, h⟩ := bind_eq_ok h
      dsimp only at h
      obtain ⟨line₂, rfl⟩ := Items.eq_of_mark hm
      cases h
      exact .lastParam hw
termination_by s.length

theorem statement_of_beginsExpression {l : Lexeme} (h : l.beginsExpression = true) :
    statement c (.lexeme l line :: s) = expressionStatement c line (.lexeme l line :: s) := by
  cases l with
  | word w =>
    have hk : keyword? w = none := Option.isNone_iff_eq_none.mp h
    rw [statement, hk]
  | number x =>
    rw [statement]
    all_goals
      intros
      contradiction
  | text t =>
    rw [statement]
    all_goals
      intros
      contradiction
  | mark p =>
    rw [statement]
    · intro he
      cases he
      cases h
    · intro he
      cases he
      cases h
    · intro w he
      cases he

theorem statement_of_keyword (h : keyword? w = some k) :
    statement c (.word w line :: s) = (do
      let ⟨stmt, s₁, h⟩ ← keywordStatement c w k line s
      pure ⟨stmt, s₁, h⟩) := by
  rw [statement, h]

theorem cons_of_lt {s rest : List Item} (h : rest.length < s.length) :
    ∃ item s₁, s₁.length + 1 = s.length ∧ s = item :: s₁ := by
  cases s with
  | nil => cases h
  | cons item s₁ => exact ⟨item, s₁, rfl, rfl⟩

/-- How far a rule is from the rules that take an item at once. -/
def Rule.rank : Rule α → Nat
  | statement => 10
  | expressionStatement _ => 9
  | afterKeyword _ _ _ => 12
  | condition => 0
  | alternative => 0
  | returned => 9
  | block => 11
  | loopStart _ => 9
  | optional _ => 9
  | declarations => 0
  | initial => 0
  | assignment => 8
  | conditional => 7
  | binary _ => 6
  | binaryFrom _ _ => 7
  | unary => 5
  | suffixed => 4
  | chain => 3
  | chainFrom _ => 2
  | expressions _ => 9
  | objectFields => 0
  | fieldValue _ => 0
  | params => 0
  | functionBody => 0
  | primary => 0

/-- The reader of the rule accepts the items, up to a rest. -/
abbrev Rule.Reads (c : Context) (s rest : List Item) : (r : Rule α) → α → Prop
  | statement, v => ∃ h, Script.statement c s = .ok ⟨v, rest, h⟩
  | expressionStatement line, v => ∃ h, Script.expressionStatement c line s = .ok ⟨v, rest, h⟩
  | afterKeyword w k line, v => ∃ h, keywordStatement c w k line s = .ok ⟨v, rest, h⟩
  | condition, v => ∃ h, Script.condition c s = .ok ⟨v, rest, h⟩
  | alternative, v => ∃ h, Script.alternative c s = .ok ⟨v, rest, h⟩
  | returned, v => ∃ h, Script.returned c s = .ok ⟨v, rest, h⟩
  | block, v => ∃ h, Script.block c s = .ok ⟨v, rest, h⟩
  | loopStart line, v => ∃ h, Script.loopStart c line s = .ok ⟨v, rest, h⟩
  | optional closer, v => ∃ h, Script.optional c closer s = .ok ⟨v, rest, h⟩
  | declarations, v => ∃ h, Script.declarations c s = .ok ⟨v, rest, h⟩
  | initial, v => ∃ h, Script.initial c s = .ok ⟨v, rest, h⟩
  | assignment, v => ∃ h, Script.assignment c s = .ok ⟨v, rest, h⟩
  | conditional, v => ∃ h, Script.conditional c s = .ok ⟨v, rest, h⟩
  | binary level, v => ∃ h, Script.binary c level s = .ok ⟨v, rest, h⟩
  | binaryFrom level left, v =>
    ∃ n hs h, Script.binaryFrom (n := n) c level ⟨left, s, hs⟩ = .ok ⟨v, rest, h⟩
  | unary, v => ∃ h, Script.unary c s = .ok ⟨v, rest, h⟩
  | suffixed, v => ∃ h, Script.suffixed c s = .ok ⟨v, rest, h⟩
  | chain, v => ∃ h, Script.chain c s = .ok ⟨v, rest, h⟩
  | chainFrom target, v =>
    ∃ n hs h, Script.chainFrom (n := n) c ⟨target, s, hs⟩ = .ok ⟨v, rest, h⟩
  | expressions closer, v => ∃ h, Script.expressions c closer s = .ok ⟨v, rest, h⟩
  | objectFields, v => ∃ h, Script.objectFields c s = .ok ⟨v, rest, h⟩
  | fieldValue name, v => ∃ h, Script.fieldValue c name s = .ok ⟨v, rest, h⟩
  | params, v => ∃ h, Items.params c.last s = .ok ⟨v, rest, h⟩
  | functionBody, v => ∃ h, Script.functionBody c s = .ok ⟨v, rest, h⟩
  | primary, v => ∃ h, Script.primary c s = .ok ⟨v, rest, h⟩

/-- What is read from fewer than `n` items, or from `n` items by a rule of rank below `k`, follows
the grammar. -/
def Follows (n k : Nat) : Prop :=
  ∀ {α : Type} (r : Rule α) {c s v rest}, s.length < n ∨ s.length = n ∧ r.rank < k →
    r.Reads c s rest v → Derives c r s v rest

theorem derives_statement (ih : Follows s.length 10)
    (h : statement c s = .ok ⟨stmt, rest, hlt⟩) :
    Derives c .statement s stmt rest := by
  obtain ⟨item, s₁, hs, rfl⟩ := cons_of_lt hlt
  cases item with
  | text t line =>
    rw [statement] at h
    cases h
    exact .text
  | output e escape line =>
    rw [statement] at h
    cases h
    exact .output
  | lexeme l line =>
    by_cases hl : l.beginsExpression = true
    · rw [statement_of_beginsExpression hl] at h
      exact .expression hl (ih (.expressionStatement line) (.inr ⟨rfl, Nat.lt_succ_self 9⟩) ⟨_, h⟩)
    · rcases l.eq_of_not_beginsExpression hl with ⟨w, k, rfl, hk⟩ | rfl | rfl
      · rw [statement_of_keyword hk] at h
        obtain ⟨⟨stmt', s₂, h₂⟩, hk', h⟩ := bind_eq_ok h
        cases h
        exact .keyword hk (ih (.afterKeyword _ _ _) (by omega) ⟨_, hk'⟩)
      · rw [statement] at h
        obtain ⟨⟨body, s₂, h₂⟩, hb, h⟩ := bind_eq_ok h
        cases h
        exact .braces (ih .block (by omega) ⟨_, hb⟩)
      · rw [statement] at h
        cases h
        exact .empty

theorem derives_expressionStatement (ih : Follows s.length 9)
    (h : expressionStatement c line s = .ok ⟨stmt, rest, hlt⟩) :
    Derives c (.expressionStatement line) s stmt rest := by
  rw [expressionStatement] at h
  obtain ⟨⟨e, s₁, h₁⟩, he, h⟩ := bind_eq_ok h
  cases h
  exact .expressionStatement (ih .assignment (.inr ⟨rfl, by decide⟩) ⟨_, he⟩)

theorem derives_afterKeyword (ih : Follows s.length 12)
    (h : keywordStatement c w k line s = .ok ⟨stmt, rest, hlt⟩) :
    Derives c (.afterKeyword w k line) s stmt rest := by
  cases k with
  | branch =>
    rw [keywordStatement] at h
    obtain ⟨⟨test, s₁, h₁⟩, ht, h⟩ := bind_eq_ok h
    dsimp only at h
    obtain ⟨⟨yes, s₂, h₂⟩, hy, h⟩ := bind_eq_ok h
    dsimp only at h
    obtain ⟨⟨no, s₃, h₃⟩, hn, h⟩ := bind_eq_ok h
    cases h
    exact .branch (ih .condition (.inr ⟨rfl, by decide⟩) ⟨_, ht⟩)
      (ih .statement (by omega) ⟨_, hy⟩) (ih .alternative (by omega) ⟨_, hn⟩)
  | otherwise =>
    rw [keywordStatement] at h
    cases h
  | loop =>
    rw [keywordStatement] at h
    obtain ⟨⟨_, s₁, h₁⟩, hm, h⟩ := bind_eq_ok h
    dsimp only at h
    obtain ⟨l₁, rfl⟩ := Items.eq_of_mark hm
    split at h
    · rename_i name elements s₂ h₂ hh
      obtain ⟨⟨target, s₃, h₃⟩, ht, h⟩ := bind_eq_ok h
      dsimp only at h
      obtain ⟨⟨_, s₄, h₄⟩, hm₂, h⟩ := bind_eq_ok h
      dsimp only at h
      obtain ⟨l₂, rfl⟩ := Items.eq_of_mark hm₂
      obtain ⟨⟨body, s₅, h₅⟩, hb, h⟩ := bind_eq_ok h
      cases h
      cases elements with
      | true =>
        exact .forOf hh rfl (ih (s := s₂) .assignment (by omega) ⟨_, ht⟩)
          (ih .statement (by omega) ⟨_, hb⟩)
      | false =>
        exact .forIn hh rfl (ih (s := s₂) .assignment (by omega) ⟨_, ht⟩)
          (ih .statement (by omega) ⟨_, hb⟩)
    · rename_i hh
      obtain ⟨⟨first, s₂, h₂⟩, hf, h⟩ := bind_eq_ok h
      dsimp only at h
      obtain ⟨⟨test, s₃, h₃⟩, ht, h⟩ := bind_eq_ok h
      dsimp only at h
      obtain ⟨⟨update, s₄, h₄⟩, hu, h⟩ := bind_eq_ok h
      dsimp only at h
      obtain ⟨⟨body, s₅, h₅⟩, hb, h⟩ := bind_eq_ok h
      cases h
      exact .loop hh (ih (.loopStart _) (by omega) ⟨_, hf⟩)
        (ih (.optional _) (by omega) ⟨_, ht⟩) (ih (.optional _) (by omega) ⟨_, hu⟩)
        (ih .statement (by omega) ⟨_, hb⟩)
  | whileDo =>
    rw [keywordStatement] at h
    obtain ⟨⟨test, s₁, h₁⟩, ht, h⟩ := bind_eq_ok h
    dsimp only at h
    obtain ⟨⟨body, s₂, h₂⟩, hb, h⟩ := bind_eq_ok h
    cases h
    exact .whileDo (ih .condition (.inr ⟨rfl, by decide⟩) ⟨_, ht⟩)
      (ih .statement (by omega) ⟨_, hb⟩)
  | declare kind =>
    rw [keywordStatement] at h
    obtain ⟨⟨decls, s₁, h₁⟩, hd, h⟩ := bind_eq_ok h
    cases h
    exact .declare (ih .declarations (.inr ⟨rfl, by decide⟩) ⟨_, hd⟩)
  | breakLoop =>
    rw [keywordStatement] at h
    split at h
    · rename_i hc
      cases h
      exact .breakLoop hc
    · cases h
  | continueLoop =>
    rw [keywordStatement] at h
    split at h
    · rename_i hc
      cases h
      exact .continueLoop hc
    · cases h
  | giveBack =>
    rw [keywordStatement] at h
    split at h
    · rename_i hc
      obtain ⟨⟨value, s₁, h₁⟩, hv, h⟩ := bind_eq_ok h
      cases h
      exact .giveBack hc (ih .returned (.inr ⟨rfl, by decide⟩) ⟨_, hv⟩)
    · cases h

theorem derives_condition (ih : Follows s.length 0)
    (h : condition c s = .ok ⟨e, rest, hlt⟩) :
    Derives c .condition s e rest := by
  rw [condition] at h
  obtain ⟨⟨_, s₁, h₁⟩, hm₁, h⟩ := bind_eq_ok h
  dsimp only at h
  obtain ⟨⟨e', s₂, h₂⟩, he, h⟩ := bind_eq_ok h
  dsimp only at h
  obtain ⟨⟨_, s₃, h₃⟩, hm₂, h⟩ := bind_eq_ok h
  dsimp only at h
  obtain ⟨l₁, rfl⟩ := Items.eq_of_mark hm₁
  obtain ⟨l₂, rfl⟩ := Items.eq_of_mark hm₂
  cases h
  exact .condition (ih .assignment (by omega) ⟨_, he⟩)

theorem derives_alternative (ih : Follows s.length 0)
    (h : alternative c s = .ok ⟨no, rest, hlt⟩) :
    Derives c .alternative s no rest := by
  rw [alternative] at h
  split at h
  · rename_i s₁ h₁ he
    obtain ⟨l, rfl⟩ := eq_of_elseHead? he
    obtain ⟨⟨stmt, s₂, h₂⟩, hs, h⟩ := bind_eq_ok h
    cases h
    exact .otherwise (ih .statement (by omega) ⟨_, hs⟩)
  · rename_i he
    cases h
    exact .noAlternative he

theorem derives_returned (ih : Follows s.length 9)
    (h : returned c s = .ok ⟨value, rest, hlt⟩) :
    Derives c .returned s value rest := by
  rw [returned] at h
  split at h
  · rename_i he
    cases h
    exact .nothingReturned he
  · rename_i he
    obtain ⟨⟨e, s₁, h₁⟩, ha, h⟩ := bind_eq_ok h
    cases h
    exact .returned (by simpa only [Bool.not_eq_true] using he)
      (ih .assignment (.inr ⟨rfl, by decide⟩) ⟨_, ha⟩)

theorem derives_block (ih : Follows s.length 11)
    (h : block c s = .ok ⟨body, rest, hlt⟩) : Derives c .block s body rest := by
  rw [block] at h
  split at h
  · rename_i r ha
    obtain ⟨_, s₁, h₁⟩ := r
    obtain ⟨l, rfl⟩ := Items.eq_of_after? ha
    cases h
    exact .blockEnd
  · rename_i ha
    split at h
    · cases h
    · obtain ⟨⟨first, s₁, h₁⟩, hf, h⟩ := bind_eq_ok h
      dsimp only at h
      obtain ⟨⟨more, s₂, h₂⟩, hb, h⟩ := bind_eq_ok h
      cases h
      exact .blockMore ha (ih .statement (.inr ⟨rfl, by decide⟩) ⟨_, hf⟩)
        (ih .block (by omega) ⟨_, hb⟩)

theorem derives_loopStart (ih : Follows s.length 9)
    (h : loopStart c line s = .ok ⟨first, rest, hlt⟩) :
    Derives c (.loopStart line) s first rest := by
  rw [loopStart] at h
  split at h
  · rename_i r ha
    obtain ⟨_, s₁, h₁⟩ := r
    obtain ⟨l, rfl⟩ := Items.eq_of_after? ha
    cases h
    exact .noStart
  · rename_i ha
    split at h
    · rename_i kind s₁ h₁ hd
      obtain ⟨w, l₁, rfl, hw⟩ := eq_of_declHead? hd
      obtain ⟨⟨decls, s₂, h₂⟩, hds, h⟩ := bind_eq_ok h
      dsimp only at h
      obtain ⟨⟨_, s₃, h₃⟩, hm, h⟩ := bind_eq_ok h
      dsimp only at h
      obtain ⟨l₂, rfl⟩ := Items.eq_of_mark hm
      cases h
      exact .declareStart hw (ih .declarations (by omega) ⟨_, hds⟩)
    · rename_i hd
      obtain ⟨⟨e, s₁, h₁⟩, he, h⟩ := bind_eq_ok h
      dsimp only at h
      obtain ⟨⟨_, s₂, h₂⟩, hm, h⟩ := bind_eq_ok h
      dsimp only at h
      obtain ⟨l, rfl⟩ := Items.eq_of_mark hm
      cases h
      exact .expressionStart ha hd (ih .assignment (.inr ⟨rfl, by decide⟩) ⟨_, he⟩)

theorem derives_optional (ih : Follows s.length 9)
    (h : Script.optional c closer s = .ok ⟨value, rest, hlt⟩) :
    Derives c (.optional closer) s value rest := by
  rw [Script.optional] at h
  split at h
  · rename_i r ha
    obtain ⟨_, s₁, h₁⟩ := r
    obtain ⟨l, rfl⟩ := Items.eq_of_after? ha
    cases h
    exact .omitted
  · rename_i ha
    obtain ⟨⟨e, s₁, h₁⟩, he, h⟩ := bind_eq_ok h
    dsimp only at h
    obtain ⟨⟨_, s₂, h₂⟩, hm, h⟩ := bind_eq_ok h
    dsimp only at h
    obtain ⟨l, rfl⟩ := Items.eq_of_mark hm
    cases h
    exact .given ha (ih .assignment (.inr ⟨rfl, by decide⟩) ⟨_, he⟩)

theorem derives_declarations (ih : Follows s.length 0)
    (h : declarations c s = .ok ⟨decls, rest, hlt⟩) :
    Derives c .declarations s decls rest := by
  rw [declarations] at h
  obtain ⟨⟨name, s₁, h₁⟩, hn, h⟩ := bind_eq_ok h
  dsimp only at h
  obtain ⟨l₁, rfl, hw⟩ := Items.eq_of_name hn
  obtain ⟨⟨value, s₂, h₂⟩, hi, h⟩ := bind_eq_ok h
  dsimp only at h
  split at h
  · rename_i s₃ h₃ ha
    obtain ⟨l₂, rfl⟩ := Items.eq_of_after? ha
    obtain ⟨⟨more, s₄, h₄⟩, hd, h⟩ := bind_eq_ok h
    cases h
    exact .declared hw (ih .initial (by omega) ⟨_, hi⟩) (ih .declarations (by omega) ⟨_, hd⟩)
  · rename_i ha
    cases h
    exact .lastDeclared hw (ih .initial (by omega) ⟨_, hi⟩) ha

theorem derives_initial (ih : Follows s.length 0)
    (h : initial c s = .ok ⟨value, rest, hlt⟩) :
    Derives c .initial s value rest := by
  rw [initial] at h
  split at h
  · rename_i s₁ h₁ ha
    obtain ⟨l, rfl⟩ := Items.eq_of_after? ha
    obtain ⟨⟨e, s₂, h₂⟩, he, h⟩ := bind_eq_ok h
    cases h
    exact .initial (ih .assignment (by omega) ⟨_, he⟩)
  · rename_i ha
    cases h
    exact .noInitial ha

theorem derives_assignment (ih : Follows s.length 8)
    (h : assignment c s = .ok ⟨e, rest, hlt⟩) :
    Derives c .assignment s e rest := by
  rw [assignment] at h
  split at h
  · rename_i name op s₁ h₁ ha
    obtain ⟨l₁, p, l₂, rfl, hw, hp⟩ := eq_of_assignHead? ha
    obtain ⟨⟨e', s₂, h₂⟩, he, h⟩ := bind_eq_ok h
    cases h
    exact .assign hw hp (ih .assignment (by omega) ⟨_, he⟩)
  · rename_i ha
    exact .unassigned ha (ih .conditional (.inr ⟨rfl, by decide⟩) ⟨_, h⟩)

theorem derives_conditional (ih : Follows s.length 7)
    (h : conditional c s = .ok ⟨e, rest, hlt⟩) :
    Derives c .conditional s e rest := by
  rw [conditional] at h
  obtain ⟨⟨test, s₁, h₁⟩, ht, h⟩ := bind_eq_ok h
  dsimp only at h
  split at h
  · rename_i s₂ h₂ ha
    obtain ⟨l₁, rfl⟩ := Items.eq_of_after? ha
    obtain ⟨⟨yes, s₃, h₃⟩, hy, h⟩ := bind_eq_ok h
    dsimp only at h
    obtain ⟨⟨_, s₄, h₄⟩, hm, h⟩ := bind_eq_ok h
    dsimp only at h
    obtain ⟨l₂, rfl⟩ := Items.eq_of_mark hm
    obtain ⟨⟨no, s₅, h₅⟩, hn, h⟩ := bind_eq_ok h
    cases h
    exact .choice (ih (.binary _) (.inr ⟨rfl, by decide⟩) ⟨_, ht⟩)
      (ih .assignment (by omega) ⟨_, hy⟩) (ih .assignment (by omega) ⟨_, hn⟩)
  · rename_i ha
    cases h
    exact .noChoice (ih (.binary _) (.inr ⟨rfl, by decide⟩) ⟨_, ht⟩) ha

theorem derives_binary (ih : Follows s.length 6)
    (h : binary c level s = .ok ⟨e, rest, hlt⟩) :
    Derives c (.binary level) s e rest := by
  rw [binary] at h
  obtain ⟨⟨left, s₁, h₁⟩, hl, h⟩ := bind_eq_ok h
  exact .binary (ih .unary (.inr ⟨rfl, by decide⟩) ⟨_, hl⟩)
    (ih (.binaryFrom _ _) (by omega) ⟨_, _, _, h⟩)

theorem derives_binaryFrom (ih : Follows s.length 7)
    (h : binaryFrom (n := n) c level ⟨left, s, hs⟩ = .ok ⟨e, rest, hlt⟩) :
    Derives c (.binaryFrom level left) s e rest := by
  rw [binaryFrom] at h
  split at h
  · rename_i op s₁ h₁ ho
    have h₁' : s₁.length < s.length := h₁
    split at h
    · rename_i hl
      cases h
      refine .noOperator fun r hr => ?_
      rw [ho] at hr
      cases hr
      exact hl
    · rename_i hl
      obtain ⟨l, rfl⟩ := eq_of_operatorHead? ho
      obtain ⟨⟨right, s₂, h₂⟩, hr, h⟩ := bind_eq_ok h
      dsimp only at h
      exact .operator hl (ih (.binary _) (by omega) ⟨_, hr⟩)
        (ih (.binaryFrom _ _) (by omega) ⟨_, _, _, h⟩)
  · rename_i ho
    cases h
    refine .noOperator fun r hr => ?_
    rw [ho] at hr
    cases hr

theorem derives_unary (ih : Follows s.length 5)
    (h : unary c s = .ok ⟨e, rest, hlt⟩) : Derives c .unary s e rest := by
  rw [unary] at h
  split at h
  · rename_i op s₁ h₁ hu
    obtain ⟨l, rfl⟩ := eq_of_unaryHead? hu
    obtain ⟨⟨e', s₂, h₂⟩, he, h⟩ := bind_eq_ok h
    cases h
    exact .unary (ih .unary (by omega) ⟨_, he⟩)
  · rename_i hu
    split at h
    · rename_i up s₁ h₁ hst
      obtain ⟨l₁, rfl⟩ := eq_of_stepHead? hst
      obtain ⟨⟨name, s₂, h₂⟩, hn, h⟩ := bind_eq_ok h
      dsimp only at h
      obtain ⟨l₂, rfl, hw⟩ := Items.eq_of_name hn
      cases h
      exact .stepBefore hw
    · rename_i hst
      exact .noUnary hu hst (ih .suffixed (.inr ⟨rfl, by decide⟩) ⟨_, h⟩)

theorem derives_suffixed (ih : Follows s.length 4)
    (h : suffixed c s = .ok ⟨e, rest, hlt⟩) :
    Derives c .suffixed s e rest := by
  rw [suffixed] at h
  obtain ⟨⟨e', s₁, h₁⟩, he, h⟩ := bind_eq_ok h
  dsimp only at h
  split at h
  · rename_i name up s₂ h₂ hst
    obtain ⟨l, rfl⟩ := eq_of_stepHead? hst
    cases h
    exact .stepAfter (ih .chain (.inr ⟨rfl, by decide⟩) ⟨_, he⟩)
  · rename_i hst
    cases h
    refine .noStep (ih .chain (.inr ⟨rfl, by decide⟩) ⟨_, he⟩) fun name hn => ?_
    cases hs : stepHead? rest with
    | none => rfl
    | some r => exact absurd hs (hst name r.value r.rest r.shorter hn)

theorem derives_chain (ih : Follows s.length 3)
    (h : chain c s = .ok ⟨e, rest, hlt⟩) : Derives c .chain s e rest := by
  rw [chain] at h
  obtain ⟨⟨first, s₁, h₁⟩, hp, h⟩ := bind_eq_ok h
  exact .chain (ih .primary (.inr ⟨rfl, by decide⟩) ⟨_, hp⟩)
    (ih (.chainFrom _) (by omega) ⟨_, _, _, h⟩)

theorem derives_chainFrom (ih : Follows s.length 2)
    (h : chainFrom (n := n) c ⟨target, s, hs⟩ = .ok ⟨e, rest, hlt⟩) :
    Derives c (.chainFrom target) s e rest := by
  rw [chainFrom] at h
  dsimp only at h
  split at h
  · rename_i s₁ h₁ ha
    have h₁' : s₁.length < s.length := h₁
    obtain ⟨l₁, rfl⟩ := Items.eq_of_after? ha
    obtain ⟨⟨name, s₂, h₂⟩, hp, h⟩ := bind_eq_ok h
    dsimp only at h
    obtain ⟨l₂, rfl⟩ := Items.eq_of_propertyName hp
    split at h
    · rename_i s₃ h₃ ha₂
      obtain ⟨l₃, rfl⟩ := Items.eq_of_after? ha₂
      obtain ⟨⟨args, s₄, h₄⟩, hx, h⟩ := bind_eq_ok h
      dsimp only at h
      exact .callProperty (ih (.expressions _) (by omega) ⟨_, hx⟩)
        (ih (.chainFrom _) (by omega) ⟨_, _, _, h⟩)
    · rename_i ha₂
      exact .property ha₂ (ih (.chainFrom _) (by omega) ⟨_, _, _, h⟩)
  · rename_i hdot
    split at h
    · rename_i s₁ h₁ ha
      have h₁' : s₁.length < s.length := h₁
      obtain ⟨l₁, rfl⟩ := Items.eq_of_after? ha
      obtain ⟨⟨key, s₂, h₂⟩, hk, h⟩ := bind_eq_ok h
      dsimp only at h
      obtain ⟨⟨_, s₃, h₃⟩, hm, h⟩ := bind_eq_ok h
      dsimp only at h
      obtain ⟨l₂, rfl⟩ := Items.eq_of_mark hm
      exact .index (ih .assignment (by omega) ⟨_, hk⟩) (ih (.chainFrom _) (by omega) ⟨_, _, _, h⟩)
    · rename_i hbracket
      split at h
      · rename_i s₁ h₁ ha
        have h₁' : s₁.length < s.length := h₁
        obtain ⟨l₁, rfl⟩ := Items.eq_of_after? ha
        split at h
        · rename_i name
          obtain ⟨⟨args, s₂, h₂⟩, hx, h⟩ := bind_eq_ok h
          dsimp only at h
          exact .call (ih (.expressions _) (by omega) ⟨_, hx⟩)
            (ih (.chainFrom _) (by omega) ⟨_, _, _, h⟩)
        · cases h
      · rename_i hparen
        cases h
        exact .chainEnd hdot hbracket hparen

theorem derives_expressions (ih : Follows s.length 9)
    (h : expressions c closer s = .ok ⟨es, rest, hlt⟩) :
    Derives c (.expressions closer) s es rest := by
  rw [expressions] at h
  split at h
  · rename_i r ha
    obtain ⟨_, s₁, h₁⟩ := r
    obtain ⟨l, rfl⟩ := Items.eq_of_after? ha
    cases h
    exact .noExpressions
  · rename_i ha
    obtain ⟨⟨first, s₁, h₁⟩, hf, h⟩ := bind_eq_ok h
    dsimp only at h
    split at h
    · rename_i s₂ h₂ hc
      obtain ⟨l, rfl⟩ := Items.eq_of_after? hc
      obtain ⟨⟨more, s₃, h₃⟩, hx, h⟩ := bind_eq_ok h
      cases h
      exact .expressions ha (ih .assignment (.inr ⟨rfl, by decide⟩) ⟨_, hf⟩)
        (ih (.expressions _) (by omega) ⟨_, hx⟩)
    · rename_i hc
      obtain ⟨⟨_, s₂, h₂⟩, hm, h⟩ := bind_eq_ok h
      dsimp only at h
      obtain ⟨l, rfl⟩ := Items.eq_of_mark hm
      cases h
      refine .lastExpression ?_ ha (ih .assignment (.inr ⟨rfl, by decide⟩) ⟨_, hf⟩)
      rintro rfl
      rw [Items.after?_mark] at hc
      cases hc

theorem derives_objectFields (ih : Follows s.length 0)
    (h : objectFields c s = .ok ⟨fields, rest, hlt⟩) :
    Derives c .objectFields s fields rest := by
  rw [objectFields] at h
  split at h
  · rename_i r ha
    obtain ⟨_, s₁, h₁⟩ := r
    obtain ⟨l, rfl⟩ := Items.eq_of_after? ha
    cases h
    exact .noFields
  · obtain ⟨⟨name, s₁, h₁⟩, hn, h⟩ := bind_eq_ok h
    dsimp only at h
    obtain ⟨key, l₁, rfl, hk⟩ := Items.eq_of_fieldName hn
    obtain ⟨⟨value, s₂, h₂⟩, hv, h⟩ := bind_eq_ok h
    dsimp only at h
    split at h
    · rename_i s₃ h₃ ha
      obtain ⟨l₂, rfl⟩ := Items.eq_of_after? ha
      obtain ⟨⟨more, s₄, h₄⟩, hf, h⟩ := bind_eq_ok h
      cases h
      exact .fields hk (ih (.fieldValue _) (by omega) ⟨_, hv⟩) (ih .objectFields (by omega) ⟨_, hf⟩)
    · obtain ⟨⟨_, s₃, h₃⟩, hm, h⟩ := bind_eq_ok h
      dsimp only at h
      obtain ⟨l₂, rfl⟩ := Items.eq_of_mark hm
      cases h
      exact .lastField hk (ih (.fieldValue _) (by omega) ⟨_, hv⟩)

theorem derives_fieldValue (ih : Follows s.length 0)
    (h : fieldValue c name s = .ok ⟨e, rest, hlt⟩) :
    Derives c (.fieldValue name) s e rest := by
  rw [fieldValue] at h
  split at h
  · rename_i s₁ h₁ ha
    obtain ⟨l, rfl⟩ := Items.eq_of_after? ha
    obtain ⟨⟨e', s₂, h₂⟩, he, h⟩ := bind_eq_ok h
    cases h
    exact .fieldValue (ih .assignment (by omega) ⟨_, he⟩)
  · rename_i ha
    cases h
    exact .shorthand ha

theorem derives_functionBody (ih : Follows s.length 0)
    (h : functionBody c s = .ok ⟨e, rest, hlt⟩) :
    Derives c .functionBody s e rest := by
  rw [functionBody] at h
  obtain ⟨⟨_, s₁, h₁⟩, hn, h⟩ := bind_eq_ok h
  dsimp only at h
  obtain ⟨⟨_, s₂, h₂⟩, hm₁, h⟩ := bind_eq_ok h
  dsimp only at h
  obtain ⟨⟨params, s₃, h₃⟩, hp, h⟩ := bind_eq_ok h
  dsimp only at h
  obtain ⟨⟨_, s₄, h₄⟩, hm₂, h⟩ := bind_eq_ok h
  dsimp only at h
  obtain ⟨⟨body, s₅, h₅⟩, hb, h⟩ := bind_eq_ok h
  dsimp only at h
  obtain ⟨l₁, rfl⟩ := Items.eq_of_mark hm₁
  obtain ⟨l₂, rfl⟩ := Items.eq_of_mark hm₂
  cases h
  unfold functionName at hn
  split at hn
  · obtain ⟨⟨name, s₆, h₆⟩, hw, he⟩ := map_eq_ok hn
    obtain ⟨l₃, hs, hr⟩ := Items.eq_of_name hw
    cases hs
    cases he
    exact .namedFunction hr (derives_params hp) (ih .block (by omega) ⟨_, hb⟩)
  · cases hn
    exact .functionBody (derives_params hp) (ih .block (by omega) ⟨_, hb⟩)

theorem derives_primary (ih : Follows s.length 0)
    (h : primary c s = .ok ⟨e, rest, hlt⟩) : Derives c .primary s e rest := by
  obtain ⟨item, s₁, hs, rfl⟩ := cons_of_lt hlt
  rw [primary.eq_def] at h
  cases item with
  | text t line => cases h
  | output e escape line => cases h
  | lexeme l line =>
    cases l with
    | number x =>
      cases h
      exact .number
    | text t =>
      cases h
      exact .string
    | word w =>
      dsimp only at h
      split at h
      · rename_i v hw
        cases h
        exact .constant hw
      · rename_i hw
        cases h
        exact .self hw
      · rename_i hw
        cases h
        exact .ident hw
      · rename_i hw
        obtain ⟨⟨e', s₂, h₂⟩, hf, h⟩ := bind_eq_ok h
        cases h
        exact .function hw (ih .functionBody (by omega) ⟨_, hf⟩)
      · cases h
    | mark p =>
      cases p with
      | openParen =>
        obtain ⟨⟨e', s₂, h₂⟩, he, h⟩ := bind_eq_ok h
        obtain ⟨⟨_, s₃, h₃⟩, hm, h⟩ := bind_eq_ok h
        obtain ⟨l, rfl⟩ := Items.eq_of_mark hm
        cases h
        exact .parens (ih .assignment (by omega) ⟨_, he⟩)
      | openBracket =>
        obtain ⟨⟨items, s₂, h₂⟩, hx, h⟩ := bind_eq_ok h
        cases h
        exact .array (ih (.expressions _) (by omega) ⟨_, hx⟩)
      | openBrace =>
        obtain ⟨⟨fields, s₂, h₂⟩, hf, h⟩ := bind_eq_ok h
        cases h
        exact .object (ih .objectFields (by omega) ⟨_, hf⟩)
      | _ => cases h

/-- Everything that is read follows the grammar. -/
theorem derives_of_reads (r : Rule α) (h : r.Reads c s rest v) : Derives c r s v rest := by
  have ih : Follows s.length r.rank := by
    intro β r' c' s' v' rest' hlt h'
    exact derives_of_reads r' h'
  cases r with
  | statement => exact derives_statement ih h.choose_spec
  | expressionStatement => exact derives_expressionStatement ih h.choose_spec
  | afterKeyword => exact derives_afterKeyword ih h.choose_spec
  | condition => exact derives_condition ih h.choose_spec
  | alternative => exact derives_alternative ih h.choose_spec
  | returned => exact derives_returned ih h.choose_spec
  | block => exact derives_block ih h.choose_spec
  | loopStart => exact derives_loopStart ih h.choose_spec
  | optional => exact derives_optional ih h.choose_spec
  | declarations => exact derives_declarations ih h.choose_spec
  | initial => exact derives_initial ih h.choose_spec
  | assignment => exact derives_assignment ih h.choose_spec
  | conditional => exact derives_conditional ih h.choose_spec
  | binary => exact derives_binary ih h.choose_spec
  | binaryFrom => exact derives_binaryFrom ih h.choose_spec.choose_spec.choose_spec
  | unary => exact derives_unary ih h.choose_spec
  | suffixed => exact derives_suffixed ih h.choose_spec
  | chain => exact derives_chain ih h.choose_spec
  | chainFrom => exact derives_chainFrom ih h.choose_spec.choose_spec.choose_spec
  | expressions => exact derives_expressions ih h.choose_spec
  | objectFields => exact derives_objectFields ih h.choose_spec
  | fieldValue => exact derives_fieldValue ih h.choose_spec
  | params => exact derives_params h.choose_spec
  | functionBody => exact derives_functionBody ih h.choose_spec
  | primary => exact derives_primary ih h.choose_spec
termination_by (s.length, r.rank)
decreasing_by
  rcases hlt with hlt | ⟨he, hlt⟩
  · exact Prod.Lex.left _ _ hlt
  · rw [he]
    exact Prod.Lex.right _ hlt

theorem derivesAll_of_statements (h : statements last s = .ok program) :
    DerivesAll last s program := by
  rw [statements] at h
  split at h
  · rename_i hs
    cases h
    rw [List.isEmpty_iff.mp hs]
    exact .nil
  · split at h
    · cases h
    · rename_i hb
      have hb' : Items.after? .closeBrace s = none := Option.not_isSome_iff_eq_none.mp hb
      obtain ⟨⟨first, s₁, h₁⟩, hf, h⟩ := bind_eq_ok h
      dsimp only at h
      obtain ⟨more, hm, h⟩ := bind_eq_ok h
      cases h
      exact .cons hb' (derives_of_reads .statement ⟨_, hf⟩) (derivesAll_of_statements hm)
termination_by s.length

end Stencil.Script
