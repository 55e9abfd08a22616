import Stencil.Proofs.Script.Locality
import Stencil.Proofs.Script.Simulation

/-!
Where statements begin. Every statement of a template, also in the functions inside expressions, is
read from some item on. The main statements are that it begins in a tag (`located_of_build`), and that
this is a tag of the line that it bears (`Stmt.BeginsIn.line`); what a counting loop does first counts
to the loop.
-/

namespace Stencil

open Script
open Stencil.Text (Read)

set_option autoImplicit true

namespace Script

/-- What a counting loop does first. -/
def Stmt.first? : Stmt → Option Stmt
  | loop first _ _ _ _ => first
  | _ => none

/-- A check of single statements. -/
def Checks.ofStmt (P : Stmt → Prop) : Checks := ⟨fun _ => True, P⟩

/-- Everything that a rule gives passes the check, if the statement itself does. -/
def Rule.Every (k : Checks) : Rule α → α → Prop
  | statement, stmt => stmt.Every k
  | expressionStatement _, stmt => k.stmt stmt → stmt.Every k
  | afterKeyword _ _ _, stmt => k.stmt stmt → (∀ first ∈ stmt.first?, k.stmt first) → stmt.Every k
  | condition, e => e.Every k
  | alternative, no => Stmt.OptionEvery k no
  | returned, value => Expr.OptionEvery k value
  | block, body => Stmt.AllEvery k body
  | loopStart _, first => ∀ stmt ∈ first, k.stmt stmt → stmt.Every k
  | optional _, value => Expr.OptionEvery k value
  | declarations, decls => Expr.DeclsEvery k decls
  | initial, value => Expr.OptionEvery k value
  | assignment, e => e.Every k
  | conditional, e => e.Every k
  | binary _, e => e.Every k
  | binaryFrom _ left, e => left.Every k → e.Every k
  | unary, e => e.Every k
  | suffixed, e => e.Every k
  | chain, e => e.Every k
  | chainFrom target, e => target.Every k → e.Every k
  | expressions _, es => Expr.AllEvery k es
  | objectFields, fields => Expr.FieldsEvery k fields
  | fieldValue _, e => e.Every k
  | params, _ => True
  | functionBody, e => e.Every k
  | primary, e => e.Every k

theorem Derives.rest_suffix (h : Derives c r s v rest) : rest <:+ s := by
  obtain ⟨u, rfl, -⟩ := h.ends
  exact List.suffix_append u rest

theorem suffix_tail {item : Item} (h : item :: s <:+ whole) : s <:+ whole :=
  (List.suffix_cons item s).trans h

theorem suffix_of_loopHead? (h : loopHead? s = some r) : r.rest <:+ s := by
  obtain ⟨words, hw, -⟩ := eq_of_loopHead? h
  exact ⟨_, hw.symm⟩

theorem every_callOf {P : Stmt → Prop} (ht : target.Every (.ofStmt P))
    (ha : Expr.AllEvery (.ofStmt P) args) (name : String) :
    (callOf target name args).Every (.ofStmt P) := by
  rcases callOf_cases target name args with hc | hc | hc
  · rw [hc]
    exact ⟨trivial, ha⟩
  · rw [hc]
    exact ⟨trivial, ha⟩
  · rw [hc]
    exact ⟨trivial, ht, ha⟩

theorem every_apply {P : Stmt → Prop} (hl : left.Every (.ofStmt P))
    (hr : right.Every (.ofStmt P)) (op : Operator) : (op.apply left right).Every (.ofStmt P) := by
  cases op <;> exact ⟨trivial, hl, hr⟩

/-- What is read passes a check of statements if every statement does that is read in the same
items. -/
theorem Derives.every {P : Stmt → Prop} (h : Derives c r s v rest) (hs : s <:+ whole)
    (hP : ∀ {c s stmt rest}, s <:+ whole → Derives c .statement s stmt rest →
      P stmt ∧ ∀ first ∈ stmt.first?, P first)
    (ho : ∀ e escape line, .output e escape line ∈ whole → e.Every (.ofStmt P)) :
    r.Every (.ofStmt P) v := by
  induction h with
  | @text c => exact (hP hs (.text (c := c))).1
  | @output c => exact ⟨(hP hs (.output (c := c))).1, ho _ _ _ (hs.subset List.mem_cons_self)⟩
  | braces hb ih => exact ⟨(hP hs (.braces hb)).1, ih (suffix_tail hs)⟩
  | @empty c => exact (hP hs (.empty (c := c))).1
  | keyword hk hb ih =>
    obtain ⟨h₁, h₂⟩ := hP hs (.keyword hk hb)
    exact ih (suffix_tail hs) h₁ h₂
  | expression hl hb ih => exact ih hs (hP hs (.expression hl hb)).1
  | expressionStatement _ ih => exact fun h => ⟨h, ih hs⟩
  | branch ht hy _ iht ihy ihn =>
    have hs₁ := ht.rest_suffix.trans hs
    exact fun h _ => ⟨h, iht hs, ihy hs₁, ihn (hy.rest_suffix.trans hs₁)⟩
  | forOf hl _ hi _ ihi ihb =>
    have hs₁ := (suffix_of_loopHead? hl).trans (suffix_tail hs)
    exact fun h _ => ⟨h, ihi hs₁, ihb (suffix_tail (hi.rest_suffix.trans hs₁))⟩
  | forIn hl _ ht _ iht ihb =>
    have hs₁ := (suffix_of_loopHead? hl).trans (suffix_tail hs)
    exact fun h _ => ⟨h, iht hs₁, ihb (suffix_tail (ht.rest_suffix.trans hs₁))⟩
  | @loop _ _ _ first _ _ _ _ _ _ _ _ _ _ hf ht hu _ ihf iht ihu ihb =>
    have hs₁ := suffix_tail hs
    have hs₂ := hf.rest_suffix.trans hs₁
    have hs₃ := ht.rest_suffix.trans hs₂
    refine fun h hfirst => ⟨h, ?_, iht hs₂, ihu hs₃, ihb (hu.rest_suffix.trans hs₃)⟩
    cases first with
    | none => trivial
    | some first => exact ihf hs₁ first rfl (hfirst first rfl)
  | whileDo ht _ iht ihb => exact fun h _ => ⟨h, iht hs, ihb (ht.rest_suffix.trans hs)⟩
  | declare _ ih => exact fun h _ => ⟨h, ih hs⟩
  | breakLoop => exact fun h _ => h
  | continueLoop => exact fun h _ => h
  | giveBack _ _ ih => exact fun h _ => ⟨h, ih hs⟩
  | condition _ ih => exact ih (suffix_tail hs)
  | otherwise _ ih => exact ih (suffix_tail hs)
  | noAlternative => trivial
  | returned _ _ ih => exact ih hs
  | nothingReturned => trivial
  | blockEnd => trivial
  | blockMore _ hf _ ihf ihm => exact ⟨ihf hs, ihm (hf.rest_suffix.trans hs)⟩
  | noStart => exact nofun
  | declareStart _ _ ih =>
    intro _ hm h
    cases hm
    exact ⟨h, ih (suffix_tail hs)⟩
  | expressionStart _ _ _ ih =>
    intro _ hm h
    cases hm
    exact ⟨h, ih hs⟩
  | omitted => trivial
  | given _ _ ih => exact ih hs
  | lastDeclared _ _ _ ih => exact ⟨ih (suffix_tail hs), trivial⟩
  | declared _ hi _ ihi ihm =>
    have hs₁ := suffix_tail hs
    exact ⟨ihi hs₁, ihm (suffix_tail (hi.rest_suffix.trans hs₁))⟩
  | initial _ ih => exact ih (suffix_tail hs)
  | noInitial => trivial
  | assign _ _ _ ih => exact ⟨trivial, ih (suffix_tail (suffix_tail hs))⟩
  | unassigned _ _ ih => exact ih hs
  | choice ht hy _ iht ihy ihn =>
    have hs₁ := suffix_tail (ht.rest_suffix.trans hs)
    exact ⟨trivial, iht hs, ihy hs₁, ihn (suffix_tail (hy.rest_suffix.trans hs₁))⟩
  | noChoice _ _ ih => exact ih hs
  | binary hl _ ihl ihr => exact ihr (hl.rest_suffix.trans hs) (ihl hs)
  | operator _ hr _ ihr ihm =>
    have hs₁ := suffix_tail hs
    exact fun h => ihm (hr.rest_suffix.trans hs₁) (every_apply h (ihr hs₁) _)
  | noOperator => exact id
  | unary _ ih => exact ⟨trivial, ih (suffix_tail hs)⟩
  | stepBefore => trivial
  | noUnary _ _ _ ih => exact ih hs
  | stepAfter => trivial
  | noStep _ _ ih => exact ih hs
  | chain hp _ ihp ihm => exact ihm (hp.rest_suffix.trans hs) (ihp hs)
  | callProperty ha _ iha ihm =>
    have hs₁ := suffix_tail (suffix_tail (suffix_tail hs))
    exact fun h => ihm (ha.rest_suffix.trans hs₁) (every_callOf h (iha hs₁) _)
  | property _ _ ih =>
    exact fun h => ih (suffix_tail (suffix_tail hs)) ⟨trivial, h, trivial⟩
  | index hk _ ihk ihm =>
    have hs₁ := suffix_tail hs
    exact fun h => ihm (suffix_tail (hk.rest_suffix.trans hs₁)) ⟨trivial, h, ihk hs₁⟩
  | call ha _ iha ihm =>
    have hs₁ := suffix_tail hs
    exact fun _ => ihm (ha.rest_suffix.trans hs₁) ⟨trivial, iha hs₁⟩
  | chainEnd => exact id
  | noExpressions => trivial
  | lastExpression _ _ _ ih => exact ⟨ih hs, trivial⟩
  | expressions _ hf _ ihf ihm => exact ⟨ihf hs, ihm (suffix_tail (hf.rest_suffix.trans hs))⟩
  | noFields => trivial
  | lastField _ _ ih => exact ⟨ih (suffix_tail hs), trivial⟩
  | fields _ hv _ ihv ihm =>
    have hs₁ := suffix_tail hs
    exact ⟨ihv hs₁, ihm (suffix_tail (hv.rest_suffix.trans hs₁))⟩
  | fieldValue _ ih => exact ih (suffix_tail hs)
  | shorthand => trivial
  | noParams => trivial
  | lastParam => trivial
  | params => trivial
  | functionBody hp _ _ ihb =>
    exact ⟨trivial, ihb (suffix_tail (hp.rest_suffix.trans (suffix_tail hs)))⟩
  | namedFunction _ hp _ _ ihb =>
    have hs₁ := suffix_tail (suffix_tail hs)
    exact ⟨trivial, ihb (suffix_tail (hp.rest_suffix.trans hs₁))⟩
  | number => trivial
  | string => trivial
  | constant => trivial
  | self => trivial
  | ident => trivial
  | function _ _ ih => exact ih (suffix_tail hs)
  | parens _ ih => exact ih (suffix_tail hs)
  | array _ ih => exact ⟨trivial, ih (suffix_tail hs)⟩
  | object _ ih => exact ⟨trivial, ih (suffix_tail hs)⟩

theorem DerivesAll.every {P : Stmt → Prop} (h : DerivesAll last s program) (hs : s <:+ whole)
    (hP : ∀ {c s stmt rest}, s <:+ whole → Derives c .statement s stmt rest →
      P stmt ∧ ∀ first ∈ stmt.first?, P first)
    (ho : ∀ e escape line, .output e escape line ∈ whole → e.Every (.ofStmt P)) :
    Stmt.AllEvery (.ofStmt P) program := by
  induction h with
  | nil => trivial
  | cons _ hst _ ih => exact ⟨hst.every hs hP ho, ih (hst.rest_suffix.trans hs)⟩

/-- The line of a statement is that of its first item, and what a counting loop does first bears the
line of the loop. -/
def Rule.Headed : Rule α → α → List Item → Prop
  | statement, stmt, s =>
    (∀ line, stmt.line? = some line → ∃ item s', s = item :: s' ∧ item.line = line ∧
      item.found ≠ .text) ∧ ∀ first ∈ stmt.first?, first.line? = stmt.line?
  | expressionStatement line, stmt, _ => stmt.line? = some line ∧ stmt.first? = none
  | afterKeyword _ _ line, stmt, _ =>
    (∀ n, stmt.line? = some n → n = line) ∧ ∀ first ∈ stmt.first?, first.line? = stmt.line?
  | loopStart line, first, _ => ∀ stmt ∈ first, stmt.line? = some line
  | _, _, _ => True

theorem Derives.headed (h : Derives c r s v rest) : r.Headed v s := by
  induction h with
  | text => exact ⟨nofun, nofun⟩
  | output =>
    exact ⟨fun _ h => ⟨_, _, rfl, Option.some.inj h, nofun⟩, nofun⟩
  | braces => exact ⟨nofun, nofun⟩
  | empty => exact ⟨nofun, nofun⟩
  | keyword _ _ ih => exact ⟨fun n hn => ⟨_, _, rfl, (ih.1 n hn).symm, nofun⟩, ih.2⟩
  | expression _ _ ih =>
    refine ⟨fun n hn => ⟨_, _, rfl, ?_, nofun⟩, fun first hf => ?_⟩
    · exact Option.some.inj (ih.1.symm.trans hn)
    · rw [ih.2] at hf
      cases hf
  | expressionStatement => exact ⟨rfl, rfl⟩
  | branch => exact ⟨fun _ h => (Option.some.inj h).symm, nofun⟩
  | forOf => exact ⟨fun _ h => (Option.some.inj h).symm, nofun⟩
  | forIn => exact ⟨fun _ h => (Option.some.inj h).symm, nofun⟩
  | loop _ _ _ _ _ ihf => exact ⟨fun _ h => (Option.some.inj h).symm, ihf⟩
  | whileDo => exact ⟨fun _ h => (Option.some.inj h).symm, nofun⟩
  | declare => exact ⟨fun _ h => (Option.some.inj h).symm, nofun⟩
  | breakLoop => exact ⟨nofun, nofun⟩
  | continueLoop => exact ⟨nofun, nofun⟩
  | giveBack => exact ⟨nofun, nofun⟩
  | noStart => exact nofun
  | declareStart =>
    intro _ hm
    cases hm
    rfl
  | expressionStart =>
    intro _ hm
    cases hm
    rfl
  | _ => trivial

end Script

/-- The line of the tag that a segment comes from. -/
def Segment.line? : Segment → Option Nat
  | literal _ => none
  | emit _ _ line => some line
  | statement _ line => some line

/-- The items that are read from some place in a tag on. -/
inductive Segment.Reads (segments : List Segment) : Segment → List Item → Prop where
  /-- In a code tag, reading goes on behind it. -/
  | code : segments = before ++ .statement code line :: after →
      lexemes code line = .ok (u ++ item :: v) → Items.ofSegments last after = .ok more →
      Reads segments (.statement code line) (item :: (v ++ more))
  | output : segments = before ++ .emit code escape line :: after →
      Items.ofSegments last (.emit code escape line :: after) = .ok s →
      Reads segments (.emit code escape line) s
  /-- The expression of an output tag is read from its own code. -/
  | inside : .emit code escape line ∈ segments → lexemes code line = .ok (u ++ item :: v) →
      Reads segments (.emit code escape line) (item :: v)

namespace Script

/-- The statement begins in the tag, or the counting loop that it is the start of. -/
def Stmt.BeginsIn (stmt : Stmt) (segments : List Segment) (segment : Segment) : Prop :=
  ∃ c s read rest, segment.Reads segments s ∧ Derives c .statement s read rest ∧
    (stmt = read ∨ read.first? = some stmt)

/-- The statement begins in some tag if it bears a line. -/
def Stmt.Located (segments : List Segment) (stmt : Stmt) : Prop :=
  ∀ line, stmt.line? = some line → ∃ segment, stmt.BeginsIn segments segment

theorem eq_of_lexemes (h : lexemes code line = .ok items) :
    ∃ ls : List Lexeme, items = ls.map fun l => .lexeme l line := by
  unfold lexemes tokenize at h
  cases hc : Lexeme.ofCode code.toList with
  | error fault =>
    rw [hc] at h
    cases h
  | ok ls =>
    rw [hc] at h
    cases h
    exact ⟨ls, List.map_map⟩

theorem line_of_lexemes (h : lexemes code line = .ok items) (hi : item ∈ items) :
    item.line = line := by
  obtain ⟨ls, rfl⟩ := eq_of_lexemes h
  obtain ⟨l, -, rfl⟩ := List.mem_map.mp hi
  rfl

theorem line_of_reads {segment : Segment} (h : segment.Reads segments (item :: s)) :
    segment.line? = some item.line := by
  cases h with
  | code _ hi _ =>
    rw [line_of_lexemes hi (List.mem_append_right _ List.mem_cons_self)]
    rfl
  | output _ hi =>
    obtain ⟨items, h₁, hi⟩ := bind_eq_ok hi
    obtain ⟨more, -, hi⟩ := bind_eq_ok hi
    obtain ⟨e, -, rfl⟩ := map_eq_ok h₁
    cases hi
    rfl
  | inside _ hi =>
    rw [line_of_lexemes hi (List.mem_append_right _ List.mem_cons_self)]
    rfl

/-- A statement that bears a line begins in tags of that line only. -/
theorem Stmt.BeginsIn.line {segment : Segment} (h : BeginsIn stmt segments segment)
    (hl : stmt.line? = some n) : segment.line? = some n := by
  obtain ⟨c, s, read, rest, hr, hd, hread⟩ := h
  obtain ⟨hline, hfirst⟩ := hd.headed
  have hread : read.line? = some n := by
    rcases hread with rfl | hf
    · exact hl
    · rw [← hfirst stmt hf, hl]
  obtain ⟨item, s, rfl, rfl, -⟩ := hline n hread
  exact line_of_reads hr

theorem located_of_reads (h : Derives c .statement (item :: s) stmt rest)
    (hr : item.found ≠ .text → ∃ segment : Segment, segment.Reads segments (item :: s)) :
    stmt.Located segments ∧ ∀ first ∈ stmt.first?, first.Located segments := by
  obtain ⟨hline, hfirst⟩ := h.headed
  have hseg (n : Nat) (hn : stmt.line? = some n) :
      ∃ segment : Segment, segment.Reads segments (item :: s) := by
    obtain ⟨_, _, he, -, ht⟩ := hline n hn
    obtain ⟨rfl, -⟩ := List.cons.inj he
    exact hr ht
  constructor
  · intro n hn
    obtain ⟨segment, hs⟩ := hseg n hn
    exact ⟨segment, c, _, stmt, rest, hs, h, .inl rfl⟩
  · intro first hf n hn
    rw [hfirst first hf] at hn
    obtain ⟨segment, hs⟩ := hseg n hn
    exact ⟨segment, c, _, stmt, rest, hs, h, .inr hf⟩

theorem suffix_append_cases {s t u : List α} (h : u <:+ s ++ t) :
    u <:+ t ∨ ∃ v, v ≠ [] ∧ v <:+ s ∧ u = v ++ t := by
  obtain ⟨w, hw⟩ := h
  rcases List.append_eq_append_iff.mp hw with ⟨v, rfl, rfl⟩ | ⟨v, rfl, rfl⟩
  · by_cases hv : v = []
    · subst hv
      exact .inl (List.suffix_refl t)
    · exact .inr ⟨v, hv, List.suffix_append w v, rfl⟩
  · exact .inl (List.suffix_append v u)

/-- Items other than texts are read from tags. -/
theorem reads_of_suffix {segments before after : List Segment}
    (h : Items.ofSegments last after = .ok items) (hb : segments = before ++ after)
    (hs : item :: s <:+ items) (ht : item.found ≠ .text) :
    ∃ segment : Segment, segment.Reads segments (item :: s) := by
  induction after generalizing before last items with
  | nil =>
    cases h
    exact absurd (List.suffix_nil.mp hs) (List.cons_ne_nil _ _)
  | cons segment after ih =>
    have hall := h
    obtain ⟨items₁, h₁, h⟩ := bind_eq_ok h
    obtain ⟨more, hm, h⟩ := bind_eq_ok h
    cases h
    rcases suffix_append_cases hs with hs | ⟨v, hv, hv₁, he⟩
    · exact ih hm (hb.trans (List.append_cons before segment after)) hs
    · obtain ⟨item, v, rfl⟩ := List.exists_cons_of_ne_nil hv
      obtain ⟨rfl, rfl⟩ := List.cons.inj he
      cases segment with
      | literal t =>
        cases h₁
        obtain rfl := List.mem_singleton.mp (hv₁.subset List.mem_cons_self)
        exact absurd rfl ht
      | emit code escape line =>
        obtain ⟨e, -, rfl⟩ := map_eq_ok h₁
        cases hv₁.eq_of_length_le (Nat.succ_le_succ (Nat.zero_le v.length))
        exact ⟨_, .output hb hall⟩
      | statement code line =>
        obtain ⟨u, rfl⟩ := hv₁
        exact ⟨_, .code hb h₁ hm⟩

/-- The statements in the functions of an output tag begin in it. -/
theorem located_of_parseExpression (h : parseExpression code line = .ok e)
    (hm : .emit code escape line ∈ segments) : e.Every (.ofStmt (Stmt.Located segments)) := by
  rcases derives_of_parseExpression h with ⟨-, rfl⟩ | ⟨items, hi, hd⟩
  · trivial
  · refine hd.every (List.suffix_refl items) (fun {c s stmt rest} hs hst => ?_) ?_
    · obtain ⟨item, s, rfl⟩ := List.exists_cons_of_ne_nil (ne_nil_of_statement hst)
      obtain ⟨u, rfl⟩ := hs
      exact located_of_reads hst fun _ => ⟨.emit code escape line, .inside hm hi⟩
    · intro e escape n ho
      obtain ⟨ls, rfl⟩ := eq_of_lexemes hi
      obtain ⟨l, -, hl⟩ := List.mem_map.mp ho
      cases hl

theorem parseExpression_of_output (h : Items.ofSegments last segments = .ok items)
    (ho : .output e escape line ∈ items) :
    ∃ code, .emit code escape line ∈ segments ∧ parseExpression code line = .ok e := by
  induction segments generalizing last items with
  | nil =>
    cases h
    cases ho
  | cons segment segments ih =>
    obtain ⟨items₁, h₁, h⟩ := bind_eq_ok h
    obtain ⟨more, hm, h⟩ := bind_eq_ok h
    cases h
    rcases List.mem_append.mp ho with ho | ho
    · cases segment with
      | literal t =>
        cases h₁
        cases List.mem_singleton.mp ho
      | emit code escape' line' =>
        obtain ⟨e', he, rfl⟩ := map_eq_ok h₁
        cases List.mem_singleton.mp ho
        exact ⟨code, List.mem_cons_self, he⟩
      | statement code line =>
        obtain ⟨ls, rfl⟩ := eq_of_lexemes h₁
        obtain ⟨l, -, hl⟩ := List.mem_map.mp ho
        cases hl
    · obtain ⟨code, hc, he⟩ := ih hm ho
      exact ⟨code, List.mem_cons_of_mem segment hc, he⟩

/-- Every statement of a template that bears a line begins in a tag. -/
theorem located_of_build (h : build segments = .ok program) :
    Stmt.AllEvery (.ofStmt (Stmt.Located segments)) program := by
  obtain ⟨items, hi, h⟩ := bind_eq_ok h
  have hd := derivesAll_of_statements h
  have ho : ∀ e escape line, .output e escape line ∈ items →
      e.Every (.ofStmt (Stmt.Located segments)) := by
    intro e escape line ho
    obtain ⟨code, hm, he⟩ := parseExpression_of_output hi ho
    exact located_of_parseExpression he hm
  refine hd.every (List.suffix_refl items) (fun {c s stmt rest} hs hst => ?_) ho
  obtain ⟨item, s, rfl⟩ := List.exists_cons_of_ne_nil (ne_nil_of_statement hst)
  exact located_of_reads hst (reads_of_suffix hi (List.nil_append segments).symm hs)

end Script

end Stencil
