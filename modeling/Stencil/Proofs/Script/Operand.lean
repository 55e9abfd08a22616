import Stencil.Proofs.Script.WellFormed
import Stencil.Proofs.Script.Written

/-!
Written expressions are operands: whatever follows them, they are read as a primary expression. Each
production is followed by one lemma on what is written for it.
-/

namespace Stencil.Script

open Stencil.Text (Read)

set_option autoImplicit true

/-- An expression ends before the mark. -/
def Punct.closes : Punct → Bool
  | closeParen => true
  | closeBracket => true
  | closeBrace => true
  | comma => true
  | semicolon => true
  | colon => true
  | _ => false

/-- An operand ends before the mark, and nothing is assigned to it. -/
def Punct.endsOperand (p : Punct) : Bool :=
  p.closes || p == .question || p.operator?.isSome

theorem Punct.operator?_of_closes (p : Punct) (h : p.closes = true) : p.operator? = none := by
  cases p <;> first | rfl | cases h

theorem Punct.endsOperand_of_closes (p : Punct) (h : p.closes = true) : p.endsOperand = true := by
  rw [Punct.endsOperand, h]
  rfl

theorem Punct.ne_openParen_of_closes (p : Punct) (h : p.closes = true) : p ≠ .openParen := by
  rintro rfl
  cases h

theorem Punct.assignment?_of_endsOperand (p : Punct) (h : p.endsOperand = true) :
    p.assignment? = none := by
  cases p <;> first | rfl | cases h

theorem Operator.endsOperand_mark (op : Operator) : op.mark.endsOperand = true := by
  rw [Punct.endsOperand, op.operator?_mark, Option.isSome_some, Bool.or_true]

theorem Expr.eq_of_names (h : names name e = true) : e = .ident name := by
  cases e with
  | ident n => exact congrArg ident (of_decide_eq_true h)
  | _ => cases h

/-- The lexeme begins an operand without an operator before it. -/
def Lexeme.opensOperand : Lexeme → Bool
  | word w => (keyword? w).isNone && w != "typeof"
  | mark p => p == .openParen
  | _ => true

theorem isReserved_of_keyword? (h : keyword? w = some k) : isReserved w = true := by
  rw [← Bool.not_eq_false]
  intro hw
  unfold keyword? declKind? at h
  repeat' split at h
  all_goals first | (rename_i he; rw [he] at hw; revert hw; decide) | cases h

theorem atom_of_not_reserved (h : isReserved w = false) : atom w = .variable := by
  unfold atom
  repeat' split
  all_goals first | rfl | (rename_i he; rw [he] at h; cases h)

theorem assignHead?_of_reserved (h : isReserved w = true) :
    assignHead? (.word w line :: s) = none := by
  cases s with
  | nil => rfl
  | cons item s =>
    cases item with
    | lexeme l _ =>
      cases l with
      | mark p => exact if_pos h
      | _ => rfl
    | _ => rfl

theorem assignment?_assignMark {p : Punct} (h : p.assignment? = some op) :
    (assignMark op).assignment? = some op := by
  cases p <;> cases h <;> rfl

theorem declKind?_of_keyword? (h : keyword? w = none) : declKind? w = none := by
  unfold keyword? at h
  repeat' split at h
  all_goals first | cases h | exact Option.map_eq_none_iff.mp h

theorem opensOperand_of_not_reserved (h : isReserved w = false) :
    (Lexeme.word w).opensOperand = true := by
  refine Bool.and_eq_true_iff.mpr ⟨?_, ?_⟩
  · cases hk : keyword? w with
    | none => rfl
    | some k =>
      rw [isReserved_of_keyword? hk] at h
      cases h
  · rw [bne_iff_ne]
    rintro rfl
    revert h
    decide

section Heads

variable {l : Lexeme} (h : l.opensOperand = true)

include h

theorem beginsExpression_of_opensOperand : l.beginsExpression = true := by
  cases l with
  | word w => exact (Bool.and_eq_true_iff.mp h).1
  | mark p =>
    cases eq_of_beq h
    rfl
  | _ => rfl

theorem after?_of_opensOperand (hp : p ≠ .openParen) :
    Items.after? p (.lexeme l line :: s) = none := by
  cases l with
  | mark q =>
    cases eq_of_beq h
    exact Items.after?_mark_of_ne hp.symm
  | _ => rfl

theorem declHead?_of_opensOperand : declHead? (.lexeme l line :: s) = none := by
  cases l with
  | word w =>
    have hk : keyword? w = none := Option.isNone_iff_eq_none.mp (Bool.and_eq_true_iff.mp h).1
    rw [declHead?, declKind?_of_keyword? hk]
    rfl
  | _ => rfl

theorem unaryHead?_of_opensOperand : unaryHead? (.lexeme l line :: s) = none := by
  cases l with
  | word w =>
    have hw : w ≠ "typeof" := bne_iff_ne.mp (Bool.and_eq_true_iff.mp h).2
    rw [unaryHead?, if_neg hw]
  | mark q =>
    cases eq_of_beq h
    rfl
  | _ => rfl

theorem stepHead?_of_opensOperand : stepHead? (.lexeme l line :: s) = none := by
  cases l with
  | mark q =>
    cases eq_of_beq h
    rfl
  | _ => rfl

theorem elseHead?_of_opensOperand : elseHead? (.lexeme l line :: s) = none := by
  cases l with
  | word w =>
    rw [elseHead?, if_neg]
    rintro rfl
    revert h
    decide
  | _ => rfl

theorem endsReturn_of_opensOperand : endsReturn (.lexeme l line :: s) = false := by
  cases l with
  | mark q =>
    cases eq_of_beq h
    rfl
  | _ => rfl

end Heads

/-- The items open a chain: there is no operator or assignment at the head. -/
structure OpensChain (s : List Item) : Prop where
  assign : assignHead? s = none
  unary : unaryHead? s = none
  step : stepHead? s = none

section Ends

variable {p : Punct} {l : Nat} {t : List Item}

theorem chainEnd_of_endsOperand (hp : p.endsOperand = true) :
    Derives c (.chainFrom e) (.mark p l :: t) e (.mark p l :: t) := by
  refine .chainEnd (Items.after?_mark_of_ne ?_) (Items.after?_mark_of_ne ?_)
    (Items.after?_mark_of_ne ?_)
  all_goals
    rintro rfl
    cases hp

theorem unary_of_chain (hs : OpensChain s) (h : Derives c .chain s e (.mark p l :: t))
    (hp : p.endsOperand = true) : Derives c .unary s e (.mark p l :: t) := by
  refine .noUnary hs.unary hs.step (.noStep h fun _ _ => ?_)
  cases p <;> first | rfl | cases hp

theorem binary_of_unary (h : Derives c .unary s e (.mark p l :: t)) (hp : p.operator? = none) :
    Derives c (.binary level) s e (.mark p l :: t) := by
  refine .binary h (.noOperator fun r hr => ?_)
  rw [operatorHead?, hp] at hr
  cases hr

theorem assignment_of_binary (ha : assignHead? s = none)
    (h : Derives c (.binary 0) s e (.mark p l :: t)) (hp : p.closes = true) :
    Derives c .assignment s e (.mark p l :: t) := by
  refine .unassigned ha (.noChoice h (Items.after?_mark_of_ne ?_))
  rintro rfl
  cases hp

end Ends

/-- The items that `w` puts in front of a rest are an operand: they are read as `e`, whatever the
rest, and they are a single token or stand in parentheses. -/
structure Operand (line : Nat) (w : List Item → List Item) (e : Expr) : Prop where
  primary : ∀ c rest, Derives c .primary (w rest) e rest
  single : (∃ l : Lexeme, l.opensOperand = true ∧ ∀ rest, w rest = .lexeme l line :: rest) ∨
    ∃ f : List Item → List Item, ∀ rest, w rest = .mark .openParen line :: f rest

namespace Operand

variable {inner body : List Item → List Item}

theorem head (h : Operand line w e) (rest : List Item) :
    ∃ l s, w rest = .lexeme l line :: s ∧ l.opensOperand = true := by
  rcases h.single with ⟨l, hl, hw⟩ | ⟨f, hw⟩
  · exact ⟨l, rest, hw rest, hl⟩
  · exact ⟨.mark .openParen, f rest, hw rest, rfl⟩

theorem assignHead?_eq_none (h : Operand line w e) (hp : p.assignment? = none) :
    assignHead? (w (.mark p l :: s)) = none := by
  rcases h.single with ⟨lexeme, _, hw⟩ | ⟨f, hw⟩
  · rw [hw]
    cases lexeme with
    | word name =>
      rw [assignHead?, hp]
      exact ite_self none
    | _ => rfl
  · rw [hw]
    rfl

theorem loopHead?_eq_none (h : Operand line w e) (p : Punct) :
    loopHead? (w (.mark p l :: s)) = none := by
  rcases h.single with ⟨lexeme, hl, hw⟩ | ⟨f, hw⟩
  · rw [hw, loopHead?, declHead?_of_opensOperand hl]
    cases lexeme <;> rfl
  · rw [hw]
    rfl

theorem opensChain (h : Operand line w e) (hp : p.assignment? = none) :
    OpensChain (w (.mark p l :: s)) := by
  obtain ⟨lexeme, t, hw, hl⟩ := h.head (.mark p l :: s)
  refine ⟨h.assignHead?_eq_none hp, ?_, ?_⟩
  · rw [hw]
    exact unaryHead?_of_opensOperand hl
  · rw [hw]
    exact stepHead?_of_opensOperand hl

theorem unary (h : Operand line w e) (hp : p.endsOperand = true) :
    Derives c .unary (w (.mark p l :: s)) e (.mark p l :: s) :=
  unary_of_chain (h.opensChain (p.assignment?_of_endsOperand hp))
    (.chain (h.primary c _) (chainEnd_of_endsOperand hp)) hp

theorem assignment (h : Operand line w e) (hp : p.closes = true) :
    Derives c .assignment (w (.mark p l :: s)) e (.mark p l :: s) := by
  have he : p.endsOperand = true := p.endsOperand_of_closes hp
  exact assignment_of_binary (h.assignHead?_eq_none (p.assignment?_of_endsOperand he))
    (binary_of_unary (h.unary he) (p.operator?_of_closes hp)) hp

theorem after?_eq_none (h : Operand line w e) (hp : p ≠ .openParen) :
    Items.after? p (w s) = none := by
  obtain ⟨lexeme, t, hw, hl⟩ := h.head s
  rw [hw]
  exact after?_of_opensOperand hl hp

theorem declHead?_eq_none (h : Operand line w e) : declHead? (w s) = none := by
  obtain ⟨lexeme, t, hw, hl⟩ := h.head s
  rw [hw]
  exact declHead?_of_opensOperand hl

theorem given (h : Operand line w e) (hp : p.closes = true) :
    Derives c (.optional p) (w (.mark p l :: s)) (some e) s :=
  .given (h.after?_eq_none (p.ne_openParen_of_closes hp)) (h.assignment hp)

theorem returned (h : Operand line w e) :
    Derives c .returned (w (.mark .semicolon l :: s)) (some e) (.mark .semicolon l :: s) := by
  refine .returned ?_ (h.assignment rfl)
  obtain ⟨lexeme, t, hw, hl⟩ := h.head (.mark .semicolon l :: s)
  rw [hw]
  exact endsReturn_of_opensOperand hl

theorem fieldValue (h : e = .ident name ∨ Operand line w e) (hp : p.closes = true)
    (hc : p ≠ .colon) :
    Derives c (.fieldValue name) (if e.names name then .mark p l :: s
      else .mark .colon line :: w (.mark p l :: s)) e (.mark p l :: s) := by
  by_cases hn : e.names name = true
  · rw [if_pos hn, Expr.eq_of_names hn]
    exact .shorthand (Items.after?_mark_of_ne hc)
  · rw [if_neg hn]
    rcases h with rfl | h
    · exact absurd (decide_eq_true rfl) hn
    · exact .fieldValue (h.assignment hp)

theorem initial (h : Operand line w e) (hp : p.closes = true) :
    Derives c .initial (.mark .set line :: w (.mark p l :: s)) (some e) (.mark p l :: s) :=
  .initial (h.assignment hp)

/-- The expression as a statement with a semicolon. -/
theorem statement (h : Operand line w e) :
    Derives c .statement (w (.mark .semicolon line :: s)) (.expr e line) s := by
  have he : Derives c (.expressionStatement line) (w (.mark .semicolon line :: s)) (.expr e line)
      (Items.skip .semicolon (.mark .semicolon line :: s)).rest :=
    .expressionStatement (h.assignment rfl)
  obtain ⟨lexeme, t, hw, hl⟩ := h.head (.mark .semicolon line :: s)
  rw [Items.skip_mark, hw] at he
  rw [hw]
  exact .expression (beginsExpression_of_opensOperand hl) he

theorem of_token (h : ∀ c rest, Derives c .primary (.lexeme l line :: rest) e rest)
    (hl : l.opensOperand = true) : Operand line (fun rest => .lexeme l line :: rest) e :=
  ⟨h, .inl ⟨l, hl, fun _ => rfl⟩⟩

theorem of_assignment
    (h : ∀ c rest, Derives c .assignment (inner (.mark .closeParen line :: rest)) e
      (.mark .closeParen line :: rest)) : Operand line (parens line inner) e :=
  ⟨fun c rest => .parens (h c rest), .inr ⟨fun rest => inner (.mark .closeParen line :: rest),
    fun _ => rfl⟩⟩

theorem of_unary (ha : ∀ rest, assignHead? (inner rest) = none)
    (h : ∀ c rest, Derives c .unary (inner (.mark .closeParen line :: rest)) e
      (.mark .closeParen line :: rest)) : Operand line (parens line inner) e :=
  of_assignment fun c rest => assignment_of_binary (ha _) (binary_of_unary (h c rest) rfl) rfl

theorem of_chain (ho : ∀ rest, OpensChain (inner rest))
    (h : ∀ c rest, Derives c .chain (inner (.mark .closeParen line :: rest)) e
      (.mark .closeParen line :: rest)) : Operand line (parens line inner) e :=
  of_unary (fun rest => (ho rest).assign) fun c rest => unary_of_chain (ho _) (h c rest) rfl

theorem ident (hn : isReserved name = false) :
    Operand line (fun rest => .word name line :: rest) (.ident name) :=
  of_token (fun _ _ => .ident (atom_of_not_reserved hn)) (opensOperand_of_not_reserved hn)

theorem self : Operand line (fun rest => .word "this" line :: rest) .self :=
  of_token (fun _ _ => .self rfl) rfl

theorem literal (sp : Spelling) (hv : Literal v) :
    Operand line (fun rest => .lexeme (literalLexeme sp v) line :: rest) (.value v) := by
  cases hv with
  | null => exact of_token (fun _ _ => .constant rfl) rfl
  | @bool b => cases b <;> exact of_token (fun _ _ => .constant rfl) rfl
  | string => exact of_token (fun _ _ => .string) rfl
  | @number x n hx =>
    refine of_token (fun c rest => ?_) rfl
    have hn : Derives c .primary (.lexeme (.number (sp.float n)) line :: rest)
        (.value (.ofFloat (sp.float n))) rest := .number
    rw [sp.exact hx] at hn
    exact hn

/-- A primary expression and nothing after it. -/
theorem of_primary (ho : ∀ rest, OpensChain (inner rest))
    (h : ∀ c rest, Derives c .primary (inner rest) e rest) : Operand line (parens line inner) e :=
  of_chain ho fun c _ => .chain (h c _) (chainEnd_of_endsOperand rfl)

theorem array (hx : ∀ c rest, Derives c (.expressions .closeBracket) (inner rest) items rest) :
    Operand line (parens line fun rest => .mark .openBracket line :: inner rest)
      (.array items) :=
  of_primary (fun _ => ⟨rfl, rfl, rfl⟩) fun c rest => .array (hx c rest)

theorem object (hf : ∀ c rest, Derives c .objectFields (inner rest) fields rest) :
    Operand line (parens line fun rest => .mark .openBrace line :: inner rest)
      (.object fields) :=
  of_primary (fun _ => ⟨rfl, rfl, rfl⟩) fun c rest => .object (hf c rest)

theorem function
    (hp : ∀ c rest, Derives c .params (inner rest) params (.mark .openBrace line :: body rest))
    (hb : ∀ (c : Context) rest, Derives c.function .block (body rest) stmts rest) :
    Operand line (parens line fun rest =>
      .word "function" line :: .mark .openParen line :: inner rest) (.function params stmts) :=
  of_primary (fun _ => ⟨rfl, rfl, rfl⟩) fun c rest =>
    .function rfl (.functionBody (hp c rest) (hb c rest))

theorem member (ht : Operand line wt target) (hk : Operand line wk key) :
    Operand line (parens line fun rest =>
      wt (.mark .openBracket line :: wk (.mark .closeBracket line :: rest)))
      (.member target key) := by
  refine of_chain (fun _ => ht.opensChain rfl) fun c rest => ?_
  exact .chain (ht.primary c _) (.index (hk.assignment rfl) (chainEnd_of_endsOperand rfl))

theorem callProperty (ht : Operand line wt target)
    (ha : ∀ c rest, Derives c (.expressions .closeParen) (inner rest) args rest) (name : String) :
    Operand line (parens line fun rest =>
      wt (.mark .dot line :: .word name line :: .mark .openParen line :: inner rest))
      (callOf target name args) := by
  refine of_chain (fun _ => ht.opensChain rfl) fun c rest => ?_
  exact .chain (ht.primary c _) (.callProperty (ha c _) (chainEnd_of_endsOperand rfl))

theorem unaryOp (h : Operand line w e) (op : UnaryOp) :
    Operand line (parens line fun rest => .lexeme op.lexeme line :: w rest) (.unary op e) := by
  refine of_unary (fun rest => ?_) fun c rest => .unary (h.unary rfl)
  cases op with
  | kind => exact assignHead?_of_reserved rfl
  | _ => rfl

theorem binaryOp (hl : Operand line wl left) (hr : Operand line wr right) (op : Operator) :
    Operand line (parens line fun rest => wl (.mark op.mark line :: wr rest))
      (op.apply left right) := by
  refine of_assignment fun c rest => ?_
  have ho : op.mark.assignment? = none :=
    op.mark.assignment?_of_endsOperand op.endsOperand_mark
  have hb : Derives c (.binary 0) (wl (.mark op.mark line :: wr (.mark .closeParen line :: rest)))
      (op.apply left right) (.mark .closeParen line :: rest) :=
    .binary (hl.unary op.endsOperand_mark) (.operator (Nat.not_lt_zero _)
      (binary_of_unary (hr.unary rfl) rfl) (.noOperator nofun))
  exact assignment_of_binary (hl.assignHead?_eq_none ho) hb rfl

theorem conditional (ht : Operand line wt test) (hy : Operand line wy yes)
    (hn : Operand line wn no) :
    Operand line (parens line fun rest =>
      wt (.mark .question line :: wy (.mark .colon line :: wn rest)))
      (.conditional test yes no) := by
  refine of_assignment fun c rest => .unassigned (ht.assignHead?_eq_none rfl) ?_
  exact .choice (binary_of_unary (ht.unary rfl) rfl) (hy.assignment rfl) (hn.assignment rfl)

theorem assign (hn : isReserved name = false) (hp : ∃ p : Punct, p.assignment? = some op)
    (h : Operand line w e) :
    Operand line (parens line fun rest =>
      .word name line :: .mark (assignMark op) line :: w rest) (.assign name op e) := by
  obtain ⟨p, hp⟩ := hp
  exact of_assignment fun c rest => .assign hn (assignment?_assignMark hp) (h.assignment rfl)

theorem updateBefore (hn : isReserved name = false) (up : Bool) :
    Operand line (parens line fun rest => .mark (stepMark up) line :: .word name line :: rest)
      (.update name up true) :=
  of_unary (fun _ => rfl) fun _ _ => .stepBefore hn

theorem updateAfter (hn : isReserved name = false) (up : Bool) :
    Operand line (parens line fun rest => .word name line :: .mark (stepMark up) line :: rest)
      (.update name up false) := by
  have hs : (stepMark up).assignment? = none := by cases up <;> rfl
  refine of_unary (fun _ => (ident hn).assignHead?_eq_none hs) fun c rest => ?_
  refine .noUnary (unaryHead?_of_opensOperand (opensOperand_of_not_reserved hn)) rfl
    (.stepAfter (.chain ((ident hn).primary c _) (.chainEnd ?_ ?_ ?_)))
  all_goals cases up <;> rfl

end Operand

end Stencil.Script
