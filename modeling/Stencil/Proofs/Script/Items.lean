import Stencil.Script.Parser

/-!
What the head of a sequence of items is when one of its readers accepts it, and that the readers
accept these heads.
-/

namespace Stencil.Script

open Stencil.Text (Read)

set_option autoImplicit true

namespace Item

@[match_pattern] abbrev mark (p : Punct) (line : Nat) : Item := .lexeme (.mark p) line

@[match_pattern] abbrev word (w : String) (line : Nat) : Item := .lexeme (.word w) line

end Item

/-- The mark of an operator between two operands. -/
def Operator.mark : Operator → Punct
  | binary .add => .plus
  | binary .sub => .minus
  | binary .mul => .times
  | binary .div => .divided
  | binary .rem => .modulo
  | binary .equal => .equal
  | binary .notEqual => .notEqual
  | binary .identical => .identical
  | binary .notIdentical => .notIdentical
  | binary .less => .less
  | binary .atMost => .atMost
  | binary .greater => .greater
  | binary .atLeast => .atLeast
  | logical true => .both
  | logical false => .either

@[simp] theorem Operator.operator?_mark (op : Operator) : op.mark.operator? = some op := by
  cases op with
  | binary op => cases op <;> rfl
  | logical onTrue => cases onTrue <;> rfl

theorem Operator.mark_of_operator? {p : Punct} {op : Operator} (h : p.operator? = some op) :
    p = op.mark := by
  unfold Punct.operator? at h
  split at h <;> cases h <;> rfl

/-- The lexeme of an operator before its operand. -/
def UnaryOp.lexeme : UnaryOp → Lexeme
  | not => .mark .bang
  | negate => .mark .minus
  | plus => .mark .plus
  | kind => .word "typeof"

/-- The mark of a change by one. -/
def stepMark (up : Bool) : Punct := if up then .increment else .decrement

/-- A lexeme that a field of an object may have as its key, and the name it gives. -/
def Lexeme.fieldName? : Lexeme → Option String
  | word w => some w
  | text t => some t
  | number x => some (Number.floatText x)
  | mark _ => none

/-- A statement that begins with the lexeme is an expression. -/
def Lexeme.beginsExpression : Lexeme → Bool
  | word w => (keyword? w).isNone
  | mark .openBrace => false
  | mark .semicolon => false
  | _ => true

theorem Lexeme.eq_of_not_beginsExpression (l : Lexeme) (h : ¬l.beginsExpression = true) :
    (∃ w k, l = .word w ∧ keyword? w = some k) ∨ l = .mark .openBrace ∨ l = .mark .semicolon := by
  unfold beginsExpression at h
  split at h
  · rename_i w
    cases hk : keyword? w with
    | none => exact absurd (by rw [hk]; rfl) h
    | some k => exact .inl ⟨w, k, rfl, hk⟩
  · exact .inr (.inl rfl)
  · exact .inr (.inr rfl)
  · exact absurd rfl h

theorem bind_eq_ok {x : Except ε α} {f : α → Except ε β} (h : x >>= f = .ok b) :
    ∃ a, x = .ok a ∧ f a = .ok b := by
  cases x with
  | error e => cases h
  | ok a => exact ⟨a, rfl, h⟩

theorem map_eq_ok {x : Except ε α} {f : α → β} (h : x.map f = .ok b) :
    ∃ a, x = .ok a ∧ f a = b := by
  cases x with
  | error e => cases h
  | ok a => exact ⟨a, rfl, Except.ok.inj h⟩

namespace Items

theorem after?_mark (p : Punct) (line : Nat) (s : List Item) :
    after? p (.mark p line :: s) = some ⟨(), s, Nat.lt_succ_self _⟩ := if_pos rfl

theorem eq_of_after? (h : after? p s = some ⟨u, rest, hlt⟩) : ∃ line, s = .mark p line :: rest := by
  unfold after? at h
  split at h
  · rename_i q line rest'
    split at h
    · rename_i hq
      cases h
      exact ⟨line, by rw [hq]⟩
    · cases h
  · cases h

theorem eq_of_mark (h : mark last p s = .ok ⟨u, rest, hlt⟩) : ∃ line, s = .mark p line :: rest := by
  unfold mark at h
  split at h
  · rename_i r ha
    cases h
    exact eq_of_after? ha
  · cases h

theorem eq_of_name (h : name last s = .ok ⟨w, rest, hlt⟩) :
    ∃ line, s = .word w line :: rest ∧ isReserved w = false := by
  unfold name at h
  split at h
  · rename_i w' line rest'
    split at h
    · cases h
    · rename_i hw
      cases h
      exact ⟨line, rfl, by simpa only [Bool.not_eq_true] using hw⟩
  · cases h

theorem eq_of_propertyName (h : propertyName last s = .ok ⟨w, rest, hlt⟩) :
    ∃ line, s = .word w line :: rest := by
  unfold propertyName at h
  split at h
  · rename_i w' line rest'
    cases h
    exact ⟨line, rfl⟩
  · cases h

theorem eq_of_fieldName (h : fieldName last s = .ok ⟨w, rest, hlt⟩) :
    ∃ key line, s = .lexeme key line :: rest ∧ key.fieldName? = some w := by
  unfold fieldName at h
  split at h
  · rename_i w' line rest'
    cases h
    exact ⟨.word w, line, rfl, rfl⟩
  · rename_i t line rest'
    cases h
    exact ⟨.text w, line, rfl, rfl⟩
  · rename_i x line rest'
    cases h
    exact ⟨.number x, line, rfl, rfl⟩
  · cases h

theorem skip_mark (p : Punct) (line : Nat) (s : List Item) :
    (skip p (.mark p line :: s)).rest = s := by
  unfold skip
  rw [after?_mark]
  rfl

theorem mark_cons (last : Nat) (p : Punct) (line : Nat) (s : List Item) :
    mark last p (.mark p line :: s) = .ok ⟨(), s, Nat.lt_succ_self _⟩ := by
  rw [mark, after?_mark]

theorem after?_mark_of_ne (h : q ≠ p) : after? p (.mark q l :: s) = none := if_neg h

theorem after?_word (p : Punct) (w : String) (line : Nat) (s : List Item) :
    after? p (.word w line :: s) = none := rfl

theorem after?_key (h : key.fieldName? = some w) : after? p (.lexeme key l :: s) = none := by
  cases key with
  | mark q => cases h
  | _ => rfl

theorem name_cons (h : isReserved w = false) :
    name last (.word w l :: s) = .ok ⟨w, s, Nat.lt_succ_self _⟩ := by
  simp only [name, h, Bool.false_eq_true, if_false]

theorem fieldName_cons (h : key.fieldName? = some w) :
    fieldName last (.lexeme key l :: s) = .ok ⟨w, s, Nat.lt_succ_self _⟩ := by
  cases key with
  | mark p => cases h
  | _ =>
    cases h
    rfl

end Items

theorem eq_of_declHead? (h : declHead? s = some ⟨kind, rest, hlt⟩) :
    ∃ w line, s = .word w line :: rest ∧ declKind? w = some kind := by
  unfold declHead? at h
  split at h
  · rename_i w line rest'
    obtain ⟨kind', hk, he⟩ := Option.map_eq_some_iff.mp h
    cases he
    exact ⟨w, line, rfl, hk⟩
  · cases h

theorem eq_of_eachHead? (h : eachHead? s = some ⟨(name, elements), rest, hlt⟩) :
    ∃ line₁ w line₂, s = .word name line₁ :: .word w line₂ :: rest ∧
      isReserved name = false := by
  unfold eachHead? at h
  split at h
  · rename_i name' line₁ w line₂ rest'
    split at h
    · cases h
    · rename_i hn
      have hn' : isReserved name' = false := by simpa only [Bool.not_eq_true] using hn
      split at h
      · cases h
        exact ⟨line₁, w, line₂, rfl, hn'⟩
      · split at h
        · cases h
          exact ⟨line₁, w, line₂, rfl, hn'⟩
        · cases h
  · cases h

theorem eq_of_loopHead? (h : loopHead? s = some r) :
    ∃ words : List (String × Nat), s = words.map (fun p => .word p.1 p.2) ++ r.rest ∧
      isReserved r.value.1 = false := by
  unfold loopHead? at h
  split at h
  · rename_i kind s₁ hlt₁ hd
    obtain ⟨⟨⟨name, elements⟩, rest, hlt⟩, he, hr⟩ := Option.map_eq_some_iff.mp h
    obtain ⟨w₁, line₁, rfl, hk⟩ := eq_of_declHead? hd
    obtain ⟨line₂, w₃, line₃, rfl, hn⟩ := eq_of_eachHead? he
    cases hr
    exact ⟨[(w₁, line₁), (name, line₂), (w₃, line₃)], rfl, hn⟩
  · obtain ⟨⟨name, elements⟩, rest, hlt⟩ := r
    obtain ⟨line₁, w, line₂, rfl, hn⟩ := eq_of_eachHead? h
    exact ⟨[(name, line₁), (w, line₂)], rfl, hn⟩

theorem eq_of_elseHead? (h : elseHead? s = some ⟨u, rest, hlt⟩) :
    ∃ line, s = .word "else" line :: rest := by
  unfold elseHead? at h
  split at h
  · rename_i w line rest'
    split at h
    · rename_i hw
      cases h
      exact ⟨line, by rw [hw]⟩
    · cases h
  · cases h

theorem eq_of_assignHead? (h : assignHead? s = some ⟨(name, op), rest, hlt⟩) :
    ∃ line₁ p line₂, s = .word name line₁ :: .mark p line₂ :: rest ∧
      isReserved name = false ∧ p.assignment? = some op := by
  unfold assignHead? at h
  split at h
  · rename_i w line₁ p line₂ rest'
    split at h
    · cases h
    · rename_i hw
      obtain ⟨op', hp, he⟩ := Option.map_eq_some_iff.mp h
      cases he
      exact ⟨line₁, p, line₂, rfl, by simpa only [Bool.not_eq_true] using hw, hp⟩
  · cases h

theorem eq_of_operatorHead? (h : operatorHead? s = some ⟨op, rest, hlt⟩) :
    ∃ line, s = .mark op.mark line :: rest := by
  unfold operatorHead? at h
  split at h
  · rename_i p line rest'
    obtain ⟨op', hp, he⟩ := Option.map_eq_some_iff.mp h
    cases he
    cases Operator.mark_of_operator? hp
    exact ⟨line, rfl⟩
  · cases h

theorem eq_of_unaryHead? (h : unaryHead? s = some ⟨op, rest, hlt⟩) :
    ∃ line, s = .lexeme op.lexeme line :: rest := by
  unfold unaryHead? at h
  split at h
  · rename_i line rest'
    cases h
    exact ⟨line, rfl⟩
  · rename_i line rest'
    cases h
    exact ⟨line, rfl⟩
  · rename_i line rest'
    cases h
    exact ⟨line, rfl⟩
  · rename_i w line rest'
    split at h
    · rename_i hw
      cases h
      exact ⟨line, by rw [hw]; rfl⟩
    · cases h
  · cases h

theorem eq_of_stepHead? (h : stepHead? s = some ⟨up, rest, hlt⟩) :
    ∃ line, s = .mark (stepMark up) line :: rest := by
  unfold stepHead? at h
  split at h
  · rename_i line rest'
    cases h
    exact ⟨line, rfl⟩
  · rename_i line rest'
    cases h
    exact ⟨line, rfl⟩
  · cases h

theorem declHead?_cons (h : declKind? w = some kind) :
    declHead? (.word w line :: s) = some ⟨kind, s, Nat.lt_succ_self _⟩ := by
  rw [declHead?, h]
  rfl

theorem elseHead?_cons (line : Nat) (s : List Item) :
    elseHead? (.word "else" line :: s) = some ⟨(), s, Nat.lt_succ_self _⟩ := rfl

theorem assignHead?_cons (hw : isReserved w = false) (hp : p.assignment? = some op) :
    assignHead? (.word w l₁ :: .mark p l₂ :: s) =
      some ⟨(w, op), s, Nat.lt_succ_of_lt (Nat.lt_succ_self _)⟩ := by
  simp only [assignHead?, hw, hp, Bool.false_eq_true, if_false]
  rfl

theorem operatorHead?_cons (op : Operator) (line : Nat) (s : List Item) :
    operatorHead? (.mark op.mark line :: s) = some ⟨op, s, Nat.lt_succ_self _⟩ := by
  rw [operatorHead?, op.operator?_mark]
  rfl

theorem unaryHead?_cons (op : UnaryOp) (line : Nat) (s : List Item) :
    unaryHead? (.lexeme op.lexeme line :: s) = some ⟨op, s, Nat.lt_succ_self _⟩ := by
  cases op <;> rfl

theorem unaryHead?_stepMark (up : Bool) (line : Nat) (s : List Item) :
    unaryHead? (.mark (stepMark up) line :: s) = none := by
  cases up <;> rfl

theorem stepHead?_cons (up : Bool) (line : Nat) (s : List Item) :
    stepHead? (.mark (stepMark up) line :: s) = some ⟨up, s, Nat.lt_succ_self _⟩ := by
  cases up <;> rfl

end Stencil.Script
