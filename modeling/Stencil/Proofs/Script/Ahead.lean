import Stencil.Proofs.Script.Items

/-!
A reader of the head of the items is a test of one or two lexemes. `Items.head?` and `Items.pair?` take
the lexemes that pass a test, and each reader of a head is one of these.
-/

namespace Stencil.Script

open Stencil.Text (Read)

set_option autoImplicit true

namespace Lexeme

/-- The mark itself. -/
def only? (m : Punct) : Lexeme → Option Unit
  | mark q => if q = m then some () else none
  | _ => none

def word? : Lexeme → Option String
  | word w => some w
  | _ => none

def name? : Lexeme → Option String
  | word w => if isReserved w then none else some w
  | _ => none

def declKind? : Lexeme → Option DeclKind
  | word w => Script.declKind? w
  | _ => none

def else? : Lexeme → Option Unit
  | word w => if w = "else" then some () else none
  | _ => none

def operator? : Lexeme → Option Operator
  | mark m => m.operator?
  | _ => none

def unary? : Lexeme → Option UnaryOp
  | mark .bang => some .not
  | mark .minus => some .negate
  | mark .plus => some .plus
  | word w => if w = "typeof" then some .kind else none
  | _ => none

/-- A change by one: up or down. -/
def step? : Lexeme → Option Bool
  | mark .increment => some true
  | mark .decrement => some false
  | _ => none

/-- A variable and the assignment to it. -/
def assign? : Lexeme → Lexeme → Option (String × Option BinaryOp)
  | word w, mark m => if isReserved w then none else m.assignment?.map fun op => (w, op)
  | _, _ => none

/-- A name and the word behind it that makes a loop over elements or over keys. -/
def each? : Lexeme → Lexeme → Option (String × Bool)
  | word name, word w =>
    if isReserved name then none
    else if w = "of" then some (name, true)
    else if w = "in" then some (name, false)
    else none
  | _, _ => none

end Lexeme

namespace Items

/-- What the lexeme at the head stands for, and what follows it. -/
def head? (f : Lexeme → Option α) (s : List Item) : Option (Read Item α s.length) :=
  match s with
  | .lexeme l _ :: rest =>
    (f l).map fun v => ⟨v, rest, by simp only [List.length_cons]; omega⟩
  | _ => none

/-- What two lexemes at the head stand for together, and what follows them. -/
def pair? (f : Lexeme → Lexeme → Option α) (s : List Item) : Option (Read Item α s.length) :=
  match s with
  | .lexeme l _ :: .lexeme l' _ :: rest =>
    (f l l').map fun v => ⟨v, rest, by simp only [List.length_cons]; omega⟩
  | _ => none

/-- The same as `head?`, where nothing else may stand. -/
def require (last : Nat) (f : Lexeme → Option α) (wanted : Wanted) (s : List Item) :
    Parsed α s.length :=
  match head? f s with
  | some r => .ok r
  | none => expected last wanted s

theorem eq_of_head? {f : Lexeme → Option α} (h : head? f s = some ⟨v, rest, hlt⟩) :
    ∃ l line, s = .lexeme l line :: rest ∧ f l = some v := by
  unfold head? at h
  split at h
  · rename_i l line rest'
    obtain ⟨v', hv, he⟩ := Option.map_eq_some_iff.mp h
    cases he
    exact ⟨l, line, rfl, hv⟩
  · cases h

theorem after?_eq_head? (m : Punct) : ∀ s, after? m s = head? (Lexeme.only? m) s
  | .mark q _ :: rest => by
    change (if q = m then _ else _) = (if q = m then _ else _ : Option Unit).map _
    split <;> rfl
  | .lexeme (.word _) _ :: _ | .lexeme (.number _) _ :: _ | .lexeme (.text _) _ :: _ => rfl
  | [] | .text .. :: _ | .output .. :: _ => rfl

theorem mark_eq_require (last : Nat) (m : Punct) (s : List Item) :
    mark last m s = require last (Lexeme.only? m) (.mark m) s := by
  unfold mark require
  rw [after?_eq_head?]
  cases head? (Lexeme.only? m) s <;> rfl

theorem name_eq_require (last : Nat) :
    ∀ s, name last s = require last Lexeme.name? .name s
  | .word w _ :: rest => by
    unfold name require head? Lexeme.name?
    dsimp only
    split <;> rfl
  | .lexeme (.mark _) _ :: _ | .lexeme (.number _) _ :: _ | .lexeme (.text _) _ :: _ => rfl
  | [] | .text .. :: _ | .output .. :: _ => rfl

theorem propertyName_eq_require (last : Nat) :
    ∀ s, propertyName last s = require last Lexeme.word? .name s
  | .lexeme l _ :: _ => by cases l <;> rfl
  | [] | .text .. :: _ | .output .. :: _ => rfl

theorem fieldName_eq_require (last : Nat) :
    ∀ s, fieldName last s = require last Lexeme.fieldName? .fieldName s
  | .lexeme l _ :: _ => by cases l <;> rfl
  | [] | .text .. :: _ | .output .. :: _ => rfl

end Items

theorem declHead?_eq_head? : ∀ s, declHead? s = Items.head? Lexeme.declKind? s
  | .lexeme l _ :: _ => by cases l <;> rfl
  | [] | .text .. :: _ | .output .. :: _ => rfl

theorem elseHead?_eq_head? : ∀ s, elseHead? s = Items.head? Lexeme.else? s
  | .word w _ :: rest => by
    change (if w = "else" then _ else _) = (if w = "else" then _ else _ : Option Unit).map _
    split <;> rfl
  | .lexeme (.mark _) _ :: _ | .lexeme (.number _) _ :: _ | .lexeme (.text _) _ :: _ => rfl
  | [] | .text .. :: _ | .output .. :: _ => rfl

theorem operatorHead?_eq_head? : ∀ s, operatorHead? s = Items.head? Lexeme.operator? s
  | .lexeme l _ :: _ => by cases l <;> rfl
  | [] | .text .. :: _ | .output .. :: _ => rfl

theorem unaryHead?_eq_head? : ∀ s, unaryHead? s = Items.head? Lexeme.unary? s
  | .mark m _ :: _ => by cases m <;> rfl
  | .word w _ :: rest => by
    change (if w = "typeof" then _ else _) = (if w = "typeof" then _ else _ : Option UnaryOp).map _
    split <;> rfl
  | .lexeme (.number _) _ :: _ | .lexeme (.text _) _ :: _ => rfl
  | [] | .text .. :: _ | .output .. :: _ => rfl

theorem stepHead?_eq_head? : ∀ s, stepHead? s = Items.head? Lexeme.step? s
  | .mark m _ :: _ => by cases m <;> rfl
  | .lexeme (.word _) _ :: _ | .lexeme (.number _) _ :: _ | .lexeme (.text _) _ :: _ => rfl
  | [] | .text .. :: _ | .output .. :: _ => rfl

theorem assignHead?_eq_pair? (s : List Item) : assignHead? s = Items.pair? Lexeme.assign? s := by
  unfold assignHead? Items.pair?
  split
  · rename_i w _ m _ _
    unfold Lexeme.assign?
    dsimp only
    split
    · rfl
    · cases m.assignment? <;> rfl
  · rename_i hno
    split
    · unfold Lexeme.assign?
      split
      · exact absurd rfl (hno _ _ _ _ _)
      · rfl
    · rfl

theorem eachHead?_eq_pair? (s : List Item) : eachHead? s = Items.pair? Lexeme.each? s := by
  unfold eachHead? Items.pair?
  split
  · unfold Lexeme.each?
    dsimp only
    split
    · rfl
    · split
      · rfl
      · split <;> rfl
  · rename_i hno
    split
    · unfold Lexeme.each?
      split
      · exact absurd rfl (hno _ _ _ _ _)
      · rfl
    · rfl

theorem functionName_of_none (h : Items.head? Lexeme.word? s = none) (last : Nat) :
    functionName last s = .ok ⟨(), s, Nat.lt_succ_self _⟩ := by
  cases s with
  | nil => rfl
  | cons item s =>
    cases item with
    | lexeme l line =>
      cases l with
      | word w => cases h
      | _ => rfl
    | _ => rfl

theorem functionName_of_some (h : Items.head? Lexeme.word? s = some r) (last : Nat) :
    functionName last s =
      Items.name last s >>= fun v => .ok ⟨(), v.rest, Nat.lt_succ_of_lt v.shorter⟩ := by
  obtain ⟨v, rest, hlt⟩ := r
  obtain ⟨l, line, rfl, hl⟩ := Items.eq_of_head? h
  cases l with
  | word w =>
    rw [functionName]
    cases Items.name last (.lexeme (.word w) line :: rest) <;> rfl
  | _ => cases hl

end Stencil.Script
