import Stencil.Script.Tree
import Stencil.Script.Fault
import Stencil.Text.Read

/-!
What the statements of a template are read from: the tokens of all code tags in one sequence, with the
texts and the output tags at their places in between.
-/

namespace Stencil.Script

open Stencil.Text (Read)

inductive Item where
  | lexeme (l : Lexeme) (line : Nat)
  /-- Text, with the line of the last tag before it. -/
  | text (s : String) (line : Nat)
  | output (value : Expr) (escape : Bool) (line : Nat)

namespace Item

def line : Item → Nat
  | lexeme _ line => line
  | text _ line => line
  | output _ _ line => line

def found : Item → Found
  | lexeme l _ => .lexeme l
  | text _ _ => .text
  | output _ _ _ => .output

def ofToken (t : Token) : Item := .lexeme t.lexeme t.line

end Item

/-- What a parser returns: a value with a rest shorter than `n`, or an error. -/
abbrev Parsed (α : Type) (n : Nat) := Except SyntaxError (Read Item α n)

namespace Items

/-- The line at which a sequence stands; at its end, the line of the last tag. -/
def line (last : Nat) : List Item → Nat
  | [] => last
  | item :: _ => item.line

def found : List Item → Found
  | [] => .ending
  | item :: _ => item.found

variable {α : Type}

def fail (last : Nat) (s : List Item) (fault : Fault) : Except SyntaxError α :=
  .error ⟨line last s, fault⟩

def unexpected (last : Nat) (s : List Item) : Except SyntaxError α :=
  fail last s (.unexpected (found s))

def expected (last : Nat) (wanted : Wanted) (s : List Item) : Except SyntaxError α :=
  fail last s (.expected wanted (found s))

/-- What follows the mark at the head, if it stands there. -/
def after? (p : Punct) (s : List Item) : Option (Read Item Unit s.length) :=
  match s with
  | .lexeme (.mark q) _ :: rest => if q = p then some ⟨(), rest, Text.length_lt_succ _⟩ else none
  | _ => none

/-- The mark at the head. -/
def mark (last : Nat) (p : Punct) (s : List Item) : Parsed Unit s.length :=
  match after? p s with
  | some r => .ok r
  | none => expected last (.mark p) s

/-- The mark at the head, which may be left out. -/
def skip (p : Punct) (s : List Item) : Read Item Unit (s.length + 1) :=
  match after? p s with
  | some r => r.weaken (Nat.le_succ _)
  | none => ⟨(), s, Text.length_lt_succ _⟩

/-- The name of a variable at the head. -/
def name (last : Nat) (s : List Item) : Parsed String s.length :=
  match s with
  | .lexeme (.word w) line :: rest =>
    if isReserved w then expected last .name (.lexeme (.word w) line :: rest)
    else .ok ⟨w, rest, Text.length_lt_succ _⟩
  | s => expected last .name s

/-- The name of a property at the head; keywords are such names too. -/
def propertyName (last : Nat) (s : List Item) : Parsed String s.length :=
  match s with
  | .lexeme (.word w) _ :: rest => .ok ⟨w, rest, Text.length_lt_succ _⟩
  | s => expected last .name s

/-- The key of an object field: a word, a text or a number. -/
def fieldName (last : Nat) (s : List Item) : Parsed String s.length :=
  match s with
  | .lexeme (.word w) _ :: rest => .ok ⟨w, rest, Text.length_lt_succ _⟩
  | .lexeme (.text t) _ :: rest => .ok ⟨t, rest, Text.length_lt_succ _⟩
  | .lexeme (.number x) _ :: rest => .ok ⟨Number.floatText x, rest, Text.length_lt_succ _⟩
  | s => expected last .fieldName s

/-- The parameters of a function up to the closing parenthesis. -/
def params (last : Nat) (s : List Item) : Parsed (List String) s.length :=
  match after? .closeParen s with
  | some r => .ok (r.map fun _ => [])
  | none => do
    let ⟨first, s₁, h₁⟩ ← name last s
    match after? .comma s₁ with
    | some ⟨_, s₂, h₂⟩ =>
      let ⟨more, s₃, h₃⟩ ← params last s₂
      pure ⟨first :: more, s₃, Nat.lt_trans h₃ (Nat.lt_trans h₂ h₁)⟩
    | none =>
      let ⟨_, s₂, h₂⟩ ← mark last .closeParen s₁
      pure ⟨[first], s₂, Nat.lt_trans h₂ h₁⟩
termination_by s.length
decreasing_by exact Nat.lt_trans h₂ h₁

end Items

end Stencil.Script
