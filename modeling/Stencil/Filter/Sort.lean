import Stencil.Value.Compare

/-!
Sorting by insertion: each element goes behind those that are not after it.
-/

namespace Stencil

namespace Insertion

variable {α : Type}

/-- Inserts an element into a sequence that stands last one first. -/
def insertLast (before : α → α → Bool) (x : α) : List α → List α
  | [] => [x]
  | y :: rest => if before x y then y :: insertLast before x rest else x :: y :: rest

/-- The elements in order; those of which neither is before the other stay as they are. -/
def sorted (before : α → α → Bool) (items : List α) : List α :=
  (items.foldl (fun done x => insertLast before x done) []).reverse

end Insertion

namespace Value

/-- The order of two keys: numbers among themselves by value, others by their text. -/
def compareKeys : Value → Value → Ordering
  | number a, number b => (a.compare b).getD .eq
  | a, b => compareTexts a.display b.display

/-- The values in the order of the keys that are taken from them. -/
def sortOn (key : Value → Value) (items : List Value) : List Value :=
  Insertion.sorted (fun a b => compareKeys (key a) (key b) == .lt) items

end Value

end Stencil
