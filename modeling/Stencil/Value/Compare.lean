import Stencil.Value

/-!
Equality and order of values, and the sum that joins texts.
-/

namespace Stencil.Value

mutual

/-- Equality of the data; a whole number and a float are never the same data. -/
def equal : Value → Value → Bool
  | null, null => true
  | bool a, bool b => a == b
  | number (.int i), number (.int j) => i == j
  | number (.float x), number (.float y) => x == y
  | string s, string t => s == t
  | array xs, array ys => equalAll xs ys
  | object xs, object ys => equalFields xs ys
  | _, _ => false

def equalAll : List Value → List Value → Bool
  | [], [] => true
  | x :: xs, y :: ys => equal x y && equalAll xs ys
  | _, _ => false

def equalFields : List (String × Value) → List (String × Value) → Bool
  | [], [] => true
  | (n, x) :: xs, (m, y) :: ys => n == m && equal x y && equalFields xs ys
  | _, _ => false

end

/-- Strict equality: numbers by value, everything else by its data. -/
def strictEq : Value → Value → Bool
  | number a, number b => a.same b
  | a, b => a.equal b

/-- Numbers, truth values and texts are compared as numbers unless both are texts. -/
def isScalar : Value → Bool
  | bool _ => true
  | number _ => true
  | string _ => true
  | _ => false

def looseEq : Value → Value → Bool
  | null, null => true
  | null, _ => false
  | _, null => false
  | string s, string t => s == t
  | a, b => if a.isScalar && b.isScalar then a.toNumber.same b.toNumber else a.strictEq b

/-- The order of two texts by their characters. -/
def compareTexts (s t : String) : Ordering :=
  if s < t then .lt else if s = t then .eq else .gt

/-- The order of two values: texts among themselves by their characters, all else as numbers. -/
def compare : Value → Value → Option Ordering
  | string s, string t => some (compareTexts s t)
  | a, b => a.toNumber.compare b.toNumber

/-- Texts, arrays and objects are joined as texts. -/
def joins : Value → Bool
  | string _ => true
  | array _ => true
  | object _ => true
  | _ => false

def add (a b : Value) : Value :=
  if a.joins || b.joins then .string (a.display ++ b.display) else ofFloat (a.toFloat + b.toFloat)

def sub (a b : Value) : Value := ofFloat (a.toFloat - b.toFloat)

def mul (a b : Value) : Value := ofFloat (a.toFloat * b.toFloat)

def div (a b : Value) : Value := ofFloat (a.toFloat / b.toFloat)

def rem (a b : Value) : Value := ofFloat (Decimal.remainder a.toFloat b.toFloat)

end Stencil.Value
