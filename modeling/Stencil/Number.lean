import Stencil.Decimal.Layout

/-!
Numbers of the template language: whole numbers and floats. A whole number of magnitude below 2^53
is worked on exactly; any other number counts as its nearest float.
-/

namespace Stencil

inductive Number where
  | int (i : Int)
  | float (x : Float)
deriving DecidableEq, Inhabited

namespace Number

def toFloat : Number → Float
  | int i => Float.ofInt i
  | float x => x

/-- A whole number that every float operation represents exactly. -/
def small? : Number → Option Int
  | int i => if i.natAbs < Nat.pow 2 53 then some i else none
  | float _ => none

/-- The order of two floats; nothing is before or after not-a-number. -/
def compareFloats (x y : Float) : Option Ordering :=
  if x < y then some .lt else if x == y then some .eq else if y < x then some .gt else none

/-- The order of two numbers by value. -/
def compare (a b : Number) : Option Ordering :=
  match a.small?, b.small? with
  | some i, some j => some (Ord.compare i j)
  | _, _ => compareFloats a.toFloat b.toFloat

/-- Two numbers have the same value. -/
def same (a b : Number) : Bool := a.compare b == some .eq

/-- Neither zero nor not-a-number. -/
def truthy : Number → Bool
  | int i => i ≠ 0
  | float x => x != 0 && !x.isNaN

/-- Numbers stand in text without a point if they are whole and positionally always. -/
def layout : Decimal.Layout := ⟨fun _ => true, false, .upward⟩

/-- The text of a float. -/
def floatText (x : Float) : String :=
  if x.isNaN then "NaN"
  else if x.isInf then (if 0 < x then "Infinity" else "-Infinity")
  else if (Decimal.Binary.ofFloat x).isWhole && x.abs < 1e21 then Decimal.fixed 0 x
  else layout.float x

def text (n : Number) : String :=
  match n.small? with
  | some i => toString i
  | none => floatText n.toFloat

/-- The number as a position, if it is whole and not negative. -/
def index? : Number → Option Nat
  | int i => if 0 ≤ i then some i.toNat else none
  | float x =>
    if x.isFinite && 0 ≤ x && (Decimal.Binary.ofFloat x).isWhole then
      some (Decimal.Binary.ofFloat x).floor
    else none

/-- The whole part, or nothing for not-a-number; an infinite number counts as one beyond every
position. -/
def whole? : Number → Option Int
  | int i => some i
  | float x =>
    if x.isNaN then none
    else if x.isInf then some (if 0 < x then Int.pow 2 64 else -Int.pow 2 64)
    else some (Decimal.truncate x)

/-- The number is not-a-number or below zero. -/
def isNegative : Number → Bool
  | int i => i < 0
  | float x => x < 0

end Number

end Stencil
