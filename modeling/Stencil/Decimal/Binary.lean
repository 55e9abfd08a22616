/-!
Finite binary numbers in exact form, `mantissa * 2 ^ exponent`, taken from the bits of a float and
put back into them.
-/

namespace Stencil.Decimal

/-- A finite number without its sign. -/
structure Binary where
  mantissa : Nat
  exponent : Int
  /-- The gap to the next smaller float is half the gap to the next larger one. -/
  narrowBelow : Bool

/-- The magnitude in the bits of a finite float. -/
def Binary.ofBits (bits : UInt64) : Binary :=
  let e := ((bits >>> 52) &&& 0x7FF).toNat
  let f := (bits &&& 0xFFFFFFFFFFFFF).toNat
  if e = 0 then ⟨f, -1074, false⟩ else ⟨Nat.pow 2 52 + f, (e : Int) - 1075, f = 0 ∧ 1 < e⟩

def Binary.ofFloat (x : Float) : Binary := Binary.ofBits x.toBits

/-- The sign bit is set; so it is of minus zero. -/
def isNegative (x : Float) : Bool := x.toBits >>> 63 == 1

/-- The whole part of a magnitude. -/
def Binary.floor (x : Binary) : Nat :=
  x.mantissa * Nat.pow 2 x.exponent.toNat / Nat.pow 2 (-x.exponent).toNat

/-- The number has no fractional part. -/
def Binary.isWhole (x : Binary) : Bool :=
  x.mantissa * Nat.pow 2 x.exponent.toNat % Nat.pow 2 (-x.exponent).toNat == 0

/-- The whole part of a finite float, with its sign. -/
def truncate (x : Float) : Int :=
  let n : Int := (Binary.ofFloat x).floor
  if isNegative x then -n else n

/-- The quotient rounded to the nearest whole number, a half going to the even neighbour. -/
def roundDiv (num den : Nat) : Nat :=
  let q := num / den
  match compare (2 * (num % den)) den with
  | .lt => q
  | .gt => q + 1
  | .eq => if q % 2 = 0 then q else q + 1

/-- The float nearest to `mantissa * 2 ^ exponent`, with the given sign. -/
def ofScaled (negative : Bool) (mantissa : Nat) (exponent : Int) : Float :=
  let e := max (exponent + mantissa.log2 - 52) (-1074)
  let m := roundDiv (mantissa * Nat.pow 2 (exponent - e).toNat) (Nat.pow 2 (e - exponent).toNat)
  let (m, e) := if m = Nat.pow 2 53 then (Nat.pow 2 52, e + 1) else (m, e)
  let magnitude : Nat :=
    if 971 < e then 0x7FF0000000000000
    else if m < Nat.pow 2 52 then m
    else (e + 1075).toNat * Nat.pow 2 52 + (m - Nat.pow 2 52)
  Float.ofBits (UInt64.ofNat (magnitude + if negative then Nat.pow 2 63 else 0))

/-- What remains of `x` when whole multiples of `y` are taken away; it has the sign of `x`. -/
def remainder (x y : Float) : Float :=
  if x.isNaN || y.isNaN || x.isInf || y == 0 then 0.0 / 0.0
  else if y.isInf || x == 0 then x
  else
    let a := Binary.ofFloat x
    let b := Binary.ofFloat y
    let e := min a.exponent b.exponent
    ofScaled (isNegative x)
      (a.mantissa * Nat.pow 2 (a.exponent - e).toNat %
        (b.mantissa * Nat.pow 2 (b.exponent - e).toNat)) e

end Stencil.Decimal
