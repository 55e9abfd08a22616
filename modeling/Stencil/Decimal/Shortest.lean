import Stencil.Decimal.Binary

/-!
The fewest decimal digits that read back to a given float. `Binary.readsBack` says which decimals
do; `shortest` tries the grids of one, two, ... digits and takes the nearer of the two neighbours
of the number on the first grid that has a hit.
-/

namespace Stencil.Decimal

/-- The number `digits * 10 ^ exponent`. -/
structure Digits where
  digits : Nat
  exponent : Int
deriving Repr, DecidableEq

/-- Which neighbour is taken when both are equally near. -/
inductive Tie where
  | toEven
  | upward
deriving DecidableEq

/-- Compares `a * 10 ^ i` with `n * 2 ^ j`. -/
def compareScaled (a : Nat) (i : Int) (n : Nat) (j : Int) : Ordering :=
  compare (a * Nat.pow 10 i.toNat * Nat.pow 2 (-j).toNat)
    (n * Nat.pow 2 j.toNat * Nat.pow 10 (-i).toNat)

/-- The decimal lies among the numbers that round to `x`. -/
def Binary.readsBack (x : Binary) (d : Digits) : Bool :=
  let low := if x.narrowBelow then 4 * x.mantissa - 1 else 4 * x.mantissa - 2
  let high := 4 * x.mantissa + 2
  let inclusive := x.mantissa % 2 == 0
  let atLow := compareScaled d.digits d.exponent low (x.exponent - 2)
  let atHigh := compareScaled d.digits d.exponent high (x.exponent - 2)
  (atLow == .gt || (inclusive && atLow == .eq)) && (atHigh == .lt || (inclusive && atHigh == .eq))

/-- The least `k` with `x < 10 ^ k`, for `x` other than zero. -/
def Binary.scale (x : Binary) : Int :=
  let k := ((x.mantissa.log2 : Int) + x.exponent) * 30103 / 100000 - 1
  let above (k : Int) : Bool := compareScaled 1 k x.mantissa x.exponent == .gt
  if above k then k
  else if above (k + 1) then k + 1
  else if above (k + 2) then k + 2
  else k + 3

/-- The digits without the zeros at their end. -/
def Digits.stripped (d : Digits) : Digits :=
  if d.digits ≠ 0 ∧ d.digits % 10 = 0 then
    Digits.stripped ⟨d.digits / 10, d.exponent + 1⟩
  else d
termination_by d.digits
decreasing_by
  rename_i h
  exact Nat.div_lt_self (Nat.pos_of_ne_zero h.1) (by decide)

/-- The neighbour of `x` on the grid of the multiples of `10 ^ exponent` that reads back. -/
def Binary.onGrid? (x : Binary) (tie : Tie) (exponent : Int) : Option Digits :=
  let num := x.mantissa * Nat.pow 2 x.exponent.toNat * Nat.pow 10 (-exponent).toNat
  let den := Nat.pow 2 (-x.exponent).toNat * Nat.pow 10 exponent.toNat
  let below := num / den
  let d : Digits := ⟨below, exponent⟩
  let u : Digits := ⟨below + 1, exponent⟩
  match x.readsBack d, x.readsBack u with
  | false, false => none
  | true, false => some d
  | false, true => some u
  | true, true =>
    match compare (2 * num) ((2 * below + 1) * den) with
    | .lt => some d
    | .gt => some u
    | .eq => if tie = .toEven ∧ below % 2 = 0 then some d else some u

/-- The exact decimal value. -/
def Binary.exact (x : Binary) : Digits :=
  if 0 ≤ x.exponent then ⟨x.mantissa * Nat.pow 2 x.exponent.toNat, 0⟩
  else ⟨x.mantissa * Nat.pow 5 (-x.exponent).toNat, x.exponent⟩

/-- The fewest digits that read back to `x`. -/
def Binary.shortest (x : Binary) (tie : Tie) : Digits :=
  if x.mantissa = 0 then ⟨0, 0⟩
  else
    let k := x.scale
    let found := (List.range 17).findSome? fun (n : Nat) =>
      x.onGrid? tie (k - ((n : Int) + 1))
    (found.getD x.exact).stripped

end Stencil.Decimal
