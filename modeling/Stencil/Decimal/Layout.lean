import Stencil.Decimal.Shortest

/-!
How the digits of a number are laid out as text: positionally or with an exponent, and with a fixed
number of places.
-/

namespace Stencil.Decimal

/-- The decisions of one number format. -/
structure Layout where
  /-- Exponents of the leading digit for which the number is written positionally. -/
  positional : Int → Bool
  /-- A whole number ends in `.0`. -/
  pointZero : Bool
  tie : Tie

def zeros (n : Nat) : String := String.ofList (List.replicate n '0')

/-- Digits with the decimal point set before the last `-exponent` of them. -/
def positionalText (d : Digits) (pointZero : Bool) : String :=
  let text := toString d.digits
  if 0 ≤ d.exponent then
    text ++ zeros d.exponent.toNat ++ if pointZero then ".0" else ""
  else
    let places := (-d.exponent).toNat
    let padded := zeros (places + 1 - text.length) ++ text
    let whole := padded.length - places
    String.ofList (padded.toList.take whole) ++ "." ++ String.ofList (padded.toList.drop whole)

/-- One digit before the point and the exponent, always with its sign, after the letter `e`. -/
def exponentText (d : Digits) : String :=
  let text := toString d.digits
  let e := d.exponent + (text.length - 1 : Nat)
  let mantissa :=
    match text.toList with
    | first :: rest@(_ :: _) => String.ofList (first :: '.' :: rest)
    | _ => text
  mantissa ++ (if e < 0 then "e-" else "e+") ++ toString e.natAbs

/-- The text of a magnitude. -/
def Layout.text (l : Layout) (d : Digits) : String :=
  if d.digits = 0 then (if l.pointZero then "0.0" else "0")
  else if l.positional (d.exponent + ((toString d.digits).length - 1 : Nat)) then
    positionalText d l.pointZero
  else exponentText d

/-- The text of a finite float. -/
def Layout.float (l : Layout) (x : Float) : String :=
  (if isNegative x then "-" else "") ++ l.text ((Binary.ofFloat x).shortest l.tie)

/-- A finite float with a fixed number of places, rounded from its exact value. -/
def fixed (places : Nat) (x : Float) : String :=
  let b := Binary.ofFloat x
  let n := roundDiv (b.mantissa * Nat.pow 2 b.exponent.toNat * Nat.pow 10 places)
    (Nat.pow 2 (-b.exponent).toNat)
  (if isNegative x then "-" else "") ++ positionalText ⟨n, -(places : Int)⟩ false

end Stencil.Decimal
