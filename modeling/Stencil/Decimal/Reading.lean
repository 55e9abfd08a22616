import Stencil.Text.Letter
import Stencil.Text.Read

/-!
Reading decimal numbers: digits with an optional point and an optional power of ten, rounded to the
nearest float.
-/

namespace Stencil.Decimal

open Stencil.Text (isAsciiDigit length_dropWhile_le)

/-- The number that decimal digits denote. -/
def digitsValue (digits : List Char) : Nat :=
  digits.foldl (fun n c => 10 * n + (c.toNat - 48)) 0

/-- The float nearest to `digits * 10 ^ exponent`. Powers that leave the range of floats are not
computed. -/
def nearest (digits : List Char) (exponent : Int) : Float :=
  let n := digitsValue digits
  let magnitude := exponent + (digits.dropWhile (· == '0')).length
  if n = 0 then 0
  else if 400 < magnitude then 1.0 / 0.0
  else if magnitude < -400 then 0
  else Float.ofScientific n (exponent < 0) exponent.natAbs

/-- The parts of an unsigned decimal: whole digits, fractional digits, the exponent and the rest. -/
structure Parts where
  whole : List Char
  fraction : List Char
  exponent : Int
  rest : List Char

/-- Whether a minus stands at the head, and what follows the sign if there is one. -/
def signed : List Char → Bool × List Char
  | '+' :: s => (false, s)
  | '-' :: s => (true, s)
  | s => (false, s)

theorem length_signed (s : List Char) : (signed s).2.length ≤ s.length := by
  unfold signed
  split <;> simp

/-- An exponent mark with an optional sign and at least one digit, if it stands at the head. -/
def exponentPart? : List Char → Option (Int × List Char)
  | mark :: s =>
    if mark = 'e' ∨ mark = 'E' then
      let digits := (signed s).2.takeWhile isAsciiDigit
      if digits.isEmpty then none
      else
        let n : Int := digitsValue digits
        some (if (signed s).1 then -n else n, (signed s).2.dropWhile isAsciiDigit)
    else none
  | [] => none

/-- The longest decimal at the head of a text; both its digit sequences may be empty. -/
def parts (s : List Char) : Parts :=
  let whole := s.takeWhile isAsciiDigit
  let (fraction, s) :=
    match s.dropWhile isAsciiDigit with
    | '.' :: s => (s.takeWhile isAsciiDigit, s.dropWhile isAsciiDigit)
    | s => ([], s)
  match exponentPart? s with
  | some (e, rest) => ⟨whole, fraction, e, rest⟩
  | none => ⟨whole, fraction, 0, s⟩

theorem length_of_exponentPart? {s rest : List Char} {e : Int}
    (h : exponentPart? s = some (e, rest)) : rest.length ≤ s.length := by
  cases s with
  | nil => simp [exponentPart?] at h
  | cons mark s =>
    simp only [exponentPart?] at h
    split at h
    · split at h
      · cases h
      · obtain ⟨-, rfl⟩ := Prod.mk.inj (Option.some.inj h)
        exact Nat.le_succ_of_le (Nat.le_trans (length_dropWhile_le ..) (length_signed s))
    · cases h

theorem length_parts_rest (s : List Char) :
    (parts s).rest.length ≤ (s.dropWhile isAsciiDigit).length := by
  have hexp {t rest : List Char} {e : Int} (h : exponentPart? t = some (e, rest)) :=
    length_of_exponentPart? h
  have hdrop (t : List Char) := length_dropWhile_le isAsciiDigit t
  unfold parts
  split
  rename_i fraction after heq
  have hafter : after.length ≤ (s.dropWhile isAsciiDigit).length := by
    split at heq
    · rename_i t ht
      obtain ⟨-, rfl⟩ := Prod.mk.inj heq
      rw [ht]
      exact Nat.le_succ_of_le (hdrop t)
    · obtain ⟨-, rfl⟩ := Prod.mk.inj heq
      exact Nat.le_refl _
  split
  · rename_i h
    exact Nat.le_trans (hexp h) hafter
  · exact hafter

/-- A decimal stands at the head: a digit, or a point before a digit. -/
def startsDecimal : List Char → Bool
  | c :: rest => isAsciiDigit c || (c == '.' && rest.head?.any isAsciiDigit)
  | [] => false

theorem length_parts_rest_lt {s : List Char} (h : startsDecimal s = true) :
    (parts s).rest.length < s.length := by
  cases s with
  | nil => simp [startsDecimal] at h
  | cons c s =>
    by_cases hc : isAsciiDigit c = true
    · refine Nat.lt_of_le_of_lt (length_parts_rest _) ?_
      rw [List.dropWhile_cons_of_pos hc]
      exact Nat.lt_succ_of_le (length_dropWhile_le ..)
    · have hdot : c = '.' := by
        simp only [startsDecimal, hc, Bool.false_or, Bool.and_eq_true, beq_iff_eq] at h
        exact h.1
      subst hdot
      have hparts : (parts ('.' :: s)).rest.length ≤ s.length := by
        have hexp {t rest : List Char} {e : Int} (h : exponentPart? t = some (e, rest)) :=
          length_of_exponentPart? h
        unfold parts
        rw [List.dropWhile_cons_of_neg hc]
        simp only
        split
        · rename_i h
          exact Nat.le_trans (hexp h) (length_dropWhile_le ..)
        · exact length_dropWhile_le ..
      exact Nat.lt_succ_of_le hparts

def Parts.value (p : Parts) : Float :=
  nearest (p.whole ++ p.fraction) (p.exponent - p.fraction.length)

/-- The float that an unsigned decimal text denotes, if all of it is one decimal. -/
def unsigned? (s : List Char) : Option Float :=
  let p := parts s
  if p.rest.isEmpty && !(p.whole.isEmpty && p.fraction.isEmpty) then some p.value else none

/-- The float that a text denotes: a decimal with an optional sign, or a name of infinity or of
not-a-number in any mixture of cases. -/
def float? (s : List Char) : Option Float :=
  let magnitude :=
    match String.ofList ((signed s).2.map Char.toLower) with
    | "inf" => some (1.0 / 0.0)
    | "infinity" => some (1.0 / 0.0)
    | "nan" => some (0.0 / 0.0)
    | _ => unsigned? (signed s).2
  magnitude.map fun x => if (signed s).1 then -x else x

end Stencil.Decimal
