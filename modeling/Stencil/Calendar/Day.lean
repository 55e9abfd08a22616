/-!
Days of the Gregorian calendar, extended in both directions, and their number counted from the first
day of the year 0.
-/

namespace Stencil.Calendar

def isLeap (year : Int) : Bool := year % 4 == 0 && (year % 100 != 0 || year % 400 == 0)

/-- The lengths of the months of a year. -/
def monthLengths (year : Int) : List Nat :=
  [31, if isLeap year then 29 else 28, 31, 30, 31, 30, 31, 31, 30, 31, 30, 31]

/-- The number of the first day of a year. -/
def startOfYear (year : Int) : Int :=
  365 * year + Int.fdiv (year + 3) 4 - Int.fdiv (year + 99) 100 + Int.fdiv (year + 399) 400

structure Day where
  year : Int
  /-- Counted from 1. -/
  month : Nat
  day : Nat

namespace Day

/-- The years that are represented. -/
def firstYear : Int := -262143

def lastYear : Int := 262142

/-- The day with these parts, if there is one. -/
def ofParts? (year : Int) (month day : Nat) : Option Day :=
  if year < firstYear || lastYear < year || month = 0 || day = 0 then none
  else
    match (monthLengths year)[month - 1]? with
    | some length => if day ≤ length then some ⟨year, month, day⟩ else none
    | none => none

/-- The position in the year, counted from 1. -/
def ordinal (d : Day) : Nat := ((monthLengths d.year).take (d.month - 1)).foldr (· + ·) d.day

def number (d : Day) : Int := startOfYear d.year + d.ordinal - 1

/-- The year of a day number. -/
def yearOf (n : Int) : Int :=
  let guess := Int.fdiv (400 * n) 146097
  if n < startOfYear guess then guess - 1
  else if startOfYear (guess + 1) ≤ n then guess + 1
  else guess

/-- The month and the day of a position in a year, both counted from the given month. -/
def locate (month : Nat) : (lengths : List Nat) → (position : Nat) → Nat × Nat
  | [], position => (month, position)
  | length :: rest, position =>
    if position ≤ length then (month, position) else locate (month + 1) rest (position - length)

def ofNumber (n : Int) : Day :=
  let year := yearOf n
  let (month, day) := locate 1 (monthLengths year) (n - startOfYear year + 1).toNat
  ⟨year, month, day⟩

/-- The number of days since the last Monday. -/
def sinceMonday (d : Day) : Nat := ((d.number + 5) % 7).toNat

/-- The number of days since the last Sunday. -/
def sinceSunday (d : Day) : Nat := (d.sinceMonday + 1) % 7

/-- The week of the year; the first one begins with the first day that is 0 days after its start. -/
def week (d : Day) (sinceStart : Nat) : Nat := (d.ordinal + 6 - sinceStart) / 7

/-- The Thursday of the same week, Monday being its first day. -/
def thursday (d : Day) : Day := ofNumber (d.number - d.sinceMonday + 3)

/-- The year that the week belongs to: the one of its Thursday. -/
def weekYear (d : Day) : Int := d.thursday.year

def isoWeek (d : Day) : Nat := (d.thursday.ordinal - 1) / 7 + 1

def quarter (d : Day) : Nat := (d.month - 1) / 3 + 1

end Day

end Stencil.Calendar
