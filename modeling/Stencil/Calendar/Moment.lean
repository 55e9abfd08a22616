import Stencil.Calendar.Day

/-!
Moments in universal time: a day, a second of it, and nanoseconds. A leap second is the second before
it with another 10^9 nanoseconds.
-/

namespace Stencil.Calendar

structure Moment where
  /-- The number of the day. -/
  day : Int
  second : Nat
  nano : Nat

namespace Moment

/-- The number of the first day of 1970, from which stamps count. -/
def epoch : Int := startOfYear 1970

/-- The moment that lies the given number of seconds after the start of 1970. -/
def ofStamp? (seconds : Int) : Option Moment :=
  let day := epoch + seconds / 86400
  let year := Day.yearOf day
  if year < Day.firstYear || Day.lastYear < year then none
  else some ⟨day, (seconds % 86400).toNat, 0⟩

def ofDay (d : Day) : Moment := ⟨d.number, 0, 0⟩

/-- Seconds since the start of 1970. -/
def stamp (m : Moment) : Int := 86400 * (m.day - epoch) + m.second

/-- The moment some seconds earlier. -/
def earlier (m : Moment) (seconds : Int) : Moment :=
  let total := (m.second : Int) - seconds
  ⟨m.day + total / 86400, (total % 86400).toNat, m.nano⟩

def date (m : Moment) : Day := Day.ofNumber m.day

def hour (m : Moment) : Nat := m.second / 3600

/-- The hour from 1 to 12. -/
def hour12 (m : Moment) : Nat := if m.hour % 12 = 0 then 12 else m.hour % 12

def isAfternoon (m : Moment) : Bool := 12 ≤ m.hour

def minute (m : Moment) : Nat := m.second / 60 % 60

/-- The second of the minute, 60 in a leap second. -/
def secondOfMinute (m : Moment) : Nat := m.second % 60 + m.nano / 1000000000

/-- The nanoseconds of the second. -/
def fraction (m : Moment) : Nat := m.nano % 1000000000

end Moment

end Stencil.Calendar
