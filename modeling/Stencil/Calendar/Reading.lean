import Stencil.Calendar.Moment
import Stencil.Decimal.Reading
import Stencil.Text.Search

/-!
Reading moments: a full date and time with an offset, or a date alone.
-/

namespace Stencil.Calendar

open Stencil.Text (isAsciiDigit isBlank)
open Stencil.Decimal (digitsValue)

/-- Why a date cannot be read. -/
inductive DateFault where
  | invalid
  | outOfRange
  | tooShort
  | tooLong
deriving DecidableEq

def DateFault.message : DateFault → String
  | invalid => "input contains invalid characters"
  | outOfRange => "input is out of range"
  | tooShort => "premature end of input"
  | tooLong => "trailing input"

/-- A number of at most `width` digits, at least one; numbers beyond 63 bits are out of range. -/
def digits (width : Option Nat) (s : List Char) : Except DateFault (Nat × List Char) :=
  let all := s.takeWhile isAsciiDigit
  let taken := width.elim all all.take
  if s.isEmpty then .error .tooShort
  else if taken.isEmpty then .error .invalid
  else if Nat.pow 2 63 ≤ digitsValue taken then .error .outOfRange
  else .ok (digitsValue taken, s.drop taken.length)

def hyphen : List Char → Except DateFault (List Char)
  | [] => .error .tooShort
  | c :: rest => if c = '-' then .ok rest else .error .invalid

/-- A year: with a sign of any length, else of at most four digits. -/
def year (s : List Char) : Except DateFault (Int × List Char) := do
  let (n, rest) ←
    match s with
    | '-' :: s => (digits none s).map fun r => (-(r.1 : Int), r.2)
    | '+' :: s => (digits none s).map fun r => ((r.1 : Int), r.2)
    | s => (digits (some 4) s).map fun r => ((r.1 : Int), r.2)
  if n < -Int.pow 2 31 || Int.pow 2 31 ≤ n then .error .outOfRange else pure (n, rest)

/-- A number of at most two digits in a range. -/
def within (low high : Nat) (s : List Char) : Except DateFault (Nat × List Char) := do
  let (n, rest) ← digits (some 2) s
  if n < low || high < n then .error .outOfRange else pure (n, rest)

/-- A date as year, month and day with hyphens between them; white space may stand before each. -/
def readDay (text : String) : Except DateFault Day := do
  let (y, s) ← year (text.toList.dropWhile isBlank)
  let s ← hyphen s
  let (m, s) ← within 1 12 (s.dropWhile isBlank)
  let s ← hyphen s
  let (d, s) ← within 1 31 (s.dropWhile isBlank)
  if !s.isEmpty then .error .tooLong
  else
    match Day.ofParts? y m d with
    | some day => pure day
    | none => .error .outOfRange

/-- Exactly `count` digits at the head. -/
def exactly? (count : Nat) (s : List Char) : Option (Nat × List Char) :=
  let taken := s.take count
  if taken.length = count && taken.all isAsciiDigit then some (digitsValue taken, s.drop count)
  else none

def char? (p : Char → Bool) : List Char → Option (List Char)
  | c :: rest => if p c then some rest else none
  | [] => none

/-- Nanoseconds after a point; digits beyond the ninth are dropped. -/
def fraction? : List Char → Option (Nat × List Char)
  | '.' :: s =>
    let all := s.takeWhile isAsciiDigit
    let taken := all.take 9
    if taken.isEmpty then none
    else some (digitsValue taken * Nat.pow 10 (9 - taken.length), s.drop all.length)
  | s => some (0, s)

/-- An offset in seconds: the letter Z, or a sign with hours and minutes. -/
def offset? : List Char → Option (Int × List Char)
  | c :: s =>
    if c = 'Z' || c = 'z' then some (0, s)
    else if c = '+' || c = '-' || c = '−' then do
      let (hours, s) ← exactly? 2 s
      let s ← char? (· == ':') s
      let (minutes, s) ← exactly? 2 s
      if minutes < 60 && hours < 24 then
        let seconds : Int := 3600 * hours + 60 * minutes
        pure (if c = '+' then seconds else -seconds, s)
      else none
    else none
  | [] => none

/-- A moment written as date, time and offset. -/
def readMoment? (text : String) : Option Moment := do
  let (y, s) ← exactly? 4 text.toList
  let s ← char? (· == '-') s
  let (m, s) ← exactly? 2 s
  let s ← char? (· == '-') s
  let (d, s) ← exactly? 2 s
  let s ← char? (fun c => c == 'T' || c == 't' || c == ' ') s
  let (hour, s) ← exactly? 2 s
  let s ← char? (· == ':') s
  let (minute, s) ← exactly? 2 s
  let s ← char? (· == ':') s
  let (second, s) ← exactly? 2 s
  let (nano, s) ← fraction? s
  let (offset, s) ← offset? s
  let day ← Day.ofParts? y m d
  if s.isEmpty && hour < 24 && minute < 60 && second ≤ 60 then
    let leap := if second = 60 then 1 else 0
    let moment : Moment :=
      ⟨day.number, 3600 * hour + 60 * minute + second - leap, nano + 1000000000 * leap⟩
    pure (moment.earlier offset)
  else none

end Stencil.Calendar
