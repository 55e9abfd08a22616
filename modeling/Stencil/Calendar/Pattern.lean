import Stencil.Calendar.Moment

/-!
Writing moments by a pattern: a percent sign begins a field, which may say how it is filled up to its
width.
-/

namespace Stencil.Calendar

/-- How a number shorter than its width is filled up. -/
inductive Fill where
  | zero
  | space
  | bare
deriving DecidableEq

/-- Digits with fill to a width; the sign counts, and stands before zeros. -/
def padded (fill : Fill) (width : Nat) (sign : List Char) (digits : List Char) : List Char :=
  let missing := width - (sign.length + digits.length)
  match fill with
  | .zero => sign ++ List.replicate missing '0' ++ digits
  | .space => List.replicate missing ' ' ++ sign ++ digits
  | .bare => sign ++ digits

def signOf (n : Int) : List Char := if n < 0 then ['-'] else []

def decimal (fill : Fill) (width : Nat) (n : Int) : List Char :=
  padded fill width (signOf n) (Nat.toDigits 10 n.natAbs)

/-- A number of two digits, of which the first is one character for whatever the tens are. -/
def twoDigits (fill : Fill) (n : Nat) : List Char :=
  let ones := Char.ofNat (48 + n % 10)
  if n / 10 = 0 then
    match fill with
    | .zero => ['0', ones]
    | .space => [' ', ones]
    | .bare => [ones]
  else [Char.ofNat (48 + n / 10), ones]

/-- A year; outside the years 0 to 9999 it has a sign, for which there is one more place. -/
def yearText (fill : Fill) (year : Int) : List Char :=
  if 0 ≤ year && year < 10000 then decimal fill 4 year
  else padded fill 5 (if year < 0 then ['-'] else ['+']) (Nat.toDigits 10 year.natAbs)

def weekdays : List String :=
  ["Monday", "Tuesday", "Wednesday", "Thursday", "Friday", "Saturday", "Sunday"]

def months : List String :=
  ["January", "February", "March", "April", "May", "June", "July", "August", "September",
    "October", "November", "December"]

def weekday (m : Moment) : List Char := (weekdays[m.date.sinceMonday]?.getD "").toList

def month (m : Moment) : List Char := (months[m.date.month - 1]?.getD "").toList

/-- The centuries of a year, of which eight bits are kept. -/
def century (year : Int) : Nat := (Int.fdiv year 100 % 256).toNat

/-- A field that is a number: how it is filled unless that is said, and its text under a fill. -/
def numeric? (c : Char) : Option (Fill × (Fill → Moment → List Char)) :=
  match c with
  | 'Y' => some (.zero, fun fill m => yearText fill m.date.year)
  | 'C' => some (.zero, fun fill m => twoDigits fill (century m.date.year))
  | 'y' => some (.zero, fun fill m => twoDigits fill (m.date.year % 100).toNat)
  | 'G' => some (.zero, fun fill m => yearText fill m.date.weekYear)
  | 'g' => some (.zero, fun fill m => twoDigits fill (m.date.weekYear % 100).toNat)
  | 'q' => some (.bare, fun _ m => decimal .bare 1 m.date.quarter)
  | 'm' => some (.zero, fun fill m => twoDigits fill m.date.month)
  | 'd' => some (.zero, fun fill m => twoDigits fill m.date.day)
  | 'e' => some (.space, fun fill m => twoDigits fill m.date.day)
  | 'U' => some (.zero, fun fill m => twoDigits fill (m.date.week m.date.sinceSunday))
  | 'W' => some (.zero, fun fill m => twoDigits fill (m.date.week m.date.sinceMonday))
  | 'V' => some (.zero, fun fill m => twoDigits fill m.date.isoWeek)
  | 'w' => some (.bare, fun _ m => decimal .bare 1 m.date.sinceSunday)
  | 'u' => some (.bare, fun _ m => decimal .bare 1 (m.date.sinceMonday + 1 : Nat))
  | 'j' => some (.zero, fun fill m => decimal fill 3 m.date.ordinal)
  | 'H' => some (.zero, fun fill m => twoDigits fill m.hour)
  | 'k' => some (.space, fun fill m => twoDigits fill m.hour)
  | 'I' => some (.zero, fun fill m => twoDigits fill m.hour12)
  | 'l' => some (.space, fun fill m => twoDigits fill m.hour12)
  | 'M' => some (.zero, fun fill m => twoDigits fill m.minute)
  | 'S' => some (.zero, fun fill m => twoDigits fill m.secondOfMinute)
  | 'f' => some (.zero, fun fill m => decimal fill 9 m.fraction)
  | 's' => some (.bare, fun fill m => decimal fill 9 m.stamp)
  | _ => none

/-- The first places of the fraction of the second. -/
def fractionDigits (places : Nat) (m : Moment) : List Char :=
  decimal .zero places (m.fraction / Nat.pow 10 (9 - places) : Nat)

/-- The fraction of the second after a point, with three, six or nine places, unless it is zero. -/
def shortFraction (m : Moment) : List Char :=
  if m.fraction = 0 then []
  else if m.fraction % 1000000 = 0 then '.' :: fractionDigits 3 m
  else if m.fraction % 1000 = 0 then '.' :: fractionDigits 6 m
  else '.' :: fractionDigits 9 m

/-- The number of places that a digit asks for. -/
def places? (c : Char) : Option Nat :=
  match c with
  | '3' => some 3
  | '6' => some 6
  | '9' => some 9
  | _ => none

/-- Several fields that are numbers, with the characters between them. -/
def fields (s : String) (m : Moment) : List Char :=
  s.toList.flatMap fun c =>
    match numeric? c with
    | some (fill, text) => text fill m
    | none => [c]

def short (s : List Char) : List Char := s.take 3

def clock (m : Moment) : List Char := fields "H:M:S" m

def halfDay (m : Moment) : List Char := if m.isAfternoon then ['P', 'M'] else ['A', 'M']

/-- A field that is a text. -/
def textual? (c : Char) : Option (Moment → List Char) :=
  match c with
  | 'a' => some fun m => short (weekday m)
  | 'A' => some weekday
  | 'b' => some fun m => short (month m)
  | 'h' => some fun m => short (month m)
  | 'B' => some month
  | 'p' => some halfDay
  | 'P' => some fun m => (halfDay m).map Char.toLower
  | 'D' => some (fields "m/d/y")
  | 'x' => some (fields "m/d/y")
  | 'F' => some (fields "Y-m-d")
  | 'v' => some fun m => fields "e" m ++ ['-'] ++ short (month m) ++ ['-'] ++ fields "Y" m
  | 'R' => some (fields "H:M")
  | 'T' => some clock
  | 'X' => some clock
  | 'r' => some fun m => fields "I:M:S" m ++ [' '] ++ halfDay m
  | 'c' => some fun m =>
    short (weekday m) ++ [' '] ++ short (month m) ++ [' '] ++ fields "e" m ++ [' '] ++ clock m ++
      [' '] ++ fields "Y" m
  | 'Z' => some fun _ => "UTC".toList
  | 'z' => some fun _ => "+0000".toList
  | '+' => some fun m =>
    fields "Y-m-d" m ++ ['T'] ++ clock m ++ shortFraction m ++ "+00:00".toList
  | 'n' => some fun _ => ['\n']
  | 't' => some fun _ => ['\t']
  | '%' => some fun _ => ['%']
  | _ => none

/-- The fill that a modifier asks for. -/
def fill? (c : Char) : Option Fill :=
  match c with
  | '-' => some .bare
  | '0' => some .zero
  | '_' => some .space
  | _ => none

/-- The field after a percent sign, and the rest of the pattern; nothing if there is no such field. -/
def field? (m : Moment) : List Char → Option (List Char × List Char)
  | [] => none
  | ':' :: ':' :: ':' :: 'z' :: rest => some ("+00".toList, rest)
  | ':' :: ':' :: 'z' :: rest => some ("+00:00:00".toList, rest)
  | ':' :: 'z' :: rest => some ("+00:00".toList, rest)
  | '.' :: 'f' :: rest => some (shortFraction m, rest)
  | '.' :: p :: 'f' :: rest => (places? p).map fun n => ('.' :: fractionDigits n m, rest)
  | c :: rest =>
    match fill? c, rest with
    | some fill, f :: rest => (numeric? f).map fun field => (field.2 fill m, rest)
    | some _, [] => none
    | none, rest =>
      match numeric? c, textual? c, places? c, rest with
      | some (fill, text), _, _, rest => some (text fill m, rest)
      | none, some text, _, rest => some (text m, rest)
      | none, none, some n, 'f' :: rest => some (fractionDigits n m, rest)
      | none, none, _, _ => none

theorem length_of_field? {m : Moment} {s text rest : List Char}
    (h : field? m s = some (text, rest)) : rest.length < s.length := by
  unfold field? at h
  split at h
  · cases h
  all_goals first
    | (obtain ⟨-, rfl⟩ := Prod.mk.inj (Option.some.inj h); simp only [List.length_cons]; omega)
    | (obtain ⟨_, -, heq⟩ := Option.map_eq_some_iff.mp h
       obtain ⟨-, rfl⟩ := Prod.mk.inj heq
       simp only [List.length_cons]
       omega)
    | skip
  split at h
  · obtain ⟨_, -, heq⟩ := Option.map_eq_some_iff.mp h
    obtain ⟨-, rfl⟩ := Prod.mk.inj heq
    simp only [List.length_cons]
    omega
  · cases h
  · split at h
    · obtain ⟨-, rfl⟩ := Prod.mk.inj (Option.some.inj h)
      exact Nat.lt_succ_self _
    · obtain ⟨-, rfl⟩ := Prod.mk.inj (Option.some.inj h)
      exact Nat.lt_succ_self _
    · obtain ⟨-, rfl⟩ := Prod.mk.inj (Option.some.inj h)
      simp only [List.length_cons]
      omega
    · cases h

/-- The text of a moment under a pattern, unless the pattern holds something that is no field. -/
def format? (m : Moment) (pattern : List Char) : Option (List Char) :=
  match pattern with
  | [] => some []
  | c :: rest =>
    if c = '%' then
      match _h : field? m rest with
      | none => none
      | some (text, rest) => (format? m rest).map (text ++ ·)
    else (format? m rest).map (c :: ·)
termination_by pattern.length
decreasing_by
  · have := length_of_field? _h
    simp only [List.length_cons]
    omega
  · exact Nat.lt_succ_self _

end Stencil.Calendar
