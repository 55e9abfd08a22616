import Stencil.Text.Hex
import Stencil.Text.Runs
import Stencil.Text.Search
import Stencil.Value
import Stencil.Calendar.Reading

/-!
Numbers, truth values and dates of a configuration file. A float may be infinite or not a number here.
-/

namespace Stencil.Toml

open Stencil.Text (isAsciiDigit isHexDigit hexValue?)
open Stencil.Decimal (digitsValue signed)
open Stencil.Calendar (exactly? char?)

/-- Digits without the underscores between them; an underscore stands between two digits. -/
def ungrouped? (p : Char → Bool) (s : List Char) : Option (List Char) :=
  let groups := Text.runs (· == '_') s
  if groups.all fun g => !g.isEmpty && g.all p then some groups.flatten else none

/-- Decimal digits without a superfluous zero at the head. -/
def whole? (s : List Char) : Option (List Char) :=
  (ungrouped? isAsciiDigit s).bind fun digits =>
    if digits.head? = some '0' && 1 < digits.length then none else some digits

/-- The number of digits of another base. -/
def based? (base : Nat) (digits : List Char) : Option Nat :=
  digits.foldlM (fun n c => (Text.hexDigit? c).bind fun d =>
    if d < base then some (base * n + d) else none) 0

def unsignedInt? : List Char → Option Nat
  | '0' :: 'x' :: s => (ungrouped? isHexDigit s).bind (based? 16)
  | '0' :: 'o' :: s => (ungrouped? isAsciiDigit s).bind (based? 8)
  | '0' :: 'b' :: s => (ungrouped? isAsciiDigit s).bind (based? 2)
  | _ => none

/-- An integer of 64 bits; only decimal ones have a sign. -/
def int? (s : List Char) : Option Int :=
  let read : Option Int :=
    match unsignedInt? s with
    | some n => some n
    | none => (whole? (signed s).2).map fun digits =>
      if (signed s).1 then -(digitsValue digits : Int) else digitsValue digits
  read.bind fun i => if -Int.pow 2 63 ≤ i && i < Int.pow 2 63 then some i else none

/-- The exponent after its letter. -/
def exponent? (s : List Char) : Option Int :=
  (ungrouped? isAsciiDigit (signed s).2).map fun digits =>
    if (signed s).1 then -(digitsValue digits : Int) else digitsValue digits

/-- A decimal number with a point, an exponent or both. -/
def decimal? (s : List Char) : Option Float := do
  let isMark (c : Char) := c == 'e' || c == 'E'
  let mantissa := s.takeWhile fun c => !isMark c
  let exponent ←
    match s.dropWhile fun c => !isMark c with
    | _ :: e => exponent? e
    | [] => some 0
  match Text.cut? ['.'] mantissa with
  | some (whole, fraction) => do
    let whole ← whole? whole
    let fraction ← ungrouped? isAsciiDigit fraction
    pure (Decimal.nearest (whole ++ fraction) (exponent - fraction.length))
  | none =>
    if mantissa.length = s.length then none
    else (whole? mantissa).map fun whole => Decimal.nearest whole exponent

/-- A float with a sign. One with a minus may be too large for a finite float, any other may not. -/
def float? (s : List Char) : Option Float :=
  let turned (x : Float) : Float := if (signed s).1 then -x else x
  match String.ofList (signed s).2 with
  | "inf" => some (turned (1.0 / 0.0))
  | "nan" => some (turned (0.0 / 0.0))
  | _ => (decimal? (signed s).2).bind fun x =>
    if x.isInf && !(signed s).1 then none else some (turned x)

/-- A number that is written with exactly two digits. -/
def two (n : Nat) : String := if n < 10 then "0" ++ toString n else toString n

def four (n : Nat) : String :=
  let text := toString n
  String.ofList (List.replicate (4 - text.length) '0') ++ text

/-- A date at the head, as it is shown. -/
def date? (s : List Char) : Option (String × List Char) := do
  let (year, s) ← exactly? 4 s
  let s ← char? (· == '-') s
  let (month, s) ← exactly? 2 s
  let s ← char? (· == '-') s
  let (day, s) ← exactly? 2 s
  let _ ← Calendar.Day.ofParts? year month day
  pure (four year ++ "-" ++ two month ++ "-" ++ two day, s)

/-- The fraction of a second; zeros at its end and digits beyond the ninth are not shown. -/
def fraction? : List Char → Option (String × List Char)
  | '.' :: s =>
    let digits := s.takeWhile isAsciiDigit
    let shown := Text.trimEnd (· == '0') (digits.take 9)
    if digits.isEmpty then none
    else some (if shown.isEmpty then "" else "." ++ String.ofList shown, s.drop digits.length)
  | s => some ("", s)

/-- A time at the head, as it is shown. -/
def time? (s : List Char) : Option (String × List Char) := do
  let (hour, s) ← exactly? 2 s
  let s ← char? (· == ':') s
  let (minute, s) ← exactly? 2 s
  let s ← char? (· == ':') s
  let (second, s) ← exactly? 2 s
  let (fraction, s) ← fraction? s
  if hour < 24 && minute < 60 && second ≤ 60 then
    pure (two hour ++ ":" ++ two minute ++ ":" ++ two second ++ fraction, s)
  else none

/-- The offset of a time, as it is shown; it may be missing. No offset at all is shown with a plus. -/
def offset? (s : List Char) : Option (String × List Char) :=
  match s with
  | c :: rest =>
    if c = 'Z' || c = 'z' then some ("Z", rest)
    else if c = '+' || c = '-' then do
      let (hour, rest) ← exactly? 2 rest
      let rest ← char? (· == ':') rest
      let (minute, rest) ← exactly? 2 rest
      if hour < 24 && minute < 60 then
        let sign := if hour = 0 ∧ minute = 0 then "+" else String.singleton c
        pure (sign ++ two hour ++ ":" ++ two minute, rest)
      else none
    else some ("", s)
  | [] => some ("", [])

/-- A date, a time or both at the head, as they are shown. -/
def moment? (s : List Char) : Option (String × List Char) :=
  match date? s with
  | some (date, rest) =>
    let joined : Option (List Char) :=
      match rest with
      | 'T' :: more => some more
      | 't' :: more => some more
      | ' ' :: more => if more.head?.any isAsciiDigit then some more else none
      | _ => none
    match joined with
    | some more => do
      let (time, more) ← time? more
      let (offset, more) ← offset? more
      pure (date ++ "T" ++ time ++ offset, more)
    | none => some (date, rest)
  | none => time? s

/-- Dates and times are objects with one field, under which their text stands. -/
def momentField : String := "$__toml_private_datetime"

def isScalarChar (c : Char) : Bool :=
  Text.isAsciiLetter c || isAsciiDigit c || c == '+' || c == '-' || c == '.' || c == '_' || c == ':'

/-- A value that is neither quoted nor made of others. -/
def scalar? (s : List Char) : Option (Value × List Char) :=
  match moment? s with
  | some (text, rest) => some (.object [(momentField, .string text)], rest)
  | none =>
    let word := s.takeWhile isScalarChar
    let rest := s.drop word.length
    if word = "true".toList then some (.bool true, rest)
    else if word = "false".toList then some (.bool false, rest)
    else
      match int? word with
      | some i => some (.number (.int i), rest)
      | none => (float? word).map fun x => (.number (.float x), rest)

end Stencil.Toml
