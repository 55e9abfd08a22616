import Stencil.Value.Compare
import Stencil.Text.Casing

/-!
The methods of values, by name. Positions and lengths count characters or elements.
-/

namespace Stencil.Value

open Stencil.Text (after? cut? occurs pieces replaceFirst trim)

/-- The argument at a position, null if there are fewer. -/
def arg (args : List Value) (i : Nat) : Value := args[i]?.getD null

/-- The argument at a position, unless it is missing or null. -/
def given? (args : List Value) (i : Nat) : Option Value :=
  match args[i]? with
  | some null => none
  | v => v

/-- The text that an argument is displayed as, as characters. -/
def argChars (args : List Value) (i : Nat) : List Char := (arg args i).display.toList

/-- A position counted from the end if it is negative, kept between 0 and the length. -/
def clamped (i : Int) (length : Nat) : Nat :=
  if i < 0 then (length + i).toNat else min i.toNat length

/-- The position that an argument stands for; not-a-number stands for 0. -/
def position (args : List Value) (i length default : Nat) : Nat :=
  match given? args i with
  | none => default
  | some v => v.toNumber.whole?.elim 0 fun n => clamped n length

/-- The part between the two positions that the arguments give. -/
def slice {α : Type} (s : List α) (args : List Value) : List α :=
  let start := position args 0 s.length 0
  let stop := position args 1 s.length s.length
  (s.take stop).drop start

/-- The position of the first occurrence. -/
def indexIn (needle s : List Char) : Value :=
  match cut? needle s with
  | some (before, _) => ofNat before.length
  | none => .number (.int (-1))

/-- The character at a position; not-a-number counts as 0. -/
def charAt (s : List Char) (n : Number) : Value :=
  if n.isNegative then .string ""
  else ((n.whole?.elim (some 0) fun i => some i.toNat).bind fun i => s[i]?).elim (.string "") ofChar

/-- The parts between the separators; the empty separator parts all characters. -/
def splitAt (separator s : List Char) : List Value :=
  if separator.isEmpty then s.map ofChar
  else (pieces separator s).map fun p => .string (String.ofList p)

def joined (separator : String) (items : List Value) : String :=
  String.intercalate separator (items.map display)

/-- The methods of texts. -/
def stringMethod? (s : String) (name : String) (args : List Value) : Option Value :=
  match name with
  | "toUpperCase" => some (.string (Text.upper s))
  | "toLowerCase" => some (.string (Text.lower s))
  | "trim" => some (.string (trim s))
  | "includes" => some (.bool (occurs (argChars args 0) s.toList))
  | "startsWith" => some (.bool (after? (argChars args 0) s.toList).isSome)
  | "endsWith" => some (.bool (after? (argChars args 0).reverse s.toList.reverse).isSome)
  | "indexOf" => some (indexIn (argChars args 0) s.toList)
  | "charAt" => some (charAt s.toList (arg args 0).toNumber)
  | "slice" => some (.string (String.ofList (slice s.toList args)))
  | "split" =>
    match given? args 0 with
    | none => some (.array [.string s])
    | some separator => some (.array (splitAt separator.display.toList s.toList))
  | "replace" =>
    some (.string (String.ofList (replaceFirst (argChars args 0) (argChars args 1) s.toList)))
  | "concat" => some (.string (args.foldl (fun acc a => acc ++ a.display) s))
  | _ => none

/-- The elements that an argument adds to an array: those of an array, or itself. -/
def spliced : Value → List Value
  | array items => items
  | v => [v]

/-- The methods of arrays. -/
def arrayMethod? (items : List Value) (name : String) (args : List Value) : Option Value :=
  match name with
  | "includes" => some (.bool (items.any fun v => v.strictEq (arg args 0)))
  | "indexOf" =>
    match items.findIdx? fun v => v.strictEq (arg args 0) with
    | some i => some (ofNat i)
    | none => some (.number (.int (-1)))
  | "join" => some (.string (joined ((given? args 0).elim "," display) items))
  | "slice" => some (.array (slice items args))
  | "concat" => some (.array (items ++ args.flatMap spliced))
  | _ => none

/-- The number of places that an argument asks for, at most 100. -/
def places (v : Value) : Nat :=
  match v.toNumber.whole? with
  | some n => min n.toNat 100
  | none => 0

/-- The result of a method, if the value has a method of that name. -/
def method? (target : Value) (name : String) (args : List Value) : Option Value :=
  if name = "toString" then some (.string target.display)
  else
    match target with
    | string s => stringMethod? s name args
    | array items => arrayMethod? items name args
    | number n =>
      if name = "toFixed" then some (.string (Decimal.fixed (places (arg args 0)) n.toFloat))
      else none
    | object fields =>
      if name = "hasOwnProperty" then
        some (.bool (Entries.get? (arg args 0).display fields).isSome)
      else none
    | _ => none

end Stencil.Value
