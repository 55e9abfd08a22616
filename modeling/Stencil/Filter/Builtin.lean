import Stencil.Digest.Md5
import Stencil.Digest.Sha256
import Stencil.Environment
import Stencil.Filter.Date
import Stencil.Filter.Sort
import Stencil.Filter.Words
import Stencil.Json.Printer
import Stencil.Value.Method

/-!
The filters that every environment begins with.
-/

namespace Stencil.Filter

open Stencil.Value (arg argChars given?)

/-- A filter that cannot fail. -/
def total (f : Value → List Value → Value) : Filter := fun v args => .ok (f v args)

/-- A filter on the text of a value. -/
def onText (f : String → String) : Filter := total fun v _ => .string (f v.display)

def last : Value → Value
  | .array items => items.getLast?.getD .null
  | .string s => s.toList.getLast?.elim .null .ofChar
  | _ => .null

def size : Value → Value
  | .array items => .ofNat items.length
  | .string s => .ofNat s.length
  | .object fields => .ofNat fields.length
  | _ => .null

/-- A filter on arrays alone. -/
def onArray (f : List Value → List Value → Value) : Filter := fun v args =>
  match v with
  | .array items => .ok (f items args)
  | v => .error ("期望数组，实际为 " ++ v.typeName)

def sortBy (items args : List Value) : Value :=
  .array (Value.sortOn (fun v => v.property (arg args 0)) items)

def join (v : Value) (args : List Value) : Value :=
  let separator := (given? args 0).elim ", " Value.display
  match v with
  | .array items => .string (Value.joined separator items)
  | v => .string v.display

/-- A text of more characters than the first argument says is cut off there, and the second argument
is added to it. -/
def truncate : Filter := fun v args =>
  let n := (arg args 0).toNumber
  match n.whole? with
  | none => .error "长度必须是非负数"
  | some length =>
    if n.isNegative then .error "长度必须是非负数"
    else
      let s := v.display
      if s.length ≤ length.toNat then .ok (.string s)
      else
        let cut := String.ofList (s.toList.take length.toNat)
        .ok (.string (cut ++ (given? args 1).elim "" Value.display))

/-- The first words, as many as the argument says. -/
def truncateWords (v : Value) (args : List Value) : Value :=
  .string (Words.firstWords ((arg args 0).toNumber.whole?.elim 0 Int.toNat) v.display)

def replace (v : Value) (args : List Value) : Value :=
  .string (String.ofList
    (Text.replaceFirst (argChars args 0) (argChars args 1) v.display.toList))

def prepend (v : Value) (args : List Value) : Value :=
  match v with
  | .array items => .array (arg args 0 :: items)
  | v => .string ((arg args 0).display ++ v.display)

def append (v : Value) (args : List Value) : Value :=
  match v with
  | .array items => .array (items ++ [arg args 0])
  | v => .string (v.display ++ (arg args 0).display)

def map (items args : List Value) : Value :=
  .array (items.map fun v => v.property (arg args 0))

def reverse : Value → Value
  | .array items => .array items.reverse
  | v => .string (String.ofList v.display.toList.reverse)

def builtins : List (String × Filter) :=
  [("first", total fun v _ => v.property (.ofNat 0)),
    ("last", total fun v _ => last v),
    ("capitalize", onText Text.capitalize),
    ("downcase", onText Text.lower),
    ("lower", onText Text.lower),
    ("upcase", onText Text.upper),
    ("upper", onText Text.upper),
    ("sort", onArray fun items _ => .array (Value.sortOn id items)),
    ("sort_by", onArray sortBy),
    ("size", total fun v _ => size v),
    ("length", total fun v _ => size v),
    ("plus", total fun v args => .ofFloat (v.toFloat + (arg args 0).toFloat)),
    ("minus", total fun v args => v.sub (arg args 0)),
    ("times", total fun v args => v.mul (arg args 0)),
    ("divided_by", total fun v args => v.div (arg args 0)),
    ("join", total join),
    ("truncate", truncate),
    ("truncate_words", total truncateWords),
    ("replace", total replace),
    ("prepend", total prepend),
    ("append", total append),
    ("map", onArray map),
    ("reverse", total fun v _ => reverse v),
    ("get", total fun v args => v.property (arg args 0)),
    ("json", total fun v _ => .string (Json.text v)),
    ("slugify", onText Words.slug),
    ("wordcount", total fun v _ => .ofNat (Words.count v.display)),
    ("md5", onText fun s => Digest.Md5.digest s.toUTF8.toList),
    ("sha256", onText fun s => Digest.Sha256.digest s.toUTF8.toList),
    ("date", fun v args => (date v args).mapError DateError.message)]

end Stencil.Filter
