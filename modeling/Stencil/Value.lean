import Stencil.Entries
import Stencil.Number
import Stencil.Text.Search
import Stencil.Decimal.Reading

/-!
The values that templates work with, and how a value counts as a truth value, as a text and as a
number.
-/

namespace Stencil

/-- A template value. The fields of an object stand in the order of their names. -/
inductive Value where
  | null
  | bool (b : Bool)
  | number (n : Number)
  | string (s : String)
  | array (items : List Value)
  | object (fields : List (String × Value))
deriving Inhabited

namespace Value

def ofNat (n : Nat) : Value := .number (.int n)

/-- The value of a float: a whole number below 2^53 becomes a whole number, and a number that is
not finite has no value. -/
def ofFloat (x : Float) : Value :=
  if !x.isFinite then .null
  else if (Decimal.Binary.ofFloat x).isWhole && x.abs < 9007199254740992 then
    .number (.int (Decimal.truncate x))
  else .number (.float x)

def ofChar (c : Char) : Value := .string (String.singleton c)

def isNull : Value → Bool
  | null => true
  | _ => false

/-- False are null, `false`, zero, not-a-number and the empty text. -/
def truthy : Value → Bool
  | null => false
  | bool b => b
  | number n => n.truthy
  | string s => s ≠ ""
  | array _ => true
  | object _ => true

mutual

/-- The text that a value contributes to the output. -/
def display : Value → String
  | null => ""
  | bool b => if b then "true" else "false"
  | number n => n.text
  | string s => s
  | array items => String.intercalate "," (displayAll items)
  | object _ => "[object Object]"

def displayAll : List Value → List String
  | [] => []
  | v :: rest => v.display :: displayAll rest

end

/-- The value as a number: an empty text is zero, and an array of one element counts as it. -/
def toNumber : Value → Number
  | null => .int 0
  | bool b => .int (if b then 1 else 0)
  | number n => n
  | string s =>
    let s := Text.trimBoth Text.isBlank s.toList
    if s.isEmpty then .int 0 else .float ((Decimal.float? s).getD (0.0 / 0.0))
  | array [] => .int 0
  | array [v] => v.toNumber
  | array (_ :: _ :: _) => .float (0.0 / 0.0)
  | object _ => .float (0.0 / 0.0)

def toFloat (v : Value) : Float := v.toNumber.toFloat

/-- The name of the kind of a value. -/
def typeName : Value → String
  | bool _ => "boolean"
  | number _ => "number"
  | string _ => "string"
  | null => "object"
  | array _ => "object"
  | object _ => "object"

/-- The whole number as a position in a text or an array. -/
def index? : Value → Option Nat
  | number n => n.index?
  | string s => (Decimal.float? s.toList).bind fun x => (Number.float x).index?
  | _ => none

/-- The property of a value under a key: a field, an element, a character or the length. Only null
has no properties at all. -/
def property? (target key : Value) : Option Value :=
  match target with
  | null => none
  | bool _ => some .null
  | number _ => some .null
  | object fields => some ((Entries.get? key.display fields).getD .null)
  | array items =>
    match key with
    | string "length" => some (ofNat items.length)
    | key => some ((key.index?.bind fun i => items[i]?).getD .null)
  | string s =>
    match key with
    | string "length" => some (ofNat s.length)
    | key => some ((key.index?.bind fun i => s.toList[i]?).elim .null ofChar)

/-- The property, null where there is none. -/
def property (target key : Value) : Value := (target.property? key).getD .null

end Value

end Stencil
