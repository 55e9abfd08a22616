import Stencil.Value
import Stencil.Text.Quoted

/-!
The JSON text of a value: compact, the fields of an object in the order of their names.
-/

namespace Stencil.Json

/-- Floats always show that they are floats, and have an exponent from 10^16 up and below 10^-5. -/
def layout : Decimal.Layout := ⟨fun e => -5 ≤ e ∧ e < 16, true, .toEven⟩

def numberText : Number → String
  | .int i => toString i
  | .float x => layout.float x

/-- A character between quotes; only what must be escaped is. -/
def quotedChar (c : Char) : List Char :=
  match c with
  | '"' => ['\\', '"']
  | '\\' => ['\\', '\\']
  | '\x08' => ['\\', 'b']
  | '\x0c' => ['\\', 'f']
  | '\n' => ['\\', 'n']
  | '\r' => ['\\', 'r']
  | '\t' => ['\\', 't']
  | c =>
    if c.toNat < 32 then
      let digits := Text.hexDigits c.toNat
      ['\\', 'u'] ++ List.replicate (4 - digits.length) '0' ++ digits
    else [c]

def quoted (s : String) : String :=
  String.ofList ('"' :: s.toList.flatMap quotedChar ++ ['"'])

mutual

def text : Value → String
  | .null => "null"
  | .bool b => if b then "true" else "false"
  | .number n => numberText n
  | .string s => quoted s
  | .array items => "[" ++ String.intercalate "," (texts items) ++ "]"
  | .object fields => "\x7b" ++ String.intercalate "," (fieldTexts fields) ++ "\x7d"

def texts : List Value → List String
  | [] => []
  | v :: rest => text v :: texts rest

def fieldTexts : List (String × Value) → List String
  | [] => []
  | (name, v) :: rest => (quoted name ++ ":" ++ text v) :: fieldTexts rest

end

end Stencil.Json
