import Stencil.Text.Hex
import Stencil.Text.Search

/-!
Text in markup: characters that mean something there are written as entities, and entities that stand
in the text already are left alone.
-/

namespace Stencil.Text

def isAsciiAlphanumeric (c : Char) : Bool := isAsciiLetter c || isAsciiDigit c

/-- At least one character, and all of them of a kind. -/
def isRun (p : Char → Bool) (s : List Char) : Bool := !s.isEmpty && s.all p

/-- What stands between the ampersand and the semicolon of an entity: a name, or a number in decimal or
hexadecimal form. -/
def isEntityName : List Char → Bool
  | '#' :: 'x' :: digits => isRun isHexDigit digits
  | '#' :: 'X' :: digits => isRun isHexDigit digits
  | '#' :: digits => isRun isAsciiDigit digits
  | name => isRun isAsciiAlphanumeric name

/-- The text after an ampersand completes an entity. -/
def completesEntity (s : List Char) : Bool :=
  match cut? [';'] s with
  | some (name, _) => isEntityName name
  | none => false

/-- The entity that a character is written as. -/
def entity? (c : Char) : Option String :=
  match c with
  | '<' => some "&lt;"
  | '>' => some "&gt;"
  | '"' => some "&quot;"
  | '\'' => some "&#39;"
  | _ => none

def escapeChars : List Char → List Char
  | [] => []
  | c :: rest =>
    if c = '&' then
      (if completesEntity rest then ['&'] else "&amp;".toList) ++ escapeChars rest
    else ((entity? c).elim [c] String.toList) ++ escapeChars rest

def escape (s : String) : String := String.ofList (escapeChars s.toList)

end Stencil.Text
