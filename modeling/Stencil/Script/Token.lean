import Stencil.Text.Letter

/-!
The tokens of template code.
-/

namespace Stencil.Script

/-- The marks that code is punctuated with. -/
inductive Punct where
  | identical | notIdentical | equal | notEqual | atMost | atLeast | both | either
  | increment | decrement | addTo | takeFrom | multiplyBy | divideBy
  | plus | minus | times | divided | modulo | less | greater | set | bang | question
  | colon | dot | comma | semicolon
  | openParen | closeParen | openBracket | closeBracket | openBrace | closeBrace
deriving DecidableEq, Repr

namespace Punct

def text : Punct → String
  | identical => "==="
  | notIdentical => "!=="
  | equal => "=="
  | notEqual => "!="
  | atMost => "<="
  | atLeast => ">="
  | both => "&&"
  | either => "||"
  | increment => "++"
  | decrement => "--"
  | addTo => "+="
  | takeFrom => "-="
  | multiplyBy => "*="
  | divideBy => "/="
  | plus => "+"
  | minus => "-"
  | times => "*"
  | divided => "/"
  | modulo => "%"
  | less => "<"
  | greater => ">"
  | set => "="
  | bang => "!"
  | question => "?"
  | colon => ":"
  | dot => "."
  | comma => ","
  | semicolon => ";"
  | openParen => "("
  | closeParen => ")"
  | openBracket => "["
  | closeBracket => "]"
  | openBrace => "\x7b"
  | closeBrace => "\x7d"

/-- All marks; a longer one stands before those it begins with. -/
def all : List Punct :=
  [identical, notIdentical, equal, notEqual, atMost, atLeast, both, either, increment, decrement,
    addTo, takeFrom, multiplyBy, divideBy, plus, minus, times, divided, modulo, less, greater, set,
    bang, question, colon, dot, comma, semicolon, openParen, closeParen, openBracket,
    closeBracket, openBrace, closeBrace]

theorem mem_all (p : Punct) : p ∈ all := by cases p <;> decide

theorem text_ne_nil (p : Punct) : p.text.toList ≠ [] := by cases p <;> decide

end Punct

inductive Lexeme where
  /-- A name or a keyword. -/
  | word (name : String)
  | number (x : Float)
  /-- A quoted text, its escapes resolved. -/
  | text (s : String)
  | mark (p : Punct)
deriving DecidableEq

/-- A lexeme with the line on which its tag opens. -/
structure Token where
  lexeme : Lexeme
  line : Nat
deriving DecidableEq

/-- Names begin with a letter, an underscore or a dollar sign. -/
def isNameStart (c : Char) : Bool := Text.isAlphabetic c || c == '_' || c == '$'

def isNamePart (c : Char) : Bool := Text.isAlphanumeric c || c == '_' || c == '$'

/-- The words that are no names of variables. -/
def reserved : List String :=
  ["if", "else", "for", "while", "var", "let", "const", "break", "continue", "typeof", "of", "in",
    "true", "false", "null", "undefined", "this", "function", "return"]

def isReserved (name : String) : Bool := reserved.contains name

end Stencil.Script
