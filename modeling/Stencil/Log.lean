/-!
The log: entries with a level, and the lines in which they are shown.
-/

namespace Stencil.Log

inductive Level where
  | error
  | warning
  | info
  | debug
  | trace
deriving DecidableEq, Repr

/-- How much a level lets through. -/
def Level.rank : Level → Nat
  | error => 1
  | warning => 2
  | info => 3
  | debug => 4
  | trace => 5

def Level.label : Level → String
  | error => "ERROR"
  | warning => "WARN"
  | info => "INFO"
  | debug => "DEBUG"
  | trace => "TRACE"

/-- The name under which the program logs; the names of its parts begin with it. -/
def programName : String := "ejs"

structure Entry where
  level : Level
  /-- The part of the program that the entry comes from. -/
  source : String
  message : String
  /-- What the entry is about: texts with names. -/
  details : List (String × String)

/-- An entry of the program itself. -/
def Entry.ofProgram (level : Level) (message : String) : Entry := ⟨level, programName, message, []⟩

/-- Characters that steer a terminal are written as escapes. -/
def harmless (c : Char) : List Char :=
  if c = '\x07' ∨ c = '\x08' ∨ c = '\x0c' ∨ c = '\x1b' ∨ c = '\x7f' then
    ['\\', 'x', Nat.digitChar (c.toNat / 16), Nat.digitChar (c.toNat % 16)]
  else if 0x80 ≤ c.toNat ∧ c.toNat ≤ 0x9F then
    ['\\', 'u', '{', Nat.digitChar (c.toNat / 16), Nat.digitChar (c.toNat % 16), '}']
  else [c]

/-- The lines of an entry begin with its level and end with its details. -/
def Entry.text (e : Entry) : String :=
  e.level.label ++ " " ++ String.ofList (e.message.toList.flatMap harmless) ++
    String.join (e.details.map fun d => " " ++ d.1 ++ "=" ++ d.2)

end Stencil.Log
