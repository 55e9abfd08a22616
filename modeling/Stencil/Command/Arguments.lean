/-!
The arguments of a command line: options with or without values, and operands. Which options there are
is given by a list of switches.
-/

namespace Stencil

/-- What an option takes. -/
inductive Operand where
  | nothing
  | text
  /-- A path is not empty. -/
  | path
deriving DecidableEq, Repr

/-- An option of the command line with its long name, and the letter that stands for it. -/
structure Switch where
  name : String
  letter : Option Char
  operand : Operand
  /-- The option may be given more than once. -/
  repeats : Bool

/-- The options that are given, in order, and the operands. -/
structure Arguments where
  given : List (String × String)
  operands : List String

namespace Arguments

def empty : Arguments := ⟨[], []⟩

def isGiven (a : Arguments) (name : String) : Bool := a.given.any fun g => g.1 = name

/-- All values of an option. -/
def values (a : Arguments) (name : String) : List String :=
  (a.given.filter fun g => g.1 = name).map (·.2)

def value? (a : Arguments) (name : String) : Option String := (a.values name).head?

/-- One more option in front; an option that does not repeat stands once. -/
def give? (s : Switch) (value : String) (a : Arguments) : Option Arguments :=
  if !s.repeats && a.isGiven s.name then none
  else if s.operand = .path && value.isEmpty then none
  else some { a with given := (s.name, value) :: a.given }

def operate (operand : String) (a : Arguments) : Arguments :=
  { a with operands := operand :: a.operands }

end Arguments

namespace Switch

/-- How an argument begins an option: the option, and the value that is attached to it. -/
structure Use where
  switch : Switch
  attached : Option String

/-- An option with its long name, and possibly a value after `=`. -/
def long? (switches : List Switch) (text : List Char) : Option Use :=
  let name := String.ofList (text.takeWhile (· ≠ '='))
  let attached := (text.dropWhile (· ≠ '=')).tail?.map String.ofList
  (switches.find? fun s => s.name = name).map fun s => ⟨s, attached⟩

/-- An option with its letter, and possibly a value right after it. -/
def short? (switches : List Switch) (letter : Char) (text : List Char) : Option Use :=
  let attached :=
    match text with
    | [] => none
    | '=' :: text => some (String.ofList text)
    | text => some (String.ofList text)
  (switches.find? fun s => s.letter = some letter).map fun s => ⟨s, attached⟩

/-- What an argument is. -/
inductive Kind where
  | operand
  /-- All that follows is operands. -/
  | stop
  | unknown
  | use (u : Use)

def ofOption : Option Use → Kind
  | some u => .use u
  | none => .unknown

def kind (switches : List Switch) (argument : String) : Kind :=
  match argument.toList with
  | ['-', '-'] => .stop
  | '-' :: '-' :: text => ofOption (long? switches text)
  | '-' :: letter :: text => ofOption (short? switches letter text)
  | _ => .operand

/-- A text that may follow an option as its value. -/
def isValue (argument : String) : Bool := argument = "-" || !argument.startsWith "-"

end Switch

open Switch in
/-- The arguments of a command. -/
def Arguments.read? (switches : List Switch) : List String → Option Arguments
  | [] => some .empty
  | argument :: rest =>
    match kind switches argument with
    | .operand => (read? switches rest).map (operate argument)
    | .stop => some ⟨[], rest⟩
    | .unknown => none
    | .use ⟨s, attached⟩ =>
      match s.operand, attached with
      | .nothing, none => (read? switches rest).bind (give? s "")
      | .nothing, some _ => none
      | _, some value => (read? switches rest).bind (give? s value)
      | _, none =>
        match rest with
        | value :: rest => if isValue value then (read? switches rest).bind (give? s value) else none
        | [] => none

end Stencil
