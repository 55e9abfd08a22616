import Stencil.Command
import Stencil.Command.Arguments

/-!
Requests from the arguments of the program: options that hold for all commands, the name of a command,
and its own options and operands.
-/

namespace Stencil.Request

def configSwitch : Switch := ⟨"config", some 'c', .path, false⟩

/-- The options that all commands have. -/
def sourceSwitches : List Switch :=
  [configSwitch, ⟨"open", none, .text, false⟩, ⟨"close", none, .text, false⟩,
    ⟨"keep-space", none, .nothing, false⟩, ⟨"debug", none, .nothing, false⟩]

def renderSwitches : List Switch :=
  sourceSwitches ++
    [⟨"data", some 'd', .path, false⟩, ⟨"set", some 's', .text, true⟩,
      ⟨"output", some 'o', .path, false⟩, ⟨"layout", none, .text, false⟩,
      ⟨"views", none, .path, false⟩]

def settings (a : Arguments) : SourceSettings :=
  ⟨a.value? "open", a.value? "close", a.isGiven "keep-space", a.isGiven "debug"⟩

/-- The only operand of a command. -/
def file? (a : Arguments) : Option String :=
  match a.operands with
  | [path] => some path
  | _ => none

def page? (a : Arguments) : Option Page :=
  (file? a).map fun path =>
    ⟨path, settings a, a.value? "data", a.values "set", a.value? "output", a.value? "layout",
      a.value? "views"⟩

/-- Reads the arguments of a command. Its operands are paths, and a configuration that it names wins. -/
def complete? (project : Option String) (switches : List Switch) (args : List String)
    (command : Arguments → Option Command) : Option Request := do
  let a ← Arguments.read? switches args
  if a.operands.any String.isEmpty then none
  else (command a).map fun c => ⟨(a.value? "config").or project, c⟩

/-- The paths to be checked: the working directory if there are none. -/
def checked (a : Arguments) : List String := if a.operands.isEmpty then ["."] else a.operands

def command? (project : Option String) : List String → Option Request
  | "render" :: args => complete? project renderSwitches args fun a => (page? a).map .render
  | "parse" :: args =>
    complete? project sourceSwitches args fun a => (file? a).map (.parse (settings a))
  | "check" :: args =>
    complete? project sourceSwitches args fun a => some (.check (settings a) (checked a))
  | _ => none

/-- The options before the name of the command, which begins the rest. -/
def leading? : List String → Option (Arguments × List String)
  | [] => some (.empty, [])
  | argument :: rest =>
    match Switch.kind [configSwitch] argument with
    | .operand => some (.empty, argument :: rest)
    | .stop => none
    | .unknown => none
    | .use ⟨s, some value⟩ => do
      let (a, rest) ← leading? rest
      let a ← a.give? s value
      some (a, rest)
    | .use ⟨s, none⟩ =>
      match rest with
      | value :: rest =>
        if Switch.isValue value then do
          let (a, rest) ← leading? rest
          let a ← a.give? s value
          some (a, rest)
        else none
      | [] => none

/-- The request of all arguments, if they are one. -/
def ofArguments? (args : List String) : Option Request :=
  (leading? args).bind fun (a, rest) => command? (a.value? "config") rest

end Stencil.Request
