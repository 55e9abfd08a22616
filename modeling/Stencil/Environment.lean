import Stencil.Table
import Stencil.Script.RuntimeError

/-!
What templates are compiled against: filters, functions and the escaper.
-/

namespace Stencil

/-- A filter takes the value on its left and further arguments, and may fail with a message. -/
abbrev Filter := Value → List Value → Except String Value

abbrev Function := List Value → Except String Value

/-- The text that an escaped output tag gives for a value. -/
abbrev Escaper := Value → String

structure Environment where
  filters : Table Filter
  functions : Table Function
  escaper : Escaper

namespace Environment

def filter (env : Environment) (name : String) (v : Value) (args : List Value) :
    Except RuntimeError Value :=
  match env.filters.get? name with
  | none => .error (.unknownFilter name)
  | some f => (f v args).mapError (.filterFailed name)

def call (env : Environment) (name : String) (args : List Value) : Except RuntimeError Value :=
  match env.functions.get? name with
  | none => .error (.notAFunction name)
  | some f => (f args).mapError (.functionFailed name)

def addFilter (env : Environment) (name : String) (f : Filter) : Environment :=
  { env with filters := env.filters.insert name f }

def addFunction (env : Environment) (name : String) (f : Function) : Environment :=
  { env with functions := env.functions.insert name f }

end Environment

end Stencil
