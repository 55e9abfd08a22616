import Stencil.Options.Reader
import Stencil.Template.Error
import Stencil.Files.Tree
import Stencil.Toml.Reader

/-!
The configuration of a project: how much is logged, and the options that rendering starts from.
-/

namespace Stencil

structure Project where
  /-- The filter of the log. -/
  logLevel : String
  options : Options

namespace Project

/-- Why there is no configuration. -/
inductive Fault where
  | unreadable (path : String) (fault : FileFault)
  | malformed (path : String)

def Fault.message : Fault → String
  | unreadable path _ => "读取 " ++ path ++ " 失败"
  | malformed path => "解析 " ++ path ++ " 失败"

def Fault.cause? : Fault → Option String
  | unreadable _ fault => some fault.message
  | malformed _ => none

def initial : Project := ⟨"info", .initial⟩

mutual

/-- The value with null for each float that is not finite. -/
def withFinite : Value → Value
  | .number n => if n.toFloat.isFinite then .number n else .null
  | .array items => .array (withFiniteItems items)
  | .object fields => .object (withFiniteFields fields)
  | v => v

def withFiniteItems : List Value → List Value
  | [] => []
  | v :: rest => withFinite v :: withFiniteItems rest

def withFiniteFields : List (String × Value) → List (String × Value)
  | [] => []
  | (name, v) :: rest => (name, withFinite v) :: withFiniteFields rest

end

def finiteTable (t : Table Value) : Table Value := .ofList (withFiniteFields t.entries)

/-- Options from a table of the configuration; the values in them are finite. -/
def options? : Value → Option Options
  | .object fields => (Options.ofFields? fields).map fun o =>
    { o with
      locals := finiteTable o.locals
      scope := withFinite o.scope
      data := finiteTable o.data }
  | _ => none

/-- A configuration from the fields of a text; other fields are ignored. -/
def ofFields? (fields : List (String × Value)) : Option Project := do
  let logLevel ← Options.field? fields "log_level" Options.text? initial.logLevel
  let options ← Options.field? fields "options" options? initial.options
  some ⟨logLevel, options⟩

def ofText? (text : String) : Option Project :=
  match Toml.ofText? text with
  | some (.object fields) => ofFields? fields
  | _ => none

/-- The configuration in a file. -/
def load (files : FileTree) (path : String) : Except Fault Project :=
  match files.read path with
  | .error fault => .error (.unreadable path fault)
  | .ok text => (ofText? text).elim (.error (.malformed path)) .ok

/-- The file that holds the configuration unless another one is named. -/
def defaultPath : String := "ejs.toml"

/-- The configuration in the named file; where none is named, that in the default file if it exists,
and else the initial one. -/
def choose (files : FileTree) : Option String → Except Fault Project
  | some path => load files path
  | none => if files.has defaultPath then load files defaultPath else .ok initial

end Project

end Stencil
