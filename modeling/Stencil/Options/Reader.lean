import Stencil.Json.Reader
import Stencil.Options

/-!
Options from the fields of an object. Fields with names of their own have types of their own and may
stand once; every other field is data, and of repeated ones the last counts.
-/

namespace Stencil.Options

def fieldNames : List String :=
  ["open", "close", "eatspace", "cache", "filename", "debug", "locals", "scope", "layout", "views"]

/-- The value of a field, or the default if it is missing; nothing if it stands twice or its value is
not of the right type. -/
def field? {α : Type} (fields : List (String × Value)) (name : String) (read : Value → Option α)
    (default : α) : Option α :=
  match fields.filter fun f => f.1 = name with
  | [] => some default
  | [(_, v)] => read v
  | _ => none

def bool? : Value → Option Bool
  | .bool b => some b
  | _ => none

def text? : Value → Option String
  | .string s => some s
  | _ => none

def optionalText? : Value → Option (Option String)
  | .null => some none
  | .string s => some (some s)
  | _ => none

def table? : Value → Option (Table Value)
  | .object fields => some (Table.ofList fields)
  | _ => none

def ofFields? (fields : List (String × Value)) : Option Options := do
  let opener ← field? fields "open" text? initial.opener
  let closer ← field? fields "close" text? initial.closer
  let eatspace ← field? fields "eatspace" bool? initial.eatspace
  let cache ← field? fields "cache" bool? initial.cache
  let filename ← field? fields "filename" optionalText? initial.filename
  let debug ← field? fields "debug" bool? initial.debug
  let locals ← field? fields "locals" table? initial.locals
  let scope ← field? fields "scope" some initial.scope
  let layout ← field? fields "layout" optionalText? initial.layout
  let views ← field? fields "views" optionalText? initial.views
  let data := Table.ofList (fields.filter fun f => !fieldNames.contains f.1)
  some ⟨opener, closer, eatspace, cache, filename, debug, locals, scope, layout, views, data⟩

/-- What is said of a JSON text that denotes no options. -/
def jsonFault : String := "解析 JSON 选项失败"

/-- The options that a JSON text denotes, which must be an object. -/
def ofJson? (text : String) : Option Options := (Json.fieldsOfText? text).bind ofFields?

end Stencil.Options
