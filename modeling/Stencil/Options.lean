import Stencil.Table
import Stencil.Value

/-!
The options of a template: how its source is read, and the values it is rendered with. Later options
are layered on earlier ones by `Options.merge`.
-/

namespace Stencil

structure Options where
  opener : String
  closer : String
  /-- White space between tags is reduced. -/
  eatspace : Bool
  /-- Compiled templates are kept under their file name. -/
  cache : Bool
  filename : Option String
  /-- Compiling lists the segments in the log. -/
  debug : Bool
  /-- Values that count where `data` and the options have none of the same name. -/
  locals : Table Value
  /-- The value of `this`. -/
  scope : Value
  layout : Option String
  /-- The directory of layouts. -/
  views : Option String
  data : Table Value

namespace Options

def initial : Options where
  opener := "<%"
  closer := "%>"
  eatspace := true
  cache := false
  filename := none
  debug := false
  locals := ∅
  scope := .null
  layout := none
  views := none
  data := ∅

instance : Inhabited Options := ⟨initial⟩

/-- Gives a template variable a value. -/
def set (o : Options) (name : String) (v : Value) : Options :=
  { o with data := o.data.insert name v }

/-- An optional text under a name. -/
def textField (name : String) : Option String → List (String × Value)
  | some s => [(name, .string s)]
  | none => []

/-- The values that a template sees: the options, and the data, which win. -/
def values (o : Options) : Table Value :=
  (Table.ofList
    ([("open", .string o.opener), ("close", .string o.closer), ("eatspace", .bool o.eatspace),
      ("cache", .bool o.cache), ("debug", .bool o.debug)] ++ textField "filename" o.filename ++
      textField "layout" o.layout ++ textField "views" o.views)).extend o.data

/-- Layers options on others. Those that differ from the initial ones win; tables are joined. -/
def merge (o other : Options) : Options where
  opener := if other.opener = initial.opener then o.opener else other.opener
  closer := if other.closer = initial.closer then o.closer else other.closer
  eatspace := o.eatspace && other.eatspace
  cache := o.cache || other.cache
  filename := other.filename.or o.filename
  debug := o.debug || other.debug
  locals := o.locals.extend other.locals
  scope := if other.scope.isNull then o.scope else other.scope
  layout := other.layout.or o.layout
  views := other.views.or o.views
  data := o.data.extend other.data

end Options

end Stencil
