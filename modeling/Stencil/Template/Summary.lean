import Stencil.Template
import Stencil.Text.Quoted

/-!
Short descriptions of templates and environments for people who look for mistakes.
-/

namespace Stencil

/-- A name with its fields between braces. -/
def summaryOf (name : String) (fields : List String) : String :=
  name ++ " \x7b " ++ String.intercalate ", " fields ++ " \x7d"

/-- The names in a table, in order. -/
def Table.summary {α : Type} (t : Table α) : String :=
  "[" ++ String.intercalate ", " (t.names.map Text.quoted) ++ "]"

/-- The file name and the number of segments. -/
def Template.summary (t : Template) : String :=
  summaryOf "Template"
    ["filename: " ++ t.filename.elim "None" fun name => "Some(" ++ Text.quoted name ++ ")",
      "segments: " ++ toString t.segments.length]

/-- The names of the filters and the functions. -/
def Environment.summary (env : Environment) : String :=
  summaryOf "Environment"
    ["filters: " ++ summaryOf "FilterRegistry" ["filters: " ++ env.filters.summary],
      "functions: " ++ summaryOf "FunctionRegistry" ["functions: " ++ env.functions.summary], ".."]

end Stencil
