import Stencil.Json.Reader

/-!
Assignments `name=value` of template variables. The value is read as JSON, and as a text where it is
none.
-/

namespace Stencil

structure Assignment where
  name : String
  value : Value

namespace Assignment

inductive Fault where
  | withoutMark (text : String)
  | withoutName (text : String)
deriving DecidableEq, Repr

def Fault.message : Fault → String
  | withoutMark text => "--set 需要 KEY=VALUE 形式：" ++ text
  | withoutName text => "--set 的变量名不能为空：" ++ text

/-- The value that a text denotes. -/
def valueOf (text : String) : Value := (Json.ofText? text).getD (.string text)

/-- The first `=` divides the name from the value; white space around the name does not count. -/
def ofText (text : String) : Except Fault Assignment :=
  match Text.cut? ['='] text.toList with
  | none => .error (.withoutMark text)
  | some (before, after) =>
    let name := Text.trimBoth Text.isBlank before
    if name.isEmpty then .error (.withoutName text)
    else .ok ⟨String.ofList name, valueOf (String.ofList after)⟩

end Assignment

end Stencil
