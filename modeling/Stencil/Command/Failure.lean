import Stencil.Assignment
import Stencil.Project

/-!
Why a command fails, and how that is reported.
-/

namespace Stencil

inductive Failure where
  | project (fault : Project.Fault)
  /-- A data file that cannot be read. -/
  | noData (path : String) (fault : FileFault)
  /-- A data file whose text is not that of options. -/
  | badData
  | assignment (fault : Assignment.Fault)
  | template (e : TemplateError)
  | unread (path : String) (fault : FileFault)
  | unwritten (path : String) (fault : FileFault)
  | unchecked (errors warnings : Nat)

namespace Failure

def message : Failure → String
  | project fault => fault.message
  | noData path _ => "读取数据文件 " ++ path ++ " 失败"
  | badData => Options.jsonFault
  | assignment fault => fault.message
  | template e => e.message
  | unread path _ => "读取 " ++ path ++ " 失败"
  | unwritten path _ => "写入 " ++ path ++ " 失败"
  | unchecked errors warnings =>
    "检查未通过：" ++ toString errors ++ " 个错误，" ++ toString warnings ++ " 个警告"

/-- What lies behind the failure. -/
def cause? : Failure → Option String
  | project fault => fault.cause?
  | noData _ fault => some fault.message
  | template e => e.cause?
  | unread _ fault => some fault.message
  | unwritten _ fault => some fault.message
  | _ => none

/-- A text with each of its lines moved to the right. -/
def indented (text : String) : String :=
  String.intercalate "\n" ((Text.split (· == '\n') text).map ("    " ++ ·))

/-- The message, and the cause in a paragraph of its own. -/
def text (f : Failure) : String :=
  "Error: " ++ f.message ++
    f.cause?.elim "" fun cause => "\n\nCaused by:\n" ++ indented cause

end Failure

end Stencil
