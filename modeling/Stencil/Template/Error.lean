import Stencil.Script.Fault
import Stencil.Script.RuntimeError
import Stencil.Template.Frame

/-!
Why a template is not rendered, and the messages that say so.
-/

namespace Stencil

/-- Why a file cannot be read or written. -/
inductive FileFault where
  | notFound
  | notFolder
  | isFolder
  /-- A path with a null character. -/
  | nullInPath
  /-- A path or a name in it that is too long. -/
  | longPath
deriving DecidableEq, Repr

def FileFault.message : FileFault → String
  | notFound => "No such file or directory (os error 2)"
  | notFolder => "Not a directory (os error 20)"
  | isFolder => "Is a directory (os error 21)"
  | nullInPath => "file name contained an unexpected NUL byte"
  | longPath => "File name too long (os error 36)"

/-- A line of a template with the file it comes from and the lines around it. -/
structure Place where
  path : Option String
  line : Nat
  frame : String
deriving DecidableEq

namespace Place

def of (path : Option String) (source : String) (line : Nat) : Place :=
  ⟨path, line, sourceFrame source line⟩

/-- A message under the place and its frame. -/
def report (p : Place) (message : String) : String :=
  p.path.getD "ejs" ++ ":" ++ toString p.line ++ "\n" ++ p.frame ++ "\n\n" ++ message

end Place

inductive TemplateError where
  | cacheWithoutFilename
  | invalidDelimiters (opener closer : String)
  | unterminatedTag (place : Place) (closer : String)
  | badCode (place : Place) (fault : Script.Fault)
  | failed (place : Place) (cause : RuntimeError)
  | unreadable (path : String) (fault : FileFault)
  /-- A loop goes on beyond the rounds that it is given. -/
  | endless (place : Place)

namespace TemplateError

def message : TemplateError → String
  | cacheWithoutFilename => "\"cache\" 选项需要同时提供 \"filename\""
  | invalidDelimiters opener closer =>
    "标签分隔符必须非空且互不相同：open=" ++ Text.quoted opener ++ " close=" ++ Text.quoted closer
  | unterminatedTag place closer => place.report ("未闭合的标签，缺少 '" ++ closer ++ "'")
  | badCode place fault => place.report fault.message
  | failed place cause => place.report cause.message
  | unreadable path fault => "读取模板 " ++ path ++ " 失败：" ++ fault.message
  | endless place => place.report "循环没有结束"

def place? : TemplateError → Option Place
  | unterminatedTag place _ => some place
  | badCode place _ => some place
  | failed place _ => some place
  | endless place => some place
  | _ => none

def path? (e : TemplateError) : Option String := e.place?.bind Place.path

def line? (e : TemplateError) : Option Nat := e.place?.map Place.line

/-- The message of what lies behind the error, if it says more than the error alone. -/
def cause? : TemplateError → Option String
  | failed _ cause => some cause.message
  | unreadable _ fault => some fault.message
  | _ => none

end TemplateError

end Stencil
