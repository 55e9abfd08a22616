import Stencil.Text.Runs

/-!
Paths as texts: parts separated by slashes. The name of a path is its last part other than empty
parts and single dots.
-/

namespace Stencil.Path

/-- The most bytes of a path. -/
def maxSize : Nat := 4095

/-- A name of more than 255 bytes, which no file has. -/
def isLongName (name : String) : Bool := 255 < name.utf8ByteSize

def isSlash (c : Char) : Bool := c == '/'

def parts (path : String) : List String := Text.split isSlash path

/-- A path below a directory; an absolute path is itself. -/
def join (directory path : String) : String :=
  if path.startsWith "/" then path
  else if directory.isEmpty || directory.endsWith "/" then directory ++ path
  else directory ++ "/" ++ path

/-- The characters of a path backwards, without slashes and single dots at its end. -/
def trimmedBack : List Char → List Char
  | [] => []
  | '/' :: rest => trimmedBack rest
  | ['.'] => []
  | '.' :: '/' :: rest => trimmedBack rest
  | s => s

/-- The name of the path and what stands before it. -/
def split? (path : String) : Option (String × String) :=
  let back := trimmedBack path.toList.reverse
  let name := String.ofList (back.takeWhile fun c => !isSlash c).reverse
  if name.isEmpty || name = ".." then none
  else some (String.ofList (back.dropWhile fun c => !isSlash c).reverse, name)

/-- The part of a name after its last dot, unless that dot is its first character. -/
def nameExtension? (name : String) : Option String :=
  let back := name.toList.reverse
  let stem := (back.dropWhile (· ≠ '.')).drop 1
  if stem.isEmpty then none else some (String.ofList (back.takeWhile (· ≠ '.')).reverse)

def extension? (path : String) : Option String :=
  (split? path).bind fun p => nameExtension? p.2

/-- The path with an extension, if it has a name and no extension yet. -/
def withExtension (path extension : String) : String :=
  match split? path with
  | none => path
  | some (before, name) =>
    match nameExtension? name with
    | some _ => path
    | none => before ++ name ++ "." ++ extension

end Stencil.Path
