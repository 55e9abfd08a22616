import Stencil.Entries
import Stencil.Files.Path
import Stencil.Template.Error
import Stencil.Text.Search

/-!
A tree of files in place of a file system: reading, writing and removing files under paths that start
at its root, and listing what lies below a directory.
-/

namespace Stencil

/-- A file with its text, or a directory whose entries stand in the order of their names. -/
inductive FileTree where
  | file (text : String)
  | folder (entries : List (String × FileTree))
deriving Inhabited

namespace FileTree

def empty : FileTree := .folder []

def isFolder : FileTree → Bool
  | folder _ => true
  | file _ => false

/-- Follows the parts of a path. `above` holds the names of the directories entered so far with the
directories that they are in; outside the root there is nothing. -/
def walk (above : List (String × FileTree)) (here : FileTree) :
    List String → Except FileFault (List String × FileTree)
  | [] => .ok ((above.map (·.1)).reverse, here)
  | part :: rest =>
    match here with
    | file _ => .error .notFolder
    | folder entries =>
      if part = "" ∨ part = "." then walk above here rest
      else if part = ".." then
        match above with
        | [] => walk [] empty rest
        | (_, parent) :: more => walk more parent rest
      else
        match Entries.get? part entries with
        | none => .error (if Path.isLongName part then .longPath else .notFound)
        | some child => walk ((part, here) :: above) child rest

/-- Why a path leads nowhere in any tree; outside the root there is nothing. -/
def pathFault? (path : String) : Option FileFault :=
  if path.any (· == '\x00') then some .nullInPath
  else if path = "" then some .notFound
  else if Path.maxSize < path.utf8ByteSize then some .longPath
  else if path.startsWith "/" then some .notFound
  else none

/-- The names on the way from the root to what a path leads to, and what lies there. -/
def locate (root : FileTree) (path : String) : Except FileFault (List String × FileTree) :=
  match pathFault? path with
  | some fault => .error fault
  | none => walk [] root (Path.parts path)

def read (root : FileTree) (path : String) : Except FileFault String :=
  match root.locate path with
  | .ok (_, file text) => .ok text
  | .ok (_, folder _) => .error .isFolder
  | .error fault => .error fault

/-- Something is found under a path. -/
def has (root : FileTree) (path : String) : Bool := (root.locate path).isOk

/-- What lies under names from the root. -/
def under? : List String → FileTree → Option FileTree
  | [], here => some here
  | _ :: _, file _ => none
  | name :: rest, folder entries => (Entries.get? name entries).bind (under? rest)

/-- Puts a file or a directory under names from the root, in the place of what is in the way. -/
def put (item : FileTree) : List String → FileTree → FileTree
  | [], _ => item
  | name :: rest, here =>
    let entries :=
      match here with
      | folder entries => entries
      | file _ => []
    folder (Entries.insert name (put item rest ((Entries.get? name entries).getD empty)) entries)

/-- Writes a file into a directory that exists. A path that ends in a slash counts as that of a
directory. -/
def write (root : FileTree) (path text : String) : Except FileFault FileTree := do
  let parts := Text.trimEnd (· == "") (Path.parts path)
  let name := parts.getLast?.getD ""
  match pathFault? path with
  | some fault => .error fault
  | none =>
    let (names, parent) ← walk [] root parts.dropLast
    match parent with
    | file _ => .error .notFolder
    | folder entries =>
      if path.endsWith "/" || name = "." || name = ".." then .error .isFolder
      else if Path.isLongName name then .error .longPath
      else
        match Entries.get? name entries with
        | some (folder _) => .error .isFolder
        | _ => .ok (put (file text) (names ++ [name]) root)

/-- Makes the directories that are missing on a way. It starts in the directory under `names`, of which
the innermost comes first, and goes neither past a file nor out of the root. -/
def makeFolders (names : List String) (root : FileTree) : List String → FileTree
  | [] => root
  | part :: rest =>
    if part = ".." then
      match names with
      | [] => root
      | _ :: names => makeFolders names root rest
    else
      let names := part :: names
      match root.under? names.reverse with
      | some (file _) => root
      | some (folder _) => makeFolders names root rest
      | none =>
        if Path.isLongName part then root else makeFolders names (put empty names.reverse root) rest

/-- Writes a file after making the directories that are missing on the way to it. A file that cannot be
written is left out. -/
def place (root : FileTree) (path text : String) : FileTree :=
  match pathFault? path with
  | some _ => root
  | none =>
    let names := (Path.parts path).filter fun part => part ≠ "" && part ≠ "."
    let made := root.makeFolders [] names.dropLast
    (made.write path text).toOption.getD made

/-- Takes away the file under names from the root. -/
def drop : List String → FileTree → FileTree
  | [], here => here
  | name :: rest, here =>
    match here with
    | file text => file text
    | folder entries =>
      match Entries.get? name entries with
      | none => folder entries
      | some child =>
        match rest with
        | [] => if child.isFolder then folder entries else folder (Entries.erase name entries)
        | rest => folder (Entries.insert name (drop rest child) entries)

/-- Takes away the file under a path, if there is one. -/
def remove (root : FileTree) (path : String) : FileTree :=
  match root.locate path with
  | .ok (names, _) => drop names root
  | .error _ => root

/-- The path of an entry of a directory, if its name has the extension. -/
def entryWith (extension path name : String) : List String :=
  if Path.nameExtension? name = some extension then [Path.join path name] else []

/-- The paths of the files with an extension among the entries of a directory and below them, in the
order of the entries. A directory whose path is too long to be followed counts as a file. -/
def filesAmong (extension path : String) : List (String × FileTree) → List String
  | [] => []
  | (name, file _) :: rest => entryWith extension path name ++ filesAmong extension path rest
  | (name, folder entries) :: rest =>
    (if Path.maxSize < (Path.join path name).utf8ByteSize then entryWith extension path name
      else filesAmong extension (Path.join path name) entries) ++ filesAmong extension path rest
termination_by entries => sizeOf entries
decreasing_by
  all_goals
    simp only [List.cons.sizeOf_spec, Prod.mk.sizeOf_spec, file.sizeOf_spec, folder.sizeOf_spec]
    omega

end FileTree

end Stencil
