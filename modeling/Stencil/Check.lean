import Stencil.Renderer

/-!
Checking templates: each is compiled, errors are reported, and so are templates without any tags.
-/

namespace Stencil.Check

/-- What is found about one file. -/
inductive Finding where
  | fine
  | warning (message : String)
  | error (message : String)

structure Report where
  errors : List String
  warnings : List String
  checked : Nat

/-- The files that a path stands for: itself, or the templates below it if it is a directory. -/
def collect (files : FileTree) (path : String) : List String :=
  match files.locate path with
  | .ok (_, .folder entries) => FileTree.filesAmong "ejs" path entries
  | _ => [path]

def options (o : Options) (path : String) : Options := { o with filename := some path }

def finding (files : FileTree) (env : Environment) (o : Options) (path : String) : Finding :=
  match files.read path with
  | .error fault => .error ("读取 " ++ path ++ " 失败：" ++ fault.message)
  | .ok source =>
    match Template.compile 0 source (options o path) env with
    | .error e => .error e.message
    | .ok t =>
      if t.segments.all Segment.isLiteral then .warning (path ++ " 不含任何标签") else .fine

def Finding.error? : Finding → Option String
  | error message => some message
  | _ => none

def Finding.warning? : Finding → Option String
  | warning message => some message
  | _ => none

def run (files : FileTree) (env : Environment) (paths : List String) (o : Options) : Report :=
  let found := paths.flatMap (collect files)
  let findings := found.map (finding files env o)
  ⟨findings.filterMap Finding.error?, findings.filterMap Finding.warning?, found.length⟩

/-- What compiling the files tells the log. -/
def logged (files : FileTree) (paths : List String) (o : Options) : List Log.Entry :=
  (paths.flatMap (collect files)).flatMap fun path =>
    match files.read path with
    | .ok source => Template.logged source (options o path)
    | .error _ => []

end Stencil.Check
