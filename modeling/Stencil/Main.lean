import Stencil.Command.Outcome

/-!
The program: runs on the files below the working directory, whose paths are relative to it.
-/

namespace Stencil.Main

/-- What lies in a directory; files that hold no text are left out. -/
partial def load (entry : IO.FS.DirEntry) : IO (Option FileTree) := do
  if ← entry.path.isDir then
    let children ← entry.path.readDir
    let trees ← children.toList.filterMapM fun child => do
      return (← load child).map fun tree => (child.fileName, tree)
    return some (.folder (Entries.ofList trees))
  else
    try
      return some (.file (← IO.FS.readFile entry.path))
    catch _ => return none

/-- The files below the working directory. -/
def workingFiles : IO FileTree := do
  return (← load ⟨".", "."⟩).getD .empty

end Stencil.Main

open Stencil in
def main (args : List String) : IO UInt32 := do
  let outcome := Outcome.ofArguments (← Main.workingFiles) args
  if let some w := outcome.written then IO.FS.writeFile w.path w.text
  IO.print outcome.output
  for message in outcome.messages do IO.eprintln message
  return outcome.code.toUInt32
