import Stencil.Text.Runs

/-!
The lines of a source around a place in it.
-/

namespace Stencil

/-- The lines of a source; there is always one. -/
def sourceLines (source : String) : List String := Text.split (· == '\n') source

/-- A line with its number, which is marked if it is the line in question. -/
def frameRow (line : Nat) (lines : List String) (n : Nat) : String :=
  (if n = line then " >> " else "    ") ++ toString n ++ "| " ++ lines[n - 1]?.getD ""

/-- The line in question and up to three lines on either side of it. -/
def sourceFrame (source : String) (line : Nat) : String :=
  let lines := sourceLines source
  let start := max (line - 3) 1
  let stop := min (line + 3) lines.length
  String.intercalate "\n"
    ((List.range' start (stop + 1 - start)).map fun n => frameRow line lines n)

end Stencil
