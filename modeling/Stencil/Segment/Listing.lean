import Stencil.Segment
import Stencil.Text.Search
import Stencil.Text.Quoted

/-!
The listing of a template: one line for each segment.
-/

namespace Stencil.Segment

/-- A line number with at least four digits. -/
def lineNumber (line : Nat) : List Char :=
  let digits := Nat.toDigits 10 line
  List.replicate (4 - digits.length) '0' ++ digits

/-- Line breaks as they appear in a listing. -/
def shownBreak (c : Char) : List Char :=
  if c = '\r' then ['\\', 'r'] else if c = '\n' then ['\\', 'n'] else [c]

/-- Code on one line, without the white space around it. -/
def oneLine (code : String) : List Char :=
  (Text.trimBoth Text.isBlank code.toList).flatMap shownBreak

/-- The line of a segment; operations stand in a column of eight characters. -/
def listed : Segment → List Char
  | literal text => "      text    ".toList ++ (Text.quoted text).toList
  | emit code true line => lineNumber line ++ "  escape  ".toList ++ oneLine code
  | emit code false line => lineNumber line ++ "  raw     ".toList ++ oneLine code
  | statement code line => lineNumber line ++ "  code    ".toList ++ oneLine code

def listing (segments : List Segment) : String :=
  String.ofList (List.intercalate ['\n'] (segments.map listed))

end Stencil.Segment
