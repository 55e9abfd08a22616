import Stencil.Text.Blank
import Stencil.Text.Casing
import Stencil.Text.Letter
import Stencil.Text.Runs

/-!
Words of a text: slugs, word counts and shortened texts.
-/

namespace Stencil.Words

open Stencil.Text (isAlphanumeric isBlank runs)

/-- Letters and digits as they are, anything else as a hyphen. -/
def slugChar (c : Char) : Char := if isAlphanumeric c then c else '-'

/-- Characters joined by single hyphens where there were any number of them. -/
def hyphenated (s : List Char) : List Char :=
  List.intercalate ['-'] ((runs (· == '-') s).filter fun run => !run.isEmpty)

/-- The words of a text in lower case, joined by hyphens. -/
def slug (s : String) : String :=
  String.ofList (hyphenated ((Text.lower s).toList.map slugChar))

/-- Characters of which each is a word of its own. -/
def isIdeograph (c : Char) : Bool :=
  Text.inRanges [(0x3040, 0x30FF), (0x3400, 0x4DBF), (0x4E00, 0x9FFF), (0xAC00, 0xD7AF)] c.toNat

def separates (c : Char) : Bool := isBlank c || isIdeograph c

/-- The number of ideographs and of the words between them. -/
def countChars (s : List Char) : Nat :=
  s.countP isIdeograph + (runs separates s).countP fun run => run.any isAlphanumeric

def count (s : String) : Nat := countChars s.toList

/-- The first words of a text, which spaces part, joined by single spaces. -/
def firstWords (n : Nat) (s : String) : String :=
  String.ofList (List.intercalate [' ']
    (((runs (· == ' ') s.toList).filter fun run => !run.isEmpty).take n))

end Stencil.Words
