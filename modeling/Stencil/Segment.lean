/-!
The segments of a template, in the order of its source.
-/

namespace Stencil

inductive Segment where
  /-- Text that is output as it stands. -/
  | literal (text : String)
  /-- An expression whose value is output, through the escaper if `escape` is set. -/
  | emit (code : String) (escape : Bool) (line : Nat)
  /-- Code that is only run. -/
  | statement (code : String) (line : Nat)
deriving DecidableEq, Repr

def Segment.isLiteral : Segment → Bool
  | literal _ => true
  | _ => false

end Stencil
