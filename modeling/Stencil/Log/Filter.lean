import Stencil.Log.Directive
import Stencil.Text.Runs

/-!
Filters of the log: lists of directives. Of the directives that apply to an entry the one for the fewest
entries decides whether it is shown.
-/

namespace Stencil.Log

structure Filter where
  directives : List Directive
  /-- What is said about parts of the filter that are no directives. -/
  notices : List String

namespace Filter

/-- What a part of a filter stands for; there is a notice if that is nothing. -/
def ofPart (text : String) : Except String Directive :=
  (Directive.ofText text).mapError fun fault => "ignoring `" ++ text ++ "`: " ++ fault.message

/-- The directives of a text with commas between them; without any, errors are shown. -/
def ofText (text : String) : Filter :=
  let parts := ((Text.split (· == ',') text).filter (· ≠ "")).map ofPart
  let directives := parts.filterMap Except.toOption
  ⟨if directives.isEmpty then [⟨"", none, none, Level.error.rank⟩] else directives,
    parts.filterMap fun
      | .error notice => some notice
      | .ok _ => none⟩

/-- The directive that decides about an entry; of equally wide ones it is the last. -/
def decisive? (f : Filter) (e : Entry) : Option Directive :=
  (f.directives.filter (·.appliesTo e)).foldl
    (fun best d => if best.any d.isWider then best else some d) none

def shows (f : Filter) (e : Entry) : Bool := (f.decisive? e).any fun d => e.level.rank ≤ d.rank

end Filter

end Stencil.Log
