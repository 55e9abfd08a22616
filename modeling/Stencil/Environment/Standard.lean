import Stencil.Environment
import Stencil.Filter.Builtin
import Stencil.Text.Markup

/-!
The environment that renderers begin with.
-/

namespace Stencil

/-- The display of a value with the characters of markup escaped. -/
def markupEscaper : Escaper := fun v => Text.escape v.display

/-- All built-in filters, no functions, and the escaper of markup. -/
def Environment.standard : Environment := ⟨.ofList Filter.builtins, ∅, markupEscaper⟩

/-- The filters of the standard environment are the built-in ones. -/
theorem Environment.filter_standard {name : String} {f : Filter}
    (h : Entries.get? name Filter.builtins.reverse = some f) (v : Value) (args : List Value) :
    standard.filter name v args = (f v args).mapError (.filterFailed name) := by
  have hget : standard.filters.get? name = some f := (Table.get?_ofList ..).trans h
  rw [filter, hget]

end Stencil
