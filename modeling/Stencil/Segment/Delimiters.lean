/-!
The two texts that open and close a tag.
-/

namespace Stencil

/-- Opening and closing delimiter: neither is empty, and they differ. -/
structure Delimiters where
  opener : List Char
  closer : List Char
  opener_ne_nil : opener ≠ []
  closer_ne_nil : closer ≠ []
  opener_ne_closer : opener ≠ closer

namespace Delimiters

def ofStrings? (opener closer : String) : Option Delimiters :=
  if h : opener.toList ≠ [] ∧ closer.toList ≠ [] ∧ opener.toList ≠ closer.toList then
    some ⟨opener.toList, closer.toList, h.1, h.2.1, h.2.2⟩
  else none

theorem length_opener_pos (d : Delimiters) : 0 < d.opener.length :=
  List.length_pos_iff.mpr d.opener_ne_nil

theorem length_closer_pos (d : Delimiters) : 0 < d.closer.length :=
  List.length_pos_iff.mpr d.closer_ne_nil

end Delimiters

end Stencil
