/-!
What a reader returns: a value and the rest of the input, with a bound on its length. A reader of `s`
that always consumes something returns a rest shorter than `s.length`.
-/

namespace Stencil.Text

/-- A value that has been read, and a rest shorter than `bound`. -/
structure Read (β α : Type) (bound : Nat) where
  value : α
  rest : List β
  shorter : rest.length < bound

namespace Read

variable {β α γ : Type} {m n : Nat}

/-- The same under a larger bound. -/
def weaken (r : Read β α m) (h : m ≤ n) : Read β α n :=
  ⟨r.value, r.rest, Nat.lt_of_lt_of_le r.shorter h⟩

/-- A value with a rest, if the rest is short enough. -/
def of? (n : Nat) (value : α) (rest : List β) : Option (Read β α n) :=
  if h : rest.length < n then some ⟨value, rest, h⟩ else none

def map (f : α → γ) (r : Read β α n) : Read β γ n := ⟨f r.value, r.rest, r.shorter⟩

end Read

theorem length_lt_succ {β : Type} (s : List β) : s.length < s.length + 1 := Nat.lt_succ_self _

theorem length_dropWhile_le {β : Type} (p : β → Bool) (s : List β) :
    (s.dropWhile p).length ≤ s.length := by
  induction s with
  | nil => exact Nat.le_refl _
  | cons c s ih =>
    rw [List.dropWhile_cons]
    split
    · exact Nat.le_succ_of_le ih
    · exact Nat.le_refl _

end Stencil.Text
