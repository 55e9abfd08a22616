import Stencil.Proofs.Text.Search
import Stencil.Segment.Scan

/-!
How a source falls into pieces, character by character and tag by tag.
-/

namespace Stencil

open Stencil.Text (after? cut? after?_eq_some_iff)

set_option autoImplicit true

def Delimiters.standard : Delimiters :=
  ⟨['<', '%'], ['%', '>'], by decide, by decide, by decide⟩

namespace Piece

@[simp] theorem ofSource_nil (d : Delimiters) (line : Nat) : ofSource d line [] = .ok [] := by
  have hn : after? d.opener [] = none := by
    apply Text.after?_eq_none
    intro hp
    exact d.opener_ne_nil (List.prefix_nil.mp hp)
  rw [ofSource]
  split
  · rename_i inside ho
    rw [hn] at ho
    cases ho
  · rfl

theorem ofSource_char (h : ¬d.opener <+: c :: s) : ofSource d line (c :: s) =
    (ofSource d (if c = '\n' then line + 1 else line) s).map (.char c :: ·) := by
  rw [ofSource]
  split
  · rename_i inside ho
    rw [Text.after?_eq_none h] at ho
    cases ho
  · rfl

/-- A tag is read up to the first closing delimiter after its mark; a minus before that takes the
next line break with it. -/
theorem ofSource_tag (h : cut? d.closer (Tag.marked inside).2 = some (code, rest)) :
    ofSource d line (d.opener ++ inside) =
      (match if Tag.trimsNewline code then Tag.afterNewline? rest else none with
        | some next => ofSource d (line + newlines (Tag.withoutMark code) + 1) next
        | none => ofSource d (line + newlines (Tag.withoutMark code)) rest).map
      (.tag ⟨(Tag.marked inside).1, Tag.withoutMark code, line⟩ :: ·) := by
  rw [ofSource]
  split
  · rename_i inside' ho
    rw [Text.after?_append] at ho
    cases ho
    split
    · rename_i hc
      rw [h] at hc
      cases hc
    · rename_i code' rest' hc
      rw [h] at hc
      cases hc
      split <;> rename_i hb <;> simp only [hb]
  · rename_i ho
    rw [Text.after?_append] at ho
    cases ho

theorem ofSource_unclosed (h : cut? d.closer (Tag.marked inside).2 = none) :
    ofSource d line (d.opener ++ inside) = .error line := by
  rw [ofSource]
  split
  · rename_i inside' ho
    rw [Text.after?_append] at ho
    cases ho
    split
    · rfl
    · rename_i hc
      rw [h] at hc
      cases hc
  · rename_i ho
    rw [Text.after?_append] at ho
    cases ho

end Piece

end Stencil
