import Stencil.Text.Blank

/-!
Looking for one list of characters inside another: the first occurrence and the parts around it,
the pieces between all occurrences, and what remains when the ends are trimmed. The main facts are
that a cut loses nothing (`eq_of_cut?`) and that the needle is found wherever it stands
(`cut?_append`).
-/

namespace Stencil.Text

variable {α : Type} [DecidableEq α]

/-- What follows `needle` at the head of the list. -/
def after? : (needle s : List α) → Option (List α)
  | [], s => some s
  | _ :: _, [] => none
  | a :: needle, b :: s => if a = b then after? needle s else none

/-- The parts before and after the first occurrence of `needle`. -/
def cut? (needle : List α) : List α → Option (List α × List α)
  | [] => (after? needle []).map fun rest => ([], rest)
  | c :: s =>
    match after? needle (c :: s) with
    | some rest => some ([], rest)
    | none => (cut? needle s).map fun parts => (c :: parts.1, parts.2)

theorem after?_eq_some_iff {needle s rest : List α} :
    after? needle s = some rest ↔ s = needle ++ rest := by
  induction needle generalizing s with
  | nil => simp [after?]
  | cons a needle ih =>
    cases s with
    | nil => simp [after?]
    | cons b s =>
      simp only [after?]
      split
      · rename_i h
        subst h
        simp [ih]
      · rename_i h
        simp [Ne.symm h]

/-- A cut loses nothing. -/
theorem eq_of_cut? {needle s before rest : List α} (h : cut? needle s = some (before, rest)) :
    s = before ++ needle ++ rest := by
  induction s generalizing before with
  | nil =>
    simp only [cut?, Option.map_eq_some_iff] at h
    obtain ⟨r, hr, heq⟩ := h
    obtain ⟨rfl, rfl⟩ := Prod.mk.inj heq
    simpa using after?_eq_some_iff.mp hr
  | cons c s ih =>
    simp only [cut?] at h
    split at h
    · rename_i r hr
      obtain ⟨rfl, rfl⟩ := Prod.mk.inj (Option.some.inj h)
      simpa using after?_eq_some_iff.mp hr
    · simp only [Option.map_eq_some_iff] at h
      obtain ⟨parts, hparts, heq⟩ := h
      obtain ⟨rfl, rfl⟩ := Prod.mk.inj heq
      have hrest : s = parts.1 ++ needle ++ parts.2 := ih (by simpa using hparts)
      simp [hrest]

theorem length_of_cut? {needle s before rest : List α} (h : cut? needle s = some (before, rest)) :
    s.length = before.length + needle.length + rest.length := by
  rw [eq_of_cut? h]
  simp only [List.length_append]

/-- A needle that stands somewhere is found, there or earlier. -/
theorem cut?_append (needle before rest : List α) :
    ∃ b r, cut? needle (before ++ needle ++ rest) = some (b, r) ∧ b.length ≤ before.length := by
  induction before with
  | nil =>
    refine ⟨[], rest, ?_, Nat.le_refl _⟩
    have h : after? needle (needle ++ rest) = some rest := after?_eq_some_iff.mpr rfl
    cases hs : needle ++ rest with
    | nil =>
      rw [hs] at h
      simp [cut?, hs, h]
    | cons c s =>
      rw [hs] at h
      simp [cut?, hs, h]
  | cons c before ih =>
    obtain ⟨b, r, h, hle⟩ := ih
    cases ha : after? needle (c :: before ++ needle ++ rest) with
    | some r' => exact ⟨[], r', by simp_all [cut?], by simp⟩
    | none => exact ⟨c :: b, r, by simp_all [cut?], by simpa using hle⟩

/-- The needle occurs in the list. -/
def occurs (needle s : List α) : Bool := (cut? needle s).isSome

/-- The pieces between the occurrences of a separator; an empty separator cuts nothing. -/
def pieces (separator s : List α) : List (List α) :=
  match _h : cut? separator s with
  | none => [s]
  | some (before, rest) => if _hs : separator = [] then [s] else before :: pieces separator rest
termination_by s.length
decreasing_by
  have := length_of_cut? _h
  have := List.length_pos_iff.mpr _hs
  omega

/-- The first occurrence of `needle` gives way to `substitute`. -/
def replaceFirst (needle substitute s : List α) : List α :=
  match cut? needle s with
  | none => s
  | some (before, rest) => before ++ substitute ++ rest

/-- The list without the elements of a kind at its end. -/
def trimEnd (p : α → Bool) (s : List α) : List α :=
  (s.reverse.dropWhile p).reverse

/-- The list without the elements of a kind at both ends. -/
def trimBoth (p : α → Bool) (s : List α) : List α :=
  trimEnd p (s.dropWhile p)

/-- The text without the white space at both ends. -/
def trim (s : String) : String := String.ofList (trimBoth isBlank s.toList)

end Stencil.Text
