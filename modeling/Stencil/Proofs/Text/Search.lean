import Stencil.Text.Search

/-!
Where a needle is found. A cut is at the first place at which the needle stands: before it, the
needle stands nowhere (`endsFirst_of_cut?`), and at that place it is found whatever follows
(`EndsFirst.cut?`). So the pieces of a text do not contain the separator
(`not_infix_of_mem_pieces`), and joined by it they are the text again (`intercalate_pieces`).
-/

namespace Stencil.Text

set_option autoImplicit true

section first

theorem after?_append (needle rest : List Char) : after? needle (needle ++ rest) = some rest :=
  after?_eq_some_iff.mpr rfl

theorem after?_eq_none {needle s : List Char} (h : ¬needle <+: s) : after? needle s = none := by
  cases hs : after? needle s with
  | none => rfl
  | some rest =>
    have he : s = needle ++ rest := after?_eq_some_iff.mp hs
    exact absurd ⟨rest, he.symm⟩ h

/-- In `before ++ needle` the needle stands nowhere but at the end. -/
def EndsFirst (needle before : List Char) : Prop :=
  ∀ i < before.length, ¬needle <+: (before ++ needle).drop i

instance (needle before : List Char) : Decidable (EndsFirst needle before) :=
  inferInstanceAs (Decidable (∀ i < before.length, ¬needle <+: (before ++ needle).drop i))

theorem EndsFirst.tail (h : EndsFirst needle (c :: before)) : EndsFirst needle before := by
  intro i hi hp
  exact h (i + 1) (Nat.succ_lt_succ hi) hp

/-- What follows the needle does not make it stand earlier. -/
theorem EndsFirst.not_prefix_drop (h : EndsFirst needle before) (hi : i < before.length)
    (rest : List Char) : ¬needle <+: (before ++ needle ++ rest).drop i := by
  intro hp
  have hle : i ≤ (before ++ needle).length := by
    rw [List.length_append]
    omega
  have hlong : needle.length ≤ ((before ++ needle).drop i).length := by
    rw [List.length_drop, List.length_append]
    omega
  rw [List.drop_append_of_le_length hle] at hp
  exact h i hi (List.prefix_of_prefix_length_le hp (List.prefix_append _ rest) hlong)

theorem EndsFirst.not_prefix (h : EndsFirst needle (c :: before)) (rest : List Char) :
    ¬needle <+: c :: before ++ needle ++ rest :=
  h.not_prefix_drop (Nat.succ_pos _) rest

theorem EndsFirst.not_infix (h : EndsFirst needle before) (hne : needle ≠ []) :
    ¬needle <:+: before := by
  rintro ⟨head, tail, rfl⟩
  have hpos : 0 < needle.length := List.length_pos_iff.mpr hne
  refine h head.length (by simp only [List.length_append]; omega) ?_
  rw [List.append_assoc, List.append_assoc, List.drop_left]
  exact List.prefix_append ..

theorem endsFirst_of_not_mem (h : a ∉ before) : EndsFirst (a :: needle) before := by
  intro i hi hp
  rw [List.drop_append_of_le_length (Nat.le_of_lt hi), List.drop_eq_getElem_cons hi] at hp
  have he : a = before[i] := (List.cons_prefix_cons.mp hp).1
  exact h (he ▸ List.getElem_mem hi)

/-- A needle is found where it first stands. -/
theorem EndsFirst.cut? (h : EndsFirst needle before) (rest : List Char) :
    cut? needle (before ++ needle ++ rest) = some (before, rest) := by
  induction before with
  | nil =>
    have ha := after?_append needle rest
    cases hs : needle ++ rest with
    | nil =>
      rw [hs] at ha
      simp only [List.nil_append, hs, Text.cut?, ha, Option.map_some]
    | cons c s =>
      rw [hs] at ha
      simp only [List.nil_append, hs, Text.cut?, ha]
  | cons c before ih =>
    have hn := after?_eq_none (h.not_prefix rest)
    simp only [List.cons_append] at hn ⊢
    simp only [Text.cut?, hn, ih h.tail, Option.map_some]

/-- A needle that is cut at does not stand anywhere before. -/
theorem endsFirst_of_cut? {needle s before rest : List Char}
    (h : cut? needle s = some (before, rest)) : EndsFirst needle before := by
  induction s generalizing before with
  | nil =>
    obtain ⟨r, _, he⟩ := Option.map_eq_some_iff.mp h
    cases he
    intro i hi
    cases hi
  | cons c s ih =>
    rw [cut?] at h
    split at h
    · cases h
      intro i hi
      cases hi
    · rename_i ha
      obtain ⟨⟨before', rest'⟩, hc, he⟩ := Option.map_eq_some_iff.mp h
      cases he
      intro i hi hp
      cases i with
      | zero =>
        have hs : c :: s = c :: before' ++ needle ++ rest' := by rw [eq_of_cut? hc]; rfl
        have hp' : needle <+: c :: s := by
          rw [hs]
          exact hp.trans (List.prefix_append _ _)
        obtain ⟨r, hr⟩ := hp'
        rw [← hr, after?_append] at ha
        cases ha
      | succ i => exact ih hc i (Nat.lt_of_succ_lt_succ hi) hp

theorem cut?_eq_none_iff {needle s : List Char} : cut? needle s = none ↔ ¬needle <:+: s := by
  constructor
  · rintro h ⟨before, rest, rfl⟩
    obtain ⟨b, r, hc, _⟩ := cut?_append needle before rest
    rw [hc] at h
    cases h
  · intro h
    cases hc : cut? needle s with
    | none => rfl
    | some parts => exact absurd ⟨parts.1, parts.2, (eq_of_cut? hc).symm⟩ h

theorem isSome_after?_iff {needle s : List Char} :
    (after? needle s).isSome = true ↔ needle <+: s := by
  rw [Option.isSome_iff_exists]
  constructor
  · rintro ⟨rest, h⟩
    exact ⟨rest, (after?_eq_some_iff.mp h).symm⟩
  · rintro ⟨rest, rfl⟩
    exact ⟨rest, after?_append needle rest⟩

/-- The needle stands at a position, and at no earlier one. -/
def FirstAt (needle s : List Char) (k : Nat) : Prop :=
  needle <+: s.drop k ∧ ∀ j < k, ¬needle <+: s.drop j

theorem FirstAt.eq_zero_iff (h : FirstAt needle s k) : k = 0 ↔ needle <+: s := by
  constructor
  · rintro rfl
    exact h.1
  · intro hp
    cases k with
    | zero => rfl
    | succ k => exact absurd hp (h.2 0 k.succ_pos)

theorem FirstAt.isSome_after? (h : FirstAt needle s k) :
    (after? needle s).isSome = decide (k = 0) := by
  rw [Bool.eq_iff_iff, isSome_after?_iff, ← h.eq_zero_iff, decide_eq_true_iff]

theorem firstAt_of_cut? {needle : List Char} (h : cut? needle s = some (before, rest)) :
    FirstAt needle s before.length := by
  have hfirst : EndsFirst needle before := endsFirst_of_cut? h
  obtain rfl : s = before ++ needle ++ rest := eq_of_cut? h
  constructor
  · rw [List.append_assoc, List.drop_left]
    exact List.prefix_append ..
  · exact fun j hj => hfirst.not_prefix_drop hj rest

/-- The parts of a cut by their positions. -/
theorem take_drop_of_cut? {needle : List Char} (h : cut? needle s = some (before, rest)) :
    s.take before.length = before ∧ s.drop (before.length + needle.length) = rest := by
  obtain rfl : s = before ++ needle ++ rest := eq_of_cut? h
  constructor
  · rw [List.append_assoc, List.take_left]
  · rw [← List.length_append, List.drop_left]

end first

section pieces

variable {separator : List Char}

theorem pieces_ne_nil (separator s : List Char) : pieces separator s ≠ [] := by
  fun_cases pieces separator s <;> exact List.cons_ne_nil _ _

/-- Joining the pieces undoes the cuts. -/
theorem intercalate_pieces (separator s : List Char) :
    List.intercalate separator (pieces separator s) = s := by
  fun_induction pieces separator s with
  | case1 s hc => exact List.intercalate_singleton
  | case2 s before rest hc => exact List.intercalate_singleton
  | case3 s before rest hc hne ih =>
    rw [List.intercalate_cons_of_ne_nil (pieces_ne_nil separator rest), ih]
    exact (eq_of_cut? hc).symm

theorem not_infix_of_mem_pieces (hne : separator ≠ []) (hp : p ∈ pieces separator s) :
    ¬separator <:+: p := by
  fun_induction pieces separator s with
  | case1 s hc =>
    obtain rfl := List.mem_singleton.mp hp
    exact cut?_eq_none_iff.mp hc
  | case2 s before rest hc hs => exact absurd hs hne
  | case3 s before rest hc hs ih =>
    obtain rfl | hp := List.mem_cons.mp hp
    · exact EndsFirst.not_infix (endsFirst_of_cut? hc) hne
    · exact ih hp

end pieces

end Stencil.Text
