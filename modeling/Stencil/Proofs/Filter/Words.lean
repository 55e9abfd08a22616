import Mathlib
import Stencil.Filter.Words
import Stencil.Proofs.Text.Casing

/-!
Slugs and word counts. A slug is made of runs that are not empty, joined by hyphens. So hyphens
stand only between letters or digits, and as these are in lower case, the slug of a slug is itself
(`slug_wellFormed`). The words of a text are counted run by run, so where white space or an
ideograph divides a text the counts of its parts add up (`count_append`).
-/

namespace Stencil

set_option autoImplicit true

namespace Text

/-- The runs hold everything that does not separate them. -/
theorem flatten_runs (p : α → Bool) (s : List α) : (runs p s).flatten = s.filter fun c => !p c := by
  induction s with
  | nil => rfl
  | cons c s ih =>
    rw [runs]
    cases hc : p c with
    | true => simp [hc, ih]
    | false =>
      cases hr : runs p s with
      | nil => exact absurd hr (runs_ne_nil p s)
      | cons run more =>
        rw [hr] at ih
        simp [hc, ← ih]

/-- Where no run is empty, what separates them stands neither at an end nor twice in a row. -/
theorem not_infix_of_nil_not_mem_runs {p : α → Bool} (hc : p c = true) (h : [] ∉ runs p s) :
    ¬[c] <+: s ∧ ¬[c] <:+ s ∧ ¬[c, c] <:+: s := by
  refine ⟨?_, ?_, ?_⟩
  · rintro ⟨rest, rfl⟩
    refine h ?_
    rw [List.singleton_append, runs, if_pos hc]
    exact List.mem_cons_self
  · rintro ⟨front, rfl⟩
    refine h ?_
    rw [runs_append_cons hc]
    exact List.mem_append_right _ (List.mem_singleton.mpr rfl)
  · rintro ⟨front, rest, rfl⟩
    refine h ?_
    rw [List.append_assoc]
    change [] ∈ runs p (front ++ c :: c :: rest)
    rw [runs_append_cons hc, runs, if_pos hc]
    exact List.mem_append_right _ List.mem_cons_self

end Text

namespace Words

open Text (IsLower isAlphanumeric isBlank runs)

section slug

/-- The runs between hyphens that are not empty. -/
def words (s : List Char) : List (List Char) := (runs (· == '-') s).filter fun run => !run.isEmpty

theorem hyphenated_eq (s : List Char) : hyphenated s = List.intercalate ['-'] (words s) := rfl

theorem runs_hyphenated (h : words s ≠ []) : runs (· == '-') (hyphenated s) = words s :=
  Text.runs_intercalate rfl h fun _ hw => Text.none_of_mem_runs (List.mem_of_mem_filter hw)

theorem nil_not_mem_words (s : List Char) : [] ∉ words s := by
  intro h
  cases (List.mem_filter.mp h).2

theorem hyphenated_of_words_eq_nil (h : words s = []) : hyphenated s = [] := by
  rw [hyphenated_eq, h]
  rfl

theorem words_hyphenated (s : List Char) : words (hyphenated s) = words s := by
  by_cases h : words s = []
  · rw [hyphenated_of_words_eq_nil h, h]
    rfl
  · rw [words, runs_hyphenated h, words, List.filter_filter]
    simp only [Bool.and_self]

theorem hyphenated_hyphenated (s : List Char) : hyphenated (hyphenated s) = hyphenated s := by
  rw [hyphenated_eq, words_hyphenated, hyphenated_eq]

/-- Hyphens stand only between two characters that are none. -/
theorem hyphens_hyphenated (s : List Char) :
    ¬['-'] <+: hyphenated s ∧ ¬['-'] <:+ hyphenated s ∧ ¬['-', '-'] <:+: hyphenated s := by
  by_cases h : words s = []
  · rw [hyphenated_of_words_eq_nil h]
    decide
  · refine Text.not_infix_of_nil_not_mem_runs (p := (· == '-')) rfl ?_
    rw [runs_hyphenated h]
    exact nil_not_mem_words s

theorem flatten_words (s : List Char) : (words s).flatten = s.filter fun c => !c == '-' := by
  rw [words, List.flatten_filter_not_isEmpty, Text.flatten_runs]

/-- Nothing but hyphens is lost or added. -/
theorem filter_hyphenated (s : List Char) :
    ((hyphenated s).filter fun c => !c == '-') = s.filter fun c => !c == '-' := by
  rw [← flatten_words, words_hyphenated, flatten_words]

theorem mem_of_mem_hyphenated (hc : c ∈ hyphenated s) (hne : c ≠ '-') : c ∈ s := by
  have hkeep : (!c == '-') = true := by simpa using hne
  have hfilter : c ∈ s.filter fun c => !c == '-' := by
    rw [← filter_hyphenated]
    exact List.mem_filter.mpr ⟨hc, hkeep⟩
  exact List.mem_of_mem_filter hfilter

theorem isAlphanumeric_slugChar (c : Char) : isAlphanumeric (slugChar c) = isAlphanumeric c := by
  rw [slugChar]
  split
  · rfl
  · rename_i h
    rw [Bool.eq_false_iff.mpr h]
    decide

theorem slugChar_of_mem (hc : isAlphanumeric c = true ∨ c = '-') : slugChar c = c := by
  obtain h | rfl := hc
  · exact if_pos h
  · decide

theorem toList_slug (s : String) :
    (slug s).toList = hyphenated ((Text.lower s).toList.map slugChar) := by
  rw [slug, String.toList_ofList]

theorem mem_slug (hc : c ∈ (slug s).toList) :
    c = '-' ∨ isAlphanumeric c = true ∧ c ∈ (Text.lower s).toList := by
  by_cases hne : c = '-'
  · exact .inl hne
  · rw [toList_slug] at hc
    obtain ⟨d, hd, rfl⟩ := List.mem_map.mp (mem_of_mem_hyphenated hc hne)
    by_cases h : isAlphanumeric d = true
    · rw [slugChar_of_mem (.inl h)]
      exact .inr ⟨h, hd⟩
    · exact absurd (if_neg h) hne

theorem lower_slug (s : String) : Text.lower (slug s) = slug s := by
  refine Text.lower_of_isLower fun c hc => ?_
  obtain rfl | ⟨-, hlower⟩ := mem_slug hc
  · decide
  · rw [Text.lower, String.toList_ofList] at hlower
    exact Text.isLower_of_mem_lowerFrom hlower

theorem slug_slug (s : String) : slug (slug s) = slug s := by
  have hchars : ∀ c ∈ (slug s).toList, slugChar c = c := fun c hc =>
    slugChar_of_mem ((mem_slug hc).symm.imp_left And.left)
  rw [← String.toList_inj, toList_slug, lower_slug, List.map_congr_left hchars, List.map_id',
    toList_slug, hyphenated_hyphenated]

/-- A slug has the letters and digits of the text in lower case, in their order. -/
theorem filter_slug (s : String) : (slug s).toList.filter isAlphanumeric =
    (Text.lower s).toList.filter isAlphanumeric := by
  have hhyphen (l : List Char) : l.filter isAlphanumeric =
      (l.filter fun c => !c == '-').filter isAlphanumeric := by
    rw [List.filter_filter]
    refine List.filter_congr fun c _ => ?_
    obtain rfl | hne := eq_or_ne c '-'
    · decide
    · rw [beq_false_of_ne hne, Bool.not_false, Bool.and_true]
  calc (slug s).toList.filter isAlphanumeric
      = ((Text.lower s).toList.map slugChar).filter isAlphanumeric := by
        rw [toList_slug, hhyphen, filter_hyphenated, ← hhyphen]
    _ = ((Text.lower s).toList.filter isAlphanumeric).map slugChar := by
        rw [List.filter_map]
        exact congrArg _ (List.filter_congr fun c _ => isAlphanumeric_slugChar c)
    _ = (Text.lower s).toList.filter isAlphanumeric := by
        rw [List.map_congr_left fun c hc => slugChar_of_mem (.inl (List.mem_filter.mp hc).2),
          List.map_id']

/-- A slug is made of letters, digits and single hyphens between them, and is its own slug. -/
theorem slug_wellFormed (s : String) :
    (∀ c ∈ (slug s).toList, isAlphanumeric c = true ∨ c = '-') ∧
    ¬['-'] <+: (slug s).toList ∧ ¬['-'] <:+ (slug s).toList ∧ ¬['-', '-'] <:+: (slug s).toList ∧
    slug (slug s) = slug s ∧
    (slug s).toList.filter isAlphanumeric = (Text.lower s).toList.filter isAlphanumeric := by
  obtain ⟨hstart, hend, hdouble⟩ := hyphens_hyphenated ((Text.lower s).toList.map slugChar)
  rw [← toList_slug] at hstart hend hdouble
  exact ⟨fun c hc => (mem_slug hc).symm.imp_left And.left, hstart, hend, hdouble, slug_slug s,
    filter_slug s⟩

end slug

section count

/-- No white space is an ideograph. -/
theorem isIdeograph_of_isBlank (h : isBlank c = true) : isIdeograph c = false := by
  rw [Bool.eq_false_iff]
  intro hi
  simp only [isBlank, Text.blankRanges, Text.inRanges, List.any_cons, List.any_nil, Bool.or_eq_true,
    Bool.and_eq_true, decide_eq_true_eq, Bool.false_eq_true, or_false] at h
  simp only [isIdeograph, Text.inRanges, List.any_cons, List.any_nil, Bool.or_eq_true,
    Bool.and_eq_true, decide_eq_true_eq, Bool.false_eq_true, or_false] at hi
  omega

theorem countChars_append_cons (hc : separates c = true) (s t : List Char) :
    countChars (s ++ c :: t) =
      countChars s + (if isIdeograph c = true then 1 else 0) + countChars t := by
  rw [countChars, countChars, countChars, Text.runs_append_cons hc, List.countP_append,
    List.countP_append, List.countP_cons]
  omega

theorem countChars_of_none (h : ∀ c ∈ s, separates c = false) :
    countChars s = if s.any isAlphanumeric = true then 1 else 0 := by
  have hnone : s.countP isIdeograph = 0 :=
    List.countP_eq_zero.mpr fun c hc => Bool.eq_false_iff.mp (Bool.or_eq_false_iff.mp (h c hc)).2
  rw [countChars, Text.runs_of_none h, hnone, Nat.zero_add, List.countP_singleton]

/-- Counts add up at white space, which does not count, and at ideographs, which do. What neither of
them divides is one word if it has a letter or a digit. -/
theorem count_append (a b : String) :
    (∀ w, isBlank w = true → count (a ++ String.singleton w ++ b) = count a + count b) ∧
    (∀ c, isIdeograph c = true → count (a ++ String.singleton c ++ b) = count a + 1 + count b) ∧
    ((∀ c ∈ a.toList, separates c = false) →
      count a = if a.toList.any isAlphanumeric = true then 1 else 0) := by
  have hcount {c : Char} (hc : separates c = true) : count (a ++ String.singleton c ++ b) =
      count a + (if isIdeograph c = true then 1 else 0) + count b := by
    rw [count, String.toList_append, String.toList_append, String.toList_singleton,
      List.append_assoc, List.singleton_append, countChars_append_cons hc]
    rfl
  refine ⟨fun w hw => ?_, fun c hc => ?_, countChars_of_none⟩
  · rw [hcount (Bool.or_eq_true_iff.mpr (.inl hw)), isIdeograph_of_isBlank hw]
    rfl
  · rw [hcount (Bool.or_eq_true_iff.mpr (.inr hc)), if_pos hc]

theorem count_append_wide :
    isBlank '\u3000' = true ∧ isIdeograph '語' = true ∧
    (∀ c ∈ "don't".toList, separates c = false) ∧
    count ("don't" ++ String.singleton '\u3000' ++ "3、4") = count "don't" + count "3、4" ∧
    count ("don't" ++ String.singleton '語' ++ "3、4") = count "don't" + 1 + count "3、4" ∧
    count "don't" = 1 := by
  have hblank : isBlank '\u3000' = true := by decide
  have hideograph : isIdeograph '語' = true := by decide
  have hall : ("don't".toList.all fun c => !separates c) = true := by decide
  have hnone : ∀ c ∈ "don't".toList, separates c = false := fun c hc => by
    simpa using List.all_eq_true.mp hall c hc
  obtain ⟨hw, hc, hone⟩ := count_append "don't" "3、4"
  exact ⟨hblank, hideograph, hnone, hw _ hblank, hc _ hideograph,
    (hone hnone).trans (if_pos (by decide))⟩

end count

end Words

end Stencil
