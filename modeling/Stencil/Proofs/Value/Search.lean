import Mathlib
import Stencil.Environment.Standard
import Stencil.Proofs.Text.Search

/-!
The methods of texts that look for a text. They agree with each other on where it first stands
(`search_methods`), counted in characters; and joining the parts of a split gives the text back
(`join_split`).
-/

namespace Stencil.Value

open Text (after? cut? occurs pieces replaceFirst FirstAt)

set_option autoImplicit true

section search

theorem isSome_after?_reverse (s p : String) :
    (after? p.toList.reverse s.toList.reverse).isSome = true ↔ ∃ t, s = t ++ p := by
  rw [Text.isSome_after?_iff, List.reverse_prefix]
  constructor
  · rintro ⟨t, ht⟩
    refine ⟨String.ofList t, String.toList_inj.mp ?_⟩
    rw [String.toList_append, String.toList_ofList, ht]
  · rintro ⟨t, rfl⟩
    rw [String.toList_append]
    exact List.suffix_append ..

theorem filter_replace (s p r : String) :
    Environment.standard.filter "replace" (string s) [string p, string r] =
      .ok (string (String.ofList (replaceFirst p.toList r.toList s.toList))) :=
  Environment.filter_standard (f := Filter.total Filter.replace) rfl ..

/-- The methods agree on where `p` first stands in `s`, if it does. -/
theorem search_methods (s p r : String) : ∃ (i : ℤ) (ends : Bool) (t : String),
    (string s).method? "indexOf" [string p] = some (number (.int i)) ∧
    (string s).method? "includes" [string p] = some (bool (i ≠ -1)) ∧
    (string s).method? "startsWith" [string p] = some (bool (i = 0)) ∧
    (string s).method? "endsWith" [string p] = some (bool ends) ∧
    (string s).method? "replace" [string p, string r] = some (string t) ∧
    Environment.standard.filter "replace" (string s) [string p, string r] = .ok (string t) ∧
    (i = -1 ∧ ¬p.toList <:+: s.toList ∧ t = s ∨
      ∃ k : ℕ, i = k ∧ FirstAt p.toList s.toList k ∧
        t.toList = s.toList.take k ++ r.toList ++ s.toList.drop (k + p.length)) ∧
    (ends = true ↔ ∃ u, s = u ++ p) := by
  have hindex : (string s).method? "indexOf" [string p] = some (indexIn p.toList s.toList) := rfl
  have hincludes : (string s).method? "includes" [string p] =
      some (bool (cut? p.toList s.toList).isSome) := rfl
  have hstarts : (string s).method? "startsWith" [string p] =
      some (bool (after? p.toList s.toList).isSome) := rfl
  have hreplace : (string s).method? "replace" [string p, string r] =
      some (string (String.ofList (replaceFirst p.toList r.toList s.toList))) := rfl
  rw [hindex, hincludes, hstarts, hreplace, filter_replace, indexIn, replaceFirst]
  cases hc : cut? p.toList s.toList with
  | none =>
    have hnone : ¬p.toList <:+: s.toList := Text.cut?_eq_none_iff.mp hc
    have hno : (after? p.toList s.toList).isSome = false :=
      Bool.eq_false_iff.mpr fun h => hnone (Text.isSome_after?_iff.mp h).isInfix
    refine ⟨-1, _, s, rfl, rfl, ?_, rfl, ?_, ?_, .inl ⟨rfl, hnone, rfl⟩,
      isSome_after?_reverse s p⟩
    · rw [hno]
      rfl
    · rw [String.ofList_toList]
    · rw [String.ofList_toList]
  | some parts =>
    obtain ⟨before, rest⟩ := parts
    have hfirst : FirstAt p.toList s.toList before.length := Text.firstAt_of_cut? hc
    obtain ⟨htake, hdrop⟩ := Text.take_drop_of_cut? hc
    have hfound : decide ((before.length : ℤ) ≠ -1) = true := by
      rw [decide_eq_true_iff]
      omega
    refine ⟨before.length, _, String.ofList (before ++ r.toList ++ rest), rfl, ?_, ?_, rfl, rfl,
      rfl, .inr ⟨before.length, rfl, hfirst, ?_⟩, isSome_after?_reverse s p⟩
    · rw [hfound]
      rfl
    · simp only [hfirst.isSome_after?, Int.natCast_eq_zero]
    · rw [String.toList_ofList, htake, ← String.length_toList, hdrop]

end search

section split

theorem joined_strings (separator : String) (parts : List String) :
    joined separator (parts.map string) = String.intercalate separator parts := by
  rw [joined, List.map_map]
  exact congrArg _ (List.map_id parts)

theorem intercalate_singletons (s : List Char) :
    String.intercalate "" (s.map String.singleton) = String.ofList s := by
  induction s with
  | nil => rfl
  | cons c s ih =>
    cases s with
    | nil => rfl
    | cons d s =>
      rw [List.map_cons] at ih
      rw [List.map_cons, List.map_cons, String.intercalate_cons_cons, ih, String.append_empty,
        ← String.toList_inj, String.toList_append, String.toList_singleton, String.toList_ofList,
        String.toList_ofList]
      rfl

theorem intercalate_ofList (separator : String) (pieces : List (List Char)) :
    String.intercalate separator (pieces.map String.ofList) =
      String.ofList (List.intercalate separator.toList pieces) := by
  rw [← String.toList_inj, String.toList_intercalate, List.map_map, String.toList_ofList]
  exact congrArg _ (List.map_id'' (fun s => String.toList_ofList) pieces)

/-- Joining undoes splitting, and a separator that is not empty is in no part. -/
theorem join_split (s separator : String) : ∃ parts : List String,
    (string s).method? "split" [string separator] = some (array (parts.map string)) ∧
    (separator ≠ "" → ∀ part ∈ parts, ¬separator.toList <:+: part.toList) ∧
    (array (parts.map string)).method? "join" [string separator] = some (string s) := by
  have hsplit : (string s).method? "split" [string separator] =
      some (array (splitAt separator.toList s.toList)) := rfl
  have hjoin (parts : List String) : (array (parts.map string)).method? "join" [string separator] =
      some (string (joined separator (parts.map string))) := rfl
  by_cases hs : separator = ""
  · subst hs
    refine ⟨s.toList.map String.singleton, ?_, fun h => absurd rfl h, ?_⟩
    · rw [hsplit, List.map_map]
      rfl
    · rw [hjoin, joined_strings, intercalate_singletons, String.ofList_toList]
  · have hne : separator.toList ≠ [] := fun h => hs (String.toList_eq_nil_iff.mp h)
    refine ⟨(pieces separator.toList s.toList).map String.ofList, ?_, fun _ part hp => ?_, ?_⟩
    · rw [hsplit, splitAt, if_neg (by rwa [List.isEmpty_iff]), List.map_map]
      rfl
    · obtain ⟨piece, hpiece, rfl⟩ := List.mem_map.mp hp
      rw [String.toList_ofList]
      exact Text.not_infix_of_mem_pieces hne hpiece
    · rw [hjoin, joined_strings, intercalate_ofList, Text.intercalate_pieces, String.ofList_toList]

end split

end Stencil.Value
