import Mathlib
import Stencil.Proofs.Number.Whole
import Stencil.Value.Method

/-!
Parts of texts and arrays. A slice is made of the items between two places, which integers give by
counting from the start or from the end and which are kept within the bounds (`part_slice`). What
ends at a place and what begins there are together the whole (`slice_append_slice`).
-/

namespace Stencil.Value

set_option autoImplicit true

/-- The argument counts as the integer. Null does not: it is an argument that is not given. -/
def CountsAs (v : Value) (i : ℤ) : Prop := v.isNull = false ∧ v.toNumber.IsInt i

instance (v : Value) (i : ℤ) : Decidable (v.CountsAs i) :=
  inferInstanceAs (Decidable (v.isNull = false ∧ v.toNumber.IsInt i))

/-- The place of an integer among `n` items; negative integers count from the end. -/
def place (n : ℕ) (i : ℤ) : ℕ := (if i < 0 then max (n + i) 0 else min i n).toNat

/-- The items of `s` from `start` up to but not including `stop`, all of which are there; none if
`start` is not before `stop`. -/
structure Part (s : List α) (start stop : ℕ) (part : List α) : Prop where
  start_le : start ≤ s.length
  stop_le : stop ≤ s.length
  length : part.length = stop - start
  item : ∀ i < stop - start, ∃ x, s[start + i]? = some x ∧ part[i]? = some x

theorem clamped_eq (i : ℤ) (n : ℕ) : clamped i n = place n i := by
  rw [clamped, place]
  split <;> omega

theorem place_le (n : ℕ) (i : ℤ) : place n i ≤ n := by
  rw [place]
  split <;> omega

theorem given?_of_not_isNull (hv : v.isNull = false) (h : args[i]? = some v) :
    given? args i = some v := by
  rw [given?, h]
  cases v with
  | null => cases hv
  | bool => rfl
  | number => rfl
  | string => rfl
  | array => rfl
  | object => rfl

theorem position_of_countsAs (hv : v.CountsAs n) (h : args[i]? = some v) :
    position args i length missing = place length n := by
  rw [position, given?_of_not_isNull hv.1 h]
  dsimp only
  rw [Number.whole?_of_isInt hv.2, Option.elim_some, clamped_eq]

theorem part_take_drop {s : List α} (hstart : start ≤ s.length) (hstop : stop ≤ s.length) :
    Part s start stop ((s.take stop).drop start) := by
  have hlength : ((s.take stop).drop start).length = stop - start := by
    rw [List.length_drop, List.length_take, Nat.min_eq_left hstop]
  refine ⟨hstart, hstop, hlength, fun i hi => ?_⟩
  have hlt : start + i < s.length := by omega
  refine ⟨s[start + i], List.getElem?_eq_getElem hlt, ?_⟩
  rw [List.getElem?_drop, List.getElem?_take_of_lt (by omega), List.getElem?_eq_getElem hlt]

/-- A slice is the part between the places of its arguments. -/
theorem part_slice (s : List α) (hu : u.CountsAs a) (hv : v.CountsAs b) :
    Part s (place s.length a) (place s.length b) (slice s [u, v]) := by
  rw [slice, position_of_countsAs hu rfl, position_of_countsAs hv rfl]
  exact part_take_drop (place_le ..) (place_le ..)

/-- A place divides the items into those before it and the others. -/
theorem slice_append_slice (s : List α) (hz : z.CountsAs 0) (hw : w.CountsAs k) :
    slice s [z, w] ++ slice s [w] = s := by
  have hfront : slice s [z, w] = s.take (place s.length k) := by
    rw [slice, position_of_countsAs hz rfl, position_of_countsAs hw rfl]
    rfl
  have hback : slice s [w] = s.drop (place s.length k) := by
    rw [slice, position_of_countsAs hw rfl]
    exact congrArg _ List.take_length
  rw [hfront, hback, List.take_append_drop]

/-- The slices of texts and arrays by integers are the parts between two places, and the slices up
to a place and from there on are the whole. -/
theorem slice_parts (hu : u.CountsAs a) (hv : v.CountsAs b) (hz : z.CountsAs 0)
    (hw : w.CountsAs k) :
    (∀ s : String, ∃ part : String, (string s).method? "slice" [u, v] = some (string part) ∧
      Part s.toList (place s.length a) (place s.length b) part.toList) ∧
    (∀ items : List Value, ∃ part, (array items).method? "slice" [u, v] = some (array part) ∧
      Part items (place items.length a) (place items.length b) part) ∧
    (∀ s : String, ∃ front back, (string s).method? "slice" [z, w] = some (string front) ∧
      (string s).method? "slice" [w] = some (string back) ∧ front ++ back = s) ∧
    ∀ items : List Value, ∃ front back,
      (array items).method? "slice" [z, w] = some (array front) ∧
      (array items).method? "slice" [w] = some (array back) ∧ front ++ back = items := by
  have htext (s : String) (args : List Value) : (string s).method? "slice" args =
      some (string (String.ofList (slice s.toList args))) := rfl
  have harray (items args : List Value) : (array items).method? "slice" args =
      some (array (slice items args)) := rfl
  refine ⟨fun s => ⟨_, htext s _, ?_⟩, fun items => ⟨_, harray items _, part_slice items hu hv⟩,
    fun s => ⟨_, _, htext s _, htext s _, ?_⟩,
    fun items => ⟨_, _, harray items _, harray items _, slice_append_slice items hz hw⟩⟩
  · rw [String.toList_ofList, ← String.length_toList]
    exact part_slice s.toList hu hv
  · rw [← String.ofList_append, slice_append_slice s.toList hz hw, String.ofList_toList]

theorem slice_parts_negative :
    (number (.float (-3))).CountsAs (-3) ∧ (number (.int 9)).CountsAs 9 ∧
    (number (.float (-0.0))).CountsAs 0 ∧ (bool true).CountsAs 1 ∧
    (∃ part : String, (string "añ😀b").method? "slice" [number (.float (-3)), number (.int 9)] =
      some (string part) ∧ Part "añ😀b".toList 1 4 part.toList) ∧
    ∃ front back, (array [null, bool true]).method? "slice" [number (.float (-0.0)), bool true] =
      some (array front) ∧ (array [null, bool true]).method? "slice" [bool true] =
      some (array back) ∧ front ++ back = [null, bool true] := by
  have hu : (number (.float (-3))).CountsAs (-3) := by decide
  have hv : (number (.int 9)).CountsAs 9 := by decide
  have hz : (number (.float (-0.0))).CountsAs 0 := by decide
  have hw : (bool true).CountsAs 1 := by decide
  obtain ⟨htext, -, -, harray⟩ := slice_parts hu hv hz hw
  exact ⟨hu, hv, hz, hw, htext "añ😀b", harray [null, bool true]⟩

end Stencil.Value
