import Mathlib
import Stencil.Environment.Standard
import Stencil.Proofs.Filter.Insertion
import Stencil.Proofs.Number.Order

/-!
The filters that sort arrays. Keys compare as numbers if both are numbers and as texts otherwise,
and these two orders need not go together: `sort_order` says that the order of keys is transitive
just when they are not `Tangled`, and that the sorted keys then do not depend on the order of the
array. Keys that are all numbers, or of which none is, are never tangled, so that sorting such an
array gives its one stable sort (`sort_stable`).
-/

namespace Stencil

set_option autoImplicit true

namespace Value

def isNumber : Value → Bool
  | number _ => true
  | _ => false

/-- The value is not the float that is not-a-number. -/
def Orderable : Value → Prop
  | number (.float x) => x.isNaN = false
  | _ => True

instance (v : Value) : Decidable v.Orderable :=
  match v with
  | number (.float x) => inferInstanceAs (Decidable (x.isNaN = false))
  | number (.int _) => isTrue trivial
  | null => isTrue trivial
  | bool _ => isTrue trivial
  | string _ => isTrue trivial
  | array _ => isTrue trivial
  | object _ => isTrue trivial

/-- Numbers are in order by value, and other keys by their texts. -/
def KeyLE (a b : Value) : Prop :=
  if a.isNumber ∧ b.isNumber then a.toFloat ≤ b.toFloat else a.display ≤ b.display

instance (a b : Value) : Decidable (KeyLE a b) :=
  inferInstanceAs
    (Decidable (if a.isNumber ∧ b.isNumber then a.toFloat ≤ b.toFloat else a.display ≤ b.display))

/-- Two numbers do not compare as their texts do, and between these texts is that of another key. -/
def Tangled (keys : List Value) : Prop :=
  ∃ a ∈ keys, ∃ b ∈ keys, ∃ k ∈ keys, a.isNumber ∧ b.isNumber ∧ ¬k.isNumber ∧
    a.display ≤ k.display ∧ k.display ≤ b.display ∧
    compareKeys a b ≠ compareTexts a.display b.display

instance (keys : List Value) : Decidable (Tangled keys) :=
  inferInstanceAs (Decidable (∃ a ∈ keys, ∃ b ∈ keys, ∃ k ∈ keys, _))

section keys

variable {a b c : Value}

theorem eq_number_of_isNumber (h : a.isNumber) : ∃ n, a = number n := by
  cases a with
  | number n => exact ⟨n, rfl⟩
  | _ => cases h

theorem Orderable.comparable (h : Orderable (number n)) : n.Comparable := by
  cases n with
  | int i => exact Number.comparable_int i
  | float x => exact h

theorem compareTexts_eq (s t : String) : compareTexts s t = Ord.compare s t := rfl

theorem compareKeys_numbers (ha : a.isNumber) (hb : b.isNumber) (hoa : a.Orderable)
    (hob : b.Orderable) : compareKeys a b = Ord.compare a.toNumber.rank b.toNumber.rank := by
  obtain ⟨m, rfl⟩ := eq_number_of_isNumber ha
  obtain ⟨n, rfl⟩ := eq_number_of_isNumber hb
  rw [compareKeys, Number.compare_eq hoa.comparable hob.comparable]
  rfl

theorem compareKeys_texts (h : ¬(a.isNumber ∧ b.isNumber)) :
    compareKeys a b = Ord.compare a.display b.display := by
  cases a with
  | number m =>
    cases b with
    | number n => exact absurd ⟨rfl, rfl⟩ h
    | _ => rfl
  | _ => rfl

theorem compareKeys_swap (ha : a.Orderable) (hb : b.Orderable) :
    compareKeys b a = (compareKeys a b).swap := by
  by_cases h : a.isNumber ∧ b.isNumber
  · rw [compareKeys_numbers h.1 h.2 ha hb, compareKeys_numbers h.2 h.1 hb ha]
    exact Std.OrientedOrd.eq_swap
  · rw [compareKeys_texts h, compareKeys_texts (mt And.symm h)]
    exact Std.OrientedOrd.eq_swap

theorem keyLE_numbers (ha : a.isNumber) (hb : b.isNumber) (hoa : a.Orderable)
    (hob : b.Orderable) : KeyLE a b ↔ a.toNumber.rank ≤ b.toNumber.rank := by
  obtain ⟨m, rfl⟩ := eq_number_of_isNumber ha
  obtain ⟨n, rfl⟩ := eq_number_of_isNumber hb
  rw [KeyLE, if_pos ⟨ha, hb⟩]
  exact Number.toFloat_le_iff hoa.comparable hob.comparable

theorem keyLE_texts (h : ¬(a.isNumber ∧ b.isNumber)) : KeyLE a b ↔ a.display ≤ b.display := by
  rw [KeyLE, if_neg h]

theorem compareKeys_ne_gt_iff (ha : a.Orderable) (hb : b.Orderable) :
    compareKeys a b ≠ .gt ↔ KeyLE a b := by
  by_cases h : a.isNumber ∧ b.isNumber
  · rw [compareKeys_numbers h.1 h.2 ha hb, keyLE_numbers h.1 h.2 ha hb, compare_le_iff_le]
  · rw [compareKeys_texts h, keyLE_texts h, compare_le_iff_le]

theorem compareKeys_eq_lt_iff (ha : a.Orderable) (hb : b.Orderable) :
    compareKeys a b = .lt ↔ ¬KeyLE b a := by
  rw [← compareKeys_ne_gt_iff hb ha, compareKeys_swap ha hb]
  cases compareKeys a b <;> decide

theorem keyLE_total (ha : a.Orderable) (hb : b.Orderable) : KeyLE a b ∨ KeyLE b a := by
  rw [← compareKeys_ne_gt_iff ha hb, ← compareKeys_ne_gt_iff hb ha, compareKeys_swap ha hb]
  cases compareKeys a b <;> decide

theorem compareKeys_eq_eq_iff (ha : a.Orderable) (hb : b.Orderable) :
    compareKeys a b = .eq ↔ Insertion.Tied KeyLE a b := by
  rw [Insertion.Tied, ← compareKeys_ne_gt_iff ha hb, ← compareKeys_ne_gt_iff hb ha,
    compareKeys_swap ha hb]
  cases compareKeys a b <;> decide

end keys

section tangled

variable {keys : List Value} {a b k : Value}

theorem compareKeys_of_not_tangled (h : ¬Tangled keys) (ha : a ∈ keys) (hb : b ∈ keys)
    (hk : k ∈ keys) (hna : a.isNumber) (hnb : b.isNumber) (hnk : ¬k.isNumber)
    (hak : a.display ≤ k.display) (hkb : k.display ≤ b.display) :
    compareKeys a b = Ord.compare a.display b.display := by
  by_contra hne
  exact h ⟨a, ha, b, hb, k, hk, hna, hnb, hnk, hak, hkb, hne⟩

variable (ho : ∀ a ∈ keys, a.Orderable)

include ho

/-- The texts of two numbers can stand the other way round only if no other text is between. -/
theorem display_le_of_keyLE (h : ¬Tangled keys) (ha : a ∈ keys) (hb : b ∈ keys) (hk : k ∈ keys)
    (hna : a.isNumber) (hnb : b.isNumber) (hnk : ¬k.isNumber) (hab : KeyLE a b)
    (hbk : b.display ≤ k.display) (hka : k.display ≤ a.display) : a.display ≤ b.display := by
  by_contra hlt
  have hba : compareKeys b a = .lt := by
    rw [compareKeys_of_not_tangled h hb ha hk hnb hna hnk hbk hka, compare_lt_iff_lt]
    exact not_le.mp hlt
  exact (compareKeys_eq_lt_iff (ho b hb) (ho a ha)).mp hba hab

theorem keyLE_trans (h : ¬Tangled keys) (ha : a ∈ keys) (hb : b ∈ keys) (hc : c ∈ keys)
    (hab : KeyLE a b) (hbc : KeyLE b c) : KeyLE a c := by
  by_cases hac : a.isNumber ∧ c.isNumber
  · by_cases hnb : b.isNumber
    · rw [keyLE_numbers hac.1 hnb (ho a ha) (ho b hb)] at hab
      rw [keyLE_numbers hnb hac.2 (ho b hb) (ho c hc)] at hbc
      rw [keyLE_numbers hac.1 hac.2 (ho a ha) (ho c hc)]
      exact hab.trans hbc
    · rw [keyLE_texts fun hn => hnb hn.2] at hab
      rw [keyLE_texts fun hn => hnb hn.1] at hbc
      rw [← compareKeys_ne_gt_iff (ho a ha) (ho c hc),
        compareKeys_of_not_tangled h ha hc hb hac.1 hac.2 hnb hab hbc, compare_le_iff_le]
      exact hab.trans hbc
  · rw [keyLE_texts hac]
    by_cases hnab : a.isNumber ∧ b.isNumber
    · have hnc : ¬c.isNumber := fun hn => hac ⟨hnab.1, hn⟩
      rw [keyLE_texts fun hn => hnc hn.2] at hbc
      obtain hle | hca := le_total a.display c.display
      · exact hle
      · exact (display_le_of_keyLE ho h ha hb hc hnab.1 hnab.2 hnc hab hbc hca).trans hbc
    · rw [keyLE_texts hnab] at hab
      by_cases hnbc : b.isNumber ∧ c.isNumber
      · have hna : ¬a.isNumber := fun hn => hac ⟨hn, hnbc.2⟩
        obtain hle | hca := le_total a.display c.display
        · exact hle
        · exact hab.trans (display_le_of_keyLE ho h hb hc ha hnbc.1 hnbc.2 hna hbc hca hab)
      · rw [keyLE_texts hnbc] at hbc
        exact hab.trans hbc

theorem not_tangled_of_trans
    (ht : ∀ a ∈ keys, ∀ b ∈ keys, ∀ c ∈ keys, KeyLE a b → KeyLE b c → KeyLE a c) :
    ¬Tangled keys := by
  rintro ⟨a, ha, b, hb, k, hk, hna, hnb, hnk, hak, hkb, hne⟩
  rw [compareTexts_eq] at hne
  have hleft {c : Value} : KeyLE k c ↔ k.display ≤ c.display := keyLE_texts fun hn => hnk hn.1
  have hright {c : Value} : KeyLE c k ↔ c.display ≤ k.display := keyLE_texts fun hn => hnk hn.2
  have hab : KeyLE a b := ht a ha k hk b hb (hright.mpr hak) (hleft.mpr hkb)
  by_cases hba : KeyLE b a
  · have hka : k.display ≤ a.display := hleft.mp (ht k hk b hb a ha (hleft.mpr hkb) hba)
    have hbk : b.display ≤ k.display := hright.mp (ht b hb a ha k hk hba (hright.mpr hak))
    have heq : compareKeys a b = .eq := (compareKeys_eq_eq_iff (ho a ha) (ho b hb)).mpr ⟨hab, hba⟩
    have hsame : a.display = b.display := (hak.trans hkb).antisymm (hbk.trans hka)
    exact hne (heq.trans (compare_eq_iff_eq.mpr hsame).symm)
  · have hlt : a.display < b.display := by
      refine lt_of_not_ge fun hge => hba ?_
      exact ht b hb k hk a ha (hright.mpr (hge.trans hak)) (hleft.mpr (hkb.trans hge))
    have hbefore : compareKeys a b = .lt := (compareKeys_eq_lt_iff (ho a ha) (ho b hb)).mpr hba
    exact hne (hbefore.trans (compare_lt_iff_lt.mpr hlt).symm)

/-- What is not after a key that is not after another is not after the other. -/
theorem trans_iff_not_tangled :
    (∀ a ∈ keys, ∀ b ∈ keys, ∀ c ∈ keys, compareKeys a b ≠ .gt → compareKeys b c ≠ .gt →
      compareKeys a c ≠ .gt) ↔ ¬Tangled keys := by
  have hiff {a b : Value} (ha : a ∈ keys) (hb : b ∈ keys) : compareKeys a b ≠ .gt ↔ KeyLE a b :=
    compareKeys_ne_gt_iff (ho a ha) (ho b hb)
  constructor
  · intro ht
    refine not_tangled_of_trans ho fun a ha b hb c hc hab hbc => ?_
    exact (hiff ha hc).mp (ht a ha b hb c hc ((hiff ha hb).mpr hab) ((hiff hb hc).mpr hbc))
  · intro h a ha b hb c hc hab hbc
    rw [hiff ha hb] at hab
    rw [hiff hb hc] at hbc
    exact (hiff ha hc).mpr (keyLE_trans ho h ha hb hc hab hbc)

omit ho

theorem Tangled.of_subset (h : Tangled keys) (hs : ∀ k ∈ keys, k ∈ other) : Tangled other := by
  obtain ⟨a, ha, b, hb, k, hk, hrest⟩ := h
  exact ⟨a, hs a ha, b, hs b hb, k, hs k hk, hrest⟩

theorem not_tangled_of_uniform
    (h : (∀ k ∈ keys, k.isNumber) ∨ ∀ k ∈ keys, ¬k.isNumber) : ¬Tangled keys := by
  rintro ⟨a, ha, b, hb, k, hk, hna, hnb, hnk, -⟩
  obtain hall | hnone := h
  · exact hnk (hall k hk)
  · exact hnone a ha hna

end tangled

section sortOn

variable {key : Value → Value} {items : List Value}
  (ho : ∀ v ∈ items, (key v).Orderable) (h : ¬Tangled (items.map key))

include ho h

theorem ordered_keys : Insertion.Ordered (fun a b => KeyLE (key a) (key b)) items := by
  have hk {v : Value} (hv : v ∈ items) : key v ∈ items.map key := List.mem_map_of_mem hv
  constructor
  · exact fun a ha b hb => keyLE_total (ho a ha) (ho b hb)
  · exact fun a ha b hb c hc => keyLE_trans (List.forall_mem_map.mpr ho) h (hk ha) (hk hb) (hk hc)

theorem stableSort_sortOn :
    Insertion.StableSort (fun a b => KeyLE (key a) (key b)) items (sortOn key items) := by
  refine Insertion.stableSort_sorted (ordered_keys ho h) fun a ha b hb => ?_
  rw [beq_iff_eq]
  exact compareKeys_eq_lt_iff (ho a ha) (ho b hb)

end sortOn

end Value

namespace Filter

open Value (arg sortOn Orderable Tangled KeyLE compareKeys)

/-- The filters that sort arrays, and the key by which they sort: the element itself, or its
property under the argument, null if it has none. -/
inductive SortKey (args : List Value) : String → (Value → Value) → Prop where
  | element : SortKey args "sort" id
  | property : SortKey args "sort_by" fun v => (v.property? (arg args 0)).getD .null

section sort

variable {args : List Value} {name : String} {key : Value → Value} {items : List Value}

theorem SortKey.filter_array (h : SortKey args name key) (items : List Value) :
    Environment.standard.filter name (.array items) args = .ok (.array (sortOn key items)) := by
  cases h with
  | element =>
    exact Environment.filter_standard (f := onArray fun items _ => .array (sortOn id items)) rfl ..
  | property => exact Environment.filter_standard (f := onArray sortBy) rfl ..

theorem SortKey.filter_of_ne (h : SortKey args name key) (hv : ∀ items, v ≠ .array items) :
    Environment.standard.filter name v args =
      .error (.filterFailed name ("期望数组，实际为 " ++ v.typeName)) := by
  have hfail (f : List Value → List Value → Value) :
      onArray f v args = .error ("期望数组，实际为 " ++ v.typeName) := by
    cases v with
    | array items => exact absurd rfl (hv items)
    | _ => rfl
  cases h with
  | element =>
    rw [Environment.filter_standard (f := onArray fun items _ => .array (sortOn id items)) rfl,
      hfail]
    rfl
  | property =>
    rw [Environment.filter_standard (f := onArray sortBy) rfl, hfail]
    rfl

/-- The order of keys is consistent just when they are not tangled; the sorted keys are then the
same for any order of the elements. -/
theorem sort_order (h : SortKey args name key) (ho : ∀ v ∈ items, (key v).Orderable) :
    (∀ a ∈ items, ∀ b ∈ items, compareKeys (key b) (key a) = (compareKeys (key a) (key b)).swap) ∧
    ((∀ a ∈ items, ∀ b ∈ items, ∀ c ∈ items, compareKeys (key a) (key b) ≠ .gt →
        compareKeys (key b) (key c) ≠ .gt → compareKeys (key a) (key c) ≠ .gt) ↔
      ¬Tangled (items.map key)) ∧
    (¬Tangled (items.map key) → ∀ other : List Value, other.Perm items → ∃ s t,
      Environment.standard.filter name (.array items) args = .ok (.array s) ∧
      Environment.standard.filter name (.array other) args = .ok (.array t) ∧
      List.Forall₂ (fun a b => compareKeys (key a) (key b) = .eq) s t) := by
  refine ⟨fun a ha b hb => Value.compareKeys_swap (ho a ha) (ho b hb), ?_,
    fun hk other hp => ⟨_, _, h.filter_array items, h.filter_array other, ?_⟩⟩
  · have hkeys := Value.trans_iff_not_tangled (List.forall_mem_map.mpr ho)
    simpa only [List.forall_mem_map] using hkeys
  · have ho' : ∀ v ∈ other, (key v).Orderable := fun v hv => ho v (hp.mem_iff.mp hv)
    have hk' : ¬Tangled (other.map key) :=
      mt (Tangled.of_subset · fun _ => (hp.map key).mem_iff.mp) hk
    have hs := Value.stableSort_sortOn ho hk
    have ht := Value.stableSort_sortOn ho' hk'
    refine (hs.ties (Value.ordered_keys ho hk) ht hp).imp fun a b ⟨ha, hb, hab⟩ => ?_
    exact (Value.compareKeys_eq_eq_iff (ho a ha) (ho b hb)).mpr hab

/-- The texts of 9 and 10 are not in the order of their values, but no text is between them. -/
theorem sort_order_mixed :
    (∀ v ∈ [.ofNat 10, .string "x", .ofNat 9], Orderable v) ∧
    ¬Tangled [.ofNat 10, .string "x", .ofNat 9] ∧ ∃ s t,
      Environment.standard.filter "sort" (.array [.ofNat 10, .string "x", .ofNat 9]) [] =
        .ok (.array s) ∧
      Environment.standard.filter "sort" (.array [.string "x", .ofNat 9, .ofNat 10]) [] =
        .ok (.array t) ∧
      List.Forall₂ (fun a b => compareKeys a b = .eq) s t := by
  have ho : ∀ v ∈ [.ofNat 10, .string "x", .ofNat 9], Orderable v := by decide
  have hk : ¬Tangled [.ofNat 10, .string "x", .ofNat 9] := by decide
  have hs : SortKey [] "sort" id := .element
  obtain ⟨-, -, hperm⟩ := sort_order hs ho
  exact ⟨ho, hk, hperm hk ([.string "x", .ofNat 9] ++ [.ofNat 10]) List.perm_append_comm⟩

/-- By its text, 5 is between 10 and 9. -/
theorem sort_order_crossed :
    compareKeys (.ofNat 10) (.string "5") ≠ .gt ∧ compareKeys (.string "5") (.ofNat 9) ≠ .gt ∧
    compareKeys (.ofNat 10) (.ofNat 9) = .gt ∧
    Environment.standard.filter "sort" (.array [.ofNat 10, .string "5", .ofNat 9]) [] =
      .ok (.array [.ofNat 10, .string "5", .ofNat 9]) ∧
    Environment.standard.filter "sort" (.array [.ofNat 9, .ofNat 10, .string "5"]) [] =
      .ok (.array [.ofNat 9, .ofNat 10, .string "5"]) := by
  refine ⟨by decide, by decide, by decide, ?_, ?_⟩
  · exact SortKey.element.filter_array _
  · exact SortKey.element.filter_array _

/-- Keys that are all numbers, or of which none is, sort stably. -/
theorem sort_stable (h : SortKey args name key) :
    (∀ items : List Value, (∀ v ∈ items, (key v).Orderable) →
      ((∀ v ∈ items, (key v).isNumber) ∨ ∀ v ∈ items, ¬(key v).isNumber) →
      ∃ result, Environment.standard.filter name (.array items) args = .ok (.array result) ∧
        Insertion.StableSort (fun a b => KeyLE (key a) (key b)) items result ∧
        ∀ other, Insertion.StableSort (fun a b => KeyLE (key a) (key b)) items other →
          other = result) ∧
    ∀ v, (∀ items, v ≠ .array items) → Environment.standard.filter name v args =
      .error (.filterFailed name ("期望数组，实际为 " ++ v.typeName)) := by
  refine ⟨fun items ho hu => ?_, fun v hv => h.filter_of_ne hv⟩
  have hk : ¬Tangled (items.map key) := by
    apply Value.not_tangled_of_uniform
    rwa [List.forall_mem_map, List.forall_mem_map]
  have hs := Value.stableSort_sortOn ho hk
  refine ⟨sortOn key items, h.filter_array items, hs, fun other hother => ?_⟩
  exact hother.unique (Value.ordered_keys ho hk) hs

/-- Objects of which two have the same key. -/
def records : List Value :=
  [.object [("i", .string "a"), ("n", .ofNat 2)], .object [("i", .string "b"), ("n", .ofNat 1)],
    .object [("i", .string "c"), ("n", .ofNat 2)]]

theorem sort_stable_records :
    (∀ v ∈ records, ((v.property? (.string "n")).getD .null).Orderable) ∧
    (∀ v ∈ records, ((v.property? (.string "n")).getD .null).isNumber) ∧
    ∃ result, Environment.standard.filter "sort_by" (.array records) [.string "n"] =
        .ok (.array result) ∧
      Insertion.StableSort (fun a b => KeyLE ((a.property? (.string "n")).getD .null)
        ((b.property? (.string "n")).getD .null)) records result := by
  have ho : ∀ v ∈ records, ((v.property? (.string "n")).getD .null).Orderable := by decide
  have hn : ∀ v ∈ records, ((v.property? (.string "n")).getD .null).isNumber := by decide
  have h : SortKey [.string "n"] "sort_by" _ := .property
  obtain ⟨result, hr, hs, -⟩ := (sort_stable h).1 records ho (.inl hn)
  exact ⟨ho, hn, result, hr, hs⟩

end sort

end Filter

end Stencil
