import Mathlib
import Stencil.Text.Casing

/-!
What lower case makes of a text is in lower case: no run of the table moves a code point to one that
moves again (`not_covers_of_covers`), so every character becomes characters that are their own lower
case (`isLower_of_mem_lowerFrom`). A text of such characters stays as it is (`lower_of_isLower`).
-/

namespace Stencil.Text

set_option autoImplicit true

section runs

/-- The run has no code point from `low` to `high`; where `even` is set, none an even number of
places after `low`. -/
def CaseRun.avoids (low high : Nat) (even : Bool) (r : CaseRun) : Bool :=
  Nat.blt high r.first || Nat.blt r.last low ||
    (even && r.step == 2 && (low + r.first) % 2 == 1)

theorem CaseRun.not_covers_of_avoids {r : CaseRun} (h : r.avoids low high even = true)
    (hlow : low ≤ code) (hhigh : code ≤ high) (he : even = true → (code - low) % 2 = 0) :
    r.covers code = false := by
  rw [Bool.eq_false_iff]
  intro hc
  simp only [covers, Bool.and_eq_true, decide_eq_true_eq, beq_iff_eq] at hc
  obtain ⟨⟨hfirst, hlast⟩, hstep⟩ := hc
  simp only [avoids, Bool.or_eq_true, Bool.and_eq_true, Nat.blt_eq, beq_iff_eq] at h
  obtain (hbelow | habove) | ⟨⟨heven, htwo⟩, hodd⟩ := h
  · omega
  · omega
  · have := he heven
    rw [htwo] at hstep
    omega

/-- The code points of a run are an even number of places apart. -/
def CaseRun.even (r : CaseRun) : Bool := r.step == 2 || r.first == r.last

/-- The code points that are not their own lower case. -/
def lowered : List CaseRun := lowerSpecial.map (fun e => ⟨e.1, e.1, 1, 0⟩) ++ lowerRuns

-- Compared as intervals: to go through all code points would take the kernel a minute.
theorem avoids_lowered : (lowerRuns.all fun r => lowered.all fun r' =>
    r'.avoids (r.first + r.shift).toNat (r.last + r.shift).toNat r.even) = true := by
  decide +kernel

theorem shift_lowerRuns : ∀ r ∈ lowerRuns, 0 ≤ r.first + r.shift := by
  decide +kernel

theorem pos_lowered : ∀ r ∈ lowered, 0 < r.first := by
  decide +kernel

/-- No run moves a code point to one that moves again. -/
theorem not_covers_of_covers {r r' : CaseRun} (hr : r ∈ lowerRuns) (hr' : r' ∈ lowered)
    (h : r.covers code = true) : r'.covers (code + r.shift).toNat = false := by
  have havoids := List.all_eq_true.mp (List.all_eq_true.mp avoids_lowered r hr) r' hr'
  have hshift : 0 ≤ r.first + r.shift := shift_lowerRuns r hr
  simp only [CaseRun.covers, Bool.and_eq_true, decide_eq_true_eq, beq_iff_eq] at h
  obtain ⟨⟨hfirst, hlast⟩, hstep⟩ := h
  refine CaseRun.not_covers_of_avoids havoids ?_ ?_ fun he => ?_
  · omega
  · omega
  · simp only [CaseRun.even, Bool.or_eq_true, beq_iff_eq] at he
    obtain htwo | hone := he
    · rw [htwo] at hstep
      omega
    · omega

end runs

section lower

/-- The character is its own lower case. -/
def IsLower (c : Char) : Prop := lowerChar c = [c]

instance (c : Char) : Decidable (IsLower c) := inferInstanceAs (Decidable (lowerChar c = [c]))

theorem isLower_of_not_covers (h : ∀ r ∈ lowered, r.covers c.toNat = false) : IsLower c := by
  obtain ⟨hspecial, hruns⟩ := List.forall_mem_append.mp h
  have hlookup : lowerSpecial.lookup c.toNat = none := by
    refine List.lookup_eq_none_iff.mpr fun e he => bne_iff_ne.mpr fun hc => ?_
    have hcovers := hspecial _ (List.mem_map_of_mem he)
    simp [CaseRun.covers, hc] at hcovers
  have hfind : lowerRuns.find? (fun r => r.covers c.toNat) = none :=
    List.find?_eq_none.mpr fun r hr => Bool.eq_false_iff.mp (hruns r hr)
  rw [IsLower, lowerChar, mapCase, hlookup, hfind]

/-- What a character becomes in lower case is in lower case. -/
theorem isLower_of_mem_lowerChar (h : d ∈ lowerChar c) : IsLower d := by
  rw [lowerChar, mapCase] at h
  split at h
  · rename_i codes hl
    have hspecial : ∀ e ∈ lowerSpecial, ∀ code ∈ e.2, IsLower (Char.ofNat code) := by decide
    obtain ⟨code, hc, rfl⟩ := List.mem_map.mp h
    obtain ⟨before, rest, he, -⟩ := List.lookup_eq_some_iff.mp hl
    exact hspecial (c.toNat, codes) (he ▸ List.mem_append_cons_self) code hc
  · rename_i hl
    split at h
    · rename_i r hf
      obtain rfl := List.mem_singleton.mp h
      have hcovers : r.covers c.toNat = true := by
        simpa only using List.find?_some hf
      refine isLower_of_not_covers fun r' hr' => ?_
      rw [Char.toNat_ofNat]
      split
      · exact not_covers_of_covers (List.mem_of_find?_eq_some hf) hr' hcovers
      · have hpos : r'.first ≠ 0 := (pos_lowered r' hr').ne'
        simp [CaseRun.covers, hpos]
    · rename_i hf
      obtain rfl := List.mem_singleton.mp h
      rw [IsLower, lowerChar, mapCase, hl, hf]

theorem isLower_of_mem_lowerFrom (h : d ∈ lowerFrom before s) : IsLower d := by
  induction s generalizing before with
  | nil => cases h
  | cons c s ih =>
    obtain h | h := List.mem_append.mp h
    · split at h
      · split at h
        · obtain rfl := List.mem_singleton.mp h
          decide
        · obtain rfl := List.mem_singleton.mp h
          decide
      · exact isLower_of_mem_lowerChar h
    · exact ih h

theorem lowerFrom_of_isLower (h : ∀ c ∈ s, IsLower c) (before : List Char) :
    lowerFrom before s = s := by
  induction s generalizing before with
  | nil => rfl
  | cons c s ih =>
    obtain ⟨hc, hs⟩ := List.forall_mem_cons.mp h
    have hsigma : c ≠ 'Σ' := by
      rintro rfl
      exact absurd hc (by decide)
    rw [lowerFrom, if_neg hsigma, hc, ih hs, List.singleton_append]

/-- A text of characters in lower case stays as it is. -/
theorem lower_of_isLower {s : String} (h : ∀ c ∈ s.toList, IsLower c) : lower s = s := by
  rw [lower, lowerFrom_of_isLower h, String.ofList_toList]

end lower

end Stencil.Text
