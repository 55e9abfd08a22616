import Mathlib
import Stencil.Proofs.Number.Exact

/-!
The order of numbers. Floats that are not not-a-number compare as their ranks in a linear order do
(`compare_rank`), and a whole number that is worked on exactly compares as its float does. So
numbers of both kinds compare as the ranks of their floats (`Number.compare_eq`).
-/

namespace Stencil.Binary64

open Float.Model (Format UnpackedFloat)
open Float.Model.UnpackedFloat

set_option autoImplicit true

/-- The kind of a float with its sign, its exponent and its mantissa, in this order. -/
abbrev Rank : Type := ℤ ×ₗ ℤ ×ₗ ℤ

/-- Mantissas are full or all exponents are the least, so that exponents count before mantissas. -/
def rank : UnpackedFloat → Rank
  | .infinity .negative => toLex (-2, toLex (0, 0))
  | .finite .negative m e _ => toLex (-1, toLex (-e, -m))
  | .zero _ => toLex (0, toLex (0, 0))
  | .finite .positive m e _ => toLex (1, toLex (e, m))
  | .infinity .positive => toLex (2, toLex (0, 0))
  | .notANumber => toLex (0, toLex (0, 0))

section rank

theorem compare_toLex [Ord α] [Ord β] (a b : α) (x y : β) :
    compare (toLex (a, x)) (toLex (b, y)) = (compare a b).then (compare x y) := by
  rw [Prod.Lex.compare_def]
  rfl

theorem compare_neg (a b : ℤ) : compare (-a) (-b) = (compare a b).swap := by
  have hanti : StrictAnti fun i : ℤ => -i := fun _ _ => neg_lt_neg
  rw [Int.compare_swap, ← cmp_eq_compare, ← cmp_eq_compare]
  exact hanti.cmp_map_eq a b

theorem compare_natCast (m n : ℕ) : compare (m : ℤ) n = compare m n := by
  rw [← cmp_eq_compare, ← cmp_eq_compare]
  exact (Nat.strictMono_cast (α := ℤ)).cmp_map_eq m n

theorem compare_rank (hu : u.isNaN = false) (hv : v.isNaN = false) :
    UnpackedFloat.compare u v = some (compare (rank u) (rank v)) := by
  cases u with
  | notANumber => cases hu
  | infinity s =>
    cases v with
    | notANumber => cases hv
    | infinity t => cases s <;> cases t <;> rfl
    | zero t => cases s <;> rfl
    | finite t m e => cases s <;> cases t <;> rfl
  | zero s =>
    cases v with
    | notANumber => cases hv
    | infinity t => cases t <;> rfl
    | zero t => rfl
    | finite t m e => cases t <;> rfl
  | finite s m e =>
    cases v with
    | notANumber => cases hv
    | infinity t => cases s <;> cases t <;> rfl
    | zero t => cases s <;> rfl
    | finite t n f =>
      cases s with
      | negative =>
        cases t with
        | negative =>
          rw [rank, rank, compare_toLex, compare_toLex, compare_neg e f, compare_neg m n,
            compare_natCast, ← Ordering.swap_then]
          rfl
        | positive => rfl
      | positive =>
        cases t with
        | negative => rfl
        | positive =>
          rw [rank, rank, compare_toLex, compare_toLex, compare_natCast]
          rfl

end rank

section whole

variable {i j : ℤ} {m n : ℕ}

theorem rank_ofInt (h : i.natAbs < 2 ^ 53) : rank (Float.ofInt i).toModel.unpack =
    toLex (i.sign, toLex (i.sign * (i.natAbs.log2 - 52), i.sign * mantissa i.natAbs)) := by
  obtain hneg | rfl | hpos := lt_trichotomy i 0
  · obtain ⟨n, rfl⟩ := Int.eq_negSucc_of_lt_zero hneg
    have hn : 0 < n.succ := n.succ_pos
    have hle : n.succ.log2 < 53 := (Nat.log2_lt hn.ne').mpr h
    have hu : (Float.ofInt (Int.negSucc n)).toModel.unpack =
        .finite .negative (mantissa n.succ) (n.succ.log2 - 52) (full_mantissa hn h).pos := by
      change (Float.Model.pack ((Float.ofNat n.succ).toModel.unpack.neg)).unpack = _
      rw [unpack_ofNat hn h]
      exact (full_mantissa hn h).unpack_pack (by omega) .negative
    rw [hu]
    simp [rank, Int.sign, Int.natAbs]
  · decide
  · obtain ⟨n, rfl⟩ := Int.eq_ofNat_of_zero_le hpos.le
    have hn : 0 < n := Int.ofNat_lt.mp hpos
    change rank (Float.ofNat n).toModel.unpack = _
    rw [unpack_ofNat hn h, Int.sign_eq_one_of_pos hpos, one_mul, one_mul]
    rfl

theorem mantissa_lt (hm : 0 < m) (h : m < n) :
    m.log2 < n.log2 ∨ m.log2 = n.log2 ∧ mantissa m < mantissa n := by
  have hn : n ≠ 0 := by omega
  have hle : m.log2 ≤ n.log2 := (Nat.le_log2 hn).mpr ((Nat.log2_self_le hm.ne').trans h.le)
  obtain hlt | heq := hle.lt_or_eq
  · exact .inl hlt
  · refine .inr ⟨heq, ?_⟩
    rw [mantissa, mantissa, heq, Nat.shiftLeft_eq, Nat.shiftLeft_eq]
    exact Nat.mul_lt_mul_of_pos_right h (Nat.two_pow_pos _)

theorem rank_ofInt_lt (hi : i.natAbs < 2 ^ 53) (hj : j.natAbs < 2 ^ 53) (h : i < j) :
    rank (Float.ofInt i).toModel.unpack < rank (Float.ofInt j).toModel.unpack := by
  rw [rank_ofInt hi, rank_ofInt hj, Prod.Lex.toLex_lt_toLex, Prod.Lex.toLex_lt_toLex]
  obtain hneg | rfl | hpos := lt_trichotomy i 0
  · rw [Int.sign_eq_neg_one_of_neg hneg]
    obtain hneg' | rfl | hpos' := lt_trichotomy j 0
    · have hlt : j.natAbs.log2 < i.natAbs.log2 ∨
          j.natAbs.log2 = i.natAbs.log2 ∧ mantissa j.natAbs < mantissa i.natAbs :=
        mantissa_lt (by omega) (by omega)
      rw [Int.sign_eq_neg_one_of_neg hneg']
      refine .inr ⟨rfl, ?_⟩
      dsimp only
      omega
    · exact .inl (show (-1 : ℤ) < 0 by decide)
    · rw [Int.sign_eq_one_of_pos hpos']
      exact .inl (show (-1 : ℤ) < 1 by decide)
  · rw [Int.sign_eq_one_of_pos h]
    exact .inl (show (0 : ℤ) < 1 by decide)
  · have hlt : i.natAbs.log2 < j.natAbs.log2 ∨
        i.natAbs.log2 = j.natAbs.log2 ∧ mantissa i.natAbs < mantissa j.natAbs :=
      mantissa_lt (by omega) (by omega)
    rw [Int.sign_eq_one_of_pos hpos, Int.sign_eq_one_of_pos (hpos.trans h)]
    refine .inr ⟨rfl, ?_⟩
    dsimp only
    omega

/-- Floats keep the order of whole numbers of magnitude below 2^53. -/
theorem compare_rank_ofInt (hi : i.natAbs < 2 ^ 53) (hj : j.natAbs < 2 ^ 53) :
    compare (rank (Float.ofInt i).toModel.unpack) (rank (Float.ofInt j).toModel.unpack) =
      compare i j := by
  have hmono : StrictMonoOn (fun i : ℤ => rank (Float.ofInt i).toModel.unpack)
      {i | i.natAbs < 2 ^ 53} := fun _ hi _ hj => rank_ofInt_lt hi hj
  rw [← cmp_eq_compare, ← cmp_eq_compare]
  exact hmono.cmp_map_eq hi hj

end whole

end Stencil.Binary64

namespace Stencil.Number

open Binary64 (Rank compare_rank compare_rank_ofInt isNaN_ofInt)

/-- The number is no float that is not-a-number. -/
def Comparable (n : Number) : Prop := n.toFloat.isNaN = false

instance (n : Number) : Decidable n.Comparable :=
  inferInstanceAs (Decidable (n.toFloat.isNaN = false))

theorem comparable_int (i : ℤ) : Comparable (.int i) := isNaN_ofInt i

/-- The rank of the nearest float. -/
def rank (n : Number) : Rank := Binary64.rank n.toFloat.toModel.unpack

variable {a b : Number}

theorem lt_iff_compare {x y : Float} :
    x < y ↔ x.toModel.unpack.compare y.toModel.unpack = some .lt :=
  decide_eq_true_iff.trans (beq_iff_eq (α := Option Ordering))

theorem beq_iff_compare {x y : Float} :
    (x == y) = true ↔ x.toModel.unpack.compare y.toModel.unpack = some .eq :=
  beq_iff_eq (α := Option Ordering)

theorem le_iff_compare {x y : Float} :
    x ≤ y ↔ (x.toModel.unpack.compare y.toModel.unpack).any (·.isLE) = true :=
  decide_eq_true_iff

theorem compareFloats_eq {x y : Float} (hx : x.isNaN = false) (hy : y.isNaN = false) :
    compareFloats x y =
      some (Ord.compare (Binary64.rank x.toModel.unpack) (Binary64.rank y.toModel.unpack)) := by
  have hxy := compare_rank (u := x.toModel.unpack) (v := y.toModel.unpack) hx hy
  have hyx := compare_rank (u := y.toModel.unpack) (v := x.toModel.unpack) hy hx
  simp only [compareFloats, lt_iff_compare, beq_iff_compare, hxy, hyx, Option.some.injEq,
    compare_lt_iff_lt, compare_eq_iff_eq]
  obtain hlt | heq | hgt :=
    lt_trichotomy (Binary64.rank x.toModel.unpack) (Binary64.rank y.toModel.unpack)
  · rw [if_pos hlt, compare_lt_iff_lt.mpr hlt]
  · rw [if_neg heq.not_lt, if_pos heq, compare_eq_iff_eq.mpr heq]
  · rw [if_neg hgt.not_gt, if_neg hgt.ne', if_pos hgt, compare_gt_iff_gt.mpr hgt]

theorem eq_of_small? {i : ℤ} (h : a.small? = some i) : a = .int i ∧ i.natAbs < 2 ^ 53 := by
  cases a with
  | float x => cases h
  | int j =>
    obtain ⟨hlt, he⟩ := Option.ite_none_right_eq_some.mp h
    cases he
    exact ⟨rfl, hlt⟩

/-- Whole numbers that are worked on exactly compare as their floats do. -/
theorem compare_eq (ha : a.Comparable) (hb : b.Comparable) :
    a.compare b = some (Ord.compare a.rank b.rank) := by
  fun_cases Number.compare a b with
  | case1 i j hj hi =>
    obtain ⟨rfl, hlti⟩ := eq_of_small? hi
    obtain ⟨rfl, hltj⟩ := eq_of_small? hj
    exact congrArg some (compare_rank_ofInt hlti hltj).symm
  | case2 h => exact compareFloats_eq ha hb

theorem toFloat_le_iff (ha : a.Comparable) (hb : b.Comparable) :
    a.toFloat ≤ b.toFloat ↔ a.rank ≤ b.rank := by
  rw [le_iff_compare, compare_rank ha hb, Option.any_some, Ordering.isLE_iff_ne_gt]
  exact compare_le_iff_le

end Stencil.Number
