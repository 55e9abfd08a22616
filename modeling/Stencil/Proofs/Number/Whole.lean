import Mathlib
import Stencil.Proofs.Number.Order

/-!
The whole part of a float. It is read from the bits, which hold what the float is unpacked to
(`ofBits_of_unpack`), so it is a function of the rank (`truncate_eq`). Hence a float that equals an
integer of magnitude below 2^53 has just this as its whole part (`Number.whole?_of_isInt`).
-/

namespace Stencil.Binary64

open Decimal (Binary)
open Float.Model (Format UnpackedFloat)
open Float.Model.UnpackedFloat

set_option autoImplicit true

section bits

theorem toNat_exponent (b : UInt64) :
    ((b >>> 52) &&& 0x7FF).toNat = (@unpackExponent .binary64 b.toBitVec).toNat := by
  rw [unpackExponent, BitVec.toNat_cast, BitVec.extractLsb_toNat, UInt64.toNat_and,
    UInt64.toNat_shiftRight]
  change b.toNat >>> 52 &&& (2 ^ 11 - 1) = _
  rw [Nat.and_two_pow_sub_one_eq_mod]
  rfl

theorem toNat_mantissa (b : UInt64) :
    (b &&& 0xFFFFFFFFFFFFF).toNat = (@unpackMantissa .binary64 b.toBitVec).toNat := by
  rw [unpackMantissa, BitVec.toNat_cast, BitVec.extractLsb_toNat, UInt64.toNat_and]
  change b.toNat &&& (2 ^ 52 - 1) = _
  rw [Nat.and_two_pow_sub_one_eq_mod]
  rfl

theorem sign_bit (b : UInt64) : (b >>> 63 == 1) = true ↔
    Sign.ofBitVec (@unpackSign .binary64 b.toBitVec) = .negative := by
  have hbit : (@unpackSign .binary64 b.toBitVec).toNat = (b >>> 63).toNat := by
    have hlt : b.toNat < 2 ^ 64 := b.toNat_lt
    rw [unpackSign, BitVec.toNat_cast, BitVec.extractLsb_toNat, UInt64.toNat_shiftRight]
    change b.toNat >>> 63 % 2 = b.toNat >>> 63
    rw [Nat.shiftRight_eq_div_pow]
    omega
  rw [beq_iff_eq, ← UInt64.toNat_inj, ← hbit, Sign.ofBitVec]
  split
  · rename_i h
    rw [h]
    exact iff_of_false (by decide) nofun
  · rename_i h
    refine iff_of_true ?_ rfl
    have hlt := (@unpackSign .binary64 b.toBitVec).isLt
    have hne : (@unpackSign .binary64 b.toBitVec).toNat ≠ 0 :=
      fun h0 => h (BitVec.eq_of_toNat_eq h0)
    change _ = 1
    omega

/-- The bits of a finite float hold its mantissa, its exponent and its sign. -/
theorem ofBits_of_unpack {b : UInt64} (h : unpack .binary64 b.toBitVec = .finite s m e hm) :
    (Binary.ofBits b).mantissa = m ∧ (Binary.ofBits b).exponent = e ∧
      ((b >>> 63 == 1) = true ↔ s = .negative) := by
  rw [unpack] at h
  rw [Binary.ofBits, toNat_exponent, toNat_mantissa, sign_bit]
  dsimp only at h ⊢
  split at h
  · split at h <;> cases h
  · split at h
    · rename_i h0
      split at h
      · cases h
      · -- The exponent bits are zero: the mantissa has no leading bit of its own.
        cases h
        rw [h0]
        exact ⟨rfl, rfl, Iff.rfl⟩
    · rename_i h0
      cases h
      have hne : (@unpackExponent .binary64 b.toBitVec).toNat ≠ 0 :=
        fun hz => h0 (BitVec.eq_of_toNat_eq hz)
      rw [if_neg hne]
      refine ⟨?_, rfl, Iff.rfl⟩
      rw [BitVec.toNat_append, ← Nat.shiftLeft_add_eq_or_of_lt (BitVec.isLt _)]
      rfl

theorem mantissa_ofBits_of_zero {b : UInt64} (h : unpack .binary64 b.toBitVec = .zero s) :
    (Binary.ofBits b).mantissa = 0 := by
  rw [unpack] at h
  rw [Binary.ofBits, toNat_exponent, toNat_mantissa]
  dsimp only at h ⊢
  split at h
  · split at h <;> cases h
  · split at h
    · rename_i h0
      split at h
      · rename_i hm
        rw [h0, hm]
        rfl
      · cases h
    · cases h

/-- The whole part of the floats of a rank that are not infinite. -/
def wholePart (r : Rank) : ℤ :=
  let (s, magnitude) := ofLex r
  let (e, m) := ofLex magnitude
  s * (Binary.mk m.natAbs (s * e) false).floor

theorem truncate_eq {x : Float} (hnan : x.isNaN = false) (hinf : x.isInf = false) :
    Decimal.truncate x = wholePart (rank x.toModel.unpack) := by
  have htruncate : Decimal.truncate x =
      if x.toModel.toBits >>> 63 == 1 then -((Binary.ofBits x.toModel.toBits).floor : ℤ)
      else (Binary.ofBits x.toModel.toBits).floor := rfl
  cases hu : x.toModel.unpack with
  | notANumber =>
    have h : x.toModel.unpack.isNaN = false := hnan
    rw [hu] at h
    cases h
  | infinity s =>
    have h : x.toModel.unpack.isInf = false := hinf
    rw [hu] at h
    cases h
  | zero s =>
    rw [htruncate, Binary.floor, mantissa_ofBits_of_zero hu, Nat.zero_mul, Nat.zero_div,
      Nat.cast_zero, neg_zero, ite_self]
    exact (zero_mul _).symm
  | finite s m e hm =>
    obtain ⟨hm, he, hs⟩ := ofBits_of_unpack hu
    cases s with
    | negative =>
      rw [htruncate, if_pos (hs.mpr rfl), Binary.floor, hm, he]
      change _ = -1 * ((Binary.mk (-(m : ℤ)).natAbs (-1 * -e) false).floor : ℤ)
      rw [Int.natAbs_neg, neg_mul_neg, one_mul, neg_one_mul]
      rfl
    | positive =>
      rw [htruncate, if_neg (fun h => nomatch hs.mp h), Binary.floor, hm, he]
      change _ = 1 * ((Binary.mk m (1 * e) false).floor : ℤ)
      rw [one_mul, one_mul]
      rfl

end bits

section whole

variable {i : ℤ} {n : ℕ}

theorem floor_mantissa (hn : 0 < n) (hlt : n < 2 ^ 53) :
    (Binary.mk (mantissa n) (n.log2 - 52) false).floor = n := by
  have hle : n.log2 < 53 := (Nat.log2_lt hn.ne').mpr hlt
  have hpos : ((n.log2 : ℤ) - 52).toNat = 0 := by omega
  have hneg : (-((n.log2 : ℤ) - 52)).toNat = 52 - n.log2 := by omega
  rw [Binary.floor, hpos, hneg, mantissa, Nat.shiftLeft_eq]
  change n * 2 ^ (52 - n.log2) * 1 / 2 ^ (52 - n.log2) = n
  rw [Nat.mul_one, Nat.mul_div_cancel _ (Nat.two_pow_pos _)]

theorem wholePart_ofInt (h : i.natAbs < 2 ^ 53) :
    wholePart (rank (Float.ofInt i).toModel.unpack) = i := by
  rw [rank_ofInt h]
  change i.sign * ((Binary.mk (i.sign * mantissa i.natAbs).natAbs
    (i.sign * (i.sign * (i.natAbs.log2 - 52))) false).floor : ℤ) = i
  obtain rfl | hne := eq_or_ne i 0
  · rfl
  · have hsign : i.sign * i.sign = 1 := by
      rw [← Int.sign_mul, Int.sign_eq_one_of_pos (mul_self_pos.mpr hne)]
    rw [Int.natAbs_mul, Int.natAbs_sign_of_ne_zero hne, one_mul, ← mul_assoc, hsign, one_mul,
      Int.natAbs_natCast, floor_mantissa (Int.natAbs_pos.mpr hne) h, Int.sign_mul_natAbs]

/-- Integers have no infinite rank. -/
theorem isInf_of_rank (h : i.natAbs < 2 ^ 53) (hr : rank u = rank (Float.ofInt i).toModel.unpack) :
    u.isInf = false := by
  have hsign : (ofLex (rank u)).1 = i.sign := by
    rw [hr, rank_ofInt h]
    rfl
  have hle : (ofLex (rank u)).1.natAbs ≤ 1 := by
    rw [hsign, Int.natAbs_sign]
    split <;> decide
  cases u with
  | infinity s => cases s <;> exact absurd hle (by decide)
  | notANumber => rfl
  | zero s => rfl
  | finite s m e hm => rfl

end whole

end Stencil.Binary64

namespace Stencil.Number

open Binary64 (compare_rank isInf_of_rank isNaN_ofInt truncate_eq wholePart_ofInt)

theorem isNaN_of_beq {x y : Float} (h : (x == y) = true) : x.isNaN = false := by
  have hc := beq_iff_compare.mp h
  change x.toModel.unpack.isNaN = false
  cases hu : x.toModel.unpack with
  | notANumber =>
    rw [hu] at hc
    cases hc
  | infinity s => rfl
  | zero s => rfl
  | finite s m e hm => rfl

/-- The number is the integer: as a whole number, or as a float that holds it exactly. -/
def IsInt (i : ℤ) : Number → Prop
  | int j => j = i
  | float x => i.natAbs < 2 ^ 53 ∧ (x == Float.ofInt i) = true

instance (i : ℤ) : (n : Number) → Decidable (n.IsInt i)
  | int j => inferInstanceAs (Decidable (j = i))
  | float x => inferInstanceAs (Decidable (i.natAbs < 2 ^ 53 ∧ (x == Float.ofInt i) = true))

theorem whole?_of_isInt {n : Number} {i : ℤ} (h : n.IsInt i) : n.whole? = some i := by
  cases n with
  | int j => exact congrArg some h
  | float x =>
    obtain ⟨hlt, h⟩ := h
    have hnan : x.isNaN = false := isNaN_of_beq h
    have hrank : Binary64.rank x.toModel.unpack =
        Binary64.rank (Float.ofInt i).toModel.unpack := by
      have hc := beq_iff_compare.mp h
      rw [compare_rank hnan (isNaN_ofInt i)] at hc
      exact compare_eq_iff_eq.mp (Option.some.inj hc)
    have hinf : x.isInf = false := isInf_of_rank hlt hrank
    rw [whole?, hnan, hinf, truncate_eq hnan hinf, hrank, wholePart_ofInt hlt]
    rfl

end Stencil.Number
