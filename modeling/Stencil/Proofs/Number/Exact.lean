import Mathlib
import Stencil.Number

/-!
Whole numbers as floats. A mantissa with all of its bits is not rounded (`Full.roundWithAccuracy`)
and comes back from the bits of a float (`Full.unpack_pack`). So a whole number of magnitude below
2^53 is a float exactly (`unpack_ofNat`), and no whole number at all is not-a-number
(`isNaN_ofInt`).
-/

namespace Stencil.Binary64

open Float.Model (Format UnpackedFloat)
open Float.Model.UnpackedFloat

set_option autoImplicit true

section full

theorem log2_mul_two_pow (hm : m ≠ 0) (k : ℕ) : (m * 2 ^ k).log2 = m.log2 + k := by
  induction k with
  | zero => rw [pow_zero, mul_one, Nat.add_zero]
  | succ k ih =>
    have hk : m * 2 ^ k ≠ 0 := Nat.mul_ne_zero hm (Nat.two_pow_pos k).ne'
    rw [pow_succ', Nat.mul_left_comm, Nat.log2_two_mul hk, ih, Nat.add_assoc]

theorem repeat_shiftRightOne (m k : ℕ) :
    Nat.repeat ExtendedMantissa.shiftRightOne k ⟨m * 2 ^ k, false, false⟩ =
      ⟨m, false, false⟩ := by
  induction k generalizing m with
  | zero =>
    rw [pow_zero, mul_one]
    rfl
  | succ k ih =>
    rw [Nat.repeat, pow_succ', ← Nat.mul_assoc, ih, ExtendedMantissa.shiftRightOne]
    simp

/-- The mantissa has all of its 53 bits, and the exponent is large enough for that. -/
def Full (m : ℕ) (e : ℤ) : Prop := m.log2 = 52 ∧ -1074 ≤ e

theorem Full.pos (h : Full m e) : 0 < m := by
  apply Nat.pos_of_ne_zero
  rintro rfl
  cases h.1

theorem Full.shiftToTargetExponent (h : Full m e) (k : ℕ) :
    shiftToTargetExponent Format.binary64 (m * 2 ^ k) (e - k) .exact =
      (⟨m, false, false⟩, e) := by
  have hne : m ≠ 0 := h.pos.ne'
  obtain ⟨hlog, hle⟩ := h
  have ht : Format.binary64.targetExponent (Float.Model.totalExponent (m * 2 ^ k) (e - k)) = e := by
    have hmin : Format.binary64.minExponent = -1074 := by decide
    have hbits : Format.binary64.mantissaBits = 53 := rfl
    rw [Format.targetExponent, Float.Model.totalExponent, log2_mul_two_pow hne, hlog, hmin, hbits]
    omega
  have hk : (e - (e - k)).toNat = k := by omega
  rw [UnpackedFloat.shiftToTargetExponent, ht, shiftToExponent, hk]
  refine Prod.ext (repeat_shiftRightOne m k) ?_
  change e - k + k = e
  omega

/-- What has a full mantissa is not rounded, however many zeros stand behind it. -/
theorem Full.roundWithAccuracy (h : Full m e) (s : Sign) (k : ℕ) :
    roundWithAccuracy Format.binary64 s (m * 2 ^ k) (e - k) .exact = .finite s m e h.pos := by
  have h0 := h.shiftToTargetExponent 0
  rw [pow_zero, mul_one, Nat.cast_zero, sub_zero] at h0
  rw [UnpackedFloat.roundWithAccuracy, h.shiftToTargetExponent k]
  have hne : (UnpackedFloat.shiftToTargetExponent Format.binary64 m e .exact).1.mantissa ≠ 0 := by
    rw [h0]
    exact h.pos.ne'
  refine (dif_neg hne).trans ((UnpackedFloat.finite.injEq ..).mpr ⟨rfl, ?_, ?_⟩)
  · exact congrArg (fun r => r.1.mantissa) h0
  · exact congrArg Prod.snd h0

/-- The bits of a float keep a full mantissa. -/
theorem Full.unpack_pack (h : Full m e) (he : e ≤ 971) (s : Sign) :
    (Float.Model.pack (.finite s m e h.pos)).unpack = .finite s m e h.pos := by
  have hm : 0 < m := h.pos
  obtain ⟨hlog, hmin⟩ := h
  obtain ⟨hlow, hhigh⟩ := (Nat.log2_eq_iff hm.ne').mp hlog
  have hbias : (Format.binary64.exponentBias : ℤ) = 1023 := rfl
  have hpack : pack Format.binary64 (.finite s m e hm) =
      packComponents Format.binary64 s (BitVec.ofNat 11 (e + 1075).toNat) (BitVec.ofNat 52 m) := by
    have hsum : e + (Format.binary64.exponentBias : ℤ) + (52 : ℕ) = e + 1075 := by omega
    have hfits : ¬2 ^ 11 ≤ (e + 1075).toNat + 1 := by omega
    have hfull : m.log2 + 1 = Format.binary64.mantissaBits := by
      rw [hlog]
      rfl
    simp only [UnpackedFloat.pack, hsum]
    rw [if_neg hfits, if_pos hfull]
  have hbits : (BitVec.ofNat 11 (e + 1075).toNat).toNat = (e + 1075).toNat := by
    rw [BitVec.toNat_ofNat]
    omega
  have hones : BitVec.ofNat 11 (e + 1075).toNat ≠ -1#_ := by
    intro hc
    have hn : (e + 1075).toNat = 2047 := hbits.symm.trans (congrArg BitVec.toNat hc)
    omega
  have hzero : BitVec.ofNat 11 (e + 1075).toNat ≠ 0#_ := by
    intro hc
    have hn : (e + 1075).toNat = 0 := hbits.symm.trans (congrArg BitVec.toNat hc)
    omega
  have hmantissa : (1#1 ++ BitVec.ofNat 52 m).toNat = m := by
    rw [BitVec.toNat_append, ← Nat.shiftLeft_add_eq_or_of_lt (BitVec.isLt _), BitVec.toNat_ofNat]
    change 1 <<< 52 + m % 2 ^ 52 = m
    omega
  change unpack Format.binary64 (pack Format.binary64 (.finite s m e hm)) = _
  rw [hpack, UnpackedFloat.unpack]
  simp only [unpackExponent_packComponents, unpackMantissa_packComponents,
    unpackSign_packComponents, hones, hzero, if_false, Sign.ofBitVec_toBitVec]
  refine (UnpackedFloat.finite.injEq ..).mpr ⟨rfl, hmantissa, ?_⟩
  rw [hbits]
  omega

end full

section whole

variable {n : ℕ}

/-- The full mantissa of a whole number. -/
def mantissa (n : ℕ) : ℕ := n <<< (52 - n.log2)

theorem full_mantissa (hn : 0 < n) (hlt : n < 2 ^ 53) : Full (mantissa n) (n.log2 - 52) := by
  have hle : n.log2 < 53 := (Nat.log2_lt hn.ne').mpr hlt
  constructor
  · rw [mantissa, Nat.shiftLeft_eq, log2_mul_two_pow hn.ne']
    omega
  · omega

theorem round_whole (hn : 0 < n) (hlt : n < 2 ^ 53) (s : Sign) : round Format.binary64 s n 0 =
    .finite s (mantissa n) (n.log2 - 52) (full_mantissa hn hlt).pos := by
  have hle : n.log2 < 53 := (Nat.log2_lt hn.ne').mpr hlt
  have ht : Format.binary64.targetExponent (Float.Model.totalExponent n 0) = n.log2 - 52 := by
    have hmin : Format.binary64.minExponent = -1074 := by decide
    have hbits : Format.binary64.mantissaBits = 53 := rfl
    rw [Format.targetExponent, Float.Model.totalExponent, hmin, hbits]
    omega
  have hd : decreaseExponent n 0 (n.log2 - 52) = (mantissa n, (n.log2 : ℤ) - 52) := by
    have hk : (0 - ((n.log2 : ℤ) - 52)).toNat = 52 - n.log2 := by omega
    rw [decreaseExponent, hk]
    refine Prod.ext rfl ?_
    change (0 : ℤ) - (52 - n.log2 : ℕ) = _
    omega
  have hr := (full_mantissa hn hlt).roundWithAccuracy s 0
  rw [pow_zero, mul_one, Nat.cast_zero, sub_zero] at hr
  rw [UnpackedFloat.round, ht, hd]
  exact hr

theorem unpack_toFloat (hn : 0 < n) (hlt : n < 2 ^ 53) : n.toUInt64.toFloat.toModel.unpack =
    .finite .positive (mantissa n) (n.log2 - 52) (full_mantissa hn hlt).pos := by
  have hle : n.log2 < 53 := (Nat.log2_lt hn.ne').mpr hlt
  have hword : n.toUInt64.toNat = n := by
    rw [Nat.toUInt64, UInt64.toNat_ofNat']
    omega
  have hround : ofUInt64 Format.binary64 n.toUInt64 =
      .finite .positive (mantissa n) (n.log2 - 52) (full_mantissa hn hlt).pos := by
    have hpos : compare (n : ℤ) 0 = .gt := by
      rw [compare_gt_iff_gt]
      omega
    rw [ofUInt64, hword, UnpackedFloat.ofNat, UnpackedFloat.ofInt, UnpackedFloat.normalize, hpos]
    exact round_whole hn hlt .positive
  change (Float.Model.pack (ofUInt64 Format.binary64 n.toUInt64)).unpack = _
  rw [hround]
  exact (full_mantissa hn hlt).unpack_pack (by omega) .positive

/-- Below 2^53 a whole number is written as a machine word times one, and neither is rounded. -/
theorem unpack_ofNat (hn : 0 < n) (hlt : n < 2 ^ 53) : (Float.ofNat n).toModel.unpack =
    .finite .positive (mantissa n) (n.log2 - 52) (full_mantissa hn hlt).pos := by
  have hle : n.log2 < 53 := (Nat.log2_lt hn.ne').mpr hlt
  have hfull := full_mantissa hn hlt
  have hone : (Float.ofBits 0x3FF0000000000000).toModel.unpack =
      .finite .positive (2 ^ 52) (-52) (by decide) :=
    Full.unpack_pack ⟨Nat.log2_two_pow, by decide⟩ (by decide) .positive
  have he : Float.ofNat n = n.toUInt64.toFloat * Float.ofBits 0x3FF0000000000000 := by
    change Float.ofScientific n false 0 = _
    rw [Float.ofScientific, dif_pos ⟨hlt, Nat.zero_le _⟩]
    rfl
  have hexp : (n.log2 : ℤ) - 52 + -52 = (n.log2 : ℤ) - 52 - (52 : ℕ) := by omega
  rw [he]
  change (Float.Model.pack (mul Format.binary64 n.toUInt64.toFloat.toModel.unpack _)).unpack = _
  rw [unpack_toFloat hn hlt, hone, mul, hexp, hfull.roundWithAccuracy]
  exact hfull.unpack_pack (by omega) .positive

end whole

section nan

theorem isNaN_roundWithAccuracy (s : Sign) (m : ℕ) (e : ℤ) (a : Accuracy) :
    (roundWithAccuracy Format.binary64 s m e a).isNaN = false := by
  rw [UnpackedFloat.roundWithAccuracy]
  dsimp only
  split <;> rfl

theorem pack_ne_packedNaN (h : u.isNaN = false) :
    UnpackedFloat.pack Format.binary64 u ≠ packedNaN Format.binary64 := by
  have hexp {s : Sign} {e : BitVec 11} {m : BitVec 52} (he : e ≠ -1#_) :
      packComponents Format.binary64 s e m ≠ packedNaN Format.binary64 := by
    intro hc
    have h := congrArg unpackExponent hc
    rw [packedNaN, unpackExponent_packComponents, unpackExponent_packComponents] at h
    exact he h
  have hinf (s : Sign) : packedInfinity Format.binary64 s ≠ packedNaN Format.binary64 := by
    cases s <;> decide
  fun_cases UnpackedFloat.pack Format.binary64 u with
  | case1 => cases h
  | case2 s => exact hinf s
  | case3 s => exact hexp (by decide)
  | case4 s m e hm biased hbig => exact hinf s
  | case5 s m e hm bits biased hbig hfull =>
    refine hexp fun hc => ?_
    have hones : (BitVec.ofNat 11 biased).toNat = 2047 := congrArg BitVec.toNat hc
    have hlt : ¬2048 ≤ biased + 1 := hbig
    rw [BitVec.toNat_ofNat] at hones
    omega
  | case6 s m e hm bits biased hbig hfull => exact hexp (by decide)

theorem isNaN_pack (h : u.isNaN = false) : (Float.Model.pack u).unpack.isNaN = false :=
  Bool.eq_false_iff.mpr fun hc =>
    pack_ne_packedNaN h ((isNaN_unpack_iff_of_valid valid_pack).mp hc)

theorem isNaN_neg (u : UnpackedFloat) : u.neg.isNaN = u.isNaN := by
  cases u <;> rfl

theorem isNaN_ofNat (n : ℕ) : (Float.ofNat n).isNaN = false := by
  by_cases hlt : n < 2 ^ 53
  · obtain rfl | hpos := Nat.eq_zero_or_pos n
    · decide
    · change (Float.ofNat n).toModel.unpack.isNaN = false
      rw [unpack_ofNat hpos hlt]
      rfl
  · have hne : n ≠ 0 := by omega
    have he : Float.ofNat n = .ofModel (.pack (.ofScientific Format.binary64 n 0)) := by
      change Float.ofScientific n false 0 = _
      rw [Float.ofScientific, dif_neg fun h => hlt h.1]
      rfl
    have hhigh : ¬(0 : ℤ) > 2 ^ Format.binary64.exponentBits := by decide
    have hlow : ¬(0 : ℤ) < -((2 ^ Format.binary64.exponentBits : ℤ) + n.log2) := by
      change ¬(0 : ℤ) < -(2048 + n.log2)
      omega
    rw [he]
    refine isNaN_pack ?_
    rw [UnpackedFloat.ofScientific, dif_neg hne, if_neg hhigh, if_neg hlow, if_pos le_rfl, mul]
    exact isNaN_roundWithAccuracy ..

/-- A whole number that is too large to be a float is infinite as one. -/
theorem isNaN_ofInt (i : ℤ) : (Float.ofInt i).isNaN = false := by
  cases i with
  | ofNat n => exact isNaN_ofNat n
  | negSucc n => exact isNaN_pack ((isNaN_neg _).trans (isNaN_ofNat n.succ))

end nan

end Stencil.Binary64
