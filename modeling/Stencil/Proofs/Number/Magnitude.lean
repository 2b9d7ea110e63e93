import Mathlib
import Stencil.Number

/-!
# Proofs/Number/Magnitude — how large a double can get

    |x| < 2 ^ j,  |y| < 2 ^ k  ──▸  |x · y| < 2 ^ (j + k + 1),  …

`IsBelow k x` bounds a double by a power of two, and each operation on doubles has a bound for its
result.  Rounding is allowed to double a number, which is far too much but enough here: a double
that is below some power of two is finite, so it has a whole part (`exists_wholePart`), and a whole
number has a double (`exists_ofInt?`).
-/

namespace Stencil.Number

open Float.Model Float.Model.UnpackedFloat
open Stencil.Decimal (Binary)

/-! ## Mantissa and exponent -/

/-- The number `m · 2 ^ e` is below `2 ^ k`. -/
def Fits (k : Int) (m : Nat) (e : Int) : Prop :=
  ∃ a : Nat, m < 2 ^ a ∧ a + e ≤ k

section Fits

variable {j k : Int} {m n : Nat} {e d : Int}

theorem fits_iff : Fits k m e ↔ e ≤ k ∧ (m ≠ 0 → totalExponent m e ≤ k) := by
  rw [totalExponent]
  constructor
  · rintro ⟨a, ha, hk⟩
    refine ⟨by omega, fun hm => ?_⟩
    have := (Nat.log2_lt hm).mpr ha
    omega
  · rintro ⟨he, hm⟩
    by_cases h0 : m = 0
    · exact ⟨0, by simp [h0], by omega⟩
    · exact ⟨m.log2 + 1, (Nat.log2_lt h0).mp (Nat.lt_succ_self _), by have := hm h0; omega⟩

instance : Decidable (Fits k m e) :=
  decidable_of_iff _ fits_iff.symm

theorem Fits.mono (h : Fits j m e) (hjk : j ≤ k) : Fits k m e := by
  obtain ⟨a, ha, hk⟩ := h
  exact ⟨a, ha, by omega⟩

theorem Fits.of_le (h : Fits k n e) (hmn : m ≤ n) : Fits k m e := by
  obtain ⟨a, ha, hk⟩ := h
  exact ⟨a, Nat.lt_of_le_of_lt hmn ha, hk⟩

theorem Fits.succ (h : Fits k m e) : Fits (k + 1) (m + 1) e := by
  obtain ⟨a, ha, hk⟩ := h
  refine ⟨a + 1, ?_, by omega⟩
  rw [Nat.pow_succ]
  omega

theorem Fits.add (h : Fits k m e) (h' : Fits k n e) : Fits (k + 1) (m + n) e := by
  obtain ⟨a, ha, hk⟩ := h
  obtain ⟨b, hb, hk'⟩ := h'
  have hle : 2 ^ a ≤ 2 ^ max a b := Nat.pow_le_pow_right (by decide) (Nat.le_max_left a b)
  have hle' : 2 ^ b ≤ 2 ^ max a b := Nat.pow_le_pow_right (by decide) (Nat.le_max_right a b)
  refine ⟨max a b + 1, ?_, by omega⟩
  rw [Nat.pow_succ]
  omega

theorem Fits.mul (h : Fits j m e) (h' : Fits k n d) : Fits (j + k) (m * n) (e + d) := by
  obtain ⟨a, ha, hj⟩ := h
  obtain ⟨b, hb, hk⟩ := h'
  refine ⟨a + b, ?_, by omega⟩
  rw [Nat.pow_add]
  exact Nat.mul_lt_mul'' ha hb

/-- More digits behind the point do not make a number larger. -/
theorem Fits.shiftLeft (h : Fits k m e) (t : Nat) : Fits k (m <<< t) (e - t) := by
  obtain ⟨a, ha, hk⟩ := h
  refine ⟨a + t, ?_, by omega⟩
  rw [Nat.shiftLeft_eq, Nat.pow_add]
  exact Nat.mul_lt_mul_of_pos_right ha (Nat.two_pow_pos t)

/-- Fewer digits do not make it larger, unless the last one that is left is too large itself. -/
theorem Fits.shiftRight (h : Fits k m e) {t : Nat} (ht : e + t ≤ k) :
    Fits k (m / 2 ^ t) (e + t) := by
  obtain ⟨a, ha, hk⟩ := h
  refine ⟨a - t, ?_, by omega⟩
  rw [Nat.div_lt_iff_lt_mul (Nat.two_pow_pos t), ← Nat.pow_add]
  exact Nat.lt_of_lt_of_le ha (Nat.pow_le_pow_right (by decide) (by omega))

/-- The root of a number below a power of two is below the root of that. -/
theorem Fits.sqrt (h : Fits k m (2 * e)) (hk : k ≤ 2 * j) : Fits j (Nat.sqrt m) e := by
  obtain ⟨a, ha, hae⟩ := h
  refine ⟨(a + 1) / 2, ?_, by omega⟩
  rw [Nat.sqrt_lt, ← Nat.pow_add]
  exact Nat.lt_of_lt_of_le ha (Nat.pow_le_pow_right (by decide) (by omega))

end Fits

/-! ## Rounding -/

/-- An unpacked double without a minus sign, below `2 ^ k`. -/
inductive Below (k : Int) : UnpackedFloat → Prop
  | zero : Below k (.zero .positive)
  | finite {m : Nat} {e : Int} {hm : 0 < m} (hfits : Fits k m e) :
    Below k (.finite .positive m e hm)

instance (k : Int) : (u : UnpackedFloat) → Decidable (Below k u)
  | .zero .positive => .isTrue .zero
  | .zero .negative => .isFalse (by rintro ⟨⟩)
  | .finite .positive _ _ _ => decidable_of_iff _ ⟨.finite, by rintro ⟨⟩; assumption⟩
  | .finite .negative _ _ _ => .isFalse (by rintro ⟨⟩)
  | .infinity _ => .isFalse (by rintro ⟨⟩)
  | .notANumber => .isFalse (by rintro ⟨⟩)

section Rounding

variable {j k : Int} {m n : Nat} {e : Int}

theorem Below.mono {u : UnpackedFloat} (h : Below j u) (hjk : j ≤ k) : Below k u := by
  cases h with
  | zero => exact .zero
  | finite hfits => exact .finite (hfits.mono hjk)

theorem Below.fits {s : Sign} {hm : 0 < m} (h : Below k (.finite s m e hm)) : Fits k m e := by
  cases h with
  | finite hfits => exact hfits

theorem mantissa_shiftRight (em : ExtendedMantissa) (t : Nat) :
    (em >>> t).mantissa = em.mantissa / 2 ^ t := by
  induction t with
  | zero => exact (Nat.div_one _).symm
  | succ t ih =>
    change (em >>> t).mantissa / 2 = _
    rw [ih, Nat.div_div_eq_div_mul, Nat.pow_succ]

theorem mantissa_ofMantissaAndAccuracy (m : Nat) (accuracy : Accuracy) :
    (ExtendedMantissa.ofMantissaAndAccuracy m accuracy).mantissa = m := by
  cases accuracy with
  | exact => rfl
  | inexact o => cases o <;> rfl

theorem roundedMantissa_le (em : ExtendedMantissa) : em.roundedMantissa ≤ em.mantissa + 1 := by
  unfold ExtendedMantissa.roundedMantissa
  cases em.accuracy with
  | exact => exact Nat.le_succ _
  | inexact o =>
    cases o with
    | lt => exact Nat.le_succ _
    | eq =>
      have := Nat.mod_lt em.mantissa (show 2 > 0 by decide)
      simp only [Accuracy.roundToNearestEven]
      omega
    | gt => exact Nat.le_refl _

/-- The exponent that a number is rounded to is not too large for it. -/
theorem targetExponent_le (h : Fits k m e) (hk : -1074 ≤ k) :
    Format.binary64.targetExponent (totalExponent m e) ≤ k := by
  have hmin : Format.binary64.minExponent = -1074 := by decide
  have hbits : Format.binary64.mantissaBits = 53 := by decide
  have htotal : totalExponent m e ≤ k + 1 := by
    obtain ⟨he, hm⟩ := fits_iff.mp h
    by_cases h0 : m = 0
    · rw [totalExponent, h0, Nat.log2_zero]
      omega
    · have := hm h0
      omega
  rw [Format.targetExponent, hmin, hbits]
  omega

theorem fits_shiftToTargetExponent (h : Fits k m e) (hk : -1074 ≤ k) (accuracy : Accuracy) :
    Fits k (shiftToTargetExponent Format.binary64 m e accuracy).1.mantissa
      (shiftToTargetExponent Format.binary64 m e accuracy).2 := by
  have htarget := targetExponent_le h hk
  have he := (fits_iff.mp h).1
  simp only [shiftToTargetExponent, shiftToExponent]
  rw [mantissa_shiftRight, mantissa_ofMantissaAndAccuracy]
  exact h.shiftRight (by omega)

/-- **Rounding at most doubles a number.** -/
theorem below_roundWithAccuracy (h : Fits k m e) (hk : -1074 ≤ k) (accuracy : Accuracy) :
    Below (k + 1) (roundWithAccuracy Format.binary64 .positive m e accuracy) := by
  have hrounded := (fits_shiftToTargetExponent h hk accuracy).succ.of_le (roundedMantissa_le _)
  have hfinal := fits_shiftToTargetExponent hrounded (by omega) .exact
  rw [roundWithAccuracy]
  simp only
  split
  · exact .zero
  · exact .finite hfinal

theorem below_normalize (h : Fits k n e) (hk : -1074 ≤ k) :
    Below (k + 1) (UnpackedFloat.normalize Format.binary64 n e .positive) := by
  unfold UnpackedFloat.normalize
  split
  next hn => exact absurd (Int.compare_eq_lt.mp hn) (by omega)
  next => exact .zero
  next =>
    rw [Int.toNat_natCast]
    exact below_roundWithAccuracy (h.shiftLeft _) hk .exact

end Rounding

/-! ## Packing -/

section Packing

variable {k : Int}

theorem unpackSign_packComponents {spec : Format} {s : Sign} {exponent mantissa} :
    unpackSign (packComponents spec s exponent mantissa) = s.toBitVec := by
  ext i hi
  obtain rfl : i = 0 := by omega
  simp [unpackSign, packComponents, ← BitVec.getLsbD_eq_getElem, BitVec.getLsbD_append]

/-- The double of two fields: an exponent that is not the highest keeps it finite. -/
theorem below_unpack_packComponents (exponent : BitVec 11) (mantissa : BitVec 52)
    (hexp : exponent.toNat ≤ 2046) (hle : (exponent.toNat : Int) - 1022 ≤ k) (hk : -1022 ≤ k) :
    Below k
      (UnpackedFloat.unpack Format.binary64
        (packComponents Format.binary64 .positive exponent mantissa)) := by
  have htop : exponent ≠ -1#11 := by
    rintro rfl
    exact absurd hexp (by decide)
  have hsign : Sign.ofBitVec Sign.positive.toBitVec = .positive := rfl
  simp only [UnpackedFloat.unpack, unpackMantissa_packComponents, unpackExponent_packComponents,
    unpackSign_packComponents, hsign]
  rw [if_neg htop]
  split
  next hzero =>
    split
    · exact .zero
    · refine .finite ⟨52, mantissa.isLt, ?_⟩
      change (52 : Int) + ((exponent.toNat : Int) - (1023 + 52) + 1) ≤ k
      rw [hzero, BitVec.toNat_zero]
      omega
  next =>
    refine .finite ⟨53, BitVec.isLt _, ?_⟩
    change (53 : Int) + ((exponent.toNat : Int) - (1023 + 52)) ≤ k
    omega

/-- **Packing keeps a number that is not too large.** -/
theorem below_unpack_pack {u : UnpackedFloat} (h : Below k u) (hk : -1022 ≤ k) (hk' : k ≤ 900) :
    Below k (Float.Model.pack u).unpack := by
  change Below k (UnpackedFloat.unpack Format.binary64 (UnpackedFloat.pack Format.binary64 u))
  cases h with
  | zero => exact below_unpack_packComponents 0 0 (by decide) (by simpa using hk) hk
  | @finite m e hm hfits =>
    obtain ⟨he, htotal⟩ := fits_iff.mp hfits
    have htotal := htotal (Nat.pos_iff_ne_zero.mp hm)
    rw [totalExponent] at htotal
    have hsmall : ¬2 ^ Format.binary64.exponentBits ≤ (e + Format.binary64.exponentBias +
        Format.binary64.mantissaBitsWithoutImplicit).toNat + 1 := by
      change ¬2048 ≤ (e + 1023 + 52).toNat + 1
      omega
    simp only [UnpackedFloat.pack]
    rw [if_neg hsmall]
    split
    next hnormal =>
      have hlog : m.log2 = 52 := Nat.succ.inj hnormal
      have hfield : (BitVec.ofNat 11 (e + 1023 + 52).toNat).toNat = (e + 1023 + 52).toNat := by
        rw [BitVec.toNat_ofNat]
        omega
      refine below_unpack_packComponents _ _ ?_ ?_ hk
      · change (BitVec.ofNat 11 (e + 1023 + 52).toNat).toNat ≤ 2046
        omega
      · change ((BitVec.ofNat 11 (e + 1023 + 52).toNat).toNat : Int) - 1022 ≤ k
        omega
    next => exact below_unpack_packComponents 0 _ (by decide) (by simpa using hk) hk

end Packing

/-! ## Arithmetic -/

/-- **A double from nought up, below `2 ^ k`.** -/
def IsBelow (k : Int) (x : Float) : Prop :=
  Below k x.toModel.unpack

instance (k : Int) (x : Float) : Decidable (IsBelow k x) :=
  inferInstanceAs (Decidable (Below k x.toModel.unpack))

section Arithmetic

variable {j k : Int} {x y : Float}

theorem IsBelow.mono (h : IsBelow j x) (hjk : j ≤ k) : IsBelow k x :=
  Below.mono h hjk

theorem below_mul {u v : UnpackedFloat} (hu : Below j u) (hv : Below k v) (hlow : -1074 ≤ j + k) :
    Below (j + k + 1) (UnpackedFloat.mul Format.binary64 u v) := by
  cases hu with
  | zero => cases hv <;> exact .zero
  | finite hfits =>
    cases hv with
    | zero => exact .zero
    | finite hfits' => exact below_roundWithAccuracy (hfits.mul hfits') hlow .exact

theorem below_add {u v : UnpackedFloat} (hu : Below k u) (hv : Below k v) (hlow : -1074 ≤ k) :
    Below (k + 2) (UnpackedFloat.add Format.binary64 u v) := by
  cases hu with
  | zero =>
    cases hv with
    | zero => exact .zero
    | finite hfits => exact .finite (hfits.mono (by omega))
  | @finite m e _ hfits =>
    cases hv with
    | zero => exact .finite (hfits.mono (by omega))
    | @finite n d _ hfits' =>
      have hfits := hfits.shiftLeft (e - min e d).toNat
      have hfits' := hfits'.shiftLeft (d - min e d).toNat
      rw [show e - ((e - min e d).toNat : Int) = min e d by omega] at hfits
      rw [show d - ((d - min e d).toNat : Int) = min e d by omega] at hfits'
      exact (below_normalize (hfits.add hfits') (by omega)).mono (by omega)

theorem below_sqrt {u : UnpackedFloat} (hu : Below j u) (hjk : j ≤ 2 * k) (hlow : -1074 ≤ k) :
    Below (k + 1) (UnpackedFloat.sqrt Format.binary64 u) := by
  cases hu with
  | zero => exact .zero
  | @finite m e _ hfits =>
    simp only [UnpackedFloat.sqrt, sqrtCore]
    generalize ht : min (e.ediv 2) _ = t
    have hte : 2 * t ≤ e := by
      have : 2 * e.ediv 2 ≤ e := Int.mul_ediv_self_le (by decide)
      omega
    have hfits := hfits.shiftLeft (e - 2 * t).toNat
    rw [show e - ((e - 2 * t).toNat : Int) = 2 * t by omega] at hfits
    exact below_roundWithAccuracy (hfits.sqrt hjk) hlow _

theorem IsBelow.mul (hx : IsBelow j x) (hy : IsBelow k y) (hlow : -1023 ≤ j + k)
    (hhigh : j + k < 900) : IsBelow (j + k + 1) (x * y) :=
  below_unpack_pack (below_mul hx hy (by omega)) (by omega) (by omega)

theorem IsBelow.add (hx : IsBelow k x) (hy : IsBelow k y) (hlow : -1024 ≤ k) (hhigh : k < 899) :
    IsBelow (k + 2) (x + y) :=
  below_unpack_pack (below_add hx hy (by omega)) (by omega) (by omega)

theorem IsBelow.sqrt (hx : IsBelow j x) (hjk : j ≤ 2 * k) (hlow : -1023 ≤ k) (hhigh : k < 900) :
    IsBelow (k + 1) x.sqrt :=
  below_unpack_pack (below_sqrt hx hjk (by omega)) (by omega) (by omega)

theorem Below.isInf {u : UnpackedFloat} (h : Below k u) : u.isInf = false := by
  cases h <;> rfl

theorem IsBelow.isInf (h : IsBelow k x) : x.isInf = false :=
  Below.isInf h

end Arithmetic

/-! ## Whole numbers -/

theorem isBelow_toFloat {n a : Nat} (hn : n < 2 ^ a) (ha : a ≤ 64) :
    IsBelow (a + 1) n.toUInt64.toFloat := by
  have hle : n < 2 ^ 64 := Nat.lt_of_lt_of_le hn (Nat.pow_le_pow_right (by decide) ha)
  have hfits : Fits a n.toUInt64.toNat 0 := by
    rw [Nat.toUInt64_eq, UInt64.toNat_ofNat_of_lt' hle]
    exact ⟨a, hn, by omega⟩
  exact below_unpack_pack (below_normalize hfits (by omega)) (by omega) (by omega)

/-- **The double of a whole number** is little more than that. -/
theorem isBelow_ofNat {n a : Nat} (hn : n < 2 ^ a) (ha : a ≤ 800) :
    IsBelow (a + 3) (Float.ofNat n) := by
  change IsBelow (a + 3) (Float.ofScientific n false 0)
  unfold Float.ofScientific
  split
  next hsmall =>
    have hone : IsBelow 1 (Float.ofBits 0x3FF0000000000000) := by decide +kernel
    have hmin : n < 2 ^ min a 53 := by
      rcases Nat.le_total a 53 with h | h
      · rwa [Nat.min_eq_left h]
      · rw [Nat.min_eq_right h]
        exact hsmall.1
    have hfloat := isBelow_toFloat hmin (by omega)
    exact (hfloat.mul hone (by omega) (by omega)).mono (by omega)
  next =>
    refine below_unpack_pack ?_ (by omega) (by omega)
    change Below (a + 3) (UnpackedFloat.ofScientific Format.binary64 n 0)
    rw [UnpackedFloat.ofScientific]
    split
    · exact .zero
    · have hbits : (2 : Int) ^ Format.binary64.exponentBits = 2048 := rfl
      rw [hbits, if_neg (by decide), if_neg (by omega), if_pos (Int.le_refl 0)]
      have hfits : Fits a n 0 := ⟨a, hn, by omega⟩
      have hshift := hfits.shiftLeft Format.binary64.mantissaBits
      rw [Int.zero_sub] at hshift
      have hone : Fits 1 (10 ^ (0 : Int).toNat) 0 := ⟨1, by decide, by decide⟩
      exact (below_mul (.finite hshift) (.finite hone) (by omega)).mono (by omega)

/-! ## Whole parts -/

theorem toNat_unpackExponent (b : BitVec 64) :
    (@unpackExponent Format.binary64 b).toNat = b.toNat / 0x10000000000000 % 0x800 := by
  simp [unpackExponent, Nat.shiftRight_eq_div_pow]

theorem toNat_unpackMantissa (b : BitVec 64) :
    (@unpackMantissa Format.binary64 b).toNat = b.toNat % 0x10000000000000 := by
  simp [unpackMantissa]

section WholePart

variable {a k : Nat} {n : Int} {x : Float}

/-- The fields of a double that is below a power of two fit it. -/
theorem IsBelow.ofFloat (h : IsBelow k x) :
    ∃ negative m e, Binary.ofFloat x = .finite negative m e ∧ Fits k m e := by
  rw [IsBelow, Float.Model.unpack] at h
  generalize hb : x.toModel.toBits.toBitVec = b at h
  have hbits : x.toBits.toNat = b.toNat := by rw [← hb]; rfl
  simp only [UnpackedFloat.unpack] at h
  simp only [Binary.ofFloat]
  rw [hbits, ← toNat_unpackExponent, ← toNat_unpackMantissa]
  split at h
  next => split at h <;> cases h
  next htop =>
    have htop' : (@unpackExponent Format.binary64 b).toNat ≠ 0x7ff :=
      fun hn => htop (BitVec.eq_of_toNat_eq hn)
    rw [if_neg htop']
    split at h
    next hzero =>
      have hzero' : (@unpackExponent Format.binary64 b).toNat = 0 :=
        congrArg BitVec.toNat hzero
      rw [if_pos hzero']
      refine ⟨_, _, _, rfl, ?_⟩
      split at h
      next hm =>
        rw [show (@unpackMantissa Format.binary64 b).toNat = 0 from
          congrArg BitVec.toNat hm]
        exact ⟨0, by decide, by rw [Binary.minExponent]; omega⟩
      next =>
        have hfits := h.fits
        rw [hzero'] at hfits
        exact hfits
    next hne =>
      have hne' : (@unpackExponent Format.binary64 b).toNat ≠ 0 :=
        fun hn => hne (BitVec.eq_of_toNat_eq hn)
      rw [if_neg hne']
      refine ⟨_, _, _, rfl, ?_⟩
      have hfits := h.fits
      rw [BitVec.toNat_append, ← Nat.shiftLeft_add_eq_or_of_lt (BitVec.isLt _)] at hfits
      exact hfits

/-- The whole part of a number below a power of two is below it as well. -/
theorem Fits.truncate {m : Nat} {e : Int} (h : Fits k m e) :
    (if 0 ≤ e then m * Nat.pow 2 e.toNat else m / Nat.pow 2 (-e).toNat) < 2 ^ k := by
  obtain ⟨a, ha, hk⟩ := h
  split
  next he =>
    have hlt : m * 2 ^ e.toNat < 2 ^ a * 2 ^ e.toNat :=
      Nat.mul_lt_mul_of_pos_right ha (Nat.two_pow_pos _)
    rw [← Nat.pow_add] at hlt
    exact Nat.lt_of_lt_of_le hlt (Nat.pow_le_pow_right (by decide) (by omega))
  next he =>
    change m / 2 ^ (-e).toNat < 2 ^ k
    rw [Nat.div_lt_iff_lt_mul (Nat.two_pow_pos _), ← Nat.pow_add]
    exact Nat.lt_of_lt_of_le ha (Nat.pow_le_pow_right (by decide) (by omega))

theorem IsBelow.truncate? (h : IsBelow k x) :
    ∃ n : Int, (Binary.ofFloat x).truncate? = some n ∧ n.natAbs < 2 ^ k := by
  obtain ⟨negative, m, e, hx, hfits⟩ := h.ofFloat
  rw [hx]
  refine ⟨_, rfl, ?_⟩
  cases negative with
  | true => rw [Binary.signed, if_pos rfl, Int.natAbs_neg]; exact hfits.truncate
  | false => exact hfits.truncate

/-- **A double that is not too large has a whole part**, which is no larger. -/
theorem IsBelow.exists_wholePart (h : IsBelow k x) :
    ∃ n : Int, wholePart x = .ok n ∧ n.natAbs < 2 ^ k := by
  obtain ⟨n, hn, hlt⟩ := h.truncate?
  exact ⟨n, by rw [wholePart, hn], hlt⟩

theorem IsBelow.isFinite (h : IsBelow k x) : Decimal.isFinite x = true := by
  obtain ⟨n, hn, -⟩ := h.truncate?
  rw [Decimal.isFinite, hn]
  rfl

/-- **A whole number that is not too large has a double.** -/
theorem double_eq_ok (hn : 0 ≤ n) (hlt : n.natAbs < 2 ^ a) (ha : a ≤ 800) :
    double n = .ok (Float.ofInt n) ∧ IsBelow ((a + 3 : Nat) : Int) (Float.ofInt n) := by
  obtain ⟨m, rfl⟩ := Int.eq_ofNat_of_zero_le hn
  have hbelow : IsBelow ((a + 3 : Nat) : Int) (Float.ofInt m) := isBelow_ofNat hlt ha
  refine ⟨?_, hbelow⟩
  simp only [double, Decimal.ofInt?]
  rw [if_pos hbelow.isFinite]

end WholePart

/-! ## Negative numbers -/

section Negative

variable {k : Int} {a : Nat} {n : Int} {x : Float}

/-- A double whose exponent is not the highest one is finite. -/
theorem isFinite_of_exponent
    (h : (@unpackExponent Format.binary64 x.toModel.toBits.toBitVec).toNat ≠ 0x7ff) :
    Decimal.isFinite x = true := by
  have hbits : x.toBits.toNat = x.toModel.toBits.toBitVec.toNat := rfl
  rw [toNat_unpackExponent, ← hbits] at h
  simp only [Decimal.isFinite, Binary.ofFloat]
  rw [if_neg h]
  split <;> rfl

/-- Packing a number that is not too large does not give it the highest exponent. -/
theorem exponent_pack_ne {s : Sign} {m : Nat} {e : Int} {hm : 0 < m} (h : Fits k m e)
    (hk : k ≤ 900) :
    (unpackExponent (UnpackedFloat.pack Format.binary64 (.finite s m e hm))).toNat ≠ 0x7ff := by
  obtain ⟨he, -⟩ := fits_iff.mp h
  have hsmall : ¬2 ^ Format.binary64.exponentBits ≤ (e + Format.binary64.exponentBias +
      Format.binary64.mantissaBitsWithoutImplicit).toNat + 1 := by
    change ¬2048 ≤ (e + 1023 + 52).toNat + 1
    omega
  simp only [UnpackedFloat.pack]
  rw [if_neg hsmall]
  split
  · rw [unpackExponent_packComponents]
    change (BitVec.ofNat 11 (e + 1023 + 52).toNat).toNat ≠ 0x7ff
    rw [BitVec.toNat_ofNat]
    omega
  · rw [unpackExponent_packComponents]
    decide

/-- The opposite of a double that is not too large is finite. -/
theorem IsBelow.isFinite_neg (h : IsBelow k x) (hk : k ≤ 900) :
    Decimal.isFinite x.neg = true := by
  apply isFinite_of_exponent
  change (unpackExponent (UnpackedFloat.pack Format.binary64 x.toModel.unpack.neg)).toNat ≠ 0x7ff
  rw [IsBelow] at h
  cases h' : x.toModel.unpack with
  | zero s =>
    change (unpackExponent (packComponents Format.binary64 (-s) 0 0)).toNat ≠ 0x7ff
    rw [unpackExponent_packComponents]
    decide
  | finite s m e hm =>
    rw [h'] at h
    exact exponent_pack_ne h.fits hk
  | infinity s =>
    rw [h'] at h
    cases h
  | notANumber =>
    rw [h'] at h
    cases h

/-- **Every whole number that is not too large, of either sign, has a double.** -/
theorem exists_ofInt? (h : n.natAbs < 2 ^ a) (ha : a ≤ 800) :
    ∃ x, Decimal.ofInt? n = some x := by
  refine ⟨Float.ofInt n, ?_⟩
  rw [Decimal.ofInt?, if_pos]
  cases n with
  | ofNat m =>
    have hbelow : IsBelow ((a + 3 : Nat) : Int) (Float.ofNat m) := isBelow_ofNat h ha
    exact hbelow.isFinite
  | negSucc m =>
    have hbelow : IsBelow ((a + 3 : Nat) : Int) (Float.ofNat (m + 1)) := isBelow_ofNat h ha
    exact hbelow.isFinite_neg (by omega)

end Negative

end Stencil.Number
