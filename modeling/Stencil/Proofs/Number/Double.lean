import Stencil.Proofs.Number.Unpacked

/-!
# Proofs/Number/Double — doubles as fractions

    x is p,  y is q  ──▸  x · y is rounded (p · q),  x + y is rounded (p + q),  …

`IsDouble x q` says that a double from nought up *is* the fraction `q`.  Each operation on doubles
gives the double nearest to what it gives on fractions.  The whole part of a double is that of its
fraction (`IsDouble.wholePart`, `IsDouble.toPixel`).
-/

namespace Stencil.Number

open Float.Model Float.Model.UnpackedFloat
open Stencil.Decimal (Binary)

/-! ## Doubles -/

/-- **A double from nought up that is a fraction.** -/
def IsDouble (x : Float) (q : ℚ) : Prop :=
  Holds q x.toModel.unpack

section Doubles

variable {n k : ℕ} {p q : ℚ} {x y : Float}

theorem IsDouble.rounded_eq (h : IsDouble x q) : rounded q = q :=
  Holds.rounded_eq h

theorem IsDouble.nonneg (h : IsDouble x q) : 0 ≤ q :=
  Holds.nonneg h

/-- Rounding does not leave the range of the doubles. -/
theorem rounded_lt (hq : 0 ≤ q) (h : q < 2 ^ 64) : rounded q < 2 ^ 1024 := by
  have herror := (abs_le.mp (abs_rounded_sub_le (k := 64) hq (by exact_mod_cast h) (by decide))).2
  calc rounded q < 2 ^ 65 := by norm_num at h herror ⊢; linarith
    _ ≤ 2 ^ 1024 := pow_le_pow_right₀ one_le_two (by decide)

theorem IsDouble.mul (hx : IsDouble x p) (hy : IsDouble y q) (h : p * q < 2 ^ 64) :
    IsDouble (x * y) (rounded (p * q)) :=
  (holds_mul hx hy).unpack_pack (rounded_lt (mul_nonneg hx.nonneg hy.nonneg) h)

theorem IsDouble.div (hx : IsDouble x p) (hy : IsDouble y q) (hq : 0 < q) (h : p / q < 2 ^ 64) :
    IsDouble (x / y) (rounded (p / q)) :=
  (holds_div hx hy hq).unpack_pack (rounded_lt (div_nonneg hx.nonneg hq.le) h)

theorem IsDouble.add (hx : IsDouble x p) (hy : IsDouble y q) (h : p + q < 2 ^ 64) :
    IsDouble (x + y) (rounded (p + q)) :=
  (holds_add hx hy).unpack_pack (rounded_lt (add_nonneg hx.nonneg hy.nonneg) h)

theorem IsDouble.sub (hx : IsDouble x p) (hy : IsDouble y q) (hle : q ≤ p) (h : p < 2 ^ 64) :
    IsDouble (x - y) (rounded (p - q)) :=
  (holds_sub hx hy hle).unpack_pack
    (rounded_lt (sub_nonneg.mpr hle) (lt_of_le_of_lt (sub_le_self p hy.nonneg) h))

theorem rounded_natCast (h : n < 2 ^ 53) : rounded n = n := by
  have hlt : (n : ℚ) < 2 ^ 53 := by exact_mod_cast h
  exact le_antisymm (rounded_le_natCast hlt (le_refl _)) (natCast_le_rounded hlt (le_refl _))

theorem isDouble_one : IsDouble (Float.ofBits 0x3FF0000000000000) 1 := by
  have hunpack : (Float.ofBits 0x3FF0000000000000).toModel.unpack =
      .finite .positive (2 ^ 52) (-52) (by decide) := by rfl
  rw [IsDouble, hunpack]
  exact .finite (by decide) (by decide) (.inl (le_refl _)) (by norm_num)

/-- A word of 53 bits is a double. -/
theorem isDouble_toFloat (h : n < 2 ^ 53) : IsDouble n.toUInt64.toFloat n := by
  have hlt : (n : ℚ) < 2 ^ 53 := by exact_mod_cast h
  have hcast : (n.toUInt64.toNat : ℚ) = n := by
    rw [Nat.toUInt64_eq, UInt64.toNat_ofNat_of_lt' (h.trans (by decide))]
  have hnormalize := holds_normalize (Int.natCast_nonneg n.toUInt64.toNat) 0 .positive
  rw [zpow_zero, mul_one, Int.cast_natCast, hcast, rounded_natCast h] at hnormalize
  exact hnormalize.unpack_pack (hlt.trans (pow_lt_pow_right₀ one_lt_two (by decide)))

/-- **A whole number of 53 bits is a double.** -/
theorem isDouble_ofNat (h : n < 2 ^ 53) : IsDouble (Float.ofNat n) n := by
  have hlt : (n : ℚ) < 2 ^ 53 := by exact_mod_cast h
  have hone := (isDouble_toFloat h).mul isDouble_one
    (by rw [mul_one]; exact hlt.trans (by norm_num))
  rw [mul_one, rounded_natCast h] at hone
  change IsDouble (Float.ofScientific n false 0) n
  unfold Float.ofScientific
  rw [dif_pos ⟨h, by decide⟩]
  exact hone

end Doubles

/-! ## Whole parts -/

section WholePart

variable {n k : ℕ} {q : ℚ} {x : Float}

theorem toNat_unpackSign (b : BitVec 64) :
    (@unpackSign Format.binary64 b).toNat = b.toNat / 0x8000000000000000 % 2 := by
  simp [unpackSign, Nat.shiftRight_eq_div_pow]

/-- The fields of a double that is a fraction. -/
theorem IsDouble.ofFloat (h : IsDouble x q) :
    ∃ negative m e, Binary.ofFloat x = .finite negative m e ∧ q = m * 2 ^ e ∧
      (negative = true → m = 0) := by
  rw [IsDouble, Float.Model.unpack] at h
  generalize hb : x.toModel.toBits.toBitVec = b at h
  have hbits : x.toBits.toNat = b.toNat := by rw [← hb]; rfl
  have hnegative : Sign.ofBitVec (@unpackSign Format.binary64 b) = .positive →
      (b.toNat / 0x8000000000000000 % 2 == 1) = false := by
    intro hsign
    rw [← toNat_unpackSign]
    rw [Sign.ofBitVec] at hsign
    split at hsign
    next hzero => rw [hzero]; rfl
    next => cases hsign
  simp only [UnpackedFloat.unpack] at h
  simp only [Binary.ofFloat]
  rw [hbits, ← toNat_unpackExponent, ← toNat_unpackMantissa]
  split at h
  next => split at h <;> cases h
  next htop =>
    have htop' : (@unpackExponent Format.binary64 b).toNat ≠ 0x7ff :=
      fun hn => htop (BitVec.eq_of_toNat_eq hn)
    rw [if_neg htop']
    split at h
    next hzero =>
      have hzero' : (@unpackExponent Format.binary64 b).toNat = 0 := congrArg BitVec.toNat hzero
      rw [if_pos hzero']
      split at h
      next hm =>
        have hm' : (@unpackMantissa Format.binary64 b).toNat = 0 := congrArg BitVec.toNat hm
        refine ⟨_, _, _, rfl, ?_, fun _ => hm'⟩
        cases h with
        | zero hq => rw [hq, hm', Nat.cast_zero, zero_mul]
      next =>
        obtain ⟨hsign, hq⟩ := h.sign_eq
        rw [hnegative hsign]
        refine ⟨_, _, _, rfl, ?_, fun h => absurd h Bool.false_ne_true⟩
        rw [hq, hzero']
        rfl
    next hne =>
      have hne' : (@unpackExponent Format.binary64 b).toNat ≠ 0 :=
        fun hn => hne (BitVec.eq_of_toNat_eq hn)
      rw [if_neg hne']
      obtain ⟨hsign, hq⟩ := h.sign_eq
      rw [hnegative hsign]
      refine ⟨_, _, _, rfl, ?_, fun h => absurd h Bool.false_ne_true⟩
      rw [hq, toNat_append_mantissa]
      rfl

theorem floor_natCast_mul_zpow (m : ℕ) (e : ℤ) :
    ⌊(m * 2 ^ e : ℚ)⌋ =
      (if 0 ≤ e then m * Nat.pow 2 e.toNat else m / Nat.pow 2 (-e).toNat : ℕ) := by
  split
  next he =>
    obtain ⟨t, rfl⟩ := Int.eq_ofNat_of_zero_le he
    rw [Int.toNat_natCast, zpow_natCast]
    exact_mod_cast Int.floor_natCast (R := ℚ) (m * 2 ^ t)
  next he =>
    obtain ⟨t, ht⟩ := Int.eq_ofNat_of_zero_le (show 0 ≤ -e by omega)
    rw [ht, Int.toNat_natCast, show e = -t by omega, zpow_neg, zpow_natCast, ← div_eq_mul_inv]
    exact_mod_cast Rat.floor_natCast_div_natCast m (2 ^ t)

/-- The whole part of a double is that of the fraction. -/
theorem IsDouble.truncate? (h : IsDouble x q) : (Binary.ofFloat x).truncate? = some ⌊q⌋ := by
  obtain ⟨negative, m, e, hx, hq, hnegative⟩ := h.ofFloat
  rw [hx, hq, floor_natCast_mul_zpow, Binary.truncate?]
  cases negative with
  | false => rfl
  | true =>
    rw [hnegative rfl]
    simp [Binary.signed]

theorem IsDouble.wholePart (h : IsDouble x q) : wholePart x = .ok ⌊q⌋ := by
  rw [Number.wholePart, h.truncate?]

theorem IsDouble.toPixel (h : IsDouble x q) : toPixel x = saturate ⌊q⌋ := by
  rw [Number.toPixel, h.truncate?]

theorem IsDouble.isFinite (h : IsDouble x q) : Decimal.isFinite x = true := by
  rw [Decimal.isFinite, h.truncate?]
  rfl

end WholePart

/-! ## Doubles that are equal -/

section Equal

variable {q : ℚ} {x y : Float}

/-- A double that equals another one as numbers do is the same fraction; it may be nought with a
minus sign. -/
theorem IsDouble.of_beq (h : (x == y) = true) (hy : IsDouble y q) : IsDouble x q := by
  change (x.toModel.unpack.compare y.toModel.unpack == some .eq) = true at h
  rw [IsDouble] at hy ⊢
  generalize x.toModel.unpack = u at h ⊢
  generalize y.toModel.unpack = v at h hy
  rw [beq_iff_eq] at h
  cases hy with
  | zero hq =>
    cases u with
    | zero => exact .zero hq
    | finite s => cases s <;> simp [UnpackedFloat.compare] at h
    | infinity s => cases s <;> simp [UnpackedFloat.compare] at h
    | notANumber => simp [UnpackedFloat.compare] at h
  | @finite m e hm hlt he hnormal hq =>
    cases u with
    | zero => simp [UnpackedFloat.compare] at h
    | finite s n d hn =>
      cases s with
      | negative => simp [UnpackedFloat.compare] at h
      | positive =>
        obtain ⟨rfl, rfl⟩ : d = e ∧ n = m := by
          simpa [UnpackedFloat.compare, Ordering.then_eq_eq] using h
        exact .finite hlt he hnormal hq
    | infinity s => cases s <;> simp [UnpackedFloat.compare] at h
    | notANumber => simp [UnpackedFloat.compare] at h

end Equal

end Stencil.Number
