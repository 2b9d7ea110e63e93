import Stencil.Proofs.Number.Magnitude

/-!
# Proofs/Number/Percent — a share of a double, and positions from nought up

    0 ≤ x < 2 ^ k  ──/ 100──▸  0 ≤ x / 100 < 2 ^ (k + 1)

Division by a double that is not below one makes no number larger, apart from the rounding
(`IsBelow.div`), so a hundredth of a bounded double is bounded again (`IsBelow.div_hundred`).  A
double with such a bound has no minus sign, and its pixel position is not negative
(`IsBelow.toPixel_nonneg`).  Nought times any of them is nought itself (`toPixel_zero_mul`).
-/

namespace Stencil.Number

open Float.Model Float.Model.UnpackedFloat
open Stencil.Decimal (Binary)

/-! ## Division -/

section Division

variable {j k : Int} {m n : Nat} {e d : Int} {x y : Float}

/-- A mantissa divided by a number of more than `b` digits has `b` digits less. -/
theorem Nat.div_lt_two_pow {a b : Nat} (hm : m < 2 ^ a) (hn : 2 ^ b ≤ n) :
    m / n < 2 ^ (a - b) := by
  rw [Nat.div_lt_iff_lt_mul (Nat.lt_of_lt_of_le (Nat.two_pow_pos b) hn)]
  calc m < 2 ^ a := hm
    _ ≤ 2 ^ (a - b + b) := Nat.pow_le_pow_right (by decide) (by omega)
    _ = 2 ^ (a - b) * 2 ^ b := Nat.pow_add ..
    _ ≤ 2 ^ (a - b) * n := Nat.mul_le_mul_left _ hn

/-- The mantissa and the exponent of a quotient, before it is rounded. -/
theorem Fits.div (h : Fits k m e) (hm : 0 < m) (hn : 0 < n) (hd : 1 ≤ totalExponent n d)
    (hk : -1074 ≤ k) :
    Fits k (divCore Format.binary64 m e n d).1 (divCore Format.binary64 m e n d).2.1 := by
  obtain ⟨he, htotal⟩ := fits_iff.mp h
  have htotal := htotal hm.ne'
  have hmin : Format.binary64.minExponent = -1074 := by decide
  have hbits : Format.binary64.mantissaBits = 53 := by decide
  have htarget : Format.binary64.targetExponent (totalExponent m e - totalExponent n d) ≤ k := by
    rw [Format.targetExponent, hmin, hbits]
    omega
  simp only [divCore]
  generalize ht : min (e - d) _ = t
  have hlog : m <<< (e - d - t).toNat < 2 ^ (m.log2 + 1 + (e - d - t).toNat) := by
    rw [Nat.shiftLeft_eq, Nat.pow_add]
    exact Nat.mul_lt_mul_of_pos_right Nat.lt_log2_self (Nat.two_pow_pos _)
  refine ⟨_, Nat.div_lt_two_pow hlog (Nat.log2_self_le hn.ne'), ?_⟩
  rw [totalExponent] at htotal hd
  omega

theorem below_div {u : UnpackedFloat} (hu : Below k u) {hn : 0 < n}
    (hd : 1 ≤ totalExponent n d) (hk : -1074 ≤ k) :
    Below (k + 1) (UnpackedFloat.div Format.binary64 u (.finite .positive n d hn)) := by
  cases hu with
  | zero => exact .zero
  | @finite m e hm hfits => exact below_roundWithAccuracy (hfits.div hm hn hd hk) hk _

/-- **A hundredth of a double.** -/
theorem IsBelow.div_hundred (h : IsBelow k x) (hlow : -1023 ≤ k) (hhigh : k < 900) :
    IsBelow (k + 1) (x / 100) := by
  obtain ⟨n, d, hn, hhundred, hd⟩ : ∃ n d, ∃ hn : 0 < n,
      (100 : Float).toModel.unpack = .finite .positive n d hn ∧ 1 ≤ totalExponent n d :=
    ⟨_, _, _, rfl, by decide +kernel⟩
  change Below (k + 1) (Float.Model.pack (UnpackedFloat.div Format.binary64 x.toModel.unpack
    (100 : Float).toModel.unpack)).unpack
  rw [hhundred]
  exact below_unpack_pack (below_div h hd (by omega)) (by omega) (by omega)

end Division

/-! ## Positions from nought up -/

section Position

variable {k : Nat} {x : Float}

/-- A bounded double has no minus sign. -/
theorem IsBelow.toNat_toBits_lt (h : IsBelow k x) : x.toBits.toNat < 0x8000000000000000 := by
  rw [IsBelow, Float.Model.unpack] at h
  generalize hb : x.toModel.toBits.toBitVec = b at h
  have hbits : x.toBits.toNat = b.toNat := by rw [← hb]; rfl
  have hsign : Sign.ofBitVec (@unpackSign Format.binary64 b) = .positive := by
    simp only [UnpackedFloat.unpack] at h
    split at h
    next => split at h <;> cases h
    next =>
      split at h
      next =>
        split at h
        · generalize Sign.ofBitVec _ = s at h ⊢
          cases h
          rfl
        · generalize Sign.ofBitVec _ = s at h ⊢
          cases h
          rfl
      next =>
        generalize Sign.ofBitVec _ = s at h ⊢
        cases h
        rfl
  have hzero : @unpackSign Format.binary64 b = 0#1 := by
    rw [Sign.ofBitVec] at hsign
    split at hsign
    · assumption
    · cases hsign
  have hnat := congrArg BitVec.toNat hzero
  simp [unpackSign, Nat.shiftRight_eq_div_pow] at hnat
  have := b.isLt
  change b.toNat < 2 ^ 64 at this
  omega

/-- **The position of a bounded double** is not negative. -/
theorem IsBelow.toPixel_nonneg (h : IsBelow k x) : 0 ≤ toPixel x := by
  have hlt := h.toNat_toBits_lt
  obtain ⟨negative, m, e, hx, -⟩ := h.ofFloat
  have hnegative : negative = false := by
    simp only [Binary.ofFloat] at hx
    grind
  rw [toPixel, hx, hnegative]
  have hpos (n : Nat) : 0 ≤ saturate n := by
    simp only [saturate, leastPixel, greatestPixel]
    omega
  exact hpos _

/-- **Nought times a bounded double** is at the origin. -/
theorem IsBelow.toPixel_zero_mul (h : IsBelow k x) : toPixel (Float.ofNat 0 * x) = 0 := by
  have hprod : Float.ofNat 0 * x = Float.ofModel (Float.Model.pack
      (UnpackedFloat.mul Format.binary64 (.zero .positive) x.toModel.unpack)) := rfl
  have hzero : UnpackedFloat.mul Format.binary64 (.zero .positive) x.toModel.unpack =
      .zero .positive := by
    rw [IsBelow] at h
    generalize x.toModel.unpack = u at h ⊢
    cases h <;> rfl
  rw [hprod, hzero]
  decide +kernel

end Position

end Stencil.Number
