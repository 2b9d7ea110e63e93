import Stencil.Proofs.Number.Scientific

/-!
# Proofs/Number/Quotient — the quotient of two whole numbers

    n / d ──▸ exponent ──▸ mantissa ──binary──▸ digits behind the point ──▸ the double

The exponent of a quotient is found from its numerator and its denominator, and is its last place
(`exponent_eq_lastPlace`).  The mantissa is rounded once, and the double of both goes through
decimal digits without being rounded again (`isDouble_binary`).  So the quotient of two whole
numbers is the double nearest to their fraction, as long as that is not too large
(`quotient_natCast`).
-/

namespace Stencil.Number

open Stencil.Decimal (Binary)

variable {n d m k : ℕ} {q : ℚ} {x : Float}

/-! ## A mantissa and an exponent -/

/-- A power of ten under a whole number takes its digits behind the point. -/
theorem natCast_mul_five_pow_div (m k : ℕ) :
    ((m * 5 ^ k : ℕ) / 10 ^ k : ℚ) = m * 2 ^ (-k : ℤ) := by
  rw [show (10 : ℚ) = 2 * 5 by norm_num, mul_pow, zpow_neg, zpow_natCast, ← div_eq_mul_inv]
  push_cast
  exact mul_div_mul_right _ _ (by positivity)

/-- **The double of a mantissa and an exponent**, which goes through decimal digits. -/
theorem isDouble_binary (hm : m ≤ 2 ^ 53) (hk : 0 < k) (hk' : k ≤ 1074) :
    IsDouble (binary m (-k)) (m * 2 ^ (-k : ℤ)) := by
  have hscientific : binary m (-k) = Float.ofScientific (m * 5 ^ k) true k := by
    rw [binary, if_neg (by omega), neg_neg, Int.toNat_natCast]
    rfl
  have hrounded : rounded ((m * 5 ^ k : ℕ) / 10 ^ k : ℚ) = m * 2 ^ (-k : ℤ) := by
    rw [natCast_mul_five_pow_div, rounded_mul_zpow hm (by omega)]
  have hlt : (m * 2 ^ (-k : ℤ) : ℚ) < 2 ^ 1024 := by
    have hm : (m : ℚ) ≤ 2 ^ 53 := by exact_mod_cast hm
    calc (m * 2 ^ (-k : ℤ) : ℚ) ≤ m * 1 := by
          refine mul_le_mul_of_nonneg_left ?_ (Nat.cast_nonneg m)
          exact zpow_le_one_of_nonpos₀ one_le_two (by omega)
      _ ≤ 2 ^ 53 := by rwa [mul_one]
      _ < 2 ^ 1024 := pow_lt_pow_right₀ one_lt_two (by decide)
  have hdouble := isDouble_ofScientific_down (m := m * 5 ^ k) (k := k) (hrounded ▸ hlt)
  rwa [← hscientific, hrounded] at hdouble

/-! ## The exponent -/

/-- The logarithm of a quotient of whole numbers, which their logarithms leave open by one. -/
theorem log_div (hn : 0 < n) (hd : 0 < d) :
    Int.log 2 (n / d : ℚ) =
      if (n / d : ℚ) < 2 ^ ((n.log2 : ℤ) - d.log2) then (n.log2 : ℤ) - d.log2 - 1
      else (n.log2 : ℤ) - d.log2 := by
  have hdq : (0 : ℚ) < d := by exact_mod_cast hd
  have hpos : 0 < (n / d : ℚ) := div_pos (by exact_mod_cast hn) hdq
  have hn₁ : (2 : ℚ) ^ n.log2 ≤ n := by exact_mod_cast Nat.log2_self_le hn.ne'
  have hn₂ : (n : ℚ) < 2 ^ (n.log2 + 1) := by exact_mod_cast Nat.lt_log2_self
  have hd₁ : (2 : ℚ) ^ d.log2 ≤ d := by exact_mod_cast Nat.log2_self_le hd.ne'
  have hd₂ : (d : ℚ) < 2 ^ (d.log2 + 1) := by exact_mod_cast Nat.lt_log2_self
  have hlow : (n.log2 : ℤ) - d.log2 - 1 ≤ Int.log 2 (n / d : ℚ) := by
    refine (Int.zpow_le_iff_le_log one_lt_two hpos).mp ?_
    rw [Nat.cast_ofNat,
      show (n.log2 : ℤ) - d.log2 - 1 = n.log2 - (d.log2 + 1 : ℕ) by push_cast; ring,
      zpow_sub₀ two_ne_zero, zpow_natCast, zpow_natCast]
    exact div_le_div₀ (Nat.cast_nonneg n) hn₁ hdq hd₂.le
  have hhigh : Int.log 2 (n / d : ℚ) < (n.log2 : ℤ) - d.log2 + 1 := by
    refine (Int.lt_zpow_iff_log_lt one_lt_two hpos).mp ?_
    rw [Nat.cast_ofNat,
      show (n.log2 : ℤ) - d.log2 + 1 = (n.log2 + 1 : ℕ) - d.log2 by push_cast; ring,
      zpow_sub₀ two_ne_zero, zpow_natCast, zpow_natCast]
    exact div_lt_div₀ hn₂ hd₁ (by positivity) (by positivity)
  have hiff := Int.lt_zpow_iff_log_lt (R := ℚ) (b := 2) (x := (n.log2 : ℤ) - d.log2) one_lt_two hpos
  rw [Nat.cast_ofNat] at hiff
  split
  next h => have := hiff.mp h; omega
  next h => have := hiff.not.mp h; omega

/-- **The exponent of a quotient**, the way it is found from its numerator and denominator, is its
last place, if the quotient has digits behind the point. -/
theorem exponent_eq_lastPlace (hn : 0 < n) (hd : 0 < d) {least : ℤ}
    (hleast : least = (n.log2 : ℤ) - d.log2 - 53) (hneg : least ≤ 0) :
    max Binary.minExponent
        (if n * Nat.pow 2 (-least).toNat < 0x20000000000000 * (d * Nat.pow 2 least.toNat) then least
          else least + 1) =
      lastPlace (n / d : ℚ) := by
  obtain ⟨t, ht⟩ := Int.eq_ofNat_of_zero_le (show 0 ≤ -least by omega)
  have hexact : n * Nat.pow 2 (-least).toNat < 0x20000000000000 * (d * Nat.pow 2 least.toNat) ↔
      (n / d : ℚ) < 2 ^ ((n.log2 : ℤ) - d.log2) := by
    rw [ht, Int.toNat_natCast, show least.toNat = 0 by omega, Nat.pow_eq, Nat.pow_eq,
      pow_zero, mul_one, show (n.log2 : ℤ) - d.log2 = (53 : ℕ) - t by omega,
      zpow_sub₀ two_ne_zero, zpow_natCast, zpow_natCast,
      div_lt_div_iff₀ (by exact_mod_cast hd) (by positivity)]
    exact_mod_cast Iff.rfl
  rw [lastPlace, log_div hn hd, Binary.minExponent, max_comm]
  simp only [hexact]
  split <;> omega

/-! ## The quotient -/

/-- A quotient that is not too large has digits behind the point. -/
theorem log2_le_of_lt_mul (h : n < 2 ^ 52 * d) : n.log2 ≤ d.log2 + 52 := by
  rcases Nat.eq_zero_or_pos n with rfl | hn
  · exact Nat.zero_le _
  · refine Nat.le_of_lt_succ ((Nat.log2_lt hn.ne').mpr (h.trans ?_))
    calc 2 ^ 52 * d < 2 ^ 52 * 2 ^ (d.log2 + 1) :=
          Nat.mul_lt_mul_of_pos_left Nat.lt_log2_self (by decide)
      _ = 2 ^ (d.log2 + 52).succ := by
          rw [← pow_add]
          congr 1
          omega

/-- **The quotient of two whole numbers** is the nearest double. -/
theorem isDouble_nearestQuotient (hd : 0 < d) (h : n < 2 ^ 52 * d) :
    IsDouble (nearestQuotient n d) (rounded (n / d)) := by
  rcases Nat.eq_zero_or_pos n with rfl | hn
  · rw [nearestQuotient, if_pos rfl, Nat.cast_zero, zero_div, rounded_zero]
    exact isDouble_zero
  have hdq : (0 : ℚ) < d := by exact_mod_cast hd
  have hpos : 0 < (n / d : ℚ) := div_pos (by exact_mod_cast hn) hdq
  have hlt : (n / d : ℚ) < 2 ^ (52 : ℤ) := by
    rw [div_lt_iff₀ hdq]
    exact_mod_cast h
  have hplace : lastPlace (n / d : ℚ) ≤ -1 := lastPlace_le (k := 52) hpos hlt (by decide)
  have hleast : (n.log2 : ℤ) - d.log2 - 53 ≤ 0 := by
    have := log2_le_of_lt_mul h
    omega
  obtain ⟨k, hk⟩ := Int.eq_ofNat_of_zero_le (show 0 ≤ -lastPlace (n / d : ℚ) by omega)
  have hk : lastPlace (n / d : ℚ) = -k := by omega
  have hround : (roundedQuotient (n * 2 ^ k) d : ℤ) =
      nearestWhole (n / d / 2 ^ lastPlace (n / d : ℚ)) := by
    rw [roundedQuotient_eq _ hd, hk, zpow_neg, zpow_natCast, div_inv_eq_mul, div_mul_eq_mul_div]
    push_cast
    rfl
  have hvalue : rounded (n / d : ℚ) = roundedQuotient (n * 2 ^ k) d * 2 ^ (-k : ℤ) := by
    rw [rounded, ← hround, hk, Int.cast_natCast]
  have hquotient : nearestQuotient n d = binary (roundedQuotient (n * 2 ^ k) d) (-k) := by
    simp only [nearestQuotient, if_neg hn.ne', exponent_eq_lastPlace hn hd rfl hleast, hk, neg_neg,
      Int.toNat_natCast, Int.toNat_neg_natCast]
    rw [Nat.pow_eq, Nat.pow_eq, pow_zero, mul_one]
  rw [hquotient, hvalue]
  refine isDouble_binary ?_ (by omega) ?_
  · have := (nearestWhole_bounds hpos).1
    rw [← hround] at this
    exact_mod_cast this
  · have : -1074 ≤ lastPlace (n / d : ℚ) := le_max_right _ _
    omega

theorem quotient_natCast (hd : 0 < d) (h : n < 2 ^ 52 * d) :
    ∃ x, quotient n d = .ok x ∧ IsDouble x (rounded (n / d)) := by
  have hdouble := isDouble_nearestQuotient hd h
  refine ⟨nearestQuotient n d, ?_, hdouble⟩
  rw [quotient, if_neg (by omega)]
  simp only [Int.natAbs_natCast, Int.natCast_nonneg, not_lt_of_ge, decide_false, bne_self_eq_false]
  exact if_pos hdouble.isFinite

/-- A fraction from nought up is not below nought. -/
theorem IsDouble.not_lt_zero (h : IsDouble x q) : ¬x < 0 := by
  intro hlt
  have hmodel : x.toModel < (0 : Float).toModel := of_decide_eq_true hlt
  have hcompare : (x.toModel.unpack.compare (.zero .positive) == some .lt) = true := hmodel
  rw [IsDouble] at h
  generalize x.toModel.unpack = u at h hcompare
  cases h with
  | zero hq => cases hcompare
  | finite hlt he hnormal hq => cases hcompare

end Stencil.Number
