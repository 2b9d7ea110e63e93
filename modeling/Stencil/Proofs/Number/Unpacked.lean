import Stencil.Proofs.Number.Nearest
import Stencil.Proofs.Number.Magnitude

/-!
# Proofs/Number/Unpacked — operations on unpacked doubles

    m, e, remainder ──▸ shifted to the last place ──▸ m', e'    the nearest double
                                                   ──▸ bits     packed and unpacked

A double is worked on as a mantissa and an exponent.  `Stands m accuracy y` says which fractions a
mantissa and its remainder stand for, and `Holds q u` that the unpacked double `u`, from nought up,
is the fraction `q`.  `holds_roundWithAccuracy` is the one proof about rounding: multiplication,
division, addition and subtraction bring their operands to a mantissa that it applies to, and
`Holds.unpack_pack` keeps the result as it is stored.
-/

namespace Stencil.Number

open Float.Model Float.Model.UnpackedFloat

/-! ## Mantissas with a remainder -/

/-- A mantissa and what is known of the rest stand for a fraction. -/
def Stands (m : ℕ) : Accuracy → ℚ → Prop
  | .exact, y => y = m
  | .inexact .lt, y => m < y ∧ y < m + 1 / 2
  | .inexact .eq, y => y = m + 1 / 2
  | .inexact .gt, y => m + 1 / 2 < y ∧ y < m + 1

section Stands

variable {m n d : ℕ} {accuracy : Accuracy} {y : ℚ} {em : ExtendedMantissa}

theorem Stands.floor (h : Stands m accuracy y) : ⌊y⌋ = m := by
  rw [Int.floor_eq_iff, Int.cast_natCast]
  cases accuracy with
  | exact => rw [show y = m from h]; constructor <;> linarith
  | inexact o =>
    cases o with
    | lt => obtain ⟨h₁, h₂⟩ := h; constructor <;> linarith
    | eq => rw [show y = m + 1 / 2 from h]; constructor <;> linarith
    | gt => obtain ⟨h₁, h₂⟩ := h; constructor <;> linarith

/-- **Rounding** takes a mantissa to the nearest whole number. -/
theorem Stands.roundToNearestEven (h : Stands m accuracy y) :
    (accuracy.roundToNearestEven m : ℤ) = nearestWhole y := by
  have hfloor := h.floor
  have hfract : Int.fract y = y - m := by rw [← Int.self_sub_floor, hfloor, Int.cast_natCast]
  rw [nearestWhole, hfloor]
  cases accuracy with
  | exact =>
    rw [if_pos (by rw [hfract, show y = m from h]; norm_num)]
    rfl
  | inexact o =>
    cases o with
    | lt =>
      rw [if_pos (by rw [hfract]; linarith [h.2])]
      rfl
    | eq =>
      have hhalf : Int.fract y = 1 / 2 := by rw [hfract, show y = m + 1 / 2 from h]; ring
      rw [if_neg (by rw [hhalf]; exact lt_irrefl _), if_neg (by rw [hhalf]; exact lt_irrefl _)]
      push_cast [Accuracy.roundToNearestEven]
      rfl
    | gt =>
      rw [if_neg (by rw [hfract]; linarith [h.1]), if_pos (by rw [hfract]; linarith [h.1])]
      rfl

theorem accuracy_ofMantissaAndAccuracy (m : ℕ) (accuracy : Accuracy) :
    (ExtendedMantissa.ofMantissaAndAccuracy m accuracy).accuracy = accuracy := by
  cases accuracy with
  | exact => rfl
  | inexact o => cases o <;> rfl

/-- One digit less halves the fraction. -/
theorem Stands.shiftRightOne (h : Stands em.mantissa em.accuracy y) :
    Stands em.shiftRightOne.mantissa em.shiftRightOne.accuracy (y / 2) := by
  obtain ⟨m, roundBit, stickyBit⟩ := em
  have hsplit : (m : ℚ) = 2 * (m / 2 : ℕ) + (m % 2 : ℕ) := by
    exact_mod_cast (Nat.div_add_mod m 2).symm
  rcases Nat.mod_two_eq_zero_or_one m with hmod | hmod <;>
    rw [hmod] at hsplit <;>
    cases roundBit <;> cases stickyBit <;>
    simp_all [Stands, ExtendedMantissa.accuracy, ExtendedMantissa.shiftRightOne] <;>
    grind

theorem Stands.shiftRight (em : ExtendedMantissa) (h : Stands em.mantissa em.accuracy y) (t : ℕ) :
    Stands (em >>> t).mantissa (em >>> t).accuracy (y / 2 ^ t) := by
  induction t with
  | zero =>
    rw [pow_zero, div_one]
    exact h
  | succ t ih =>
    rw [pow_succ, ← div_div]
    exact ih.shiftRightOne

/-- A quotient of whole numbers, with its remainder. -/
theorem stands_accuracyOfFraction (n : ℕ) (hd : 0 < d) :
    Stands (n / d) (accuracyOfFraction (n % d) d) (n / d) := by
  have hdq : (0 : ℚ) < d := by exact_mod_cast hd
  have hlt : ((n % d : ℕ) : ℚ) / d < 1 := (div_lt_one hdq).mpr (by exact_mod_cast Nat.mod_lt n hd)
  rw [accuracyOfFraction, natCast_div_eq n hd]
  split
  next hzero => rw [hzero, Nat.cast_zero, zero_div, add_zero]; rfl
  next hne =>
    have hpos : 0 < ((n % d : ℕ) : ℚ) / d :=
      div_pos (by exact_mod_cast Nat.pos_of_ne_zero hne) hdq
    have hhalf : ((n % d : ℕ) : ℚ) / d < 1 / 2 ↔ 2 * (n % d) < d := by
      rw [div_lt_div_iff₀ hdq two_pos, one_mul, mul_comm]
      exact_mod_cast Iff.rfl
    have hhalf' : 1 / 2 < ((n % d : ℕ) : ℚ) / d ↔ d < 2 * (n % d) := by
      rw [div_lt_div_iff₀ two_pos hdq, one_mul, mul_comm _ (2 : ℚ)]
      exact_mod_cast Iff.rfl
    cases hcompare : compare (2 * (n % d)) d with
    | lt =>
      have := hhalf.mpr (Nat.compare_eq_lt.mp hcompare)
      constructor <;> linarith
    | eq =>
      have heq := Nat.compare_eq_eq.mp hcompare
      have hle := hhalf.not.mpr (by omega)
      have hge := hhalf'.not.mpr (by omega)
      change _ = _
      linarith
    | gt =>
      have := hhalf'.mpr (Nat.compare_eq_gt.mp hcompare)
      constructor <;> linarith

end Stands

/-! ## Rounding -/

/-- **An unpacked double that is a fraction** from nought up. -/
inductive Holds (q : ℚ) : UnpackedFloat → Prop
  | zero {s : Sign} (hq : q = 0) : Holds q (.zero s)
  | finite {m : ℕ} {e : ℤ} {hm : 0 < m} (hlt : m < 2 ^ 53) (he : -1074 ≤ e)
    (hnormal : 2 ^ 52 ≤ m ∨ e = -1074) (hq : q = m * 2 ^ e) : Holds q (.finite .positive m e hm)

section Rounding

variable {m n : ℕ} {e d : ℤ} {accuracy : Accuracy} {p q y : ℚ} {u v : UnpackedFloat}

theorem targetExponent_eq (n : ℤ) :
    Format.binary64.targetExponent n = max (n - 53) (-1074) := by
  have hmin : Format.binary64.minExponent = -1074 := by decide
  have hbits : Format.binary64.mantissaBits = 53 := by decide
  rw [Format.targetExponent, hmin, hbits]
  rfl

/-- **The exponent that a number is rounded to** is its last place. -/
theorem targetExponent_eq_lastPlace (h : Stands m accuracy y) (hy : 0 < y)
    (he : e ≤ Format.binary64.targetExponent (totalExponent m e)) :
    Format.binary64.targetExponent (totalExponent m e) = lastPlace (y * 2 ^ e) := by
  have hfloor := Int.floor_eq_iff.mp h.floor
  rw [Int.cast_natCast] at hfloor
  rw [targetExponent_eq, totalExponent] at he ⊢
  rcases Nat.eq_zero_or_pos m with rfl | hm
  · -- Without a digit the number is below the smallest double.
    rw [Nat.log2_zero] at he ⊢
    have hlt : y * 2 ^ e < 2 ^ e := by
      have : y < 1 := by simpa using hfloor.2
      exact mul_lt_of_lt_one_left (two_zpow_pos e) this
    have hlog : Int.log 2 (y * 2 ^ e) < e :=
      (Int.lt_zpow_iff_log_lt one_lt_two (mul_pos hy (two_zpow_pos e))).mp (by exact_mod_cast hlt)
    rw [lastPlace]
    omega
  · rw [lastPlace, log_eq hm hfloor.1 hfloor.2]
    omega

/-- The mantissa and the exponent after rounding, before a digit too many is taken off. -/
theorem shiftToTargetExponent_spec (h : Stands m accuracy y) (hy : 0 < y)
    (he : e ≤ Format.binary64.targetExponent (totalExponent m e)) :
    ((shiftToTargetExponent Format.binary64 m e accuracy).1.roundedMantissa : ℤ) =
        nearestWhole (y * 2 ^ e / 2 ^ lastPlace (y * 2 ^ e)) ∧
      (shiftToTargetExponent Format.binary64 m e accuracy).2 = lastPlace (y * 2 ^ e) := by
  have htarget := targetExponent_eq_lastPlace h hy he
  obtain ⟨t, ht⟩ := Int.eq_ofNat_of_zero_le (Int.sub_nonneg.mpr he)
  have hplace : lastPlace (y * 2 ^ e) = e + t := by omega
  have hscaled : y * 2 ^ e / 2 ^ lastPlace (y * 2 ^ e) = y / 2 ^ t := by
    rw [hplace, zpow_add₀ two_ne_zero, zpow_natCast, mul_comm,
      mul_div_mul_left _ _ (two_zpow_pos e).ne']
  have hstands : Stands _ _ (y / 2 ^ t) :=
    Stands.shiftRight (.ofMantissaAndAccuracy m accuracy)
      (by rwa [mantissa_ofMantissaAndAccuracy, accuracy_ofMantissaAndAccuracy]) t
  simp only [shiftToTargetExponent, shiftToExponent, ht, Int.toNat_natCast]
  exact ⟨by rw [hscaled]; exact hstands.roundToNearestEven, hplace.symm⟩

/-- A mantissa of 53 digits stays as it is. -/
theorem shiftToTargetExponent_of_lt (hm : m < 2 ^ 53) (he : -1074 ≤ e) :
    shiftToTargetExponent Format.binary64 m e .exact = (.ofMantissaAndAccuracy m .exact, e) := by
  have hlog : m.log2 ≤ 52 := by
    rcases Nat.eq_zero_or_pos m with rfl | hpos
    · decide
    · exact Nat.le_of_lt_succ ((Nat.log2_lt hpos.ne').mpr hm)
  simp only [shiftToTargetExponent, shiftToExponent, targetExponent_eq, totalExponent]
  rw [show (max ((m.log2 : ℤ) + 1 + e - 53) (-1074) - e).toNat = 0 by omega, Nat.cast_zero,
    add_zero]
  rfl

/-- Of a power of two with one digit more the last one is taken off. -/
theorem shiftToTargetExponent_two_pow (he : -1074 ≤ e) :
    shiftToTargetExponent Format.binary64 (2 ^ 53) e .exact =
      (.ofMantissaAndAccuracy (2 ^ 52) .exact, e + 1) := by
  simp only [shiftToTargetExponent, shiftToExponent, targetExponent_eq, totalExponent,
    Nat.log2_two_pow]
  rw [show (max (((53 : ℕ) : ℤ) + 1 + e - 53) (-1074) - e).toNat = 1 by omega]
  rfl

/-- **Rounding an unpacked double** gives the nearest one. -/
theorem holds_roundWithAccuracy (h : Stands m accuracy y) (hy : 0 < y)
    (he : e ≤ Format.binary64.targetExponent (totalExponent m e)) :
    Holds (rounded (y * 2 ^ e)) (roundWithAccuracy Format.binary64 .positive m e accuracy) := by
  obtain ⟨hmantissa, hexponent⟩ := shiftToTargetExponent_spec h hy he
  obtain ⟨hle, hlow⟩ := nearestWhole_bounds (mul_pos hy (two_zpow_pos e))
  have hrounded : rounded (y * 2 ^ e) =
      ((shiftToTargetExponent Format.binary64 m e accuracy).1.roundedMantissa : ℚ) *
        2 ^ (shiftToTargetExponent Format.binary64 m e accuracy).2 := by
    rw [rounded, ← hmantissa, hexponent, Int.cast_natCast]
  rw [← hmantissa] at hle hlow
  rw [← hexponent] at hlow
  have hleast : -1074 ≤ (shiftToTargetExponent Format.binary64 m e accuracy).2 := by
    rw [hexponent]
    exact le_max_right _ _
  rw [hrounded, roundWithAccuracy]
  generalize shiftToTargetExponent Format.binary64 m e accuracy = shifted at hle hlow hleast ⊢
  obtain ⟨em, d⟩ := shifted
  dsimp only at hle hlow hleast ⊢
  have hle : em.roundedMantissa ≤ 2 ^ 53 := by exact_mod_cast hle
  rcases hle.eq_or_lt with heq | hlt
  · -- Rounded up to a power of two, the mantissa has one digit too many.
    rw [heq, shiftToTargetExponent_two_pow hleast]
    change Holds _ (.finite .positive (2 ^ 52) (d + 1) (by decide))
    refine .finite (by decide) (by omega) (.inl (le_refl _)) ?_
    rw [zpow_add_one₀ two_ne_zero]
    push_cast
    ring
  · rw [shiftToTargetExponent_of_lt hlt hleast]
    simp only [mantissa_ofMantissaAndAccuracy]
    split
    next hzero => exact .zero (by rw [hzero, Nat.cast_zero, zero_mul])
    next => exact .finite hlt hleast (hlow.imp_left fun h => by exact_mod_cast h) rfl

theorem log2_shiftLeft (hm : 0 < m) (t : ℕ) : (m <<< t).log2 = m.log2 + t := by
  rw [Nat.log2_eq_iff (Nat.shiftLeft_pos_iff.mpr hm).ne', Nat.shiftLeft_eq, add_right_comm, pow_add,
    pow_add _ _ t]
  exact ⟨Nat.mul_le_mul_right _ (Nat.log2_self_le hm.ne'),
    Nat.mul_lt_mul_of_pos_right Nat.lt_log2_self (Nat.two_pow_pos t)⟩

/-- Digits behind the point do not change a number. -/
theorem shiftLeft_mul_zpow (m : ℕ) {t : ℕ} (h : e - d = t) :
    ((m <<< t : ℕ) : ℚ) * 2 ^ d = m * 2 ^ e := by
  rw [Nat.shiftLeft_eq, show e = t + d by omega, zpow_add₀ two_ne_zero, zpow_natCast]
  push_cast
  ring

/-- A number is brought to its own exponent before it is rounded. -/
theorem holds_round (hm : 0 < m) (e : ℤ) :
    Holds (rounded (m * 2 ^ e)) (UnpackedFloat.round Format.binary64 .positive m e) := by
  simp only [UnpackedFloat.round, decreaseExponent]
  generalize ht : (e - Format.binary64.targetExponent (totalExponent m e)).toNat = t
  rw [← shiftLeft_mul_zpow m (sub_sub_cancel e t)]
  refine holds_roundWithAccuracy rfl ?_ ?_
  · exact_mod_cast Nat.shiftLeft_pos_iff.mpr hm
  · rw [targetExponent_eq, totalExponent] at ht ⊢
    rw [log2_shiftLeft hm]
    omega

theorem holds_normalize {m : ℤ} (hm : 0 ≤ m) (e : ℤ) (s : Sign) :
    Holds (rounded (m * 2 ^ e)) (UnpackedFloat.normalize Format.binary64 m e s) := by
  obtain ⟨n, rfl⟩ := Int.eq_ofNat_of_zero_le hm
  rw [UnpackedFloat.normalize]
  rcases Nat.eq_zero_or_pos n with rfl | hn
  · exact .zero (by simp)
  · rw [Int.compare_eq_gt.mpr (by omega)]
    exact holds_round hn e

/-- What is a double already is not rounded. -/
theorem Holds.rounded_eq (h : Holds q u) : rounded q = q := by
  cases h with
  | zero hq => rw [hq, rounded_zero]
  | finite hlt he hnormal hq => rw [hq, rounded_mul_zpow hlt.le he]

theorem Holds.nonneg (h : Holds q u) : 0 ≤ q := by
  cases h with
  | zero hq => rw [hq]
  | finite hlt he hnormal hq =>
    rw [hq]
    exact mul_nonneg (Nat.cast_nonneg _) (two_zpow_pos _).le

theorem Holds.sign_eq {s : Sign} {hm : 0 < m} (h : Holds q (.finite s m e hm)) :
    s = .positive ∧ q = m * 2 ^ e := by
  cases h with
  | finite hlt he hnormal hq => exact ⟨rfl, hq⟩

end Rounding

/-! ## Arithmetic -/

section Arithmetic

variable {m n : ℕ} {e d : ℤ} {p q : ℚ} {u v : UnpackedFloat}

/-- A product of two numbers that has no more places than a double. -/
theorem holds_mul_finite (hm : 0 < m) (hn : 0 < n)
    (h : e + d ≤ Format.binary64.targetExponent (totalExponent (m * n) (e + d))) :
    Holds (rounded (m * 2 ^ e * (n * 2 ^ d))) (UnpackedFloat.mul Format.binary64
      (.finite .positive m e hm) (.finite .positive n d hn)) := by
  have hvalue : (m * 2 ^ e * (n * 2 ^ d) : ℚ) = (m * n : ℕ) * 2 ^ (e + d) := by
    rw [zpow_add₀ two_ne_zero]
    push_cast
    ring
  rw [hvalue]
  exact holds_roundWithAccuracy rfl (by exact_mod_cast Nat.mul_pos hm hn) h

theorem holds_mul (hu : Holds p u) (hv : Holds q v) :
    Holds (rounded (p * q)) (UnpackedFloat.mul Format.binary64 u v) := by
  cases hu with
  | zero hp =>
    cases hv <;> exact .zero (by rw [hp, zero_mul, rounded_zero])
  | @finite m e hm hm53 he hnormal hp =>
    cases hv with
    | zero hq => exact .zero (by rw [hq, mul_zero, rounded_zero])
    | @finite n d hn hn53 hd hnormal' hq =>
      rw [hp, hq]
      refine holds_mul_finite hm hn ?_
      rw [targetExponent_eq, totalExponent]
      by_cases hfull : 2 ^ 52 ≤ m * n
      · have := (Nat.le_log2 (Nat.mul_pos hm hn).ne').mpr hfull
        omega
      · -- Neither has all its digits, so both have the lowest exponent.
        have : m ≤ m * n := Nat.le_mul_of_pos_right m hn
        have : n ≤ m * n := Nat.le_mul_of_pos_left n hm
        omega

/-- A quotient has as many digits as its operands tell, or one more. -/
theorem log2_le_log2_div (m : ℕ) (hn : 0 < n) : m.log2 ≤ (m / n).log2 + n.log2 + 1 := by
  rcases Nat.eq_zero_or_pos m with rfl | hm
  · rw [Nat.log2_zero]
    exact Nat.zero_le _
  refine Nat.le_of_lt_succ ((Nat.log2_lt hm.ne').mpr ?_)
  calc m < n * (m / n + 1) := Nat.lt_mul_div_succ m hn
    _ ≤ 2 ^ (n.log2 + 1) * 2 ^ ((m / n).log2 + 1) :=
      Nat.mul_le_mul Nat.lt_log2_self.le Nat.lt_log2_self
    _ = 2 ^ ((m / n).log2 + n.log2 + 1).succ := by rw [← pow_add]; congr 1; omega

/-- A quotient of two numbers of any size. -/
theorem holds_div_finite (hm : 0 < m) (hn : 0 < n) (e d : ℤ) :
    Holds (rounded (m * 2 ^ e / (n * 2 ^ d)))
      (UnpackedFloat.div Format.binary64 (.finite .positive m e hm)
        (.finite .positive n d hn)) := by
  simp only [UnpackedFloat.div, divCore, targetExponent_eq, totalExponent]
  generalize ht : min (e - d) _ = t
  obtain ⟨k, hk⟩ := Int.eq_ofNat_of_zero_le (show 0 ≤ e - d - t by omega)
  rw [hk, Int.toNat_natCast]
  have hvalue : (m * 2 ^ e / (n * 2 ^ d) : ℚ) = ((m <<< k : ℕ) / n : ℚ) * 2 ^ t := by
    rw [mul_div_mul_comm, ← zpow_sub₀ two_ne_zero, div_mul_eq_mul_div, div_mul_eq_mul_div,
      shiftLeft_mul_zpow m hk]
  rw [hvalue]
  have hpos : 0 < ((m <<< k : ℕ) / n : ℚ) :=
    div_pos (by exact_mod_cast Nat.shiftLeft_pos_iff.mpr hm) (by exact_mod_cast hn)
  refine holds_roundWithAccuracy (stands_accuracyOfFraction _ hn) hpos ?_
  have hlog := log2_le_log2_div (m <<< k) hn
  rw [log2_shiftLeft hm] at hlog
  rw [targetExponent_eq, totalExponent]
  omega

theorem holds_div (hu : Holds p u) (hv : Holds q v) (hq : 0 < q) :
    Holds (rounded (p / q)) (UnpackedFloat.div Format.binary64 u v) := by
  cases hv with
  | zero h => exact absurd h hq.ne'
  | finite _ _ _ hq' =>
    cases hu with
    | zero hp => exact .zero (by rw [hp, zero_div, rounded_zero])
    | finite _ _ _ hp =>
      rw [hp, hq']
      exact holds_div_finite _ _ _ _

theorem holds_add (hu : Holds p u) (hv : Holds q v) :
    Holds (rounded (p + q)) (UnpackedFloat.add Format.binary64 u v) := by
  cases hu with
  | zero hp =>
    rw [hp, zero_add, hv.rounded_eq]
    cases hv with
    | zero hq =>
      simp only [UnpackedFloat.add]
      split <;> exact .zero hq
    | finite hlt he hnormal hq => exact .finite hlt he hnormal hq
  | @finite m e hm hm53 he hnormal hp =>
    have hu : Holds p (.finite .positive m e hm) := .finite hm53 he hnormal hp
    cases hv with
    | zero hq =>
      rw [hq, add_zero, hu.rounded_eq]
      exact hu
    | @finite n d hn hn53 hd hnormal' hq =>
      simp only [UnpackedFloat.add, decreaseExponent, Sign.apply]
      generalize ht : min e d = t
      obtain ⟨j, hj⟩ := Int.eq_ofNat_of_zero_le (show 0 ≤ e - t by omega)
      obtain ⟨k, hk⟩ := Int.eq_ofNat_of_zero_le (show 0 ≤ d - t by omega)
      have hvalue : p + q = ((((m <<< j : ℕ) : ℤ) + ((n <<< k : ℕ) : ℤ) : ℤ) : ℚ) * 2 ^ t := by
        rw [hp, hq, Int.cast_add, add_mul, Int.cast_natCast, Int.cast_natCast,
          shiftLeft_mul_zpow m hj, shiftLeft_mul_zpow n hk]
      rw [hj, hk, Int.toNat_natCast, Int.toNat_natCast, hvalue]
      exact holds_normalize (Int.add_nonneg (Int.natCast_nonneg _) (Int.natCast_nonneg _)) t
        .positive

theorem holds_sub (hu : Holds p u) (hv : Holds q v) (hle : q ≤ p) :
    Holds (rounded (p - q)) (UnpackedFloat.sub Format.binary64 u v) := by
  cases hv with
  | zero hq =>
    rw [hq, sub_zero, hu.rounded_eq]
    cases hu with
    | zero hp =>
      simp only [UnpackedFloat.sub]
      split <;> exact .zero hp
    | finite hlt he hnormal hp => exact .finite hlt he hnormal hp
  | @finite n d hn hn53 hd hnormal' hq =>
    have hpos : 0 < q := by
      rw [hq]
      exact mul_pos (by exact_mod_cast hn) (two_zpow_pos d)
    cases hu with
    | zero hp => exact absurd hle (by rw [hp]; exact hpos.not_ge)
    | @finite m e hm hm53 he hnormal hp =>
      simp only [UnpackedFloat.sub, decreaseExponent, Sign.apply]
      generalize ht : min e d = t
      obtain ⟨j, hj⟩ := Int.eq_ofNat_of_zero_le (show 0 ≤ e - t by omega)
      obtain ⟨k, hk⟩ := Int.eq_ofNat_of_zero_le (show 0 ≤ d - t by omega)
      have hvalue : p - q = ((((m <<< j : ℕ) : ℤ) - ((n <<< k : ℕ) : ℤ) : ℤ) : ℚ) * 2 ^ t := by
        rw [hp, hq, Int.cast_sub, sub_mul, Int.cast_natCast, Int.cast_natCast,
          shiftLeft_mul_zpow m hj, shiftLeft_mul_zpow n hk]
      rw [hj, hk, Int.toNat_natCast, Int.toNat_natCast, hvalue]
      refine holds_normalize ?_ t .positive
      have := nonneg_of_mul_nonneg_left (hvalue ▸ sub_nonneg.mpr hle) (two_zpow_pos t)
      exact_mod_cast this

end Arithmetic

/-! ## Packing -/

section Packing

variable {m : ℕ} {e : ℤ} {q : ℚ} {u : UnpackedFloat}

theorem toNat_append_mantissa (b : BitVec 52) : (1#1 ++ b).toNat = 2 ^ 52 + b.toNat := by
  rw [BitVec.toNat_append, ← Nat.shiftLeft_add_eq_or_of_lt b.isLt]
  rfl

/-- The double with all its digits that two fields are. -/
theorem holds_unpack_packComponents (exponent : BitVec 11) (mantissa : BitVec 52)
    (hpos : exponent.toNat ≠ 0) (htop : exponent.toNat ≠ 2047) :
    Holds ((2 ^ 52 + mantissa.toNat : ℕ) * 2 ^ ((exponent.toNat : ℤ) - 1075))
      (UnpackedFloat.unpack Format.binary64
        (packComponents Format.binary64 .positive exponent mantissa)) := by
  have htop' : exponent ≠ -1#11 := fun h => htop (congrArg BitVec.toNat h)
  have hpos' : exponent ≠ 0#11 := fun h => hpos (congrArg BitVec.toNat h)
  have hsign : Sign.ofBitVec Sign.positive.toBitVec = .positive := rfl
  simp only [UnpackedFloat.unpack, unpackMantissa_packComponents, unpackExponent_packComponents,
    unpackSign_packComponents, hsign]
  rw [if_neg htop', if_neg hpos']
  have := mantissa.isLt
  have hvalue := toNat_append_mantissa mantissa
  refine .finite (by rw [hvalue]; omega) ?_ (.inl (by rw [hvalue]; omega)) ?_
  · change (-1074 : ℤ) ≤ (exponent.toNat : ℤ) - (1023 + 52)
    omega
  · rw [hvalue]
    rfl

/-- The double with fewer digits, or nought, that a mantissa is. -/
theorem holds_unpack_packComponents_zero (s : Sign) (mantissa : BitVec 52)
    (h : s = .positive ∨ mantissa = 0#52) :
    Holds (mantissa.toNat * 2 ^ (-1074 : ℤ))
      (UnpackedFloat.unpack Format.binary64 (packComponents Format.binary64 s 0#11 mantissa)) := by
  simp only [UnpackedFloat.unpack, unpackMantissa_packComponents, unpackExponent_packComponents,
    unpackSign_packComponents]
  rw [if_neg (by decide), if_pos trivial]
  split
  next hzero => exact .zero (by rw [hzero, BitVec.toNat_zero, Nat.cast_zero, zero_mul])
  next hne =>
    obtain rfl := h.resolve_right hne
    exact .finite (mantissa.isLt.trans (by decide)) (by decide) (.inr rfl) rfl

/-- **Packing keeps a double** that is not too large. -/
theorem Holds.unpack_pack (h : Holds q u) (hq : q < 2 ^ 1024) :
    Holds q (Float.Model.pack u).unpack := by
  change Holds q (UnpackedFloat.unpack Format.binary64 (UnpackedFloat.pack Format.binary64 u))
  cases h with
  | @zero s h0 =>
    have := holds_unpack_packComponents_zero s 0#52 (.inr rfl)
    rw [BitVec.toNat_zero, Nat.cast_zero, zero_mul, ← h0] at this
    exact this
  | @finite m e hm hlt he hnormal hvalue =>
    have hexponent : e ≤ 971 := by
      rcases hnormal with hfull | hleast
      · have hfull : (2 : ℚ) ^ 52 ≤ m := by exact_mod_cast hfull
        have hlt : (2 : ℚ) ^ (52 + e) < 2 ^ (1024 : ℤ) := by
          rw [zpow_add₀ two_ne_zero]
          refine lt_of_le_of_lt (mul_le_mul_of_nonneg_right ?_ (two_zpow_pos e).le) (hvalue ▸ hq)
          exact_mod_cast hfull
        have := (zpow_lt_zpow_iff_right₀ one_lt_two).mp hlt
        omega
      · omega
    have hsmall : ¬2 ^ Format.binary64.exponentBits ≤ (e + Format.binary64.exponentBias +
        Format.binary64.mantissaBitsWithoutImplicit).toNat + 1 := by
      change ¬2048 ≤ (e + 1023 + 52).toNat + 1
      omega
    simp only [UnpackedFloat.pack]
    rw [if_neg hsmall]
    split
    next hfull =>
      have hlog : m.log2 = 52 := Nat.succ.inj hfull
      have hfield : (BitVec.ofNat 11 (e + 1023 + 52).toNat).toNat = (e + 1023 + 52).toNat := by
        rw [BitVec.toNat_ofNat]
        omega
      have hrest : 2 ^ 52 + (BitVec.ofNat 52 m).toNat = m := by
        have := (Nat.le_log2 hm.ne').mp hlog.ge
        rw [BitVec.toNat_ofNat]
        omega
      have := holds_unpack_packComponents (BitVec.ofNat 11 (e + 1023 + 52).toNat)
        (BitVec.ofNat 52 m) (by omega) (by omega)
      rw [hrest, hfield, show (((e + 1023 + 52).toNat : ℕ) : ℤ) - 1075 = e by omega,
        ← hvalue] at this
      exact this
    next hshort =>
      have hshort : m < 2 ^ 52 := by
        by_contra hle
        have hlow : 52 ≤ m.log2 := (Nat.le_log2 hm.ne').mpr (not_lt.mp hle)
        have hhigh : m.log2 < 53 := (Nat.log2_lt hm.ne').mpr hlt
        exact hshort (congrArg Nat.succ (le_antisymm (Nat.le_of_lt_succ hhigh) hlow))
      have := holds_unpack_packComponents_zero .positive (BitVec.ofNat 52 m) (.inl rfl)
      rw [BitVec.toNat_ofNat, Nat.mod_eq_of_lt hshort, ← hnormal.resolve_left hshort.not_ge,
        ← hvalue] at this
      exact this

end Packing

end Stencil.Number
