import Mathlib
import Stencil.Number

/-!
# Proofs/Number/Nearest — the nearest double, as a fraction

    ──┼───────┼───────┼───x───┼──            doubles near x, 2 ^ lastPlace x apart
                          └──▸ rounded x

A double from nought up is a whole number times a power of two, and `rounded x` is the one nearest
to the fraction `x`, the one with an even mantissa if two are equally near.  Nothing here is a
double yet: this is plain arithmetic of fractions, which `Proofs/Number/Double` finds again in the
operations on doubles.

The error is half a place at most (`abs_rounded_sub_le`), whole numbers bound what they bounded
before (`natCast_le_rounded`, `rounded_le_natCast`), and `rounded_lt_natCast_iff` says how far below
a whole number a fraction has to be to stay below it.
-/

namespace Stencil.Number

/-! ## The nearest whole number -/

/-- The whole number nearest to a fraction, the even one if two are equally near. -/
def nearestWhole (x : ℚ) : ℤ :=
  if Int.fract x < 1 / 2 then ⌊x⌋ else if 1 / 2 < Int.fract x then ⌊x⌋ + 1 else ⌊x⌋ + ⌊x⌋ % 2

section NearestWhole

variable {x : ℚ} {n : ℤ}

@[simp] theorem nearestWhole_intCast (n : ℤ) : nearestWhole n = n := by
  simp [nearestWhole]

theorem abs_nearestWhole_sub_le (x : ℚ) : |(nearestWhole x : ℚ) - x| ≤ 1 / 2 := by
  have hfloor := Int.self_sub_floor x
  have hle := Int.fract_lt_one x
  rw [abs_le, nearestWhole]
  split
  · constructor <;> linarith [Int.fract_nonneg x]
  split
  · push_cast
    constructor <;> linarith
  · obtain hmod | hmod : ⌊x⌋ % 2 = 0 ∨ ⌊x⌋ % 2 = 1 := by omega
    · rw [hmod, Int.cast_add, Int.cast_zero]
      constructor <;> linarith
    · rw [hmod, Int.cast_add, Int.cast_one]
      constructor <;> linarith

theorem floor_le_nearestWhole (x : ℚ) : ⌊x⌋ ≤ nearestWhole x := by
  rw [nearestWhole]
  split
  · exact le_refl _
  split <;> omega

theorem le_nearestWhole (h : n ≤ x) : n ≤ nearestWhole x :=
  (Int.le_floor.mpr h).trans (floor_le_nearestWhole x)

theorem nearestWhole_le (h : x ≤ n) : nearestWhole x ≤ n := by
  have hclose := (abs_le.mp (abs_nearestWhole_sub_le x)).2
  have hlt : (nearestWhole x : ℚ) < n + 1 := by linarith
  exact Int.lt_add_one_iff.mp (by exact_mod_cast hlt)

/-- A fraction is rounded up to an even number from halfway on. -/
theorem nearestWhole_lt_iff (hn : n % 2 = 0) : nearestWhole x < n ↔ x < n - 1 / 2 := by
  have hclose := abs_le.mp (abs_nearestWhole_sub_le x)
  constructor
  · intro hlt
    have hle : (nearestWhole x : ℚ) ≤ n - 1 := by exact_mod_cast Int.le_sub_one_of_lt hlt
    refine lt_of_le_of_ne (by linarith [hclose.1]) fun heq => ?_
    -- Halfway below an even number the floor is odd.
    have hfloor : ⌊x⌋ = n - 1 := Int.floor_eq_iff.mpr ⟨by rw [heq]; push_cast; linarith,
      by rw [heq]; push_cast; linarith⟩
    have hfract : Int.fract x = 1 / 2 := by
      rw [← Int.self_sub_floor, hfloor, heq]
      push_cast
      ring
    have hwhole : nearestWhole x = n := by
      rw [nearestWhole, hfract, if_neg (lt_irrefl _), if_neg (lt_irrefl _), hfloor]
      omega
    omega
  · intro hlt
    have : (nearestWhole x : ℚ) < n := by linarith [hclose.2]
    exact_mod_cast this

/-- A quotient of whole numbers, a whole number and a rest. -/
theorem natCast_div_eq (n : ℕ) {d : ℕ} (hd : 0 < d) :
    (n / d : ℚ) = (n / d : ℕ) + (n % d : ℕ) / d := by
  have hdq : (d : ℚ) ≠ 0 := by exact_mod_cast hd.ne'
  rw [div_eq_iff hdq, add_mul, div_mul_cancel₀ _ hdq]
  exact_mod_cast (Nat.div_add_mod' n d).symm

/-- Rounding of a quotient of whole numbers. -/
theorem roundedQuotient_eq (n : ℕ) {d : ℕ} (hd : 0 < d) :
    (roundedQuotient n d : ℤ) = nearestWhole (n / d) := by
  have hdq : (0 : ℚ) < d := by exact_mod_cast hd
  have hfloor : ⌊(n / d : ℚ)⌋ = (n / d : ℕ) := Rat.floor_natCast_div_natCast n d
  have hfract : Int.fract (n / d : ℚ) = (n % d : ℕ) / d := by
    rw [← Int.self_sub_floor, hfloor, Int.cast_natCast, natCast_div_eq n hd, add_sub_cancel_left]
  have hbelow : Int.fract (n / d : ℚ) < 1 / 2 ↔ 2 * (n % d) < d := by
    rw [hfract, div_lt_div_iff₀ hdq two_pos, mul_comm, one_mul]
    exact_mod_cast Iff.rfl
  have habove : 1 / 2 < Int.fract (n / d : ℚ) ↔ d < 2 * (n % d) := by
    rw [hfract, div_lt_div_iff₀ two_pos hdq, mul_comm _ (2 : ℚ), one_mul]
    exact_mod_cast Iff.rfl
  simp only [nearestWhole, roundedQuotient, hbelow, habove, hfloor]
  grind

end NearestWhole

/-! ## The nearest double -/

/-- The exponent of the last place of the doubles near a fraction. -/
def lastPlace (x : ℚ) : ℤ :=
  max (Int.log 2 x - 52) (-1074)

/-- **The double nearest to a fraction** from nought up, the one with an even mantissa if two are
equally near.  It may be larger than any double there is. -/
def rounded (x : ℚ) : ℚ :=
  nearestWhole (x / 2 ^ lastPlace x) * 2 ^ lastPlace x

section Rounded

variable {x y : ℚ} {e k : ℤ} {m n : ℕ}

theorem two_zpow_pos (e : ℤ) : (0 : ℚ) < 2 ^ e :=
  zpow_pos two_pos e

/-- Doubles below a power of two have their last place 53 places below it, or the lowest one. -/
theorem lastPlace_le (hx : 0 < x) (h : x < 2 ^ k) (hk : -1021 ≤ k) : lastPlace x ≤ k - 53 := by
  have hlog : Int.log 2 x < k := (Int.lt_zpow_iff_log_lt one_lt_two hx).mp (by exact_mod_cast h)
  rw [lastPlace]
  omega

theorem lastPlace_nonpos (h : x < 2 ^ 53) : lastPlace x ≤ 0 := by
  rcases le_or_gt x 0 with hx | hx
  · rw [lastPlace, Int.log_of_right_le_zero _ hx]
    decide
  · exact lastPlace_le (k := 53) hx (by exact_mod_cast h) (by decide)

/-- The mantissa of a rounded number has one digit too many at most, and it has all its digits
unless the number is as small as numbers get. -/
theorem nearestWhole_bounds (hx : 0 < x) :
    nearestWhole (x / 2 ^ lastPlace x) ≤ 2 ^ 53 ∧
      (2 ^ 52 ≤ nearestWhole (x / 2 ^ lastPlace x) ∨ lastPlace x = -1074) := by
  have hplace := two_zpow_pos (lastPlace x)
  have hlow : (2 : ℚ) ^ Int.log 2 x ≤ x := by exact_mod_cast Int.zpow_log_le_self one_lt_two hx
  have hhigh : x < 2 ^ (Int.log 2 x + 1) := by exact_mod_cast Int.lt_zpow_succ_log_self one_lt_two x
  constructor
  · refine nearestWhole_le ((div_le_iff₀ hplace).mpr (hhigh.le.trans ?_))
    rw [Int.cast_pow, Int.cast_ofNat, ← zpow_natCast, ← zpow_add₀ two_ne_zero]
    exact zpow_le_zpow_right₀ one_le_two (by rw [lastPlace]; omega)
  · by_cases hleast : lastPlace x = -1074
    · exact .inr hleast
    · refine .inl (le_nearestWhole ((le_div_iff₀ hplace).mpr (le_trans ?_ hlow)))
      rw [Int.cast_pow, Int.cast_ofNat, ← zpow_natCast, ← zpow_add₀ two_ne_zero]
      exact zpow_le_zpow_right₀ one_le_two (by rw [lastPlace] at hleast ⊢; omega)

@[simp] theorem rounded_zero : rounded 0 = 0 := by
  simp [rounded, nearestWhole]

theorem rounded_nonneg (hx : 0 ≤ x) : 0 ≤ rounded x := by
  have hwhole : 0 ≤ nearestWhole (x / 2 ^ lastPlace x) :=
    le_nearestWhole (by simpa using div_nonneg hx (two_zpow_pos _).le)
  exact mul_nonneg (by exact_mod_cast hwhole) (two_zpow_pos _).le

/-- A multiple of the last place is a double itself. -/
theorem rounded_eq_self (h : x = n * 2 ^ e) (he : lastPlace x ≤ e) : rounded x = x := by
  obtain ⟨t, ht⟩ := Int.eq_ofNat_of_zero_le (Int.sub_nonneg.mpr he)
  have hsum : e = t + lastPlace x := by omega
  have hwhole : x / 2 ^ lastPlace x = ((n * 2 ^ t : ℕ) : ℤ) := by
    rw [div_eq_iff (two_zpow_pos _).ne']
    calc x = n * 2 ^ (t + lastPlace x) := h.trans (by rw [hsum])
      _ = ((n * 2 ^ t : ℕ) : ℤ) * 2 ^ lastPlace x := by
        rw [zpow_add₀ two_ne_zero, zpow_natCast]
        push_cast
        ring
  rw [rounded, hwhole, nearestWhole_intCast, ← hwhole, div_mul_cancel₀ _ (two_zpow_pos _).ne']

/-- A positive fraction has the logarithm of its mantissa. -/
theorem log_eq (hm : 0 < m) (hle : m ≤ y) (hlt : y < m + 1) :
    Int.log 2 (y * 2 ^ e) = m.log2 + e := by
  have hmq : (0 : ℚ) < m := by exact_mod_cast hm
  have hlow : (2 : ℚ) ^ m.log2 ≤ m := by exact_mod_cast Nat.log2_self_le hm.ne'
  have hhigh : ((m + 1 : ℕ) : ℚ) ≤ 2 ^ (m.log2 + 1) := by exact_mod_cast Nat.lt_log2_self
  have hpos : 0 < y * 2 ^ e := mul_pos (hmq.trans_le hle) (two_zpow_pos e)
  refine le_antisymm (Int.lt_add_one_iff.mp ?_) ?_
  · refine (Int.lt_zpow_iff_log_lt one_lt_two hpos).mp ?_
    rw [show (m.log2 : ℤ) + e + 1 = (m.log2 + 1 : ℕ) + e by push_cast; ring, Nat.cast_ofNat,
      zpow_add₀ two_ne_zero, zpow_natCast]
    push_cast at hhigh
    exact mul_lt_mul_of_pos_right (hlt.trans_le hhigh) (two_zpow_pos e)
  · refine (Int.zpow_le_iff_le_log one_lt_two hpos).mp ?_
    rw [Nat.cast_ofNat, zpow_add₀ two_ne_zero, zpow_natCast]
    exact mul_le_mul_of_nonneg_right (hlow.trans hle) (two_zpow_pos e).le

/-- **A number of 53 digits is a double** if none of them is too far behind the point. -/
theorem rounded_mul_zpow (hn : n ≤ 2 ^ 53) (he : -1074 ≤ e) : rounded (n * 2 ^ e) = n * 2 ^ e := by
  rcases Nat.eq_zero_or_pos n with rfl | hpos
  · simp
  have hlog := log_eq (y := n) (e := e) hpos (le_refl _) (lt_add_one _)
  rcases hn.eq_or_lt with rfl | hlt
  · refine rounded_eq_self (n := 2 ^ 52) (e := e + 1) ?_ ?_
    · rw [zpow_add_one₀ two_ne_zero]
      push_cast
      ring
    · rw [lastPlace, hlog, Nat.log2_two_pow]
      omega
  · have := (Nat.log2_lt hpos.ne').mpr hlt
    refine rounded_eq_self rfl ?_
    rw [lastPlace, hlog]
    omega

/-- **The error of rounding** is half a place at most. -/
theorem abs_rounded_sub_le (hx : 0 ≤ x) (h : x < 2 ^ k) (hk : -1021 ≤ k) :
    |rounded x - x| ≤ 2 ^ (k - 54) := by
  rcases hx.eq_or_lt with rfl | hx
  · simpa using (two_zpow_pos (k - 54)).le
  have hplace := two_zpow_pos (lastPlace x)
  have hscaled : rounded x - x =
      (nearestWhole (x / 2 ^ lastPlace x) - x / 2 ^ lastPlace x) * 2 ^ lastPlace x := by
    rw [rounded, sub_mul, div_mul_cancel₀ _ hplace.ne']
  calc |rounded x - x|
      ≤ 1 / 2 * 2 ^ lastPlace x := by
        rw [hscaled, abs_mul, abs_of_pos hplace]
        exact mul_le_mul_of_nonneg_right (abs_nearestWhole_sub_le _) hplace.le
    _ ≤ 1 / 2 * 2 ^ (k - 53) := by
        gcongr
        · exact one_le_two
        · exact lastPlace_le hx h hk
    _ = 2 ^ (k - 54) := by
        rw [show k - 53 = k - 54 + 1 by omega, zpow_add_one₀ two_ne_zero]
        ring

/-- A whole number is a multiple of the last place of all smaller numbers. -/
theorem exists_multiple (h : x < 2 ^ 53) (n : ℕ) :
    ∃ m : ℤ, (n : ℚ) = m * 2 ^ lastPlace x ∧ (lastPlace x < 0 → m % 2 = 0) := by
  obtain ⟨t, ht⟩ := Int.eq_ofNat_of_zero_le (Int.neg_nonneg.mpr (lastPlace_nonpos h))
  refine ⟨n * 2 ^ t, ?_, fun hneg => ?_⟩
  · rw [show lastPlace x = -t by omega, zpow_neg, zpow_natCast]
    push_cast
    rw [mul_inv_cancel_right₀ (by positivity)]
  · obtain ⟨u, rfl⟩ : ∃ u, t = u + 1 := ⟨t - 1, by omega⟩
    rw [pow_succ, ← mul_assoc]
    exact Int.mul_emod_left _ _

/-- **Rounding does not pass a whole number.** -/
theorem natCast_le_rounded (hx : x < 2 ^ 53) (h : n ≤ x) : n ≤ rounded x := by
  obtain ⟨m, hm, -⟩ := exists_multiple hx n
  have hplace := two_zpow_pos (lastPlace x)
  rw [hm] at h ⊢
  refine mul_le_mul_of_nonneg_right ?_ hplace.le
  exact_mod_cast le_nearestWhole ((le_div_iff₀ hplace).mpr h)

theorem rounded_le_natCast (hx : x < 2 ^ 53) (h : x ≤ n) : rounded x ≤ n := by
  obtain ⟨m, hm, -⟩ := exists_multiple hx n
  have hplace := two_zpow_pos (lastPlace x)
  rw [hm] at h ⊢
  refine mul_le_mul_of_nonneg_right ?_ hplace.le
  exact_mod_cast nearestWhole_le ((div_le_iff₀ hplace).mpr h)

/-- The last place of the fractions just below a whole number. -/
theorem lastPlace_of_lt (hn : 0 < n) (hlt : n < 2 ^ 51) (hx : x < n) (hclose : n - x ≤ 1 / 2) :
    lastPlace x = (Nat.clog 2 n : ℤ) - 53 := by
  have hnq : (1 : ℚ) ≤ n := by exact_mod_cast hn
  have hpos : 0 < x := by linarith
  have hclog : Nat.clog 2 n ≤ 51 := Nat.clog_le_of_le_pow hlt.le
  have hhigh : x < 2 ^ (Nat.clog 2 n : ℤ) := by
    refine hx.trans_le ?_
    rw [zpow_natCast]
    exact_mod_cast Nat.le_pow_clog one_lt_two n
  have hlow : (2 : ℚ) ^ ((Nat.clog 2 n : ℤ) - 1) ≤ x := by
    generalize ht : Nat.clog 2 n = t
    cases t with
    | zero => norm_num; linarith
    | succ t =>
      have hone : 1 < n := by
        by_contra hle
        rw [Nat.clog_of_right_le_one (not_lt.mp hle)] at ht
        cases ht
      have hpred : 2 ^ t + 1 ≤ n := by simpa [ht] using Nat.pow_pred_clog_lt_self one_lt_two hone
      have hpred : ((2 ^ t + 1 : ℕ) : ℚ) ≤ n := by exact_mod_cast hpred
      push_cast at hpred
      rw [Nat.cast_succ, add_sub_cancel_right, zpow_natCast]
      linarith
  have hlog : Int.log 2 x = (Nat.clog 2 n : ℤ) - 1 := by
    refine le_antisymm (Int.le_sub_one_of_lt ?_) ?_
    · exact (Int.lt_zpow_iff_log_lt one_lt_two hpos).mp (by exact_mod_cast hhigh)
    · exact (Int.zpow_le_iff_le_log one_lt_two hpos).mp (by exact_mod_cast hlow)
  rw [lastPlace, hlog]
  omega

/-- **Where rounding stays below a whole number**: where the fraction falls short of it by more than
half the distance from it to the next smaller double. -/
theorem rounded_lt_natCast_iff (hn : 0 < n) (hlt : n < 2 ^ 51) (hle : x ≤ n)
    (hclose : n - x ≤ 1 / 2) :
    rounded x < n ↔ (2 : ℚ) ^ ((Nat.clog 2 n : ℤ) - 54) < n - x := by
  have hsmall : x < 2 ^ 53 := by
    have : (n : ℚ) < 2 ^ 51 := by exact_mod_cast hlt
    linarith
  rcases hle.eq_or_lt with rfl | hlt'
  · have hself := natCast_le_rounded hsmall le_rfl
    rw [sub_self]
    exact ⟨fun h => absurd h hself.not_gt, fun h => absurd h (two_zpow_pos _).not_gt⟩
  have hplace := lastPlace_of_lt hn hlt hlt' hclose
  have hclog : Nat.clog 2 n ≤ 51 := Nat.clog_le_of_le_pow hlt.le
  -- The whole number is an even multiple of the last place below it, so a tie is rounded up to it.
  obtain ⟨m, hm, heven⟩ := exists_multiple hsmall n
  have heven := heven (by omega)
  have hpos := two_zpow_pos (lastPlace x)
  have hhalf : (2 : ℚ) ^ lastPlace x = 2 * 2 ^ ((Nat.clog 2 n : ℤ) - 54) := by
    rw [hplace, show (Nat.clog 2 n : ℤ) - 53 = Nat.clog 2 n - 54 + 1 by omega,
      zpow_add_one₀ two_ne_zero, mul_comm]
  calc rounded x < n
      ↔ nearestWhole (x / 2 ^ lastPlace x) < m := by
        rw [rounded, hm, mul_lt_mul_iff_of_pos_right hpos, Int.cast_lt]
    _ ↔ x < (m - 1 / 2) * 2 ^ lastPlace x := by
        rw [nearestWhole_lt_iff heven, div_lt_iff₀ hpos]
    _ ↔ (2 : ℚ) ^ ((Nat.clog 2 n : ℤ) - 54) < n - x := by
        rw [sub_mul, ← hm, hhalf]
        constructor <;> intro h <;> linarith

end Rounded

end Stencil.Number
