import Stencil.Decimal.Shortest
import Stencil.Proofs.Number.Scientific

/-!
# Proofs/Decimal/Shortest — the shortest decimal of a double is read back as it

        low        m · 2 ^ e       high
    ────[═════════════╪══════════════]────     decimals that are rounded to m · 2 ^ e
            │         │         │
    ────────┴─────────┴─────────┴─────────     a grid that is finer than the interval is long

A decimal in the interval of a double is rounded to it (`rounded_eq_of_holds`): up to half a place
on either side, half of the smaller place below a power of two, and the ends only if the mantissa is
even.  A grid finer than the interval meets it next to the double (`isSome_onGrid`), and the grid of
seventeen digits is finer, so the search ends with a decimal in the interval (`holds_search`).
`rounded_shortest` puts the two together.
-/

namespace Stencil.Decimal

open Stencil.Number

/-! ## Decimals in the interval -/

section Interval

variable {i : Interval} {m count : ℕ} {e place : ℤ} {x : ℚ}

/-- **Within half a place of a whole number** it is the nearest, with the ends if it is even. -/
theorem nearestWhole_eq {y : ℚ} {n : ℤ} (hlow : n - 1 / 2 ≤ y) (hhigh : y ≤ n + 1 / 2)
    (h : n % 2 = 0 ∨ (n - 1 / 2 < y ∧ y < n + 1 / 2)) : nearestWhole y = n := by
  have hclose := abs_le.mp (abs_nearestWhole_sub_le y)
  have hopen (hlow : n - 1 / 2 < y) (hhigh : y < n + 1 / 2) : nearestWhole y = n := by
    have hle : (nearestWhole y : ℚ) < n + 1 := by linarith
    have hge : (n : ℚ) < nearestWhole y + 1 := by linarith
    have hle : nearestWhole y < n + 1 := by exact_mod_cast hle
    have hge : n < nearestWhole y + 1 := by exact_mod_cast hge
    omega
  rcases h with heven | ⟨hlow, hhigh⟩
  · have hge : n ≤ nearestWhole y := by
      by_contra hlt
      exact absurd ((nearestWhole_lt_iff heven).mp (not_le.mp hlt)) (not_lt.mpr hlow)
    rcases hhigh.eq_or_lt with heq | hlt
    · -- Halfway above an even number the floor is that number.
      have hfloor : ⌊y⌋ = n := Int.floor_eq_iff.mpr ⟨by linarith, by linarith⟩
      have hfract : Int.fract y = 1 / 2 := by rw [← Int.self_sub_floor, hfloor, heq]; ring
      rw [nearestWhole, hfract, if_neg (lt_irrefl _), if_neg (lt_irrefl _), hfloor, heven, add_zero]
    · have hle : (nearestWhole y : ℚ) < n + 1 := by linarith
      have hle : nearestWhole y < n + 1 := by exact_mod_cast hle
      omega
  · exact hopen hlow hhigh

/-- How far below a double its interval begins, in quarters of its last place. -/
def quartersBelow (m : ℕ) (e : ℤ) : ℕ :=
  if m = 2 ^ 52 ∧ -1074 < e then 1 else 2

/-- A fraction in the interval of a double, with the ends if the mantissa is even. -/
def Near (m : ℕ) (e : ℤ) (x : ℚ) : Prop :=
  if m % 2 = 0 then (m - quartersBelow m e / 4 : ℚ) * 2 ^ e ≤ x ∧ x ≤ (m + 1 / 2) * 2 ^ e
  else (m - quartersBelow m e / 4 : ℚ) * 2 ^ e < x ∧ x < (m + 1 / 2) * 2 ^ e

theorem Near.le (h : Near m e x) :
    (m - quartersBelow m e / 4 : ℚ) * 2 ^ e ≤ x ∧ x ≤ (m + 1 / 2) * 2 ^ e := by
  rw [Near] at h
  split at h
  · exact h
  · exact ⟨h.1.le, h.2.le⟩

theorem quartersBelow_le (m : ℕ) (e : ℤ) : quartersBelow m e ≤ 2 := by
  rw [quartersBelow]
  split <;> decide

theorem Near.pos (h : Near m e x) (hm : 0 < m) : 0 < x := by
  have hm : (1 : ℚ) ≤ m := by exact_mod_cast hm
  have hbelow : (quartersBelow m e : ℚ) ≤ 2 := by exact_mod_cast quartersBelow_le m e
  exact (mul_pos (by linarith) (two_zpow_pos e)).trans_le h.le.1

/-- The last place of the doubles between two powers of two, and of the smallest doubles. -/
theorem lastPlace_eq (hx : 0 < x) (he : -1074 ≤ e) (hhigh : x < 2 ^ 53 * 2 ^ e)
    (hlow : 2 ^ 52 * 2 ^ e ≤ x ∨ e = -1074) : lastPlace x = e := by
  have hpow (n : ℕ) : (2 ^ n * 2 ^ e : ℚ) = 2 ^ (n + e) := by
    rw [zpow_add₀ two_ne_zero, zpow_natCast]
  rw [hpow] at hhigh hlow
  have hlt : Int.log 2 x < 53 + e := (Int.lt_zpow_iff_log_lt one_lt_two hx).mp hhigh
  rw [lastPlace]
  rcases hlow with hlow | rfl
  · have : 52 + e ≤ Int.log 2 x := (Int.zpow_le_iff_le_log one_lt_two hx).mp hlow
    omega
  · omega

/-- A fraction half a place from a double at most, where the doubles lie as close as there. -/
theorem rounded_eq_of_lastPlace {n : ℤ} (hplace : lastPlace x = e)
    (hlow : (n - 1 / 2) * 2 ^ e ≤ x) (hhigh : x ≤ (n + 1 / 2) * 2 ^ e)
    (h : n % 2 = 0 ∨ ((n - 1 / 2) * 2 ^ e < x ∧ x < (n + 1 / 2) * 2 ^ e)) :
    rounded x = n * 2 ^ e := by
  have hpos := two_zpow_pos e
  rw [← le_div_iff₀ hpos] at hlow
  rw [← div_le_iff₀ hpos] at hhigh
  rw [← lt_div_iff₀ hpos, ← div_lt_iff₀ hpos] at h
  rw [rounded, hplace, nearestWhole_eq hlow hhigh h]

/-- Just below a power of two the last place is half as large. -/
theorem rounded_eq_power (he : -1074 < e) (hlow : (2 ^ 52 - 1 / 4) * 2 ^ e ≤ x)
    (hhigh : x ≤ (2 ^ 52 + 1 / 2) * 2 ^ e) : rounded x = (2 ^ 52 : ℕ) * 2 ^ e := by
  have hpos := two_zpow_pos e
  have hx : 0 < x := (mul_pos (by norm_num) hpos).trans_le hlow
  by_cases hbelow : x < 2 ^ 52 * 2 ^ e
  · have hhalf : (2 : ℚ) ^ e = 2 * 2 ^ (e - 1) := by
      rw [← zpow_one_add₀ two_ne_zero]
      congr 1
      omega
    have hpos' := two_zpow_pos (e - 1)
    rw [hhalf] at hbelow hlow ⊢
    have hplace : lastPlace x = e - 1 :=
      lastPlace_eq hx (by omega) (by linarith) (.inl (by linarith))
    have hrounded : rounded x = (2 ^ 53 : ℤ) * 2 ^ (e - 1) := by
      refine rounded_eq_of_lastPlace hplace ?_ ?_ (.inl (by decide)) <;> push_cast <;> linarith
    rw [hrounded]
    push_cast
    ring
  · have hbelow := not_lt.mp hbelow
    have hplace : lastPlace x = e := lastPlace_eq hx he.le (by linarith) (.inl hbelow)
    have hrounded : rounded x = (2 ^ 52 : ℤ) * 2 ^ e := by
      refine rounded_eq_of_lastPlace hplace ?_ ?_ (.inl (by decide)) <;> push_cast <;> linarith
    rw [hrounded]
    push_cast
    rfl

/-- **The decimals in the interval of a double are rounded to it.** -/
theorem rounded_eq_of_near (hm : 0 < m) (hlt : m < 2 ^ 53) (he : -1074 ≤ e)
    (hnormal : 2 ^ 52 ≤ m ∨ e = -1074) (h : Near m e x) : rounded x = m * 2 ^ e := by
  have hx := h.pos hm
  have hpos := two_zpow_pos e
  obtain ⟨hlow, hhigh⟩ := h.le
  by_cases hpower : m = 2 ^ 52 ∧ -1074 < e
  · obtain ⟨rfl, hleast⟩ := hpower
    rw [quartersBelow, if_pos ⟨rfl, hleast⟩] at hlow
    push_cast at hlow hhigh
    exact rounded_eq_power hleast hlow hhigh
  · rw [Near, quartersBelow, if_neg hpower] at h
    rw [quartersBelow, if_neg hpower] at hlow
    push_cast at h hlow
    rw [show (2 / 4 : ℚ) = 1 / 2 by norm_num] at h hlow
    have hplace : lastPlace x = e := by
      have hlt : (m + 1 : ℚ) ≤ 2 ^ 53 := by exact_mod_cast hlt
      refine lastPlace_eq hx he ?_ ?_
      · exact hhigh.trans_lt (mul_lt_mul_of_pos_right (by linarith) hpos)
      · by_cases hleast : e = -1074
        · exact .inr hleast
        · have hfull : (2 ^ 52 + 1 : ℚ) ≤ m := by
            have : 2 ^ 52 + 1 ≤ m := by omega
            exact_mod_cast this
          exact .inl ((mul_le_mul_of_nonneg_right (by linarith) hpos.le).trans hlow)
    rw [← Int.cast_natCast m] at h hlow hhigh ⊢
    refine rounded_eq_of_lastPlace hplace hlow hhigh ?_
    split at h
    next heven => exact .inl (by omega)
    next => exact .inr h

/-- A power with an exponent below nought is a quotient. -/
theorem toNat_pow_eq {b : ℚ} (hb : b ≠ 0) (n : ℤ) :
    b ^ n.toNat = b ^ n * b ^ (-n).toNat := by
  rw [← zpow_natCast, ← zpow_natCast, ← zpow_add₀ hb]
  congr 1
  omega

/-- **What an interval holds**, as fractions. -/
theorem holds_iff (hunit : 0 < i.unit) :
    i.holds count place = true ↔
      if i.closed then (i.low / i.unit : ℚ) ≤ count * 10 ^ place ∧
        (count * 10 ^ place : ℚ) ≤ i.high / i.unit
      else (i.low / i.unit : ℚ) < count * 10 ^ place ∧
        (count * 10 ^ place : ℚ) < i.high / i.unit := by
  have hunit : (0 : ℚ) < i.unit := by exact_mod_cast hunit
  have hdown : (0 : ℚ) < 10 ^ (-place).toNat := by positivity
  have hscale : ((count * Nat.pow 10 place.toNat * i.unit : ℕ) : ℚ) =
      count * 10 ^ place * i.unit * 10 ^ (-place).toNat := by
    simp only [Nat.pow_eq, Nat.cast_mul, Nat.cast_pow, Nat.cast_ofNat]
    rw [toNat_pow_eq (by norm_num) place]
    ring
  have hdowncast : ((Nat.pow 10 (-place).toNat : ℕ) : ℚ) = 10 ^ (-place).toNat := by
    simp only [Nat.pow_eq, Nat.cast_pow, Nat.cast_ofNat]
  simp only [Interval.holds, apply_ite (· = true), Bool.and_eq_true, decide_eq_true_eq,
    ← @Nat.cast_le ℚ, ← @Nat.cast_lt ℚ, hscale, Nat.cast_mul _ (Nat.pow 10 _), hdowncast,
    mul_le_mul_iff_left₀ hdown, mul_lt_mul_iff_left₀ hdown, div_le_iff₀ hunit, le_div_iff₀ hunit,
    div_lt_iff₀ hunit, lt_div_iff₀ hunit]

/-- The unit of the interval of a double is positive. -/
theorem unit_of_pos (m : ℕ) (e : ℤ) : 0 < (Interval.of m e).unit :=
  Nat.mul_pos (by decide) (Nat.pow_pos (by decide))

/-- A multiple of the quarter of a last place, in units. -/
theorem quarters_eq (a m : ℕ) (e : ℤ) :
    ((a * Nat.pow 2 e.toNat : ℕ) / (Interval.of m e).unit : ℚ) = a / 4 * 2 ^ e := by
  have hpow : (0 : ℚ) < 2 ^ (-e).toNat := by positivity
  simp only [Interval.of, Nat.pow_eq, Nat.cast_mul, Nat.cast_pow, Nat.cast_ofNat]
  rw [toNat_pow_eq two_ne_zero e]
  field_simp

/-- The parts of the interval of a double, as fractions. -/
theorem interval_of_div (hm : 0 < m) (e : ℤ) :
    ((Interval.of m e).low / (Interval.of m e).unit : ℚ) = (m - quartersBelow m e / 4) * 2 ^ e ∧
      ((Interval.of m e).value / (Interval.of m e).unit : ℚ) = m * 2 ^ e ∧
      ((Interval.of m e).high / (Interval.of m e).unit : ℚ) = (m + 1 / 2) * 2 ^ e := by
  have hbelow := (quartersBelow_le m e).trans (show 2 ≤ 4 * m by omega)
  have hlow : (Interval.of m e).low = (4 * m - quartersBelow m e) * Nat.pow 2 e.toNat := by
    have hcondition : (m = 0x10000000000000 && Binary.minExponent < e) = true ↔
        m = 2 ^ 52 ∧ -1074 < e := by
      rw [Bool.and_eq_true, decide_eq_true_eq, decide_eq_true_eq]
      rfl
    simp only [Interval.of, quartersBelow, hcondition]
  refine ⟨?_, ?_, ?_⟩
  · rw [hlow, quarters_eq, Nat.cast_sub hbelow]
    push_cast
    ring
  · rw [show (Interval.of m e).value = 4 * m * Nat.pow 2 e.toNat from rfl, quarters_eq]
    push_cast
    ring
  · rw [show (Interval.of m e).high = (4 * m + 2) * Nat.pow 2 e.toNat from rfl, quarters_eq]
    push_cast
    ring

/-- **The interval of a double holds the decimals near to it.** -/
theorem holds_of_iff (hm : 0 < m) :
    (Interval.of m e).holds count place = true ↔ Near m e (count * 10 ^ place) := by
  obtain ⟨hlow, -, hhigh⟩ := interval_of_div hm e
  have hclosed : (Interval.of m e).closed = true ↔ m % 2 = 0 := beq_iff_eq
  simp only [holds_iff (unit_of_pos m e), hlow, hhigh, hclosed, Near]

end Interval

/-! ## The search -/

section Search

variable {i : Interval} {place leading : ℤ}

/-- What is found on a grid is in the interval. -/
theorem holds_onGrid {count : ℕ} (h : i.onGrid? place = some count) :
    i.holds count place = true := by
  simp only [Interval.onGrid?] at h
  split at h
  next hbelow _ =>
    obtain rfl := Option.some.inj h
    exact hbelow
  next habove =>
    obtain rfl := Option.some.inj h
    exact habove
  next => cases h
  next hbelow habove =>
    split at h
    · obtain rfl := Option.some.inj h
      exact hbelow
    split at h
    · obtain rfl := Option.some.inj h
      exact habove
    split at h
    · obtain rfl := Option.some.inj h
      exact hbelow
    · obtain rfl := Option.some.inj h
      exact habove

/-- A grid that meets the interval next to its value has something to find. -/
theorem isSome_onGrid {below : ℕ}
    (hbelow : below = i.value * Nat.pow 10 (-place).toNat / (Nat.pow 10 place.toNat * i.unit))
    (h : i.holds below place = true ∨ i.holds (below + 1) place = true) :
    (i.onGrid? place).isSome := by
  subst hbelow
  simp only [Interval.onGrid?]
  split
  next => rfl
  next => rfl
  next hno hno' => rw [hno, hno'] at h; simp at h
  next => split_ifs <;> rfl

/-- **The search ends in the interval** if a grid that it tries meets it. -/
theorem holds_search (left tried : ℕ) {t : ℕ} (hle : tried ≤ t) (hlt : t < tried + left)
    (h : (i.onGrid? (leading - t)).isSome) :
    i.holds (i.search leading left tried).1 (i.search leading left tried).2 = true := by
  induction left generalizing tried with
  | zero => omega
  | succ left ih =>
    rw [Interval.search]
    split
    next count hcount => exact holds_onGrid hcount
    next hnone =>
      refine ih (tried + 1) (Nat.lt_of_le_of_ne hle ?_) (by omega)
      rintro rfl
      rw [hnone] at h
      cases h

/-- The noughts at the end of a decimal do not count. -/
theorem dropZeros_value (fuel : ℕ) (d : ℕ × ℤ) :
    ((dropZeros fuel d).1 * 10 ^ (dropZeros fuel d).2 : ℚ) = d.1 * 10 ^ d.2 := by
  induction fuel generalizing d with
  | zero => rfl
  | succ fuel ih =>
    obtain ⟨count, place⟩ := d
    rw [dropZeros]
    split
    next h =>
      simp only [Bool.and_eq_true, decide_eq_true_eq] at h
      have hten : count = count / 10 * 10 := by omega
      rw [ih, zpow_add_one₀ (by norm_num)]
      conv_rhs => rw [hten]
      push_cast
      ring
    next => rfl

end Search

/-! ## A fine enough grid -/

section Fine

variable {i : Interval} {m : ℕ} {e place : ℤ} {x : Float} {negative : Bool}

theorem digitCount_spec (n : ℕ) :
    n < 10 ^ digitCount n ∧ (0 < n → 10 ^ (digitCount n - 1) ≤ n) := by
  induction n using digitCount.induct with
  | case1 => exact ⟨by simp [digitCount], fun h => absurd h (by decide)⟩
  | case2 n hne ih =>
    obtain ⟨hlt, hle⟩ := ih
    rw [digitCount, if_neg hne, pow_succ, Nat.add_sub_cancel]
    refine ⟨by omega, fun _ => ?_⟩
    rcases Nat.eq_zero_or_pos (n / 10) with hzero | hpos
    · rw [hzero, digitCount, if_pos rfl]
      omega
    · have hcount : digitCount (n / 10) = digitCount (n / 10) - 1 + 1 := by
        have : digitCount (n / 10) ≠ 0 := fun h => by rw [h] at hlt; omega
        omega
      have hle := hle hpos
      rw [hcount, pow_succ]
      omega

/-- The value of an interval reaches the place of its first digit. -/
theorem zpow_leadingPlace_le (hunit : 0 < i.unit) (hvalue : 0 < i.value) :
    (10 : ℚ) ^ i.leadingPlace ≤ i.value / i.unit := by
  have hunitq : (0 : ℚ) < i.unit := by exact_mod_cast hunit
  rw [Interval.leadingPlace]
  split
  next hle =>
    have hpos : 0 < i.value / i.unit := Nat.div_pos hle hunit
    have hcount := (digitCount_spec (i.value / i.unit)).2 hpos
    have hne : digitCount (i.value / i.unit) ≠ 0 := by
      rw [digitCount, if_neg hpos.ne']
      exact Nat.succ_ne_zero _
    calc (10 : ℚ) ^ ((digitCount (i.value / i.unit) : ℤ) - 1)
        = (10 ^ (digitCount (i.value / i.unit) - 1) : ℕ) := by
          push_cast
          rw [← zpow_natCast]
          congr 1
          omega
      _ ≤ (i.value / i.unit : ℕ) := by exact_mod_cast hcount
      _ ≤ i.value / i.unit := Nat.cast_div_le
  next hlt =>
    have hcount := (digitCount_spec ((i.unit - 1) / i.value)).1
    have hreach : i.unit ≤ i.value * 10 ^ digitCount ((i.unit - 1) / i.value) := by
      have := Nat.lt_mul_div_succ (i.unit - 1) hvalue
      have := Nat.mul_le_mul_left i.value hcount
      rw [Nat.succ_eq_add_one] at this
      omega
    rw [zpow_neg, zpow_natCast, inv_le_iff_one_le_mul₀ (by positivity), div_mul_eq_mul_div,
      one_le_div₀ hunitq]
    exact_mod_cast hreach

/-- What lies between the ends lies in the interval. -/
theorem holds_of_lt {count : ℕ} (hunit : 0 < i.unit)
    (hlow : (i.low / i.unit : ℚ) < count * 10 ^ place)
    (hhigh : (count * 10 ^ place : ℚ) < i.high / i.unit) : i.holds count place = true := by
  rw [holds_iff hunit]
  split
  · exact ⟨hlow.le, hhigh.le⟩
  · exact ⟨hlow, hhigh⟩

/-- The value lies between two neighbours on a grid. -/
theorem bounds_onGrid {below : ℕ}
    (h : i.value * Nat.pow 10 (-place).toNat / (Nat.pow 10 place.toNat * i.unit) = below) :
    (below * 10 ^ place : ℚ) ≤ i.value / i.unit ∧
      (i.value / i.unit : ℚ) < (below + 1) * 10 ^ place := by
  have hgrid : (0 : ℚ) < 10 ^ place := by positivity
  have hquotient : ((i.value * Nat.pow 10 (-place).toNat : ℕ) /
      (Nat.pow 10 place.toNat * i.unit : ℕ) : ℚ) = i.value / i.unit / 10 ^ place := by
    have hdown : (0 : ℚ) < 10 ^ (-place).toNat := by positivity
    simp only [Nat.pow_eq, Nat.cast_mul, Nat.cast_pow, Nat.cast_ofNat]
    rw [toNat_pow_eq (by norm_num) place]
    field_simp
  have hfloor := Rat.floor_natCast_div_natCast (i.value * Nat.pow 10 (-place).toNat)
    (Nat.pow 10 place.toNat * i.unit)
  rw [hquotient, ← Int.natCast_ediv, h, Int.floor_eq_iff, le_div_iff₀ hgrid,
    div_lt_iff₀ hgrid] at hfloor
  exact_mod_cast hfloor

/-- **A grid finer than the interval meets it** next to the value. -/
theorem isSome_onGrid_of_lt (hunit : 0 < i.unit) (hlow : i.low < i.value) (hhigh : i.value < i.high)
    (hfine : (10 : ℚ) ^ place < i.high / i.unit - i.low / i.unit) : (i.onGrid? place).isSome := by
  have hunitq : (0 : ℚ) < i.unit := by exact_mod_cast hunit
  have hlow : (i.low / i.unit : ℚ) < i.value / i.unit :=
    div_lt_div_of_pos_right (by exact_mod_cast hlow) hunitq
  have hhigh : (i.value / i.unit : ℚ) < i.high / i.unit :=
    div_lt_div_of_pos_right (by exact_mod_cast hhigh) hunitq
  refine isSome_onGrid rfl ?_
  generalize hbelow :
    i.value * Nat.pow 10 (-place).toNat / (Nat.pow 10 place.toNat * i.unit) = below
  obtain ⟨hle, hlt⟩ := bounds_onGrid hbelow
  by_contra! hno
  have hmiss : (below * 10 ^ place : ℚ) ≤ i.low / i.unit :=
    not_lt.mp fun h => hno.1 (holds_of_lt hunit h (hle.trans_lt hhigh))
  have hmiss' : (i.high / i.unit : ℚ) ≤ (below + 1 : ℕ) * 10 ^ place :=
    not_lt.mp fun h => hno.2 (holds_of_lt hunit (hlow.trans (by exact_mod_cast hlt)) h)
  push_cast at hmiss'
  linarith

/-- **The search finds a decimal near to the double**: the grid of seventeen digits is finer than
the double's interval. -/
theorem near_shortest (hm : 0 < m) (hlt : m < 2 ^ 53) :
    Near m e ((shortest m e).1 * 10 ^ (shortest m e).2) := by
  have hunit := unit_of_pos m e
  obtain ⟨hlow, hvalue, hhigh⟩ := interval_of_div hm e
  have hpos := two_zpow_pos e
  have hpow : 0 < Nat.pow 2 e.toNat := Nat.pow_pos (by decide)
  have hleading := zpow_leadingPlace_le hunit
    (Nat.mul_pos (Nat.mul_pos (show 0 < 4 by decide) hm) hpow)
  have hsome : ((Interval.of m e).onGrid? ((Interval.of m e).leadingPlace - (16 : ℕ))).isSome := by
    refine isSome_onGrid_of_lt hunit ?_ ?_ ?_
    · refine Nat.mul_lt_mul_of_pos_right ?_ hpow
      split <;> omega
    · exact Nat.mul_lt_mul_of_pos_right (Nat.lt_add_of_pos_right (by decide)) hpow
    · rw [hlow, hhigh, zpow_sub₀ (by norm_num), div_lt_iff₀ (by positivity)]
      refine hleading.trans_lt ?_
      rw [hvalue, ← sub_mul, mul_right_comm]
      refine mul_lt_mul_of_pos_right ?_ hpos
      rw [quartersBelow]
      split
      next h =>
        rw [h.1]
        norm_num
      next =>
        have hlt : (m : ℚ) < 2 ^ 53 := by exact_mod_cast hlt
        norm_num at hlt ⊢
        linarith
  have hfound := holds_search 17 0 (Nat.zero_le 16) (by decide) hsome
  rw [shortest, if_neg hm.ne', dropZeros_value]
  exact (holds_of_iff hm).mp hfound

/-- **The shortest decimal of a double is rounded to it.** -/
theorem rounded_shortest (hx : Binary.ofFloat x = .finite negative m e) (hm : 0 < m) :
    rounded ((shortest m e).1 * 10 ^ (shortest m e).2) = m * 2 ^ e := by
  obtain ⟨hlt, hlow, -, hnormal⟩ := bounds_of_unpack (unpack_of_ofFloat hx hm)
  exact rounded_eq_of_near hm hlt hlow hnormal (near_shortest hm hlt)

/-- The shortest decimal of a double has digits. -/
theorem shortest_pos (hm : 0 < m) (hlt : m < 2 ^ 53) : 0 < (shortest m e).1 := by
  have h := (near_shortest (e := e) hm hlt).pos hm
  exact Nat.pos_of_ne_zero fun hzero => by simp [hzero] at h

end Fine

end Stencil.Decimal
