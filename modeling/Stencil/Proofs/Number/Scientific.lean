import Stencil.Proofs.Decimal.Numeral
import Stencil.Proofs.Number.Double

/-!
# Proofs/Number/Scientific — a decimal is read as the nearest double

    digits, place ──▸ digits · 10 ^ place ──rounded──▸ m · 2 ^ e ◂── the double

A decimal is turned into a double in one of two ways, by an operation on two exact doubles or by one
on mantissas, and either way the result is rounded once: it is the double nearest to the decimal
(`isDouble_ofScientific`, `isDouble_ofDecimal`).  A double is determined by what it is unpacked to
(`eq_of_unpack_eq`), so a decimal whose nearest double is known is read as that double, whatever its
sign (`ofDecimal_eq`).
-/

namespace Stencil.Number

open Float.Model Float.Model.UnpackedFloat
open Stencil.Decimal (Binary ofDecimal ofDigits ofDigits_cons ofDigits_dropWhile ofDigits_lt)

/-! ## What a double is unpacked to -/

section Unpack

variable {m : ℕ} {e : ℤ} {s : Sign} {hm : 0 < m} {q : ℚ} {u v : UnpackedFloat} {x y : Float}

/-- A double is packed again as it was. -/
theorem ofModel_pack_unpack (x : Float) :
    Float.ofModel (Float.Model.pack x.toModel.unpack) = x := by
  obtain ⟨⟨bits, hvalid⟩⟩ := x
  have hbits := pack_unpack_of_valid hvalid
  simp only [Float.Model.pack, Float.Model.unpack, hbits]

/-- **A double is what it is unpacked to.** -/
theorem eq_of_unpack_eq (h : x.toModel.unpack = y.toModel.unpack) : x = y := by
  rw [← ofModel_pack_unpack x, h, ofModel_pack_unpack]

/-- The parts of an unpacked double. -/
def parts : UnpackedFloat → Binary
  | .notANumber => .nan
  | .infinity s => .infinite (s == .negative)
  | .zero s => .finite (s == .negative) 0 Binary.minExponent
  | .finite s m e _ => .finite (s == .negative) m e

/-- Nothing is lost with the parts. -/
theorem parts_injective : Function.Injective parts := by
  have hsign (s t : Sign) : (s == .negative) = (t == .negative) → s = t := by
    cases s <;> cases t <;> simp
  intro u v h
  cases u <;> cases v <;> simp only [parts, reduceCtorEq, Binary.infinite.injEq,
    Binary.finite.injEq] at h
  case notANumber.notANumber => rfl
  case infinity.infinity => rw [hsign _ _ h]
  case zero.zero => rw [hsign _ _ h.1]
  case zero.finite hn => exact absurd hn (by omega)
  case finite.zero hm _ => exact absurd hm (by omega)
  case finite.finite =>
    obtain ⟨h, rfl, rfl⟩ := h
    rw [hsign _ _ h]

/-- **A double is taken apart** into the parts that it is unpacked to. -/
theorem ofFloat_eq_parts (x : Float) : Binary.ofFloat x = parts x.toModel.unpack := by
  rw [Float.Model.unpack]
  generalize hb : x.toModel.toBits.toBitVec = b
  have hbits : x.toBits.toNat = b.toNat := by rw [← hb]; rfl
  have hsign (c : BitVec 1) : (c.toNat == 1) = (Sign.ofBitVec c == .negative) := by
    revert c
    decide
  simp only [UnpackedFloat.unpack, Binary.ofFloat]
  rw [hbits, ← toNat_unpackExponent, ← toNat_unpackMantissa, ← toNat_unpackSign, hsign]
  split
  next htop =>
    rw [if_pos (BitVec.eq_of_toNat_eq htop)]
    split
    next hzero => rw [if_pos (BitVec.eq_of_toNat_eq hzero)]; rfl
    next hne => rw [if_neg fun h => hne (congrArg BitVec.toNat h)]; rfl
  next htop =>
    rw [if_neg fun h => htop (congrArg BitVec.toNat h)]
    split
    next hexponent =>
      rw [if_pos (BitVec.eq_of_toNat_eq hexponent)]
      split
      next hzero => rw [hzero]; rfl
      next => rw [hexponent]; rfl
    next hexponent =>
      rw [if_neg fun h => hexponent (congrArg BitVec.toNat h), parts, toNat_append_mantissa]
      rfl

/-- The parts of a double have a limited number of digits, all of them unless it is small. -/
theorem bounds_of_unpack (h : x.toModel.unpack = .finite s m e hm) :
    m < 2 ^ 53 ∧ -1074 ≤ e ∧ e ≤ 971 ∧ (2 ^ 52 ≤ m ∨ e = -1074) := by
  rw [Float.Model.unpack] at h
  generalize x.toModel.toBits.toBitVec = b at h
  simp only [UnpackedFloat.unpack] at h
  have hexponent : (@unpackExponent Format.binary64 b).toNat < 2048 := BitVec.isLt _
  have hmantissa : (@unpackMantissa Format.binary64 b).toNat < 2 ^ 52 := BitVec.isLt _
  split at h
  next => split at h <;> cases h
  next htop =>
    have htop' : (@unpackExponent Format.binary64 b).toNat ≠ 2047 :=
      fun hn => htop (BitVec.eq_of_toNat_eq hn)
    split at h
    next hzero =>
      split at h
      next => cases h
      next =>
        obtain ⟨-, rfl, rfl⟩ := UnpackedFloat.finite.inj h
        rw [hzero]
        exact ⟨hmantissa.trans (by decide), by decide, by decide, .inr rfl⟩
    next hne =>
      have hne' : (@unpackExponent Format.binary64 b).toNat ≠ 0 :=
        fun hn => hne (BitVec.eq_of_toNat_eq hn)
      obtain ⟨-, rfl, rfl⟩ := UnpackedFloat.finite.inj h
      have hvalue := toNat_append_mantissa (@unpackMantissa Format.binary64 b)
      change _ ∧ -1074 ≤ ((@unpackExponent Format.binary64 b).toNat : ℤ) - (1023 + 52) ∧
        ((@unpackExponent Format.binary64 b).toNat : ℤ) - (1023 + 52) ≤ 971 ∧ _
      rw [hvalue]
      exact ⟨by omega, by omega, by omega, .inl (by omega)⟩

/-- A double without a minus sign is the fraction of its parts. -/
theorem isDouble_of_ofFloat (h : Binary.ofFloat x = .finite false m e) :
    IsDouble x (m * 2 ^ e) := by
  rw [ofFloat_eq_parts] at h
  rw [IsDouble]
  cases hunpack : x.toModel.unpack with
  | notANumber => rw [hunpack] at h; cases h
  | infinity s => rw [hunpack] at h; cases h
  | zero s =>
    rw [hunpack] at h
    obtain ⟨-, rfl, -⟩ := Binary.finite.inj h
    exact .zero (by rw [Nat.cast_zero, zero_mul])
  | finite s n d hn =>
    rw [hunpack] at h
    obtain ⟨hs, rfl, rfl⟩ := Binary.finite.inj h
    obtain ⟨hlt, hlow, -, hnormal⟩ := bounds_of_unpack hunpack
    cases s with
    | positive => exact .finite hlt hlow hnormal rfl
    | negative => cases hs

/-- The sign of a double from its parts. -/
def signOf (negative : Bool) : Sign :=
  if negative then .negative else .positive

/-- The parts of a double that is not nought tell what it is unpacked to. -/
theorem unpack_of_ofFloat {negative : Bool} (h : Binary.ofFloat x = .finite negative m e)
    (hm : 0 < m) : x.toModel.unpack = .finite (signOf negative) m e hm := by
  refine parts_injective ?_
  rw [← ofFloat_eq_parts, h]
  cases negative <;> rfl

/-- A double without digits is nought. -/
theorem unpack_of_ofFloat_zero {negative : Bool} (h : Binary.ofFloat x = .finite negative 0 e) :
    x.toModel.unpack = .zero (signOf negative) := by
  rw [ofFloat_eq_parts] at h
  cases hunpack : x.toModel.unpack with
  | notANumber => rw [hunpack] at h; cases h
  | infinity s => rw [hunpack] at h; cases h
  | zero s =>
    rw [hunpack] at h
    obtain ⟨rfl, -, -⟩ := Binary.finite.inj h
    cases s <;> rfl
  | finite s n d hn =>
    rw [hunpack] at h
    obtain ⟨-, rfl, -⟩ := Binary.finite.inj h
    exact absurd hn (Nat.lt_irrefl 0)

/-- **No two unpacked doubles from nought up are the same fraction**, except for nought. -/
theorem Holds.eq_of_pos (hu : Holds q u) (hv : Holds q v) (hq : 0 < q) : u = v := by
  cases hu with
  | zero h => exact absurd h hq.ne'
  | @finite m e hm hm53 he hnormal hqm =>
    cases hv with
    | zero h => exact absurd h hq.ne'
    | @finite n d hn hn53 hd hnormal' hqn =>
      -- The one with the lower exponent would have a digit too many.
      have hle {m n : ℕ} {e d : ℤ} (hm53 : m < 2 ^ 53) (he : -1074 ≤ e)
          (hnormal : 2 ^ 52 ≤ n ∨ d = -1074) (heq : (m * 2 ^ e : ℚ) = n * 2 ^ d) : d ≤ e := by
        by_contra hlt
        obtain ⟨t, ht⟩ := Int.eq_ofNat_of_zero_le (show 0 ≤ d - e - 1 by omega)
        have hm : m = n * 2 ^ (t + 1) := by
          rw [show d = (t + 1 : ℕ) + e by omega, zpow_add₀ two_ne_zero, ← mul_assoc,
            mul_left_inj' (two_zpow_pos e).ne', zpow_natCast] at heq
          exact_mod_cast heq
        have hn := hnormal.resolve_right (by omega)
        have hpow := Nat.one_le_two_pow (n := t)
        rw [pow_succ, ← mul_assoc] at hm
        nlinarith
      have heq : (m * 2 ^ e : ℚ) = n * 2 ^ d := hqm.symm.trans hqn
      obtain rfl : e = d := le_antisymm (hle hn53 hd hnormal heq.symm) (hle hm53 he hnormal' heq)
      have hmn : m = n := by
        rw [mul_left_inj' (two_zpow_pos e).ne'] at heq
        exact_mod_cast heq
      subst hmn
      rfl

end Unpack

/-! ## Very small and very large numbers -/

section Extremes

variable {x : ℚ}

/-- What is less than half the smallest double is rounded to nought. -/
theorem rounded_eq_zero (hx : 0 ≤ x) (h : x < 2 ^ (-1075 : ℤ)) : rounded x = 0 := by
  rcases hx.eq_or_lt with rfl | hpos
  · exact rounded_zero
  have hlog : Int.log 2 x < -1075 :=
    (Int.lt_zpow_iff_log_lt one_lt_two hpos).mp (by exact_mod_cast h)
  have hplace : lastPlace x = -1074 := by
    rw [lastPlace]
    omega
  have hhalf : x / 2 ^ (-1074 : ℤ) < 1 / 2 := by
    rw [div_lt_iff₀ (two_zpow_pos _)]
    refine h.trans_eq ?_
    rw [show (-1074 : ℤ) = -1075 + 1 by decide, zpow_add_one₀ two_ne_zero]
    ring
  have hnonneg : 0 ≤ x / 2 ^ (-1074 : ℤ) := div_nonneg hx (two_zpow_pos _).le
  have hfloor : ⌊x / 2 ^ (-1074 : ℤ)⌋ = 0 :=
    Int.floor_eq_zero_iff.mpr ⟨hnonneg, hhalf.trans (by norm_num)⟩
  have hfract : Int.fract (x / 2 ^ (-1074 : ℤ)) < 1 / 2 := by
    rwa [← Int.self_sub_floor, hfloor, Int.cast_zero, sub_zero]
  rw [rounded, hplace, nearestWhole, if_pos hfract, hfloor, Int.cast_zero, zero_mul]

/-- Rounding does not pass the power of two below a number. -/
theorem zpow_log_le_rounded (hx : 0 < x) (h : -1022 < Int.log 2 x) :
    (2 : ℚ) ^ Int.log 2 x ≤ rounded x := by
  have hplace : lastPlace x = Int.log 2 x - 52 := by
    rw [lastPlace]
    omega
  have hfull : (2 : ℚ) ^ 52 ≤ nearestWhole (x / 2 ^ lastPlace x) := by
    have := (nearestWhole_bounds hx).2.resolve_right (by omega)
    exact_mod_cast this
  calc (2 : ℚ) ^ Int.log 2 x = 2 ^ 52 * 2 ^ lastPlace x := by
        rw [hplace, ← zpow_natCast, ← zpow_add₀ two_ne_zero]
        congr 1
        push_cast
        omega
    _ ≤ rounded x := mul_le_mul_of_nonneg_right hfull (two_zpow_pos _).le

/-- What is rounded to a double is less than the first number beyond them. -/
theorem lt_of_rounded_lt (h : rounded x < 2 ^ 1024) : x < 2 ^ 1024 := by
  by_contra hle
  rw [not_lt] at hle
  have hpos : 0 < x := lt_of_lt_of_le (pow_pos two_pos _) hle
  rw [← zpow_natCast] at h hle
  have hlog : ((1024 : ℕ) : ℤ) ≤ Int.log 2 x := (Int.zpow_le_iff_le_log one_lt_two hpos).mp hle
  have hpow : (2 : ℚ) ^ ((1024 : ℕ) : ℤ) ≤ 2 ^ Int.log 2 x := zpow_le_zpow_right₀ one_le_two hlog
  exact absurd h (not_lt.mpr (hpow.trans (zpow_log_le_rounded hpos (by omega))))

end Extremes

/-! ## Decimals -/

section Scientific

variable {m n k : ℕ}

/-- The powers of ten that are doubles. -/
theorem isDouble_powerOfTen (h : k < Float.exactlyRepresentablePowersOfTen.size) :
    IsDouble Float.exactlyRepresentablePowersOfTen[k] (10 ^ k) := by
  have hparts : ∀ k : Fin 23, Binary.ofFloat Float.exactlyRepresentablePowersOfTen[k] =
      .finite false (5 ^ k.val * 2 ^ (52 - (5 ^ k.val).log2)) (k.val + (5 ^ k.val).log2 - 52) := by
    decide +kernel
  have hvalue := isDouble_of_ofFloat (hparts ⟨k, h⟩)
  have hlog : (5 ^ k).log2 ≤ 52 :=
    Nat.le_of_lt_succ ((Nat.log2_lt (by positivity)).mpr
      ((Nat.pow_le_pow_right (by decide) (Nat.le_of_lt_succ h)).trans_lt (by decide)))
  generalize (5 ^ k).log2 = l at hvalue hlog
  have hexponent : ((52 - l : ℕ) : ℤ) + (k + l - 52) = k := by omega
  have hpower : ((5 ^ k * 2 ^ (52 - l) : ℕ) : ℚ) * 2 ^ ((k : ℤ) + l - 52) = 10 ^ k := by
    rw [Nat.cast_mul, Nat.cast_pow 2, mul_assoc, Nat.cast_ofNat, ← zpow_natCast (2 : ℚ),
      ← zpow_add₀ two_ne_zero, hexponent, zpow_natCast, Nat.cast_pow, ← mul_pow]
    norm_num
  rwa [hpower] at hvalue

/-- A whole number with room behind it is rounded once. -/
theorem holds_shifted (hm : 0 < m) (hn : 0 < n) :
    Holds (rounded (m * n)) (mul Format.binary64
      (UnpackedFloat.finite .positive (m <<< 53) (-53) (Nat.shiftLeft_pos_iff.mpr hm))
      (UnpackedFloat.finite .positive n 0 hn)) := by
  have hlong : 2 ^ 53 ≤ m <<< 53 * n := by
    rw [Nat.shiftLeft_eq]
    exact (Nat.le_mul_of_pos_left _ hm).trans (Nat.le_mul_of_pos_right _ hn)
  have hlog : 53 ≤ (m <<< 53 * n).log2 :=
    (Nat.le_log2 (Nat.mul_pos (Nat.shiftLeft_pos_iff.mpr hm) hn).ne').mpr hlong
  have hplace : -53 + 0 ≤
      Format.binary64.targetExponent (totalExponent (m <<< 53 * n) (-53 + 0)) := by
    rw [targetExponent_eq, totalExponent]
    omega
  have hmul := holds_mul_finite (e := -53) (d := 0) (Nat.shiftLeft_pos_iff.mpr hm) hn hplace
  rwa [zpow_zero, mul_one, shiftLeft_mul_zpow (e := 0) m (by decide), zpow_zero, mul_one] at hmul

/-- A decimal with a power of ten before the point. -/
theorem isDouble_ofScientific_up (h : rounded (m * 10 ^ k) < 2 ^ 1024) :
    IsDouble (Float.ofScientific m false k) (rounded (m * 10 ^ k)) := by
  unfold Float.ofScientific
  split
  next hexact =>
    exact (holds_mul (isDouble_toFloat hexact.1)
      (isDouble_powerOfTen (Nat.lt_succ_of_le hexact.2))).unpack_pack h
  next =>
    change Holds _ (Float.Model.pack (UnpackedFloat.ofScientific Format.binary64 m
      (Int.ofNat k))).unpack
    refine Holds.unpack_pack ?_ h
    have hbits : (2 : ℤ) ^ Format.binary64.exponentBits = 2048 := rfl
    rw [UnpackedFloat.ofScientific]
    split
    next hzero => exact .zero (by rw [hzero, Nat.cast_zero, zero_mul, rounded_zero])
    next hne =>
      have hpos := Nat.pos_of_ne_zero hne
      have hk : k < 1024 := by
        rw [← Nat.pow_lt_pow_iff_right (show 1 < 2 by decide)]
        calc 2 ^ k ≤ 10 ^ k := Nat.pow_le_pow_left (by decide) k
          _ ≤ m * 10 ^ k := Nat.le_mul_of_pos_left _ hpos
          _ < 2 ^ 1024 := by exact_mod_cast lt_of_rounded_lt h
      rw [hbits, Int.ofNat_eq_natCast, if_neg (by omega), if_neg (by omega), if_pos (by omega)]
      have hmul := holds_shifted hpos (Nat.pow_pos (n := k) (show 0 < 10 by decide))
      push_cast at hmul
      exact hmul

/-- So far behind the point a number is less than half the smallest double. -/
theorem rounded_div_eq_zero (h : 1075 + (m.log2 + 1) ≤ k) : rounded (m / 10 ^ k) = 0 := by
  obtain ⟨t, rfl⟩ := Nat.exists_eq_add_of_le h
  have hlt : (m : ℚ) < 2 ^ (m.log2 + 1) := by exact_mod_cast Nat.lt_log2_self
  refine rounded_eq_zero (by positivity) ?_
  rw [div_lt_iff₀ (by positivity)]
  generalize hk : 1075 + (m.log2 + 1) + t = k
  calc (m : ℚ) < 2 ^ (m.log2 + 1) := hlt
    _ ≤ 2 ^ (m.log2 + 1 + t) := pow_le_pow_right₀ one_le_two (Nat.le_add_right _ t)
    _ = 2 ^ (-1075 : ℤ) * 2 ^ k := by
      rw [← zpow_natCast, ← zpow_natCast, ← zpow_add₀ two_ne_zero]
      congr 1
      omega
    _ ≤ 2 ^ (-1075 : ℤ) * 10 ^ k :=
      mul_le_mul_of_nonneg_left (pow_le_pow_left₀ (by norm_num) (by norm_num) k)
        (two_zpow_pos _).le

/-- A decimal with digits behind the point. -/
theorem isDouble_ofScientific_down (h : rounded (m / 10 ^ k) < 2 ^ 1024) :
    IsDouble (Float.ofScientific m true k) (rounded (m / 10 ^ k)) := by
  unfold Float.ofScientific
  split
  next hexact =>
    exact (holds_div (isDouble_toFloat hexact.1)
      (isDouble_powerOfTen (Nat.lt_succ_of_le hexact.2)) (by positivity)).unpack_pack h
  next =>
    change Holds _ (Float.Model.pack (UnpackedFloat.ofScientific Format.binary64 m
      (Int.negOfNat k))).unpack
    refine Holds.unpack_pack ?_ h
    have hbits : (2 : ℤ) ^ Format.binary64.exponentBits = 2048 := rfl
    have hmantissa : (Format.binary64.mantissaBits : ℤ) = 53 := rfl
    rw [UnpackedFloat.ofScientific, Int.negOfNat_eq, Int.ofNat_eq_natCast, hbits, hmantissa]
    split
    next hzero => exact .zero (by rw [hzero, Nat.cast_zero, zero_div, rounded_zero])
    next hne =>
      have hpos := Nat.pos_of_ne_zero hne
      rw [if_neg (by omega)]
      split
      next hsmall =>
        exact .zero (rounded_div_eq_zero (by omega))
      next hlarge =>
        split
        next hnonneg =>
          obtain rfl : k = 0 := by omega
          have hmul := holds_shifted hpos Nat.one_pos
          rw [Nat.cast_one, mul_one] at hmul
          rw [pow_zero, div_one]
          exact hmul
        next =>
          have hdiv := holds_div_finite hpos (Nat.pow_pos (n := k) (show 0 < 10 by decide)) 0 0
          rw [zpow_zero, mul_one, mul_one] at hdiv
          push_cast at hdiv
          simp only [neg_neg, Int.toNat_natCast]
          exact hdiv

/-- A decimal on either side of the point. -/
theorem isDouble_ofScientific {place : ℤ} (h : rounded (m * 10 ^ place) < 2 ^ 1024) :
    IsDouble (Float.ofScientific m (place < 0) place.natAbs) (rounded (m * 10 ^ place)) := by
  by_cases hplace : place < 0
  · have hvalue : (m * 10 ^ place : ℚ) = m / 10 ^ place.natAbs := by
      rw [← zpow_natCast, div_eq_mul_inv, ← zpow_neg]
      congr 2
      omega
    rw [hvalue] at h ⊢
    rw [decide_eq_true hplace]
    exact isDouble_ofScientific_down h
  · have hvalue : (m * 10 ^ place : ℚ) = m * 10 ^ place.natAbs := by
      rw [← zpow_natCast]
      congr 2
      omega
    rw [hvalue] at h ⊢
    rw [decide_eq_false hplace]
    exact isDouble_ofScientific_up h

end Scientific

section Decimal

variable {digits : List ℕ} {place : ℤ} {m : ℕ} {e : ℤ} {negative : Bool} {x y : Float}

theorem isDouble_zero : IsDouble 0 0 :=
  .zero rfl

/-- Ten has more than three binary digits. -/
theorem eight_zpow_le (h : 0 ≤ place) : (8 : ℚ) ^ place ≤ 10 ^ place := by
  obtain ⟨n, rfl⟩ := Int.eq_ofNat_of_zero_le h
  rw [zpow_natCast, zpow_natCast]
  exact pow_le_pow_left₀ (by norm_num) (by norm_num) n

/-- A decimal whose first digit stands four hundred places behind the point is rounded to nought. -/
theorem rounded_eq_zero_of_lt (hdigits : ∀ d ∈ digits, d < 10)
    (h : place + digits.length < -400) : rounded (ofDigits digits * 10 ^ place) = 0 := by
  refine rounded_eq_zero (mul_nonneg (Nat.cast_nonneg _) (by positivity)) ?_
  have hlt : (ofDigits digits : ℚ) < 10 ^ (digits.length : ℤ) := by
    rw [zpow_natCast]
    exact_mod_cast ofDigits_lt hdigits
  calc (ofDigits digits * 10 ^ place : ℚ) < 10 ^ (digits.length : ℤ) * 10 ^ place :=
        mul_lt_mul_of_pos_right hlt (by positivity)
    _ = 10 ^ (place + digits.length) := by rw [← zpow_add₀ (by norm_num), add_comm]
    _ ≤ 8 ^ (place + digits.length) := by
        have hle : (8 : ℚ) ^ (-(place + digits.length)) ≤ 10 ^ (-(place + digits.length)) :=
          eight_zpow_le (by omega)
        rwa [zpow_neg, zpow_neg, inv_le_inv₀ (by positivity) (by positivity)] at hle
    _ = 2 ^ (3 * (place + digits.length)) := by rw [zpow_mul]; norm_num
    _ ≤ 2 ^ (-1075 : ℤ) := zpow_le_zpow_right₀ one_le_two (by omega)

/-- A decimal whose first digit stands four hundred places before the point is beyond doubles. -/
theorem le_of_leading_digit {d : ℕ} (hd : d ≠ 0)
    (h : 400 < place + (d :: digits).length) :
    (2 : ℚ) ^ 1024 ≤ ofDigits (d :: digits) * 10 ^ place := by
  have hle : (10 : ℚ) ^ (digits.length : ℤ) ≤ ofDigits (d :: digits) := by
    rw [zpow_natCast]
    have := Nat.le_mul_of_pos_left (10 ^ digits.length) (Nat.pos_of_ne_zero hd)
    exact_mod_cast this.trans (ofDigits_cons d digits ▸ Nat.le_add_right _ _)
  rw [List.length_cons] at h
  calc (2 : ℚ) ^ 1024 = 2 ^ ((1024 : ℕ) : ℤ) := (zpow_natCast 2 1024).symm
    _ ≤ 2 ^ (3 * (place + digits.length)) := zpow_le_zpow_right₀ one_le_two (by omega)
    _ = 8 ^ (place + digits.length) := by rw [zpow_mul]; norm_num
    _ ≤ 10 ^ (place + digits.length) := eight_zpow_le (by omega)
    _ = 10 ^ (digits.length : ℤ) * 10 ^ place := by rw [← zpow_add₀ (by norm_num), add_comm]
    _ ≤ ofDigits (d :: digits) * 10 ^ place := mul_le_mul_of_nonneg_right hle (by positivity)

/-- **A decimal is read as the nearest double** if there is one. -/
theorem isDouble_ofDecimal (hdigits : ∀ d ∈ digits, d < 10)
    (h : rounded (ofDigits digits * 10 ^ place) < 2 ^ 1024) :
    IsDouble (ofDecimal false digits place) (rounded (ofDigits digits * 10 ^ place)) := by
  have hdigits' : ∀ d ∈ digits.dropWhile (· == 0), d < 10 :=
    fun d hd => hdigits d ((List.dropWhile_suffix _).mem hd)
  have hhead := List.head?_dropWhile_not (· == 0) digits
  rw [← ofDigits_dropWhile digits] at h ⊢
  simp only [ofDecimal]
  generalize digits.dropWhile (· == 0) = digits at *
  rw [if_neg Bool.false_ne_true]
  cases digits with
  | nil =>
    rw [List.isEmpty_nil, Bool.true_or, if_pos rfl, ofDigits, List.foldl_nil, Nat.cast_zero,
      zero_mul, rounded_zero]
    exact isDouble_zero
  | cons d digits =>
    rw [List.isEmpty_cons, Bool.false_or]
    split
    next hsmall =>
      rw [rounded_eq_zero_of_lt hdigits' (of_decide_eq_true hsmall)]
      exact isDouble_zero
    next =>
      split
      next hlarge =>
        have hd : d ≠ 0 := by simpa using hhead
        exact absurd (lt_of_rounded_lt h) (not_lt.mpr (le_of_leading_digit hd hlarge))
      next => exact isDouble_ofScientific h

/-- The negative of a double is unpacked to the negative. -/
theorem neg_eq_of_unpack (h : x.toModel.unpack = y.toModel.unpack.neg) : -y = x := by
  rw [← ofModel_pack_unpack x, h]
  rfl

/-- **A decimal whose nearest double is known is read as that double.** -/
theorem ofDecimal_eq (hdigits : ∀ d ∈ digits, d < 10)
    (hx : Binary.ofFloat x = .finite negative m e) (hm : 0 < m)
    (h : rounded (ofDigits digits * 10 ^ place) = m * 2 ^ e) :
    ofDecimal negative digits place = x := by
  have hunpack := unpack_of_ofFloat hx hm
  obtain ⟨hlt, hlow, hhigh, hnormal⟩ := bounds_of_unpack hunpack
  have hpos : (0 : ℚ) < m * 2 ^ e := mul_pos (by exact_mod_cast hm) (two_zpow_pos e)
  have hbound : (m * 2 ^ e : ℚ) < 2 ^ 1024 := by
    have hm : (m : ℚ) < 2 ^ 53 := by exact_mod_cast hlt
    calc (m * 2 ^ e : ℚ) < 2 ^ 53 * 2 ^ e := mul_lt_mul_of_pos_right hm (two_zpow_pos e)
      _ = 2 ^ (53 + e) := by rw [zpow_add₀ two_ne_zero]; rfl
      _ ≤ 2 ^ ((1024 : ℕ) : ℤ) := zpow_le_zpow_right₀ one_le_two (by push_cast; omega)
      _ = 2 ^ 1024 := zpow_natCast 2 1024
  have hread := isDouble_ofDecimal hdigits (h ▸ hbound)
  rw [h] at hread
  have hread : (ofDecimal false digits place).toModel.unpack = .finite .positive m e hm :=
    Holds.eq_of_pos hread (.finite hlt hlow hnormal rfl) hpos
  cases negative with
  | false => exact eq_of_unpack_eq (hread.trans hunpack.symm)
  | true =>
    change -ofDecimal false digits place = x
    refine neg_eq_of_unpack ?_
    rw [hunpack, hread]
    rfl

/-- A decimal of noughts is read as nought, with its sign. -/
theorem ofDecimal_zero (hx : Binary.ofFloat x = .finite negative 0 e)
    (hdigits : ∀ d ∈ digits, d = 0) : ofDecimal negative digits place = x := by
  have hdrop : digits.dropWhile (· == 0) = [] :=
    List.dropWhile_eq_nil_iff.mpr fun d hd => beq_iff_eq.mpr (hdigits d hd)
  have hunpack := unpack_of_ofFloat_zero hx
  simp only [ofDecimal, hdrop, List.isEmpty_nil, Bool.true_or, if_true]
  cases negative with
  | false => exact eq_of_unpack_eq (hunpack.trans rfl).symm
  | true => exact neg_eq_of_unpack (hunpack.trans rfl)

/-- An infinity is the one of its sign. -/
theorem eq_of_ofFloat_infinite (hx : Binary.ofFloat x = .infinite negative) :
    x = if negative then -(1 / 0) else 1 / 0 := by
  have hunpack : x.toModel.unpack = .infinity (signOf negative) := by
    refine parts_injective ?_
    rw [← ofFloat_eq_parts, hx]
    cases negative <;> rfl
  cases negative with
  | false => exact eq_of_unpack_eq hunpack
  | true => exact (neg_eq_of_unpack hunpack).symm

/-- There is only one double that is not a number. -/
theorem eq_of_ofFloat_nan (hx : Binary.ofFloat x = .nan) : x = 0 / 0 := by
  refine eq_of_unpack_eq (parts_injective ?_)
  rw [← ofFloat_eq_parts, hx]
  rfl

end Decimal

end Stencil.Number
