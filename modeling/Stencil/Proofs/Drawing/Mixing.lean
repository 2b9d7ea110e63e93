import Stencil.Gradient
import Stencil.Proofs.Number.Quotient

/-!
# Proofs/Drawing/Mixing — the colours between two others

    (b · i + a · (n - i)) / n  ──five roundings, less than 2 ^ (-43) in all──▸  mixed a b i n
                                                                                │ whole part
                                                                                ▼
                                                                             channel

The colour of step `i` of `n` is mixed in doubles (`mixed`), and the exact mixture is so near that
their whole parts are the same unless it is next to a whole number (`abs_mixed_sub_lt`).  Of up to
`2 ^ 43` steps only a mixture that *is* a whole number can be mistaken, and only for the number
before it.
-/

namespace Stencil

namespace Number

/-! ## Mixtures -/

/-- **The mixture in doubles** of the whole numbers `a` and `b` at step `i` of `n`. -/
def mixed (a b i n : ℕ) : ℚ :=
  rounded (rounded (b * rounded (i / n)) + rounded (a * rounded (1 - rounded (i / n))))

/-- The mixture of `a` and `b` at step `i` of `n`, times `n`. -/
def mixture (a b i n : ℕ) : ℕ :=
  b * i + a * (n - i)

/-- **How far the whole part of the mixture in doubles is off.** -/
def drift (a b i n : ℕ) : ℤ :=
  if mixed a b i n < (mixture a b i n / n : ℕ) then -1
  else if (mixture a b i n / n : ℕ) + 1 ≤ mixed a b i n then 1
  else 0

section Mixed

variable {a b i j n : ℕ} {x y : Float}

/-- A rounded number stays below the whole numbers it is below, and its error is half of its last
place at most. -/
theorem rounded_mem {x : ℚ} {m k : ℕ} (hx : 0 ≤ x) (hle : x ≤ m) (hm : m < 2 ^ k) (hk : k ≤ 53) :
    0 ≤ rounded x ∧ rounded x ≤ m ∧ |rounded x - x| ≤ 2 ^ ((k : ℤ) - 54) := by
  have hlt : x < 2 ^ k := hle.trans_lt (by exact_mod_cast hm)
  have hroom : (2 : ℚ) ^ k ≤ 2 ^ 53 := pow_le_pow_right₀ one_le_two hk
  exact ⟨rounded_nonneg hx, rounded_le_natCast (hlt.trans_le hroom) hle,
    abs_rounded_sub_le hx (by rwa [zpow_natCast]) (by omega)⟩

/-- The two shares of a step. -/
theorem share_mem (h : i < n) :
    (0 ≤ rounded (i / n : ℚ) ∧ rounded (i / n : ℚ) ≤ 1 ∧
      |rounded (i / n : ℚ) - i / n| ≤ 1 / 2 ^ 53) ∧
    0 ≤ rounded (1 - rounded (i / n : ℚ)) ∧ rounded (1 - rounded (i / n : ℚ)) ≤ 1 ∧
      |rounded (1 - rounded (i / n : ℚ)) - (1 - rounded (i / n : ℚ))| ≤ 1 / 2 ^ 53 := by
  have hn : (0 : ℚ) < n := by exact_mod_cast Nat.zero_lt_of_lt h
  have hlt : (i / n : ℚ) < 1 := (div_lt_one hn).mpr (by exact_mod_cast h)
  have hshare := rounded_mem (x := i / n) (m := 1) (k := 1) (by positivity)
    (by exact_mod_cast hlt.le) (by decide) (by decide)
  rw [Nat.cast_one] at hshare
  have hrest := rounded_mem (x := 1 - rounded (i / n)) (m := 1) (k := 1) (by linarith)
    (by push_cast; linarith) (by decide) (by decide)
  norm_num at hshare hrest ⊢
  exact ⟨hshare, hrest⟩

/-- A channel times a share. -/
theorem rounded_mul_mem {r : ℚ} (ha : a < 256) (hr : 0 ≤ r) (hr' : r ≤ 1) :
    0 ≤ rounded (a * r) ∧ rounded (a * r) ≤ 255 ∧ |rounded (a * r) - a * r| ≤ 1 / 2 ^ 46 := by
  have haq : (a : ℚ) ≤ (255 : ℕ) := by exact_mod_cast Nat.le_of_lt_succ ha
  have hmem := rounded_mem (k := 8) (mul_nonneg (Nat.cast_nonneg a) hr)
    ((mul_le_of_le_one_right (Nat.cast_nonneg a) hr').trans haq) (by decide) (by decide)
  norm_num at hmem ⊢
  exact hmem

/-- The exact mixture. -/
theorem mixture_div (h : i < n) :
    (mixture a b i n / n : ℚ) = b * (i / n) + a * (1 - i / n) := by
  have hn : (n : ℚ) ≠ 0 := by exact_mod_cast (Nat.zero_lt_of_lt h).ne'
  rw [mixture, div_eq_iff hn]
  push_cast [Nat.cast_sub h.le]
  field_simp

/-- **The error of a mixture.** -/
theorem abs_mixed_sub_lt (ha : a < 256) (hb : b < 256) (h : i < n) :
    |mixed a b i n - mixture a b i n / n| < 1 / 2 ^ 43 := by
  obtain ⟨⟨hr, hr', hshare⟩, ht, ht', hrest⟩ := share_mem h
  rw [mixed, mixture_div h]
  generalize rounded (i / n : ℚ) = r at *
  generalize rounded (1 - r) = t at *
  obtain ⟨hp, hp', hlast⟩ := rounded_mul_mem hb hr hr'
  obtain ⟨hq, hq', hfirst⟩ := rounded_mul_mem ha ht ht'
  generalize rounded (b * r) = p at *
  generalize rounded (a * t) = q at *
  obtain ⟨-, -, hsum⟩ := rounded_mem (x := p + q) (m := 510) (k := 9) (by linarith)
    (by push_cast; linarith) (by decide) (by decide)
  have haq : (a : ℚ) ≤ 255 := by exact_mod_cast Nat.le_of_lt_succ ha
  have hbq : (b : ℚ) ≤ 255 := by exact_mod_cast Nat.le_of_lt_succ hb
  have hdiff : |(b : ℚ) - a| ≤ 255 := by
    have hanonneg : (0 : ℚ) ≤ a := Nat.cast_nonneg a
    have hbnonneg : (0 : ℚ) ≤ b := Nat.cast_nonneg b
    rw [abs_le]
    constructor <;> linarith
  -- The error of the share counts once: what one end gains by it the other one loses.
  calc |rounded (p + q) - (b * (i / n) + a * (1 - i / n))|
      = |(rounded (p + q) - (p + q)) + ((p - b * r) + (q - a * t)) +
          (a * (t - (1 - r)) + (b - a) * (r - i / n))| := by congr 1; ring
    _ ≤ |rounded (p + q) - (p + q)| + (|p - b * r| + |q - a * t|) +
          (|a * (t - (1 - r))| + |(b - a) * (r - i / n)|) :=
        (abs_add_le _ _).trans (add_le_add ((abs_add_le _ _).trans
          (add_le_add_right (abs_add_le _ _) _)) (abs_add_le _ _))
    _ ≤ 1 / 2 ^ 45 + (1 / 2 ^ 46 + 1 / 2 ^ 46) + (255 * (1 / 2 ^ 53) + 255 * (1 / 2 ^ 53)) := by
        rw [abs_mul, abs_mul, Nat.abs_cast]
        gcongr
        norm_num at hsum ⊢
        exact hsum
    _ < 1 / 2 ^ 43 := by norm_num

/-- A mixture lies between its ends. -/
theorem mixture_mem (h : i < n) :
    min a b * n ≤ mixture a b i n ∧ mixture a b i n ≤ max a b * n := by
  have hsplit (m : ℕ) : m * n = m * i + m * (n - i) := by
    rw [← Nat.mul_add, Nat.add_sub_cancel' h.le]
  rw [hsplit, hsplit, mixture]
  exact ⟨Nat.add_le_add (Nat.mul_le_mul_right _ (min_le_right a b))
      (Nat.mul_le_mul_right _ (min_le_left a b)),
    Nat.add_le_add (Nat.mul_le_mul_right _ (le_max_right a b))
      (Nat.mul_le_mul_right _ (le_max_left a b))⟩

/-- Later mixtures are nearer to the second number. -/
theorem mixture_add (a b : ℕ) {k : ℕ} (h : i + k < n) :
    mixture a b (i + k) n + a * k = mixture a b i n + b * k := by
  have hsub : n - i = n - (i + k) + k := by omega
  rw [mixture, mixture, hsub]
  ring

/-- Towards a larger number mixtures do not become smaller, and the other way round. -/
theorem mixture_le_mixture (hij : i ≤ j) (hj : j < n) :
    (a ≤ b → mixture a b i n ≤ mixture a b j n) ∧ (b ≤ a → mixture a b j n ≤ mixture a b i n) := by
  obtain ⟨k, rfl⟩ := Nat.exists_eq_add_of_le hij
  have hadd := mixture_add a b hj
  constructor <;> intro hle <;> have := Nat.mul_le_mul_right k hle <;> omega

/-- A mixture in doubles below the whole part of the exact one. -/
theorem mod_of_mixed_lt (ha : a < 256) (hb : b < 256) (h : i < n)
    (hlt : mixed a b i n < (mixture a b i n / n : ℕ)) : mixture a b i n % n * 2 ^ 43 < n := by
  have hn : (0 : ℚ) < n := by exact_mod_cast Nat.zero_lt_of_lt h
  have herror := (abs_lt.mp (abs_mixed_sub_lt ha hb h)).1
  rw [natCast_div_eq _ (Nat.zero_lt_of_lt h)] at herror
  have hrest : ((mixture a b i n % n : ℕ) : ℚ) / n < 1 / 2 ^ 43 := by linarith
  rw [div_lt_div_iff₀ hn (by norm_num), one_mul] at hrest
  exact_mod_cast hrest

/-- A mixture in doubles from the next whole number on. -/
theorem mod_of_le_mixed (ha : a < 256) (hb : b < 256) (h : i < n)
    (hle : (mixture a b i n / n : ℕ) + 1 ≤ mixed a b i n) :
    (n - mixture a b i n % n) * 2 ^ 43 < n := by
  have hn : (0 : ℚ) < n := by exact_mod_cast Nat.zero_lt_of_lt h
  have herror := (abs_lt.mp (abs_mixed_sub_lt ha hb h)).2
  rw [natCast_div_eq _ (Nat.zero_lt_of_lt h)] at herror
  have hrest : ((n - mixture a b i n % n : ℕ) : ℚ) / n < 1 / 2 ^ 43 := by
    rw [Nat.cast_sub (Nat.mod_lt _ (Nat.zero_lt_of_lt h)).le, sub_div, div_self hn.ne']
    linarith
  rw [div_lt_div_iff₀ hn (by norm_num), one_mul] at hrest
  exact_mod_cast hrest

/-- **The whole part of a mixture in doubles.** -/
theorem floor_mixed (ha : a < 256) (hb : b < 256) (h : i < n) :
    ⌊mixed a b i n⌋ = (mixture a b i n / n : ℕ) + drift a b i n := by
  have hn : (0 : ℚ) < n := by exact_mod_cast Nat.zero_lt_of_lt h
  obtain ⟨hlow, hhigh⟩ := abs_lt.mp (abs_mixed_sub_lt ha hb h)
  have hle : ((mixture a b i n / n : ℕ) : ℚ) ≤ mixture a b i n / n := Nat.cast_div_le
  have hlt : (mixture a b i n / n : ℚ) < (mixture a b i n / n : ℕ) + 1 := by
    rw [div_lt_iff₀ hn, mul_comm]
    exact_mod_cast Nat.lt_mul_div_succ _ (Nat.zero_lt_of_lt h)
  norm_num at hlow hhigh
  rw [drift]
  generalize mixture a b i n / n = q at hle hlt ⊢
  rw [Int.floor_eq_iff, Int.cast_add, Int.cast_natCast]
  split_ifs with hbelow habove
  · constructor <;> push_cast <;> linarith
  · constructor <;> push_cast <;> linarith
  · constructor <;> push_cast <;> linarith

/-- Of up to `2 ^ 43` steps only whole mixtures drift. -/
theorem drift_eq (ha : a < 256) (hb : b < 256) (h : i < n) (hn : n ≤ 2 ^ 43) :
    drift a b i n =
      if n ∣ mixture a b i n ∧ mixed a b i n < (mixture a b i n / n : ℕ) then -1 else 0 := by
  have hmod := Nat.mod_lt (mixture a b i n) (Nat.zero_lt_of_lt h)
  have hnext : ¬((mixture a b i n / n : ℕ) + 1 : ℚ) ≤ mixed a b i n := fun hle => by
    have := mod_of_le_mixed ha hb h hle
    omega
  have hwhole (hlt : mixed a b i n < (mixture a b i n / n : ℕ)) : n ∣ mixture a b i n := by
    have := mod_of_mixed_lt ha hb h hlt
    exact Nat.dvd_of_mod_eq_zero (by omega)
  rw [drift, if_neg hnext]
  exact if_congr ⟨fun hlt => ⟨hwhole hlt, hlt⟩, And.right⟩ rfl rfl

/-- A mixture in doubles is off by less than one from the range between its ends. -/
theorem floor_mixed_mem (ha : a < 256) (hb : b < 256) (h : i < n) :
    ((min a b : ℕ) : ℤ) ≤ ⌊mixed a b i n⌋ + 1 ∧ ⌊mixed a b i n⌋ ≤ (max a b : ℕ) := by
  have hn : (0 : ℚ) < n := by exact_mod_cast Nat.zero_lt_of_lt h
  obtain ⟨hlow, hhigh⟩ := abs_lt.mp (abs_mixed_sub_lt ha hb h)
  obtain ⟨hmin, hmax⟩ := mixture_mem (a := a) (b := b) h
  have hmin : ((min a b : ℕ) : ℚ) ≤ mixture a b i n / n :=
    (le_div_iff₀ hn).mpr (by exact_mod_cast hmin)
  have hmax : (mixture a b i n / n : ℚ) ≤ (max a b : ℕ) :=
    (div_le_iff₀ hn).mpr (by exact_mod_cast hmax)
  norm_num at hlow hhigh
  constructor
  · rw [← Int.floor_add_one, Int.le_floor, Int.cast_natCast]
    linarith
  · refine Int.lt_add_one_iff.mp (Int.floor_lt.mpr ?_)
    push_cast at hmax ⊢
    linarith

/-- A mixture in doubles that should not be larger than another one is so by less than one. -/
theorem floor_mixed_le (ha : a < 256) (hb : b < 256) (hi : i < n) (hj : j < n)
    (hle : mixture a b i n ≤ mixture a b j n) : ⌊mixed a b i n⌋ ≤ ⌊mixed a b j n⌋ + 1 := by
  have hclose := (abs_lt.mp (abs_mixed_sub_lt ha hb hi)).2
  have hclose' := (abs_lt.mp (abs_mixed_sub_lt ha hb hj)).1
  have hle : (mixture a b i n / n : ℚ) ≤ mixture a b j n / n := by
    gcongr
  norm_num at hclose hclose'
  rw [← Int.floor_add_one]
  exact Int.floor_le_floor (by linarith)

theorem mixed_nonneg (a b : ℕ) (h : i < n) : 0 ≤ mixed a b i n := by
  obtain ⟨⟨hr, -⟩, ht, -⟩ := share_mem h
  exact rounded_nonneg (add_nonneg (rounded_nonneg (mul_nonneg (Nat.cast_nonneg b) hr))
    (rounded_nonneg (mul_nonneg (Nat.cast_nonneg a) ht)))

/-- The first mixture is the first number. -/
theorem mixed_zero (ha : a < 256) (b n : ℕ) : mixed a b 0 n = a := by
  have hone : rounded 1 = 1 := by exact_mod_cast rounded_natCast (n := 1) (by decide)
  have hself : rounded (a : ℚ) = a := rounded_natCast (ha.trans (by decide))
  rw [mixed, Nat.cast_zero, zero_div, rounded_zero, mul_zero, sub_zero, rounded_zero, zero_add,
    hone, mul_one, hself, hself]

end Mixed

end Number

/-! ## Channels -/

open Number (mixed mixture drift IsDouble rounded)

namespace Channel

variable {a b i j n v : ℕ}

/-- **What a channel is** at step `i` of `n` from `a` to `b`. -/
structure IsStep (a b i n v : ℕ) : Prop where
  /-- It is the whole part of the exact mixture but for a drift. -/
  value : (v : ℤ) = (mixture a b i n / n : ℕ) + drift a b i n
  /-- The drift goes down only where the mixture is less than `2 ^ (-43)` above a whole number. -/
  down : drift a b i n = -1 → mixture a b i n % n * 2 ^ 43 < n
  /-- It goes up only where the mixture is less than `2 ^ (-43)` below one. -/
  up : drift a b i n = 1 → (n - mixture a b i n % n) * 2 ^ 43 < n
  /-- Of so many steps only mixtures that are whole numbers drift, and they go down. -/
  drift_eq : n ≤ 2 ^ 43 → drift a b i n =
    if n ∣ mixture a b i n ∧ mixed a b i n < (mixture a b i n / n : ℕ) then -1 else 0
  /-- It leaves the range between its ends by one, below the lower end only. -/
  between : min a b ≤ v + 1 ∧ v ≤ max a b
  /-- A channel that is the same at both ends stays, or it drops by one. -/
  same : a = b → v = a ∨ v + 1 = a
  /-- The first step is where the channel starts. -/
  first : i = 0 → v = a

theorem isStep_of_floor (ha : a < 256) (hb : b < 256) (h : i < n) (hv : (v : ℤ) = ⌊mixed a b i n⌋) :
    IsStep a b i n v := by
  have hmem := Number.floor_mixed_mem ha hb h
  rw [← hv] at hmem
  have hbetween : min a b ≤ v + 1 ∧ v ≤ max a b := by exact_mod_cast hmem
  refine
    { value := hv.trans (Number.floor_mixed ha hb h)
      down := fun hdrift => Number.mod_of_mixed_lt ha hb h ?_
      up := fun hdrift => Number.mod_of_le_mixed ha hb h ?_
      drift_eq := Number.drift_eq ha hb h
      between := hbetween
      same := ?_
      first := ?_ }
  · by_contra hle
    rw [drift, if_neg hle] at hdrift
    split at hdrift <;> cases hdrift
  · by_contra hlt
    rw [drift, if_neg hlt] at hdrift
    split at hdrift <;> cases hdrift
  · rintro rfl
    rw [min_self, max_self] at hbetween
    omega
  · rintro rfl
    rw [Number.mixed_zero ha, Int.floor_natCast] at hv
    exact_mod_cast hv

/-- The double of a mixture. -/
theorem isDouble_mix (start finish : Channel) {x : Float} (h : i < n)
    (hx : IsDouble x (rounded (i / n))) :
    IsDouble (mix start finish x) (mixed start.val finish.val i n) := by
  obtain ⟨⟨hr, hr', -⟩, ht, ht', -⟩ := Number.share_mem h
  obtain ⟨-, hfinish, -⟩ := Number.rounded_mul_mem finish.isLt hr hr'
  obtain ⟨-, hstart, -⟩ := Number.rounded_mul_mem start.isLt ht ht'
  have hfinish' : (finish.val : ℚ) ≤ 255 := by exact_mod_cast Nat.le_of_lt_succ finish.isLt
  have hstart' : (start.val : ℚ) ≤ 255 := by exact_mod_cast Nat.le_of_lt_succ start.isLt
  have hone : IsDouble (1 : Float) 1 := by exact_mod_cast Number.isDouble_ofNat (n := 1) (by decide)
  have hrest : IsDouble (1 - x) (rounded (1 - rounded (i / n))) := hone.sub hx hr' (by norm_num)
  have hlast : IsDouble (Float.ofNat finish.val * x) (rounded (finish.val * rounded (i / n))) :=
    (Number.isDouble_ofNat (finish.isLt.trans (by decide))).mul hx
      ((mul_le_of_le_one_right (Nat.cast_nonneg _) hr').trans_lt (by linarith))
  have hfirst : IsDouble (Float.ofNat start.val * (1 - x))
      (rounded (start.val * rounded (1 - rounded (i / n)))) :=
    (Number.isDouble_ofNat (start.isLt.trans (by decide))).mul hrest
      ((mul_le_of_le_one_right (Nat.cast_nonneg _) ht').trans_lt (by linarith))
  exact hlast.add hfirst (by linarith)

/-- The whole part of a mixture is a channel. -/
theorem val_clamp_floor_mixed (start finish : Channel) (h : i < n) :
    ((clamp ⌊mixed start.val finish.val i n⌋).val : ℤ) = ⌊mixed start.val finish.val i n⌋ := by
  have hnonneg : 0 ≤ ⌊mixed start.val finish.val i n⌋ :=
    Int.floor_nonneg.mpr (Number.mixed_nonneg _ _ h)
  have hle := (Number.floor_mixed_mem start.isLt finish.isLt h).2
  have hstart := start.isLt
  have hfinish := finish.isLt
  rw [clamp_val]
  omega

end Channel

/-! ## Colours -/

namespace Color

variable {i j n : ℕ}

/-- The colour of a step, channel by channel. -/
theorem step_eq_ok (start finish : Color) (h : i < n) :
    step start finish i n = .ok (ofInts ⌊mixed start.red.val finish.red.val i n⌋
      ⌊mixed start.green.val finish.green.val i n⌋ ⌊mixed start.blue.val finish.blue.val i n⌋) := by
  obtain ⟨x, hquotient, hx⟩ := Number.quotient_natCast (n := i) (Nat.zero_lt_of_lt h) (by omega)
  rw [step, hquotient]
  change mix start finish x = _
  rw [mix, (Channel.isDouble_mix start.red finish.red h hx).wholePart,
    (Channel.isDouble_mix start.green finish.green h hx).wholePart,
    (Channel.isDouble_mix start.blue finish.blue h hx).wholePart]
  rfl

/-- A channel of the colour of a step. -/
theorem val_step (start finish c : Color) (h : i < n) (hc : step start finish i n = .ok c)
    {channel : Color → Channel} (hchannel : channel ∈ [Color.red, Color.green, Color.blue]) :
    ((channel c).val : ℤ) = ⌊mixed (channel start).val (channel finish).val i n⌋ := by
  rw [step_eq_ok start finish h] at hc
  obtain rfl := Except.ok.inj hc
  fin_cases hchannel <;> exact Channel.val_clamp_floor_mixed _ _ h

/-- **The colour of step `i` of `n`.**  There always is one.  Each channel is the whole part of the
exact mixture or drifts from it by one: of up to `2 ^ 43` steps only where the mixture is a whole
number, and then down.  Towards a larger channel no later one is smaller by more than one. -/
theorem step_of_lt (start finish : Color) (h : i < n) :
    ∃ c, step start finish i n = .ok c ∧
      ∀ channel ∈ [Color.red, Color.green, Color.blue],
        Channel.IsStep (channel start).val (channel finish).val i n (channel c).val ∧
        ∀ j d, i ≤ j → j < n → step start finish j n = .ok d →
          (channel start ≤ channel finish → (channel c).val ≤ (channel d).val + 1) ∧
          (channel finish ≤ channel start → (channel d).val ≤ (channel c).val + 1) := by
  refine ⟨_, step_eq_ok start finish h, fun channel hchannel => ?_⟩
  have hc := val_step start finish _ h (step_eq_ok start finish h) hchannel
  refine ⟨Channel.isStep_of_floor (Fin.isLt _) (Fin.isLt _) h hc, fun j d hij hj hstep => ?_⟩
  have hd := val_step start finish d hj hstep hchannel
  have hle := fun hle => Number.floor_mixed_le (channel start).isLt (channel finish).isLt h hj hle
  have hge := fun hle => Number.floor_mixed_le (channel start).isLt (channel finish).isLt hj h hle
  rw [← hc, ← hd] at hle hge
  obtain ⟨hup, hdown⟩ := Number.mixture_le_mixture
    (a := (channel start).val) (b := (channel finish).val) hij hj
  exact ⟨fun h => by exact_mod_cast hle (hup h), fun h => by exact_mod_cast hge (hdown h)⟩

/-- A red that is the same at both ends drifts at the first of a hundred steps. -/
theorem step_of_lt_evenRed :
    ∃ c, 1 < 100 ∧ step ⟨3, 0, 0⟩ ⟨3, 255, 0⟩ 1 100 = .ok c ∧ c.red.val = 2 := by
  obtain ⟨c, hc, hsteps⟩ := step_of_lt ⟨3, 0, 0⟩ ⟨3, 255, 0⟩ (i := 1) (n := 100) (by decide)
  refine ⟨c, by decide, hc, ?_⟩
  have hvalue := (hsteps Color.red (by simp)).1.value
  have hexact : ((mixture 3 3 1 100 / 100 : ℕ) : ℤ) + drift 3 3 1 100 = 2 := by decide +kernel
  exact_mod_cast hvalue.trans hexact

end Color

end Stencil
