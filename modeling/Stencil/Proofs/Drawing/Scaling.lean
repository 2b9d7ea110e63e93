import Stencil.Proofs.Image.Layers
import Stencil.Proofs.Number.Double

/-!
# Proofs/Drawing/Scaling — the size of a shape in whole pixels

    a · p / 100  ──whole, and p / 100 is rounded down──▸  one pixel less
                 ──otherwise──────────────────────────▸  ⌊a · p / 100⌋

A shape is scaled by the double nearest to a hundredth of the percentage.  For coordinates in the
frame that double is near enough for every fraction (`floor_rounded_mul`), except where the product
should be a whole number and the double is too small: there a coordinate may fall short of it by one
pixel (`FallsShort`).  `scaled_of_isAt` says so of any shape with whole coordinates, and the
built-in shapes are among them (`isAt_of_mem_builtins`).
-/

namespace Stencil

/-! ## Coordinates -/

namespace Number

/-- **A coordinate falls short**: `a` at `p` percent should be a whole number, and the double
nearest to `p / 100` is so much smaller that the product is nearer to a double below that number. -/
def FallsShort (a p : ℕ) : Prop :=
  100 ∣ a * p ∧
    (2 : ℚ) ^ ((Nat.clog 2 (a * p / 100) : ℤ) - 54) < a * (p / 100 - rounded (p / 100))

instance (a p : ℕ) : Decidable (FallsShort a p) :=
  inferInstanceAs (Decidable (_ ∧ _))

/-- The position that a coordinate is scaled to. -/
def landing (a p : ℕ) : ℤ :=
  (a * p / 100 : ℕ) - if FallsShort a p then 1 else 0

section Landing

variable {a p n : ℕ} {f x : ℚ}

/-- The factor of a size in percent has an error below half of `2 ^ (-28)`. -/
theorem abs_rounded_div_hundred_sub_le (hp : p < 2 ^ 31) :
    |rounded (p / 100) - p / 100| ≤ 1 / 2 ^ 29 := by
  have hlt : (p : ℚ) < 2 ^ 31 := by exact_mod_cast hp
  have hle := abs_rounded_sub_le (x := p / 100) (k := 25) (by positivity)
    (by rw [div_lt_iff₀ (by norm_num)]; norm_num at hlt ⊢; linarith) (by decide)
  norm_num at hle ⊢
  exact hle

/-- A product is as far from the exact one as its factor, times the coordinate. -/
theorem abs_mul_sub_le (ha : a ≤ 100) (hf : |f - p / 100| ≤ 1 / 2 ^ 29) :
    |a * f - (a * p : ℕ) / 100| ≤ 1 / 2 ^ 22 := by
  have hle : (a : ℚ) ≤ 100 := by exact_mod_cast ha
  calc |a * f - (a * p : ℕ) / 100| = |a * (f - p / 100)| := by
        push_cast
        ring_nf
    _ = a * |f - p / 100| := by rw [abs_mul, Nat.abs_cast]
    _ ≤ 100 * (1 / 2 ^ 29) := mul_le_mul hle hf (abs_nonneg _) (by norm_num)
    _ ≤ 1 / 2 ^ 22 := by norm_num

/-- Rounding does not reach the next whole number from afar. -/
theorem floor_rounded_of_le (hn : n < 2 ^ 31) (hle : n ≤ x) (hlt : x < n + 1 - 1 / 2 ^ 22) :
    ⌊rounded x⌋ = n := by
  have hbound : (n : ℚ) + 1 ≤ 2 ^ 31 := by exact_mod_cast hn
  have hclose := abs_le.mp (abs_rounded_sub_le (k := 32) ((Nat.cast_nonneg n).trans hle)
    (by norm_num at hbound hlt ⊢; linarith) (by decide))
  rw [Int.floor_eq_iff, Int.cast_natCast]
  refine ⟨natCast_le_rounded (by norm_num at hbound hlt ⊢; linarith) hle, ?_⟩
  norm_num at hclose hlt ⊢
  linarith

/-- Next to a whole number the last place decides. -/
theorem floor_rounded_of_near (hn : n < 2 ^ 31) (hx : 0 ≤ x) (hnear : |x - n| ≤ 1 / 2 ^ 22) :
    ⌊rounded x⌋ = n - if (2 : ℚ) ^ ((Nat.clog 2 n : ℤ) - 54) < n - x then 1 else 0 := by
  obtain ⟨hlow, hhigh⟩ := abs_le.mp hnear
  rcases le_or_gt (n : ℚ) x with hle | hlt
  · rw [floor_rounded_of_le hn hle (by norm_num at hhigh ⊢; linarith),
      if_neg ((sub_nonpos.mpr hle).trans_lt (two_zpow_pos _)).not_gt, sub_zero]
  have hpos : 0 < n := by exact_mod_cast hx.trans_lt hlt
  have hsmall : x < 2 ^ 53 := hlt.trans (by exact_mod_cast hn.trans (by decide))
  have hiff := rounded_lt_natCast_iff hpos (hn.trans (by decide)) hlt.le
    (by norm_num at hlow ⊢; linarith)
  rw [Int.floor_eq_iff]
  split
  next hshort =>
    have hpred : ((n - 1 : ℕ) : ℚ) = n - 1 := Nat.cast_pred hpos
    have hge := natCast_le_rounded (n := n - 1) hsmall (by rw [hpred]; norm_num at hlow; linarith)
    rw [hpred] at hge
    push_cast
    exact ⟨hge, by linarith [hiff.mpr hshort]⟩
  next hexact =>
    push_cast
    exact ⟨by linarith [not_lt.mp (hiff.not.mpr hexact)],
      by linarith [rounded_le_natCast hsmall hlt.le]⟩

/-- **Where the product of a coordinate ends up.** -/
theorem floor_rounded_mul (ha : a ≤ 100) (hp : p < 2 ^ 31) :
    ⌊rounded (a * rounded (p / 100))⌋ = landing a p := by
  have hnear := abs_mul_sub_le ha (abs_rounded_div_hundred_sub_le hp)
  have hnonneg : 0 ≤ a * rounded (p / 100 : ℚ) :=
    mul_nonneg (Nat.cast_nonneg a) (rounded_nonneg (by positivity))
  have hle : a * p ≤ 100 * p := Nat.mul_le_mul_right p ha
  have hdiv : ((a * p : ℕ) : ℚ) / 100 = (a * p / 100 : ℕ) + (a * p % 100 : ℕ) / 100 :=
    natCast_div_eq (a * p) (d := 100) (by decide)
  rw [landing]
  by_cases hmod : a * p % 100 = 0
  · rw [hdiv, hmod, Nat.cast_zero, zero_div, add_zero] at hnear
    rw [floor_rounded_of_near (by omega) hnonneg hnear]
    have hshort : FallsShort a p ↔ (2 : ℚ) ^ ((Nat.clog 2 (a * p / 100) : ℤ) - 54) <
        (a * p / 100 : ℕ) - a * rounded (p / 100 : ℚ) := by
      rw [FallsShort, and_iff_right (Nat.dvd_of_mod_eq_zero hmod), mul_sub, ← mul_div_assoc,
        ← Nat.cast_mul, hdiv, hmod, Nat.cast_zero, zero_div, add_zero]
    simp only [hshort]
  · have hlow : (1 : ℚ) ≤ (a * p % 100 : ℕ) := by exact_mod_cast Nat.pos_of_ne_zero hmod
    have hhigh : ((a * p % 100 : ℕ) : ℚ) ≤ 99 := by exact_mod_cast (by omega : a * p % 100 ≤ 99)
    obtain ⟨hbelow, habove⟩ := abs_le.mp hnear
    rw [hdiv] at hbelow habove
    rw [if_neg fun h => hmod (Nat.mod_eq_zero_of_dvd h.1), sub_zero]
    refine floor_rounded_of_le (by omega) ?_ ?_
    · norm_num at hbelow ⊢
      linarith
    · norm_num at habove ⊢
      linarith

theorem landing_nonneg (ha : a ≤ 100) (hp : p < 2 ^ 31) : 0 ≤ landing a p := by
  rw [← floor_rounded_mul ha hp, Int.floor_nonneg]
  exact rounded_nonneg (mul_nonneg (Nat.cast_nonneg a) (rounded_nonneg (by positivity)))

theorem landing_le (ha : a ≤ 100) : landing a p ≤ p := by
  have hle : a * p / 100 ≤ p := Nat.div_le_of_le_mul (Nat.mul_le_mul_right p ha)
  rw [landing]
  split <;> omega

theorem landing_zero (p : ℕ) : landing 0 p = 0 := by
  have hexact : ¬FallsShort 0 p := fun h => by
    have hlt := h.2
    rw [Nat.cast_zero, zero_mul (p / 100 - rounded (p / 100) : ℚ)] at hlt
    exact hlt.not_gt (two_zpow_pos _)
  rw [landing, if_neg hexact, zero_mul, Nat.zero_div, Nat.cast_zero, sub_zero]

/-- **The position of a whole coordinate**, which is no farther than the pixels go. -/
theorem toPixel_mul {x : Float} (hx : IsDouble x a) (ha : a ≤ 100) (hp : p < 2 ^ 31) :
    toPixel (x * (Float.ofInt p / 100)) = landing a p := by
  have hpq : (p : ℚ) ≤ 2147483648 := by exact_mod_cast hp.le
  have haq : (a : ℚ) ≤ 100 := by exact_mod_cast ha
  have hpercent : IsDouble (Float.ofInt p) p := isDouble_ofNat (hp.trans (by decide))
  have hhundred : IsDouble (100 : Float) 100 := isDouble_ofNat (n := 100) (by decide)
  have hfactor : IsDouble (Float.ofInt p / 100) (rounded (p / 100)) :=
    hpercent.div hhundred (by norm_num) (by norm_num; linarith)
  have hsmall : a * rounded (p / 100 : ℚ) < 2 ^ 64 := by
    have hclose := (abs_le.mp (abs_rounded_div_hundred_sub_le hp)).2
    have hle : rounded (p / 100 : ℚ) ≤ 2 ^ 31 := by norm_num at hclose ⊢; linarith
    calc a * rounded (p / 100 : ℚ) ≤ 100 * 2 ^ 31 :=
          mul_le_mul haq hle (rounded_nonneg (by positivity)) (by norm_num)
      _ < 2 ^ 64 := by norm_num
  have hlow := landing_nonneg ha hp
  have hhigh := landing_le (p := p) ha
  rw [(hx.mul hfactor hsmall).toPixel, floor_rounded_mul ha hp]
  refine saturate_eq_self ?_
  rw [leastPixel, greatestPixel]
  omega

end Landing

end Number

/-! ## Shapes -/

/-- **A point with whole coordinates** in the frame. -/
def Point.IsAt (q : Point) (a b : ℕ) : Prop :=
  (a ≤ 100 ∧ (q.x == Float.ofNat a) = true) ∧ b ≤ 100 ∧ (q.y == Float.ofNat b) = true

instance (q : Point) (a b : ℕ) : Decidable (q.IsAt a b) :=
  inferInstanceAs (Decidable ((_ ∧ _) ∧ _ ∧ _))

namespace Shape

/-- **A shape whose vertices have these whole coordinates**, in order. -/
def IsAt (s : Shape) (corners : List (ℕ × ℕ)) : Prop :=
  List.Forall₂ (fun q c => q.IsAt c.1 c.2) s.points corners

variable {s : Shape} {corners : List (ℕ × ℕ)} {p : ℕ}

open Number (landing FallsShort)

theorem isAt_square : square.IsAt [(0, 0), (100, 0), (100, 100), (0, 100)] := by
  rw [IsAt]
  decide +kernel

/-- The whole parts of the coordinates of a point. -/
def corner (q : Point) : ℕ × ℕ :=
  ((Number.toPixel q.x).toNat, (Number.toPixel q.y).toNat)

/-- The built-in shapes have whole coordinates. -/
theorem isAt_of_mem_builtins (h : s ∈ builtins) : s.IsAt (s.points.map corner) := by
  revert s
  simp only [IsAt, List.forall₂_map_right_iff, List.forall₂_same]
  decide +kernel

/-- Every vertex is scaled by itself. -/
theorem scaled_eq_ok (h : s.IsAt corners) (hp : p < 2 ^ 31) :
    s.scaled p = .ok (corners.map fun c => ⟨landing c.1 p, landing c.2 p⟩) := by
  have hdouble : Number.double p = .ok (Float.ofInt p) :=
    (Number.double_eq_ok (Int.natCast_nonneg p) hp (by decide)).1
  rw [scaled, hdouble]
  refine congrArg Except.ok ?_
  dsimp only
  rw [IsAt] at h
  generalize s.points = points at h ⊢
  induction h with
  | nil => rfl
  | @cons q c qs cs hq _ ih =>
    obtain ⟨⟨ha, hx⟩, hb, hy⟩ := hq
    have hx := Number.IsDouble.of_beq hx (Number.isDouble_ofNat (ha.trans_lt (by decide)))
    have hy := Number.IsDouble.of_beq hy (Number.isDouble_ofNat (hb.trans_lt (by decide)))
    rw [List.map_cons, List.map_cons, ih, Number.toPixel_mul hx ha hp, Number.toPixel_mul hy hb hp]

/-- **The size of a shape with whole coordinates**, at any size of 32 bits.  A coordinate `a` is
scaled to the whole part of `a · p / 100`, or to one pixel less if it falls short.  The built-in
shapes are such shapes, and a square at `p` percent has the side `p`, or `p - 1`. -/
theorem scaled_of_isAt (h : s.IsAt corners) (hp : p < 2 ^ 31) :
    s.scaled p = .ok (corners.map fun c =>
      ⟨(c.1 * p / 100 : ℕ) - if FallsShort c.1 p then 1 else 0,
        (c.2 * p / 100 : ℕ) - if FallsShort c.2 p then 1 else 0⟩) ∧
    (∀ t ∈ builtins, ∃ corners, t.IsAt corners) ∧
    square.scaled p = .ok
      (if FallsShort 100 p then Outline.box 0 0 (p - 1) (p - 1) else Outline.box 0 0 p p) := by
  refine ⟨scaled_eq_ok h hp, fun t ht => ⟨_, isAt_of_mem_builtins ht⟩, ?_⟩
  have hside : landing 100 p = if FallsShort 100 p then (p - 1 : ℤ) else p := by
    rw [landing, Nat.mul_div_cancel_left p (by decide)]
    split <;> simp
  rw [scaled_eq_ok isAt_square hp]
  simp only [List.map_cons, List.map_nil, hside, Number.landing_zero, Outline.box]
  split <;> rfl

/-- At 29 percent the square falls short. -/
theorem scaled_of_isAt_square :
    square.IsAt [(0, 0), (100, 0), (100, 100), (0, 100)] ∧ FallsShort 100 29 ∧
      square.scaled 29 = .ok (Outline.box 0 0 28 28) := by
  have hshort : FallsShort 100 29 := by decide +kernel
  refine ⟨isAt_square, hshort, ?_⟩
  have hsquare := (scaled_of_isAt isAt_square (p := 29) (by decide)).2.2
  rwa [if_pos hshort] at hsquare

end Shape

end Stencil
