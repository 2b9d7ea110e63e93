import Stencil.Proofs.Drawing.Painting

/-!
# Proofs/Drawing/Ground — the ground is always painted

The numbers of a band of a gradient are not too large for what is computed with them, and every step
of a gradient has a colour, so the ground of a canvas of 32 bits is painted without an error
(`exists_after_paintGround`).  It leaves one mark for a plain canvas and one for each step of a
gradient.
-/

namespace Stencil

/-! ## Colours -/

/-- Every step of a gradient is a share of one, and so is what is left. -/
theorem Direction.exists_quotient (d : Direction) {i : Nat} (h : i < d.steps) :
    ∃ ratio, Number.quotient i d.steps = .ok ratio ∧ Number.IsBelow 1 ratio ∧
      Number.IsBelow 1 (1 - ratio) := by
  have hall : ∀ i < d.steps, (match Number.quotient i d.steps with
      | .ok ratio => decide (Number.IsBelow 1 ratio) && decide (Number.IsBelow 1 (1 - ratio))
      | .error _ => false) = true := by
    cases d <;> decide +kernel
  have hi := hall i h
  split at hi
  next ratio hratio =>
    rw [Bool.and_eq_true, decide_eq_true_eq, decide_eq_true_eq] at hi
    exact ⟨ratio, hratio, hi⟩
  next => cases hi

theorem Channel.exists_wholePart_mix (start finish : Channel) {ratio : Float}
    (h : Number.IsBelow 1 ratio) (h' : Number.IsBelow 1 (1 - ratio)) :
    ∃ n, Number.wholePart (mix start finish ratio) = .ok n := by
  have hfinish := Number.isBelow_ofNat (a := 8) finish.isLt (by decide)
  have hstart := Number.isBelow_ofNat (a := 8) start.isLt (by decide)
  have hsum := (hfinish.mul h (by decide) (by decide)).add (hstart.mul h' (by decide) (by decide))
    (by decide) (by decide)
  obtain ⟨n, hn, -⟩ := Number.IsBelow.exists_wholePart (k := 15) hsum
  exact ⟨n, hn⟩

/-- **Every step of a gradient has a colour.** -/
theorem Color.exists_step (start finish : Color) (d : Direction) {i : Nat} (h : i < d.steps) :
    ∃ color, step start finish i d.steps = .ok color := by
  obtain ⟨ratio, hratio, hbelow, hbelow'⟩ := d.exists_quotient h
  obtain ⟨red, hred⟩ := Channel.exists_wholePart_mix start.red finish.red hbelow hbelow'
  obtain ⟨green, hgreen⟩ := Channel.exists_wholePart_mix start.green finish.green hbelow hbelow'
  obtain ⟨blue, hblue⟩ := Channel.exists_wholePart_mix start.blue finish.blue hbelow hbelow'
  refine ⟨ofInts red green blue, ?_⟩
  rw [step, hratio]
  change mix start finish ratio = _
  rw [mix, hred, hgreen, hblue]
  rfl

/-! ## Bands -/

namespace Canvas

variable {c : Canvas}

theorem ring_eq {vertices : List (Int × Int)}
    (h : ∀ p ∈ vertices, Number.IsWord p.1 ∧ Number.IsWord p.2) :
    ring vertices = .ok (vertices.map fun p => ⟨p.1, p.2⟩) := by
  rw [ring, mapM_eq_ok_iff, List.forall₂_map_right_iff, List.forall₂_same]
  rintro ⟨x, y⟩ hp
  have hx : Number.word x = .ok x := (h _ hp).1.word
  have hy : Number.word y = .ok y := (h _ hp).2.word
  simp only [hx, hy]
  rfl

/-- A share of a size, in percent. -/
theorem natAbs_share {size : Nat} (hsize : (size : Int) ≤ Record.maxInteger) (percent : Int)
    (hpercent : percent.natAbs ≤ 2 ^ 8) : (((size : Int) * percent).tdiv 100).natAbs ≤ 2 ^ 39 := by
  rw [Record.maxInteger] at hsize
  have hprod : ((size : Int) * percent).natAbs ≤ 2 ^ 31 * 2 ^ 8 := by
    rw [Int.natAbs_mul, Int.natAbs_natCast]
    exact Nat.mul_le_mul (by omega) hpercent
  rw [Int.natAbs_tdiv]
  exact Nat.le_trans (Nat.div_le_self _ _) hprod

/-- The diagonal of a canvas of 32 bits has few more. -/
theorem exists_diagonal (h : c.IsWritable) :
    ∃ n, c.diagonal = .ok n ∧ n.natAbs ≤ 2 ^ 34 := by
  obtain ⟨hwidth, hheight⟩ := h
  rw [Record.maxInteger] at hwidth hheight
  have hsquare : c.width * c.width + c.height * c.height < 2 ^ 63 := by
    have hle : ∀ {n : Nat}, (n : Int) ≤ 2147483647 → n * n ≤ 2147483647 * 2147483647 :=
      fun hn => Nat.mul_le_mul (by omega) (by omega)
    have := hle hwidth
    have := hle hheight
    omega
  obtain ⟨hdouble, hbelow⟩ := Number.double_eq_ok (Int.natCast_nonneg _) hsquare (by decide)
  obtain ⟨n, hn, hlt⟩ := Number.IsBelow.exists_wholePart (k := 34)
    (hbelow.sqrt (k := 33) (by decide) (by decide) (by decide))
  refine ⟨n, ?_, Nat.le_of_lt hlt⟩
  rw [diagonal, ← Int.natCast_mul, ← Int.natCast_mul, ← Int.natCast_add, hdouble]
  exact hn

/-- A diagonal band. -/
theorem exists_slanted (h : c.IsWritable) {share : Int} (hshare : share.natAbs ≤ 2 ^ 8)
    {degrees : Float} (hangle : (degrees * Outline.radian).isInf = false) :
    ∃ o, c.slanted share degrees = .ok o ∧ o.length = 4 := by
  obtain ⟨length, hlength, hle⟩ := exists_diagonal h
  have htop := natAbs_share h.2 share hshare
  have hheight := h.2
  rw [Record.maxInteger] at hheight
  have hslanted : c.slanted share degrees =
      (ring [(0, ((c.height : Int) * share).tdiv 100),
        (length, ((c.height : Int) * share).tdiv 100), (length, 2 * (c.height : Int)),
        (0, 2 * (c.height : Int))]).bind fun o =>
          o.rotate (length / 2) (((c.height : Int) * share).tdiv 100 + (c.height : Int) / 2)
            degrees := by
    rw [slanted, hlength]
    rfl
  generalize ((c.height : Int) * share).tdiv 100 = top at htop hslanted
  obtain ⟨o, ho, -⟩ := Outline.exists_rotate
    [⟨0, top⟩, ⟨length, top⟩, ⟨length, 2 * (c.height : Int)⟩, ⟨0, 2 * (c.height : Int)⟩]
    (show Number.IsWord (length / 2) by simp only [Number.IsWord]; omega)
    (show Number.IsWord (top + (c.height : Int) / 2) by simp only [Number.IsWord]; omega) hangle
  refine ⟨o, ?_, Outline.length_rotate ho⟩
  rw [hslanted, ring_eq ?_]
  · exact ho
  · simp only [List.forall_mem_cons, List.not_mem_nil, IsEmpty.forall_iff, implies_true, and_true,
      Number.IsWord]
    omega

/-- **Every band of a gradient has an outline** of four vertices. -/
theorem exists_band (h : c.IsWritable) {i : Nat} (hi : i < c.direction.steps) :
    ∃ o, c.band i = .ok o ∧ o.length = 4 := by
  have hsteps : c.direction.steps ≤ 150 := by cases c.direction <;> decide
  have hwidth := h.1
  have hheight := h.2
  have hleft := natAbs_share hwidth ((i : Int) - 1) (by omega)
  have htop := natAbs_share hheight ((i : Int) - 1) (by omega)
  rw [Record.maxInteger] at hwidth hheight
  rw [band]
  simp only
  split
  case h_1 =>
    refine ⟨_, ring_eq ?_, rfl⟩
    simp only [List.forall_mem_cons, List.not_mem_nil, IsEmpty.forall_iff, implies_true,
      and_true, Number.IsWord]
    omega
  case h_2 =>
    refine ⟨_, ring_eq ?_, rfl⟩
    simp only [List.forall_mem_cons, List.not_mem_nil, IsEmpty.forall_iff, implies_true,
      and_true, Number.IsWord]
    omega
  case h_3 => exact exists_slanted h (by omega) (by decide +kernel)
  case h_4 => exact exists_slanted h (by omega) (by decide +kernel)

/-- The outline and the colour of every band. -/
theorem exists_coloredBand (h : c.IsWritable) (start finish : Color) {i : Nat}
    (hi : i < c.direction.steps) :
    ∃ color o, c.coloredBand start finish i = .ok (color, o) ∧
      Color.step start finish i c.direction.steps = .ok color ∧ c.band i = .ok o ∧
      o.length = 4 := by
  obtain ⟨o, ho, hlength⟩ := exists_band h hi
  obtain ⟨color, hcolor⟩ := Color.exists_step start finish c.direction hi
  refine ⟨color, o, ?_, hcolor, ho, hlength⟩
  rw [coloredBand, ho]
  simp only [hcolor]
  rfl

end Canvas

namespace Drawing

/-! ## Painting the ground -/

/-- The mark of band `i` of a gradient. -/
def IsBandMark (c : Canvas) (start finish : Color) (i : Nat) (mark : Mark) : Prop :=
  ∃ color o, Color.step start finish i c.direction.steps = .ok color ∧ c.band i = .ok o ∧
    o.length = 4 ∧ mark = .polygon .filled color o

/-- **The marks of a ground**: one for a plain canvas, and for a gradient one for each of its
steps. -/
def IsGround (c : Canvas) (marks : List Mark) : Prop :=
  match c.ground with
  | .solid color => marks = [.ground color]
  | .gradient start finish _ _ =>
    List.Forall₂ (IsBandMark c start finish) (List.range c.direction.steps) marks

variable {c : Canvas} {e : Easel Surface.Recording}

theorem IsGround.length_eq {marks : List Mark} (h : IsGround c marks) :
    marks.length = if c.isGradient then c.direction.steps else 1 := by
  unfold IsGround at h
  rw [Canvas.isGradient, Canvas.start?]
  cases hground : c.ground with
  | solid color =>
    rw [hground] at h
    exact congrArg List.length h
  | gradient start finish _ _ =>
    rw [hground] at h
    exact h.length_eq.symm.trans List.length_range

theorem exists_after_paintBands (h : c.IsWritable) (start finish : Color) {is : List Nat}
    (his : ∀ i ∈ is, i < c.direction.steps) :
    ∃ marks color, after (paintBands c start finish (is.map Int.ofNat)) e =
      (.ok (), (e.dip color).add marks []) ∧
        List.Forall₂ (IsBandMark c start finish) is marks := by
  induction is generalizing e with
  | nil => exact ⟨[], e.surface.color, (congrArg _ add_nil).symm, .nil⟩
  | cons i is ih =>
    obtain ⟨hi, his⟩ := List.forall_mem_cons.mp his
    obtain ⟨color, o, hband, hstep, ho, hlength⟩ := Canvas.exists_coloredBand h start finish hi
    have hne : o ≠ [] := List.ne_nil_of_length_eq_add_one hlength
    obtain ⟨marks, last, hrest, hmarks⟩ :=
      @ih ((e.dip color).add [.polygon .filled color o] []) his
    refine ⟨.polygon .filled color o :: marks, last, ?_,
      .cons ⟨color, o, hstep, ho, hlength, rfl⟩ hmarks⟩
    rw [List.map_cons, paintBands]
    refine (after_bind_of_ok (after_compute hband e)).trans ?_
    simp only
    rw [after_bind_of_ok (after_setColor color e), after_bind_of_ok (after_putDown .filled hne _),
      color_dip, hrest, dip_add, dip_dip, add_add]
    rfl

/-- **The ground of every canvas of 32 bits is painted.** -/
theorem exists_after_paintGround (h : c.IsWritable) (e : Easel Surface.Recording) :
    ∃ marks color, after (paintGround c) e = (.ok (), (e.dip color).add marks []) ∧
      IsGround c marks := by
  unfold paintGround IsGround
  cases c.ground with
  | solid color => exact ⟨[.ground color], e.surface.color, after_setGround color e, rfl⟩
  | gradient start finish _ _ =>
    exact exists_after_paintBands h start finish fun i hi => List.mem_range.mp hi

end Drawing

end Stencil
