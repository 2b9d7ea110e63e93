import Stencil.Proofs.Drawing.Replay
import Stencil.Proofs.Image.Layers

/-!
# Proofs/Drawing/Gradient — which band of a gradient a pixel shows

    band 0 ├──────────────────┤
    band 1    ├──────────────────┤
    band 2       ├──────────────────┤           each band begins one percent farther on
      ⋮
    band 99                   ├──────────────────┤

The bands of a gradient that runs down or to the right are upright rectangles, each as long as the
canvas.  A pixel has the colour of the last band that begins at it or before it, which is a matter
of dividing whole numbers (`bandStart_le_iff`).  Band 1 covers the whole canvas, so that nothing is
left of band 0 (`pixel_paintGround_of_gradient`).
-/

namespace Stencil

open Surface (Recording Raster)

/-! ## Where bands begin -/

/-- The one of two numbers that counts along a gradient that runs down or to the right. -/
def Direction.along (d : Direction) (x y : Nat) : Nat :=
  if d = .right then x else y

/-- Where band `i` of a gradient of some extent begins. -/
def bandStart (extent i : Nat) : Int :=
  ((extent : Int) * ((i : Int) - 1)).tdiv 100

/-- **The last band that begins** so far from the start of a gradient of some extent, or before. -/
def lastBand (extent distance : Nat) : Nat :=
  min 99 (1 + (100 * distance + 99) / extent)

section Bands

variable {extent distance i j : Nat}

theorem bandStart_succ : bandStart extent (j + 1) = (extent * j / 100 : Nat) := by
  rw [bandStart, Int.natCast_succ, Int.add_sub_cancel, ← Int.natCast_mul]
  rfl

/-- Band 0 begins outside the canvas, or where band 1 does. -/
theorem bandStart_zero_nonpos : bandStart extent 0 ≤ 0 := by
  rw [bandStart, Int.natCast_zero, Int.zero_sub, Int.mul_neg, Int.mul_one, Int.neg_tdiv]
  have := Int.tdiv_nonneg (Int.natCast_nonneg extent) (show (0 : Int) ≤ 100 by decide)
  omega

/-- **A band has begun** at some distance when its index is not larger than a quotient. -/
theorem bandStart_le_iff (h : 0 < extent) :
    bandStart extent i ≤ distance ↔ i ≤ 1 + (100 * distance + 99) / extent := by
  cases i with
  | zero =>
    have : bandStart extent 0 ≤ 0 := bandStart_zero_nonpos
    exact ⟨fun _ => Nat.zero_le _, fun _ => by omega⟩
  | succ j =>
    have hquotient : j ≤ (100 * distance + 99) / extent ↔ extent * j ≤ 100 * distance + 99 := by
      rw [Nat.le_div_iff_mul_le h, Nat.mul_comm]
    rw [bandStart_succ, Int.ofNat_le, Nat.add_comm 1, Nat.succ_le_succ_iff, hquotient]
    omega

/-- A band that is not the first one does not end before the canvas does. -/
theorem le_bandStart_add (hi : 1 ≤ i) (h : distance < extent) :
    (distance : Int) ≤ bandStart extent i + extent := by
  obtain ⟨j, rfl⟩ := Nat.exists_eq_add_of_le' hi
  rw [bandStart_succ]
  omega

theorem one_le_lastBand : 1 ≤ lastBand extent distance :=
  Nat.le_min.mpr ⟨by decide, Nat.le_add_right 1 _⟩

theorem lastBand_lt : lastBand extent distance < 100 :=
  Nat.lt_succ_of_le (Nat.min_le_left 99 _)

theorem le_lastBand_iff (h : 0 < extent) (hi : i < 100) :
    i ≤ lastBand extent distance ↔ bandStart extent i ≤ distance := by
  rw [bandStart_le_iff h, lastBand, Nat.le_min]
  exact and_iff_right (Nat.le_of_lt_succ hi)

end Bands

/-! ## What bands cover -/

namespace Canvas

variable {c : Canvas}

/-- There is a raster for none but a canvas of 32 bits. -/
theorem isWritable_of_ofSize {raster : Raster} (h : Raster.ofSize c.size = .ok raster) :
    c.IsWritable := by
  rw [Raster.ofSize] at h
  split at h
  · cases h
  next hsize =>
    change ¬(0x80000000 ≤ c.width ∨ 0x80000000 ≤ c.height) at hsize
    rw [IsWritable, Record.maxInteger]
    omega

theorem natAbs_bandStart {size i : Nat} (h : (size : Int) ≤ Record.maxInteger) (hi : i < 100) :
    (bandStart size i).natAbs ≤ 2 ^ 39 :=
  natAbs_share h _ (by omega)

/-- **The outline of a band** is an upright rectangle. -/
theorem band_of_down (h : c.IsWritable) (hdown : c.direction = .down) {i : Nat} (hi : i < 100) :
    c.band i = .ok (Outline.box 0 (bandStart c.height i) c.width
      (bandStart c.height i + c.height)) := by
  have hstart := natAbs_bandStart h.2 hi
  obtain ⟨hwidth, hheight⟩ := h
  rw [Record.maxInteger] at hwidth hheight
  simp only [band, hdown]
  refine ring_eq ?_
  rw [← bandStart]
  simp only [List.forall_mem_cons, List.not_mem_nil, IsEmpty.forall_iff, implies_true, and_true,
    Number.IsWord]
  omega

theorem band_of_right (h : c.IsWritable) (hright : c.direction = .right) {i : Nat} (hi : i < 100) :
    c.band i = .ok (Outline.box (bandStart c.width i) 0 (bandStart c.width i + c.width)
      c.height) := by
  have hstart := natAbs_bandStart h.1 hi
  obtain ⟨hwidth, hheight⟩ := h
  rw [Record.maxInteger] at hwidth hheight
  simp only [band, hright]
  refine ring_eq ?_
  rw [← bandStart]
  simp only [List.forall_mem_cons, List.not_mem_nil, IsEmpty.forall_iff, implies_true, and_true,
    Number.IsWord]
  omega

/-- **A band covers** the pixels from where it begins to where it ends, both included. -/
theorem exists_band_covers (h : c.IsWritable)
    (hstraight : c.direction = .down ∨ c.direction = .right) {i : Nat} (hi : i < 100) :
    ∃ o, c.band i = .ok o ∧ ∀ x < c.width, ∀ y < c.height,
      (o.covers .filled ⟨x, y⟩ = true ↔
        bandStart (c.direction.along c.width c.height) i ≤ c.direction.along x y ∧
          (c.direction.along x y : Int) ≤ bandStart (c.direction.along c.width c.height) i +
            c.direction.along c.width c.height) := by
  rcases hstraight with hdown | hright
  · refine ⟨_, band_of_down h hdown hi, fun x hx y hy => ?_⟩
    rw [hdown, Outline.covers_box_iff (by omega) (by omega)]
    simp only [Direction.along, reduceCtorEq, if_false]
    omega
  · refine ⟨_, band_of_right h hright hi, fun x hx y hy => ?_⟩
    rw [hright, Outline.covers_box_iff (by omega) (by omega)]
    simp only [Direction.along, if_true]
    omega

theorem along_pos (c : Canvas) : 0 < c.direction.along c.width c.height := by
  rw [Direction.along]
  split
  · exact c.width_pos
  · exact c.height_pos

theorem along_lt (c : Canvas) {x y : Nat} (hx : x < c.width) (hy : y < c.height) :
    c.direction.along x y < c.direction.along c.width c.height := by
  rw [Direction.along, Direction.along]
  split
  · exact hx
  · exact hy

end Canvas

namespace Drawing

variable {c : Canvas} {start finish : Color}

/-- The marks of a gradient's bands, by their indices. -/
theorem exists_bandMark (h : c.IsWritable) (hsteps : c.direction.steps = 100) (start finish : Color)
    (e : Easel Recording) :
    ∃ (mark : Nat → Mark) (color : Color),
      after (paintBands c start finish c.bandIndices) e =
        (.ok (), (e.dip color).add ((List.range 100).map mark) []) ∧
      ∀ i < 100, IsBandMark c start finish i (mark i) := by
  have his : ∀ i ∈ List.range c.direction.steps, i < c.direction.steps :=
    fun i hi => List.mem_range.mp hi
  obtain ⟨marks, color, hafter, hmarks⟩ := exists_after_paintBands (e := e) h start finish his
  rw [hsteps] at hmarks
  have hlength : marks.length = 100 := hmarks.length_eq.symm.trans List.length_range
  refine ⟨fun i => marks.getD i (.ground start), color, ?_, fun i hi => ?_⟩
  · have hlist : (List.range 100).map (fun i => marks.getD i (.ground start)) = marks := by
      refine List.ext_getElem (by simp [hlength]) fun i hi hi' => ?_
      simp [hi']
    rw [hlist]
    exact hafter
  · have hget := hmarks.get (by simpa using hi) (by rw [hlength]; exact hi)
    simpa [hlength, hi] using hget

/-- **The pixels of bands painted one after the other** on any picture. -/
theorem pixel_covered_bands (h : c.IsWritable)
    (hstraight : c.direction = .down ∨ c.direction = .right) {mark : Nat → Mark}
    (hmarks : ∀ i < 100, IsBandMark c start finish i (mark i)) (image : Image) {x y : Nat}
    (hx : x < c.width) (hy : y < c.height) :
    Color.step start finish
      (lastBand (c.direction.along c.width c.height) (c.direction.along x y)) 100 =
        .ok ((image.covered ((List.range 100).map mark)).pixel ⟨x, y⟩) := by
  have hpos := c.along_pos
  have hlt := c.along_lt hx hy
  have hsteps : c.direction.steps = 100 := by rcases hstraight with hd | hd <;> rw [hd] <;> rfl
  -- A band that covers the pixel has begun there, and from band 1 on none has ended.
  have hcovers {i : Nat} (hi : i < 100) : (mark i).covers ⟨x, y⟩ = true ↔
      bandStart (c.direction.along c.width c.height) i ≤ c.direction.along x y ∧
        (c.direction.along x y : Int) ≤ bandStart (c.direction.along c.width c.height) i +
          c.direction.along c.width c.height := by
    obtain ⟨color, o, -, ho, -, hmark⟩ := hmarks i hi
    obtain ⟨p, hp, hiff⟩ := Canvas.exists_band_covers h hstraight hi
    obtain rfl := Except.ok.inj (hp.symm.trans ho)
    rw [hmark]
    exact hiff x hx y hy
  have hlast := (hcovers lastBand_lt).mpr
    ⟨(le_lastBand_iff hpos lastBand_lt).mp (Nat.le_refl _), le_bandStart_add one_le_lastBand hlt⟩
  rcases @Image.pixel_covered_range image ⟨x, y⟩ mark 100 with
    ⟨k, hk, hcover, hlatest, hpixel⟩ | ⟨hnone, -⟩
  · have hkle := (le_lastBand_iff hpos hk).mpr ((hcovers hk).mp hcover).1
    obtain rfl := Nat.le_antisymm hkle (hlatest _ lastBand_lt hlast)
    obtain ⟨color, o, hstep, -, -, hmark⟩ := hmarks _ hk
    rw [hsteps] at hstep
    rw [hpixel, hmark]
    exact hstep
  · rw [hnone _ lastBand_lt] at hlast
    cases hlast

/-- The ground of a canvas on pixels is that of its recording. -/
theorem exists_after_paintGround_raster (r : Raster) (calls : Array Nat) {marks : List Mark}
    {color : Color}
    (h : after (paintGround c) ⟨Recording.blank c.size, calls⟩ =
      (.ok (), (Easel.dip ⟨Recording.blank c.size, calls⟩ color).add marks [])) :
    ∃ painted : Raster, after (paintGround c) ⟨r, calls⟩ = (.ok (), ⟨painted, calls⟩) ∧
      painted.image = r.image.covered marks := by
  obtain ⟨houtcome, ⟨replayed, last, hreplay, hsurface⟩, hcalls, -⟩ :=
    (Raster.lawful.simulation r).lockstep_paintGround c
      ⟨Recording.blank c.size, calls⟩ ⟨r, calls⟩ ⟨r, r.color, rfl, rfl⟩ rfl
  rw [h] at houtcome hreplay hcalls
  have hreplay : Mark.replay r marks = .ok replayed := by
    simpa [Easel.add, Easel.dip, Recording.blank] using hreplay
  have hcalls : (after (paintGround c) ⟨r, calls⟩).2.calls = calls := by
    rw [← hcalls]
    simp [Easel.dip]
  have himage : (Surface.setColor last replayed : Raster).image = r.image.covered marks := by
    rw [← Raster.image_replay hreplay]
    rfl
  refine ⟨_, ?_, himage⟩
  rw [← hsurface]
  exact Prod.ext houtcome.symm (congrArg (Easel.mk _) hcalls)

/-- **Which band of a gradient a pixel shows.**  A canvas with a gradient that runs down or to the
right, for which there is a raster, has its ground painted on every raster of its size.  A pixel has
the colour of the band whose index is `1 + (100 * y + 99) / height`, or that of the last band, if
the gradient runs down, and of the band with the same quotient of its column and the width if it
runs to the right.  Band 1 alone covers every pixel of the canvas, so that nothing is left of band
0. -/
theorem pixel_paintGround_of_gradient {beneath : Option Color} {differ : start ≠ finish}
    (hground : c.ground = .gradient start finish beneath differ)
    (hstraight : c.direction = .down ∨ c.direction = .right) {room : Raster}
    (hroom : Raster.ofSize c.size = .ok room) (r : Raster) (hsize : r.image.size = c.size)
    (calls : Array Nat) :
    ∃ painted : Raster, after (paintGround c) ⟨r, calls⟩ = (.ok (), ⟨painted, calls⟩) ∧
      (∀ x < c.width, ∀ y < c.height, ∃ color,
        painted.image.rows[y]?.bind (fun row => row[x]?) = some color ∧
        (c.direction = .down →
          Color.step start finish (min 99 (1 + (100 * y + 99) / c.height) : Nat) 100 = .ok color) ∧
        (c.direction = .right →
          Color.step start finish (min 99 (1 + (100 * x + 99) / c.width) : Nat) 100 = .ok color)) ∧
      ∃ o, c.band 1 = .ok o ∧ ∀ x < c.width, ∀ y < c.height, o.covers .filled ⟨x, y⟩ = true := by
  have hcanvas := Canvas.isWritable_of_ofSize hroom
  have hsteps : c.direction.steps = 100 := by rcases hstraight with hd | hd <;> rw [hd] <;> rfl
  obtain ⟨mark, color, hafter, hmarks⟩ :=
    exists_bandMark hcanvas hsteps start finish ⟨Recording.blank c.size, calls⟩
  have hbands : (paintGround c : Painting Recording Unit) =
      paintBands c start finish c.bandIndices := by rw [paintGround, hground]
  obtain ⟨painted, hpainted, himage⟩ :=
    exists_after_paintGround_raster r calls ((congrArg (after · _) hbands).trans hafter)
  refine ⟨painted, hpainted, fun x hx y hy => ?_, ?_⟩
  · have hpixel := pixel_covered_bands hcanvas hstraight hmarks r.image hx hy
    rw [himage]
    refine ⟨_, Image.getElem?_rows ?_ ?_, fun hdown => ?_, fun hright => ?_⟩
    · rwa [Image.size_covered, hsize]
    · rwa [Image.size_covered, hsize]
    · rwa [hdown] at hpixel
    · rwa [hright] at hpixel
  · obtain ⟨o, ho, hcovers⟩ := Canvas.exists_band_covers hcanvas hstraight (i := 1) (by decide)
    refine ⟨o, ho, fun x hx y hy => (hcovers x hx y hy).mpr ⟨?_, ?_⟩⟩
    · exact (bandStart_le_iff c.along_pos).mpr (Nat.le_add_right 1 _)
    · exact le_bandStart_add (Nat.le_refl 1) (c.along_lt hx hy)

/-- A canvas of three rows, fewer than there are bands, from black to white. -/
def threeRows : Canvas :=
  { width := 2, height := 3, ground := .gradient Color.black Color.white none (by decide),
    direction := .down, width_pos := by decide, height_pos := by decide }

/-- Its rows show the bands 34, 67 and 99. -/
theorem pixel_paintGround_of_threeRows :
    ∃ painted : Raster,
      Raster.ofSize threeRows.size = .ok (Raster.blank threeRows.size) ∧
      after (paintGround threeRows) ⟨Raster.blank threeRows.size, #[]⟩ =
        (.ok (), ⟨painted, #[]⟩) ∧
      ∀ x < 2, painted.image.rows[0]?.bind (fun row => row[x]?) = some ⟨86, 86, 86⟩ ∧
        painted.image.rows[1]?.bind (fun row => row[x]?) = some ⟨170, 170, 170⟩ ∧
        painted.image.rows[2]?.bind (fun row => row[x]?) = some ⟨252, 252, 252⟩ := by
  have hroom : Raster.ofSize threeRows.size = .ok (Raster.blank threeRows.size) := by decide
  have hsteps : Color.step Color.black Color.white 34 100 = .ok ⟨86, 86, 86⟩ ∧
      Color.step Color.black Color.white 67 100 = .ok ⟨170, 170, 170⟩ ∧
      Color.step Color.black Color.white 99 100 = .ok ⟨252, 252, 252⟩ := by decide +kernel
  obtain ⟨painted, hpainted, hpixels, -⟩ := pixel_paintGround_of_gradient (c := threeRows) rfl
    (.inl rfl) hroom (Raster.blank threeRows.size) rfl #[]
  -- The colours of the three bands are those of three rows.
  have hrow {x y : Nat} (hx : x < 2) (hy : y < 3) {color : Color}
      (hcolor : Color.step Color.black Color.white
        (min 99 (1 + (100 * y + 99) / 3) : Nat) 100 = .ok color) :
      painted.image.rows[y]?.bind (fun row => row[x]?) = some color := by
    obtain ⟨pixel, hpixel, hdown, -⟩ := hpixels x hx y hy
    rw [hpixel, Except.ok.inj ((hdown rfl).symm.trans hcolor)]
  obtain ⟨hfirst, hsecond, hthird⟩ := hsteps
  exact ⟨painted, hroom, hpainted, fun x hx => ⟨hrow hx (by decide) hfirst,
    hrow hx (by decide) hsecond, hrow hx (by decide) hthird⟩⟩

end Drawing

end Stencil
