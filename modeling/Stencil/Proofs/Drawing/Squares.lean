import Stencil.Proofs.Drawing.Replay
import Stencil.Proofs.Drawing.Spread
import Stencil.Proofs.Image.Layers
import Stencil.Proofs.Number.Percent

/-!
# Proofs/Drawing/Squares — squares in rows, painted over one another

    stamp j ──course──▸ start, start + offset, start + 2 · offset, …     ──layers──▸ pixels

A stamp on a fixed place whose copies are not turned puts down a row: its outline, moved on by the
same amount each time (`after_paintStamp_of_isRow`).  For the built-in square the outlines are
upright rectangles.  A script of such stamps therefore colours a pixel as the copy that lies on top
of it, the last one of all copies of all stamps that covers it (`pixel_paint_of_squares`).
-/

namespace Stencil

open Surface (Recording Raster)

/-! ## Rows -/

/-- **A stamp that makes a row**: its place is fixed, and nothing is turned. -/
structure Stamp.IsRow (s : Stamp) : Prop where
  x : s.x.isRandom = false
  y : s.y.isRandom = false
  repeatRotate : s.repeatRotate ≤ 0
  rotate : s.rotate ≤ 1

instance (s : Stamp) : Decidable s.IsRow :=
  decidable_of_iff (s.x.isRandom = false ∧ s.y.isRandom = false ∧ s.repeatRotate ≤ 0 ∧ s.rotate ≤ 1)
    ⟨fun h => ⟨h.1, h.2.1, h.2.2.1, h.2.2.2⟩, fun h => ⟨h.x, h.y, h.repeatRotate, h.rotate⟩⟩

/-- The outline moved as far as copy `k` of a row is. -/
def Outline.copy (o : Outline) (s : Stamp) (k : Nat) : Outline :=
  o.shifted (k * s.offsetX) (k * s.offsetY)

namespace Stamp.IsRow

variable {s : Stamp} {canvas : Canvas} {g : Generator} {b : Nat} {o q : Outline}
  {ps : List Outline} {calls : Array Nat}

theorem hasRandomAxis (h : s.IsRow) : s.hasRandomAxis = false := by
  rw [Stamp.hasRandomAxis, h.x, h.y]
  rfl

/-- The copies of a row ask the generator for nothing. -/
theorem copyBounds (h : s.IsRow) : s.copyBounds canvas = [] := by
  rw [Stamp.copyBounds, Coordinate.bounds, Coordinate.bounds, h.x, h.y]
  rfl

/-- **The marks of a row.** -/
theorem marks_actions (h : s.IsRow)
    (hcourse : Course s b o (s.actions (s.offsets canvas g (s.repeats - 1) calls)) ps q) :
    s.marks (s.actions (s.offsets canvas g (s.repeats - 1) calls)) ps =
      (List.range s.repeats).map fun k => s.mark ((o.shifted s.x.raw s.y.raw).copy s k) := by
  have hcorner : s.corner = ⟨s.x.raw, s.y.raw⟩ := by
    rw [Stamp.corner, h.x]
    rfl
  rw [(Stamp.marks_actions_of_unturned h.repeatRotate hcourse).1,
    if_neg (Int.not_lt.mpr h.rotate), List.append_nil, hcorner, Stamp.polygons, h.hasRandomAxis,
    if_neg Bool.false_ne_true, List.map_map]
  rfl

end Stamp.IsRow

/-! ## Squares -/

namespace Stamp

/-- The side of the built-in square at the size of a stamp. -/
def side (s : Stamp) : Int :=
  Number.toPixel (Float.ofNat 100 * (Float.ofInt s.scale / 100))

/-- **Copy `k` of a square covers a pixel**: it is no farther than the side to the right of its
place and below it. -/
def Covers (s : Stamp) (k : Nat) (p : Vertex) : Prop :=
  (s.x.raw + k * s.offsetX ≤ p.x ∧ p.x ≤ s.x.raw + k * s.offsetX + s.side) ∧
    s.y.raw + k * s.offsetY ≤ p.y ∧ p.y ≤ s.y.raw + k * s.offsetY + s.side

instance (s : Stamp) (k : Nat) (p : Vertex) : Decidable (s.Covers k p) :=
  inferInstanceAs (Decidable (_ ∧ _))

variable {s : Stamp}

/-- The share that a scale of 32 bits stands for. -/
theorem IsNarrow.scale_double (h : s.IsNarrow) :
    Number.double s.scale = .ok (Float.ofInt s.scale) ∧
      Number.IsBelow (35 : Nat) (Float.ofInt s.scale / 100) := by
  have hlt : (s.scale : Int).natAbs < 2 ^ 31 := by
    have := h.scale.2
    rw [Record.maxInteger] at this
    omega
  obtain ⟨hdouble, hbelow⟩ := Number.double_eq_ok (Int.natCast_nonneg _) hlt (by decide)
  exact ⟨hdouble, hbelow.div_hundred (by decide) (by decide)⟩

/-- **The square at the size of a stamp** is the rectangle of its side. -/
theorem IsNarrow.scaled_square (h : s.IsNarrow) :
    Shape.square.scaled s.scale = .ok (Outline.box 0 0 s.side s.side) := by
  obtain ⟨hdouble, hbelow⟩ := h.scale_double
  have hzero := hbelow.toPixel_zero_mul
  rw [Shape.scaled, hdouble]
  change Except.ok
    [Vertex.mk (Number.toPixel (Float.ofNat 0 * _)) (Number.toPixel (Float.ofNat 0 * _)),
      ⟨s.side, Number.toPixel (Float.ofNat 0 * _)⟩, ⟨s.side, s.side⟩,
      ⟨Number.toPixel (Float.ofNat 0 * _), s.side⟩] = _
  rw [hzero]
  rfl

theorem IsNarrow.side_nonneg (h : s.IsNarrow) : 0 ≤ s.side := by
  have hhundred : Number.IsBelow (7 : Nat) (Float.ofNat 100) := by decide +kernel
  have hprod := hhundred.mul h.scale_double.2 (by decide) (by decide)
  exact Number.IsBelow.toPixel_nonneg (k := 43) hprod

/-- The mark of copy `k` of a filled square covers what the copy does. -/
theorem IsNarrow.covers_iff (h : s.IsNarrow) (hfilled : s.filled = true) (k : Nat) (p : Vertex) :
    (s.mark (((Outline.box 0 0 s.side s.side).shifted s.x.raw s.y.raw).copy s k)).covers p = true ↔
      s.Covers k p := by
  have hside := h.side_nonneg
  have hstyle : s.style = .filled := by rw [style, if_pos hfilled]
  rw [mark, Mark.covers, hstyle, Outline.copy, Outline.shifted_box, Outline.shifted_box,
    Outline.covers_box_iff (by omega) (by omega), Covers]
  omega

/-- **Copy `k` of stamp `j` lies on top of a pixel**: it covers the pixel, and of all copies that do
none is made by a later stamp or made later by the same one. -/
structure IsOnTop (stamps : List Stamp) (p : Vertex) (j k : Nat) (s : Stamp) : Prop where
  stamp : stamps[j]? = some s
  copy : k < s.repeats
  covers : s.Covers k p
  latest : ∀ j' k' s', stamps[j']? = some s' → k' < s'.repeats → s'.Covers k' p →
    j' < j ∨ j' = j ∧ k' ≤ k

/-- No copy of any stamp covers a pixel. -/
def IsBare (stamps : List Stamp) (p : Vertex) : Prop :=
  ∀ s ∈ stamps, ∀ k < s.repeats, ¬s.Covers k p

/-- The marks of a stamp that makes a row of squares. -/
def squares (s : Stamp) : List Mark :=
  (List.range s.repeats).map fun k =>
    s.mark (((Outline.box 0 0 s.side s.side).shifted s.x.raw s.y.raw).copy s k)

/-- **One row more**: a pixel has the colour of the row's last copy that covers it, or else the one
it had before. -/
theorem IsNarrow.pixel_covered_squares (h : s.IsNarrow) (hfilled : s.filled = true) (image : Image)
    (p : Vertex) :
    (∃ k < s.repeats, s.Covers k p ∧ (∀ k' < s.repeats, s.Covers k' p → k' ≤ k) ∧
        (image.covered s.squares).pixel p = s.color) ∨
      (∀ k < s.repeats, ¬s.Covers k p) ∧ (image.covered s.squares).pixel p = image.pixel p := by
  rw [squares]
  rcases @Image.pixel_covered_range image p (fun k =>
      s.mark (((Outline.box 0 0 s.side s.side).shifted s.x.raw s.y.raw).copy s k)) s.repeats with
    ⟨k, hk, hcovers, hlatest, hpixel⟩ | ⟨hnone, hpixel⟩
  · refine .inl ⟨k, hk, (h.covers_iff hfilled k p).mp hcovers, fun k' hk' hcovers' => ?_, hpixel⟩
    exact hlatest k' hk' ((h.covers_iff hfilled k' p).mpr hcovers')
  · refine .inr ⟨fun k hk hcovers => ?_, hpixel⟩
    have := (h.covers_iff hfilled k p).mpr hcovers
    rw [hnone k hk] at this
    cases this

/-- **Any number of rows**: a pixel has the colour of the stamp that has a copy on top of it, or
else the one it had before. -/
theorem pixel_covered_flatMap_squares {stamps : List Stamp}
    (h : ∀ s ∈ stamps, s.IsNarrow ∧ s.filled = true) (image : Image) (p : Vertex) :
    (∃ j k s, IsOnTop stamps p j k s ∧
        (image.covered (stamps.flatMap squares)).pixel p = s.color) ∨
      IsBare stamps p ∧ (image.covered (stamps.flatMap squares)).pixel p = image.pixel p := by
  induction stamps using List.reverseRecOn with
  | nil => exact .inr ⟨fun _ hs => absurd hs List.not_mem_nil, rfl⟩
  | append_singleton stamps s ih =>
    have ih := ih fun t ht => h t (List.mem_append_left _ ht)
    obtain ⟨hnarrow, hfilled⟩ := h s (List.mem_append_right _ List.mem_cons_self)
    have hlast : (stamps ++ [s])[stamps.length]? = some s := List.getElem?_concat_length
    -- A stamp of the longer list is the last one or one of the shorter list.
    have hcases {j : Nat} {t : Stamp} (ht : (stamps ++ [s])[j]? = some t) :
        stamps[j]? = some t ∨ j = stamps.length ∧ t = s := by
      rcases Nat.lt_or_ge j stamps.length with hj | hj
      · exact .inl (by rwa [List.getElem?_append_left hj] at ht)
      · have hlt := (List.getElem?_eq_some_iff.mp ht).1
        rw [List.length_append, List.length_singleton] at hlt
        obtain rfl : j = stamps.length := by omega
        exact .inr ⟨rfl, Option.some.inj (ht.symm.trans hlast)⟩
    rw [List.flatMap_append, List.flatMap_singleton, Image.covered_append]
    rcases hnarrow.pixel_covered_squares hfilled (image.covered (stamps.flatMap squares)) p with
      ⟨k, hk, hcovers, hlatest, hpixel⟩ | ⟨hnone, hpixel⟩
    · refine .inl ⟨stamps.length, k, s, ⟨hlast, hk, hcovers, fun j' k' s' hs' hk' hcovers' => ?_⟩,
        hpixel⟩
      rcases hcases hs' with hbefore | ⟨rfl, rfl⟩
      · exact .inl (List.getElem?_eq_some_iff.mp hbefore).1
      · exact .inr ⟨rfl, hlatest k' hk' hcovers'⟩
    · rw [hpixel]
      rcases ih with ⟨j, k, t, htop, hcolor⟩ | ⟨hbare, hcolor⟩
      · refine .inl ⟨j, k, t, ⟨?_, htop.copy, htop.covers, fun j' k' s' hs' hk' hcovers' => ?_⟩,
          hcolor⟩
        · have hj := (List.getElem?_eq_some_iff.mp htop.stamp).1
          rw [List.getElem?_append_left hj, htop.stamp]
        · rcases hcases hs' with hbefore | ⟨-, rfl⟩
          · exact htop.latest j' k' s' hbefore hk' hcovers'
          · exact absurd hcovers' (hnone k' hk')
      · refine .inr ⟨fun t ht => ?_, hcolor⟩
        rcases List.mem_append.mp ht with hbefore | hs
        · exact hbare t hbefore
        · obtain rfl := List.mem_singleton.mp hs
          exact hnone

end Stamp

namespace Drawing

variable {d : Drawing} {g : Generator} {s : Stamp} {shape : Shape} {calls : Array Nat}

/-- A plain ground leaves one mark. -/
theorem after_paintGround_of_solid {canvas : Canvas} {color : Color}
    (h : canvas.ground = .solid color) (e : Easel Recording) :
    after (paintGround canvas) e = (.ok (), e.add [.ground color] []) := by
  rw [paintGround, h]
  exact after_setGround color e

/-- **A row** leaves its outline moved on and on, and asks the generator for nothing. -/
theorem after_paintStamp_of_isRow (hcanvas : d.canvas.IsWritable) (h : s.IsNarrow) (hrow : s.IsRow)
    (hfind : d.library.find? s.shape = some shape) (g : Generator) (e : Easel Recording) :
    ∃ start, shape.scaled s.scale = .ok start ∧
      after (paintStamp d g s) e = (.ok (), (e.dip s.color).add
        ((List.range s.repeats).map fun k => s.mark ((start.shifted s.x.raw s.y.raw).copy s k))
        []) := by
  obtain ⟨start, outlines, last, hstart, -, hcourse⟩ := exists_course hcanvas h shape g e.calls
  have hasked : (List.replicate (s.repeats - 1) (s.copyBounds d.canvas)).flatten = [] := by
    rw [hrow.copyBounds, List.flatten_replicate_nil]
  refine ⟨start, hstart, ?_⟩
  rw [after_paintStamp hfind hstart hcourse, hrow.marks_actions hcourse, hasked]

/-- **Rows of squares**, one stamp after the other. -/
theorem exists_after_paintStamps_of_squares (hcanvas : d.canvas.IsWritable)
    (hsquare : d.library.find? (.plain "square") = some Shape.square) {stamps : List Stamp}
    (h : ∀ s ∈ stamps, s.IsNarrow ∧ s.shape = .plain "square" ∧ s.IsRow) (e : Easel Recording) :
    ∃ color, after (paintStamps d g stamps) e =
      (.ok (), (e.dip color).add (stamps.flatMap Stamp.squares) []) := by
  induction stamps generalizing e with
  | nil => exact ⟨e.surface.color, (congrArg _ add_nil).symm⟩
  | cons s rest ih =>
    obtain ⟨⟨hnarrow, hshape, hrow⟩, hrest⟩ := List.forall_mem_cons.mp h
    have hfind : d.library.find? s.shape = some Shape.square := by rw [hshape, hsquare]
    obtain ⟨start, hstart, hafter⟩ := after_paintStamp_of_isRow hcanvas hnarrow hrow hfind g e
    obtain rfl := Except.ok.inj (hnarrow.scaled_square.symm.trans hstart)
    obtain ⟨color, hlater⟩ := ih hrest ((e.dip s.color).add s.squares [])
    refine ⟨color, ?_⟩
    rw [paintStamps, after_bind_of_ok hafter]
    exact hlater.trans (by rw [dip_add, dip_dip, add_add, List.flatMap_cons, List.append_nil])

/-- The picture of a drawing that was painted on a recording. -/
theorem image_paint_of_marks {marks : List Mark} {easel : Easel Recording}
    (h : d.paint g (Recording.blank d.canvas.size) calls = (.ok (), easel))
    (hmarks : easel.surface.marks.toList = marks) :
    (d.paint g (Raster.blank d.canvas.size) calls).1 = .ok () ∧
      (d.paint g (Raster.blank d.canvas.size) calls).2.surface.image =
        (Image.blank d.canvas.size).covered marks := by
  obtain ⟨houtcome, -, replayed, color, hreplay, hsurface⟩ :=
    paint_eq_replay Raster.lawful d g (Raster.blank d.canvas.size) calls
  rw [h] at houtcome hreplay
  rw [hmarks] at hreplay
  refine ⟨houtcome, ?_⟩
  rw [hsurface]
  exact Raster.image_replay hreplay

/-- **What is painted later lies on top.**  A script that was read, with a plain canvas and none but
filled rows of the built-in square, is always painted, and there is a raster for it unless its rows
are too long.  Every pixel of the canvas has the colour of the stamp a copy of which lies on top of
it, or that of the canvas where there is none. -/
theorem pixel_paint_of_squares {policy : Script.Policy} {lines : List String} {color : Color}
    (h : (Script.read policy lines).outcome = .ok d.script)
    (hground : d.canvas.ground = .solid color)
    (hsquare : d.library.find? (.plain "square") = some Shape.square)
    (hstamps : ∀ s ∈ d.script.stamps, s.shape = .plain "square" ∧ s.filled = true ∧ s.IsRow)
    (g : Generator) (calls : Array Nat) :
    (Raster.ofSize d.canvas.size = .ok (Raster.blank d.canvas.size) ↔
      d.canvas.width ≤ Raster.longestRow) ∧
    (d.paint g (Raster.blank d.canvas.size) calls).1 = .ok () ∧
    (∀ s ∈ d.script.stamps,
      Shape.square.scaled s.scale = .ok (Outline.box 0 0 s.side s.side)) ∧
    ∀ x < d.canvas.width, ∀ y < d.canvas.height, ∃ pixel,
      (d.paint g (Raster.blank d.canvas.size) calls).2.surface.image.rows[y]?.bind
        (fun row => row[x]?) = some pixel ∧
      ((∃ j k s, Stamp.IsOnTop d.script.stamps ⟨x, y⟩ j k s ∧ pixel = s.color) ∨
        Stamp.IsBare d.script.stamps ⟨x, y⟩ ∧ pixel = color) := by
  have hnarrow := Script.isNarrow_of_read h
  have hcanvas : d.canvas.IsWritable := hnarrow.canvas
  obtain ⟨last, hrows⟩ := exists_after_paintStamps_of_squares (g := g) hcanvas hsquare
    (fun s hs => ⟨hnarrow.stamps s hs, (hstamps s hs).1, (hstamps s hs).2.2⟩)
    (Easel.add ⟨Recording.blank d.canvas.size, calls⟩ [.ground color] [])
  have hmarks : (Easel.add ((Easel.add ⟨Recording.blank d.canvas.size, calls⟩
        [.ground color] []).dip last)
      (d.script.stamps.flatMap Stamp.squares) []).surface.marks.toList =
        .ground color :: d.script.stamps.flatMap Stamp.squares := by
    simp [Easel.add, Easel.dip, Recording.blank]
  obtain ⟨hok, himage⟩ := image_paint_of_marks
    ((after_bind_of_ok (after_paintGround_of_solid hground _)).trans hrows) hmarks
  refine ⟨ofSize_eq_ok_iff hcanvas, hok, fun s hs => (hnarrow.stamps s hs).scaled_square,
    fun x hx y hy => ?_⟩
  rw [himage, Image.covered_cons]
  refine ⟨_, Image.getElem?_rows (by simpa [Canvas.size] using hx)
    (by simpa [Canvas.size] using hy), ?_⟩
  have hpixel := Stamp.pixel_covered_flatMap_squares
    (fun s hs => ⟨hnarrow.stamps s hs, (hstamps s hs).2.1⟩)
    ((Image.blank d.canvas.size).cover (.ground color)) ⟨x, y⟩
  rwa [Image.pixel_cover] at hpixel

/-- Two squares in a row that overlap, and a third one that reaches over the left side. -/
def squareLines : List String :=
  ["width=8, height=6, blue=9", "shape=square, scale=3, x=1, y=1, rep=2, repoffx=2, red=200",
   "shape=square, scale=2, x=-1, y=4, red=200"]

/-- The first two squares overlap in the pixel `(3, 2)`. -/
theorem pixel_paint_of_squareLines :
    ∃ d : Drawing, (Script.read .strict squareLines).outcome = .ok d.script ∧
      d.canvas.ground = .solid ⟨255, 255, 9⟩ ∧
      d.library.find? (.plain "square") = some Shape.square ∧
      (∀ s ∈ d.script.stamps, s.shape = .plain "square" ∧ s.filled = true ∧ s.IsRow) ∧
      (d.paint Generator.zero (Raster.blank d.canvas.size) #[]).1 = .ok () ∧
      (d.paint Generator.zero (Raster.blank d.canvas.size) #[]).2.surface.image.rows[2]?.bind
        (fun row => row[3]?) = some ⟨200, 0, 0⟩ := by
  have hscript : (Script.read .strict squareLines).outcome.toOption.map (fun s => decide
      ((s.canvas.ground = .solid ⟨255, 255, 9⟩ ∧ s.canvas.width = 8 ∧ s.canvas.height = 6) ∧
        (∀ t ∈ s.stamps, t.shape = .plain "square" ∧ t.filled = true ∧ t.IsRow) ∧
        (∀ t ∈ s.stamps, t.color = ⟨200, 0, 0⟩) ∧
        ∃ t ∈ s.stamps, 0 < t.repeats ∧ t.Covers 0 ⟨3, 2⟩)) = some true := by
    decide +kernel
  obtain ⟨script, hread, hscript⟩ := Option.map_eq_some_iff.mp hscript
  obtain ⟨⟨hground, hwidth, hheight⟩, hstamps, hcolors, t, ht, hcopy, hcovers⟩ :=
    of_decide_eq_true hscript
  have hread := toOption_eq_some_iff.mp hread
  have hsquare : Library.builtin.find? (.plain "square") = some Shape.square := rfl
  let d : Drawing := ⟨Library.builtin, script, none⟩
  obtain ⟨-, hok, -, hpixels⟩ :=
    pixel_paint_of_squares (d := d) hread hground hsquare hstamps Generator.zero #[]
  refine ⟨d, hread, hground, hsquare, hstamps, hok, ?_⟩
  have hx : 3 < d.canvas.width := by
    change 3 < script.canvas.width
    omega
  have hy : 2 < d.canvas.height := by
    change 2 < script.canvas.height
    omega
  obtain ⟨pixel, hpixel, ⟨j, k, s, htop, hcolor⟩ | ⟨hbare, -⟩⟩ := hpixels 3 hx 2 hy
  · rw [hpixel, hcolor, hcolors s (List.mem_of_getElem? htop.stamp)]
  · exact absurd hcovers (hbare t ht 0 hcopy)

end Drawing

end Stencil
