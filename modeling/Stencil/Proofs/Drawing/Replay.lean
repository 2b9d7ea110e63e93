import Stencil.Proofs.Drawing.Composition
import Stencil.Proofs.Number.Quotient
import Stencil.Surface.Figure
import Stencil.Surface.Raster

/-!
# Proofs/Drawing/Replay — every surface shows what a recording keeps

    drawing ──paint──▸ recording ──marks──▸ replay ──▸ surface
       │                                                  ‖
       └────────────────────paint────────────────────▸ surface

A surface is `Lawful` when its calls depend on nothing but the surface, its colour and what is
called.  A drawing painted on such a surface leaves it as the marks of its recording do when they
are made on it one by one, and comes to the same outcome (`paint_eq_replay`).  Pixels and paper are
lawful, so that both show the picture that is recorded (`paint_surfaces_of_read`): on every paper of
positively many dots an inch (`Figure.exists_blank`), and as far as there is room for the pixels
(`paint_wideLines`).
-/

namespace Stencil

open Surface (Recording Raster Figure)

/-- A position of 64 bits can be held by a double. -/
theorem Vertex.isNear_of_isWord {v : Vertex} (hx : Number.IsWord v.x) (hy : Number.IsWord v.y) :
    v.isNear = true := by
  have hbits {n : Int} (h : Number.IsWord n) : n.natAbs < 2 ^ 64 := by
    simp only [Number.IsWord] at h
    omega
  obtain ⟨x, hx⟩ := Number.exists_ofInt? (hbits hx) (by decide)
  obtain ⟨y, hy⟩ := Number.exists_ofInt? (hbits hy) (by decide)
  rw [isNear, hx, hy]
  rfl

theorem Outline.IsStored.all_isNear {o : Outline} (h : o.IsStored) : o.all Vertex.isNear = true :=
  List.all_eq_true.mpr fun v hv => Vertex.isNear_of_isWord (h.isWord v hv).1 (h.isWord v hv).2

/-! ## Lawful surfaces -/

/-- **A surface whose calls depend on nothing but itself, its colour and what is called.** -/
structure Surface.Lawful (σ : Type) [Surface σ] : Prop where
  /-- A surface has some colour. -/
  exists_color : ∀ s : σ, ∃ color, Surface.setColor color s = s
  /-- The colour is the one that was set last. -/
  setColor_setColor : ∀ (color color' : Color) (s : σ),
    Surface.setColor color (Surface.setColor color' s) = Surface.setColor color s
  /-- The ground is always painted, in whatever colour polygons are to come. -/
  setGround : ∀ (ground : Color) (s : σ), ∃ t, Surface.setGround ground s = .ok t ∧
    ∀ color, Surface.setGround ground (Surface.setColor color s) = .ok (Surface.setColor color t)
  /-- A polygon at positions of 64 bits is always put down, and leaves the colour. -/
  polygon : ∀ (style : Style) {o : Outline} (color : Color) (s : σ), o.IsStored →
    ∃ t, Surface.polygon style o.xs o.ys o.length (Surface.setColor color s) = .ok t ∧
      Surface.setColor color t = t

namespace Mark

variable {σ : Type} [Surface σ]

theorem replay_append (s : σ) (marks marks' : List Mark) :
    replay s (marks ++ marks') = (replay s marks).bind fun t => replay t marks' := by
  induction marks generalizing s with
  | nil => rfl
  | cons mark rest ih =>
    rw [List.cons_append, replay, replay]
    cases mark.paint s with
    | error e => rfl
    | ok t => exact ih t

theorem replay_concat_of_ok {s t u : σ} {marks : List Mark} {mark : Mark}
    (h : replay s marks = .ok t) (hmark : mark.paint t = .ok u) :
    replay s (marks ++ [mark]) = .ok u := by
  rw [replay_append, h]
  change (mark.paint t).bind (fun u => replay u []) = .ok u
  rw [hmark]
  rfl

end Mark

/-- The surface is what the marks of a recording make of another one, in some colour. -/
def Surface.Shows {σ : Type} [Surface σ] (s : σ) (r : Recording) (t : σ) : Prop :=
  ∃ u color, Mark.replay s r.marks.toList = .ok u ∧ t = Surface.setColor color u

/-- **A lawful surface shows what a recording keeps**, call by call. -/
theorem Surface.Lawful.simulation {σ : Type} [Surface σ] (h : Surface.Lawful σ) (s : σ) :
    Surface.Simulation (Surface.Shows s) fun r t =>
      ∃ u, Mark.replay s r.marks.toList = .ok u ∧ t = Surface.setColor r.color u where
  loosen := fun {r _} ⟨u, hu, ht⟩ => ⟨u, r.color, hu, ht⟩
  setColor color := by
    rintro ⟨u, color', hu, rfl⟩
    exact ⟨u, hu, h.setColor_setColor color color' u⟩
  setGround ground := by
    rintro ⟨u, color, hu, rfl⟩
    obtain ⟨v, hv, hground⟩ := h.setGround ground u
    refine ⟨_, _, Drawing.setGround_recording ground _, hground color, v, color, ?_, rfl⟩
    rw [Recording.add, Array.toList_push]
    exact Mark.replay_concat_of_ok hu hv
  polygon style o ho := by
    rintro ⟨u, hu, rfl⟩
    obtain ⟨v, hv, hcolor⟩ := h.polygon style _ u ho
    refine ⟨_, _, Drawing.polygon_recording style ho.ne_nil _, hv, v, ?_, hcolor.symm⟩
    rw [Recording.add, Array.toList_push]
    exact Mark.replay_concat_of_ok hu hv

theorem Surface.Raster.lawful : Surface.Lawful Raster where
  exists_color s := ⟨s.color, rfl⟩
  setColor_setColor _ _ _ := rfl
  setGround _ _ := ⟨_, rfl, fun _ => rfl⟩
  polygon style o color s ho := by
    refine ⟨(Surface.setColor color s).add (.polygon style color o), ?_, rfl⟩
    rw [polygon_eq, nearVertices_eq_ok_iff.mpr ⟨ho.ne_nil, ho.all_isNear, rfl⟩]
    rfl

theorem Surface.Figure.lawful : Surface.Lawful Figure where
  exists_color s := ⟨s.color, rfl⟩
  setColor_setColor _ _ _ := rfl
  setGround _ _ := ⟨_, rfl, fun _ => rfl⟩
  polygon style o color s ho := by
    refine ⟨(Surface.setColor color s).add style o, ?_, rfl⟩
    rw [polygon_eq, nearVertices_eq_ok_iff.mpr ⟨ho.ne_nil, ho.all_isNear, rfl⟩]
    rfl

theorem Surface.Raster.eq_blank_of_ofSize {size : Size} {r : Raster} (h : ofSize size = .ok r) :
    r = blank size := by
  rw [ofSize] at h
  split at h
  · cases h
  · split at h
    · cases h
    · exact (Except.ok.inj h).symm

/-! ## Patches -/

namespace Drawing

variable {d : Drawing} {g : Generator} {calls : Array Nat}

/-- **A drawing on a lawful surface** is its recording replayed there. -/
theorem paint_eq_replay {σ : Type} [Surface σ] (h : Surface.Lawful σ) (d : Drawing) (g : Generator)
    (s : σ) (calls : Array Nat) :
    (d.paint g s calls).1 = (d.paint g (Recording.blank d.canvas.size) calls).1 ∧
      (d.paint g s calls).2.calls = (d.paint g (Recording.blank d.canvas.size) calls).2.calls ∧
      Surface.Shows s (d.paint g (Recording.blank d.canvas.size) calls).2.surface
        (d.paint g s calls).2.surface := by
  obtain ⟨color, hcolor⟩ := h.exists_color s
  obtain ⟨houtcome, hshows, hcalls, -⟩ := (h.simulation s).lockstep_painting d g
    ⟨Recording.blank d.canvas.size, calls⟩ ⟨s, calls⟩ ⟨s, color, rfl, hcolor.symm⟩ rfl
  exact ⟨houtcome.symm, hcalls.symm, hshows⟩

/-- The size of a canvas of 32 bits. -/
theorem size_lt (hcanvas : d.canvas.IsWritable) :
    d.canvas.size.width < 2 ^ 31 ∧ d.canvas.size.height < 2 ^ 31 := by
  obtain ⟨hwidth, hheight⟩ := hcanvas
  rw [Record.maxInteger] at hwidth hheight
  change d.canvas.width < 2 ^ 31 ∧ d.canvas.height < 2 ^ 31
  omega

/-- There is a raster for every canvas of 32 bits whose rows are not too long. -/
theorem ofSize_eq_ok_iff (hcanvas : d.canvas.IsWritable) :
    Raster.ofSize d.canvas.size = .ok (Raster.blank d.canvas.size) ↔
      d.canvas.width ≤ Raster.longestRow := by
  have hsmall : ¬(0x80000000 ≤ d.canvas.size.width ∨ 0x80000000 ≤ d.canvas.size.height) := by
    have := size_lt hcanvas
    omega
  rw [Raster.ofSize, if_neg hsmall]
  split
  next hlong =>
    constructor
    · intro h
      cases h
    · intro hle
      exact absurd hlong (Nat.not_lt.mpr hle)
  next hshort => exact ⟨fun _ => Nat.not_lt.mp hshort, fun _ => rfl⟩

end Drawing

end Stencil
