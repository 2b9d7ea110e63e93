import Stencil.Drawing
import Stencil.Proofs.Drawing.Course
import Stencil.Proofs.Record.Canvas
import Stencil.Surface.Recording

/-!
# Proofs/Drawing/Painting — painting on a surface that keeps its marks

    easel ──paintStamp──▸ easel + marks of the stamp + bounds asked of the generator

What a step of painting comes to on an easel is its result `after` it.  Steps that follow one
another are taken apart there, so that the painting of a stamp is read off the course of its
outline: every outline that is shown becomes a mark (`after_paintStamp`).  A drawing without random
places has no use for the generator (`paint_of_fixed`).
-/

namespace Stencil.Drawing

open Surface (Recording)

/-! ## Running a step -/

section Running

variable {σ α β : Type}

/-- What a step of painting comes to: its outcome, and the easel as it is left. -/
def after (p : Painting σ α) (e : Easel σ) : Except Error α × Easel σ :=
  p.run.run e

variable {p : Painting σ α} {f : α → Painting σ β} {e e' : Easel σ}

@[simp] theorem after_pure (a : α) (e : Easel σ) : after (pure a) e = (.ok a, e) := rfl

theorem after_bind_of_ok {a : α} (h : after p e = (.ok a, e')) :
    after (p >>= f) e = after (f a) e' :=
  run_bind_eq_of_ok h

theorem after_bind_of_error {d : Error} (h : after p e = (.error d, e')) :
    after (p >>= f) e = (.error d, e') :=
  run_bind_eq_of_error h

theorem after_get (e : Easel σ) : after (get : Painting σ (Easel σ)) e = (.ok e, e) := rfl

theorem after_call {action : Surface.Action σ Unit} {surface : σ}
    (h : Surface.result action e.surface = .ok surface) :
    after (call action) e = (.ok (), { e with surface := surface }) := by
  rw [call, after_bind_of_ok (after_get e), Surface.result_eq_ok_iff.mp h]
  rfl

theorem after_compute {x : Except Number.Error α} {a : α} (h : x = .ok a) (e : Easel σ) :
    after (compute x) e = (.ok a, e) := by
  rw [h]
  rfl

end Running

/-! ## Easels with a recording -/

/-- The easel with some marks more, and the generator asked for some bounds more. -/
def Easel.add (e : Easel Recording) (marks : List Mark) (bounds : List Nat) : Easel Recording :=
  ⟨{ e.surface with marks := e.surface.marks ++ marks.toArray }, e.calls ++ bounds.toArray⟩

/-- The easel with another colour for the polygons to come. -/
def Easel.dip (e : Easel Recording) (color : Color) : Easel Recording :=
  { e with surface := { e.surface with color := color } }

section Recording

variable {e : Easel Recording} {marks marks' : List Mark} {bounds bounds' : List Nat}

@[simp] theorem color_add : (e.add marks bounds).surface.color = e.surface.color := rfl

@[simp] theorem marks_add : (e.add marks bounds).surface.marks = e.surface.marks ++ marks.toArray :=
  rfl

@[simp] theorem calls_add : (e.add marks bounds).calls = e.calls ++ bounds.toArray := rfl

@[simp] theorem add_nil : e.add [] [] = e := by
  simp [Easel.add]

@[simp] theorem add_add :
    (e.add marks bounds).add marks' bounds' = e.add (marks ++ marks') (bounds ++ bounds') := by
  simp [Easel.add, Array.append_assoc]

@[simp] theorem color_dip (e : Easel Recording) (color : Color) :
    (e.dip color).surface.color = color := rfl

@[simp] theorem calls_dip (e : Easel Recording) (color : Color) : (e.dip color).calls = e.calls :=
  rfl

@[simp] theorem dip_dip (e : Easel Recording) (color color' : Color) :
    (e.dip color).dip color' = e.dip color' := rfl

@[simp] theorem dip_add (color : Color) :
    (e.add marks bounds).dip color = (e.dip color).add marks bounds := rfl

theorem after_setColor (color : Color) (e : Easel Recording) :
    after (setColor color) e = (.ok (), e.dip color) := rfl

theorem setGround_recording (color : Color) (r : Recording) :
    Surface.setGround color r = .ok (r.add (.ground color)) := rfl

theorem after_setGround (color : Color) (e : Easel Recording) :
    after (call (Surface.paintGround color)) e = (.ok (), e.add [.ground color] []) := by
  rw [after_call (setGround_recording color e.surface)]
  simp [Easel.add, Recording.add]

theorem polygon_recording (style : Style) {o : Outline} (h : o ≠ []) (r : Recording) :
    Surface.polygon style o.xs o.ys o.length r = .ok (r.add (.polygon style r.color o)) := by
  rw [Recording.polygon_eq, vertices_outline h]
  rfl

/-- An outline that has vertices becomes a mark. -/
theorem after_putDown (style : Style) {o : Outline} (h : o ≠ []) (e : Easel Recording) :
    after (putDown style o) e = (.ok (), e.add [.polygon style e.surface.color o] []) := by
  rw [putDown, after_call (polygon_recording style h e.surface)]
  simp [Easel.add, Recording.add]

theorem after_ask (g : Generator) (bound : Nat) (e : Easel Recording) :
    after (ask g bound) e = (.ok (g.answer e.calls bound : Int), e.add [] [bound]) := by
  rw [ask, after_bind_of_ok (after_get e)]
  simp [Easel.add]
  rfl

end Recording

/-! ## Where copies go -/

end Stencil.Drawing

namespace Stencil

/-- The bounds that the generator is asked for on one axis, of the given extent. -/
def Coordinate.bounds (c : Coordinate) (extent : Nat) : List Nat :=
  if c.isRandom then [extent] else []

/-- How far a copy goes on one axis, when the generator has been asked for some bounds before. -/
def Coordinate.offset (c : Coordinate) (g : Generator) (extent : Nat) (own : Int)
    (calls : Array Nat) : Int :=
  if c.isRandom then g.answer calls extent else own

namespace Stamp

variable (s : Stamp) (canvas : Canvas) (g : Generator)

/-- The bounds that the generator is asked for when a copy is made. -/
def copyBounds : List Nat :=
  s.x.bounds canvas.width ++ s.y.bounds canvas.height

/-- How far a copy goes. -/
def offset (calls : Array Nat) : Int × Int :=
  (s.x.offset g canvas.width s.offsetX calls,
    s.y.offset g canvas.height s.offsetY (calls ++ (s.x.bounds canvas.width).toArray))

/-- **How far each of so many copies goes.** -/
def offsets : Nat → Array Nat → List (Int × Int)
  | 0, _ => []
  | n + 1, calls => s.offset canvas g calls :: offsets n (calls ++ (s.copyBounds canvas).toArray)

/-- The marks that actions leave when they take the outline to the given ones. -/
def marks (as : List Action) (ps : List Outline) : List Mark :=
  ((as.zip ps).filter fun x => x.1.isShown).map fun x => .polygon s.style s.color x.2

variable {s canvas g}

@[simp] theorem length_offsets (n : Nat) (calls : Array Nat) :
    (s.offsets canvas g n calls).length = n := by
  induction n generalizing calls with
  | zero => rfl
  | succ n ih => rw [offsets, List.length_cons, ih]

theorem natAbs_offset (c : Coordinate) {extent : Nat} {own : Int}
    (hextent : (extent : Int) ≤ Record.maxInteger) (hpos : 0 < extent)
    (hown : Record.InRange own) (calls : Array Nat) :
    (c.offset g extent own calls).natAbs ≤ 2 ^ 31 := by
  have hlt := g.answer_lt calls extent hpos
  simp only [Record.InRange, Record.minInteger, Record.maxInteger] at hextent hown
  rw [Coordinate.offset]
  split <;> omega

theorem isNear_of_mem_offsets (h : s.IsNarrow) (hcanvas : canvas.IsWritable) {n : Nat}
    {calls : Array Nat} : ∀ offset ∈ s.offsets canvas g n calls, IsNear offset := by
  induction n generalizing calls with
  | zero => exact fun _ hmem => nomatch hmem
  | succ n ih =>
    refine List.forall_mem_cons.mpr ⟨⟨?_, ?_⟩, ih⟩
    · exact natAbs_offset s.x hcanvas.1 canvas.width_pos h.offsetX _
    · exact natAbs_offset s.y hcanvas.2 canvas.height_pos h.offsetY _

theorem marks_append {as bs : List Action} {ps qs : List Outline} (h : ps.length = as.length) :
    s.marks (as ++ bs) (ps ++ qs) = s.marks as ps ++ s.marks bs qs := by
  rw [marks, List.zip_append h.symm, List.filter_append, List.map_append]
  rfl

end Stamp

namespace Drawing

/-! ## One stamp -/

section Stamp

variable {s : Stamp} {canvas : Canvas} {g : Generator} {b : Nat} {o p q : Outline}
  {ps : List Outline} {e : Easel Surface.Recording}

theorem after_copyOffset (c : Coordinate) (extent : Nat) (own : Int) :
    after (copyOffset g c extent own) e =
      (.ok (c.offset g extent own e.calls), e.add [] (c.bounds extent)) := by
  rw [copyOffset, Coordinate.offset, Coordinate.bounds]
  split
  · exact after_ask g extent e
  · rw [add_nil]
    rfl

theorem after_paintTurned {degrees : Int} (hcolor : e.surface.color = s.color) (ho : o ≠ [])
    (h : (Action.turn degrees).Takes s b o p) :
    after (paintTurned s degrees o) e = (.ok p, e.add (s.marks [.turn degrees] [p]) []) := by
  obtain ⟨angle, hangle, hp⟩ := bind_eq_ok_iff.mp h.run
  rw [paintTurned, after_bind_of_ok (after_compute hangle e), after_bind_of_ok (after_compute hp e),
    after_bind_of_ok (after_putDown s.style (Action.ne_nil_of_run h.run ho) e), hcolor]
  rfl

/-- A turn that may be left out leaves the marks of what is not. -/
theorem after_turn {degrees least : Int} (hcolor : e.surface.color = s.color) (ho : o ≠ [])
    (h : Course s b o (if least < degrees then [.turn degrees] else []) ps p) :
    after (if least < degrees then paintTurned s degrees o else pure o) e =
      (.ok p, e.add (s.marks (if least < degrees then [.turn degrees] else []) ps) []) := by
  split at h
  next hlt =>
    cases h with
    | cons hturn hnil =>
      cases hnil
      rw [if_pos hlt, if_pos hlt, after_paintTurned hcolor ho hturn]
  next hge =>
    cases h
    rw [if_neg hge, if_neg hge, Stamp.marks, List.zip_nil_left, List.filter_nil, List.map_nil,
      add_nil]
    rfl

/-- So does one whose outline is not needed any more. -/
theorem after_lastTurn {degrees least : Int} (hcolor : e.surface.color = s.color) (ho : o ≠ [])
    (h : Course s b o (if least < degrees then [.turn degrees] else []) ps p) :
    after (if least < degrees then do let _ ← paintTurned s degrees o else pure ()) e =
      (.ok (), e.add (s.marks (if least < degrees then [.turn degrees] else []) ps) []) := by
  have hbind : (if least < degrees then do let _ ← paintTurned s degrees o else pure () :
      Painting Surface.Recording Unit) =
      (if least < degrees then paintTurned s degrees o else pure o) >>= fun _ => pure () := by
    split <;> rfl
  rw [hbind, after_bind_of_ok (after_turn hcolor ho h), after_pure]

/-- **A moved copy** leaves the mark of the move, and the outline where the next copy starts. -/
theorem after_paintMoved (hcolor : e.surface.color = s.color) (ho : o ≠ []) {dx dy : Int}
    (hoffset : s.offset canvas g e.calls = (dx, dy))
    (h : Course s b o (.move dx dy :: if s.hasRandomAxis then [.back dx dy] else []) ps q) :
    after (paintMoved canvas g s o) e = (.ok q, e.add
      (s.marks (.move dx dy :: if s.hasRandomAxis then [.back dx dy] else []) ps)
      (s.copyBounds canvas)) := by
  obtain ⟨hx, hy⟩ := Prod.mk.inj hoffset
  cases h with
  | @cons _ _ _ p _ ps hmove hrest =>
    have hmoved : o.translate dx dy = .ok p := hmove.run
    rw [paintMoved, after_bind_of_ok (after_copyOffset ..), after_bind_of_ok (after_copyOffset ..),
      add_add, calls_add, hx, hy, after_bind_of_ok (after_compute hmoved _),
      after_bind_of_ok (after_putDown s.style (Action.ne_nil_of_run hmove.run ho) _), add_add,
      color_add, hcolor]
    by_cases hrandom : s.hasRandomAxis = true
    · rw [if_pos hrandom] at hrest ⊢
      cases hrest with
      | cons hback hnil =>
        cases hnil
        have hmovedBack : p.translate (-dx) (-dy) = .ok q := hback.run
        rw [if_pos hrandom, after_compute hmovedBack]
        simp [Stamp.marks, Stamp.copyBounds, Action.isShown]
    · rw [if_neg hrandom] at hrest ⊢
      cases hrest
      rw [if_neg hrandom]
      simp [Stamp.marks, Stamp.copyBounds, Action.isShown]

theorem paintCopies_succ {σ : Type} [Surface σ] (n : Nat) :
    (paintCopies canvas g s (n + 1) o : Painting σ Outline) =
      ((if 0 < s.repeatRotate then paintTurned s s.repeatRotate o else pure o) >>= fun o =>
        paintMoved canvas g s o >>= paintCopies canvas g s n) := by
  rw [paintCopies]
  split <;> rfl

/-- **So many copies** leave the marks of their actions. -/
theorem after_paintCopies {n : Nat} (hcolor : e.surface.color = s.color) (ho : o ≠ [])
    (h : Course s b o ((s.offsets canvas g n e.calls).flatMap s.copyActions) ps q) :
    after (paintCopies canvas g s n o) e = (.ok q, e.add
      (s.marks ((s.offsets canvas g n e.calls).flatMap s.copyActions) ps)
      (List.replicate n (s.copyBounds canvas)).flatten) := by
  induction n generalizing o ps e with
  | zero =>
    cases h
    simp [paintCopies, Stamp.marks, Stamp.offsets]
  | succ n ih =>
    rw [Stamp.offsets, List.flatMap_cons] at h ⊢
    obtain ⟨before, m, rest, rfl, hcopy, hrest⟩ := h.exists_of_append
    obtain ⟨turned, t, moved, rfl, hturn, hmove⟩ := Course.exists_of_append hcopy
    rw [paintCopies_succ, after_bind_of_ok (after_turn hcolor ho hturn)]
    refine (after_bind_of_ok (after_paintMoved ?_ (hturn.ne_nil_last ho) ?_ hmove)).trans ?_
    · exact hcolor
    · simp
    · rw [add_add, List.nil_append]
      refine (@ih m rest (e.add _ (s.copyBounds canvas)) hcolor (hcopy.ne_nil_last ho)
        hrest).trans ?_
      rw [add_add, calls_add, Stamp.marks_append hcopy.length_eq, Stamp.copyActions,
        Stamp.marks_append hturn.length_eq, List.replicate_succ, List.flatten_cons]

variable {d : Drawing} {shape : Shape} {start : Outline}

theorem after_paintStamp_of_none (g : Generator) (h : d.library.find? s.shape = none)
    (e : Easel Surface.Recording) :
    after (paintStamp d g s) e = (.error (.noShape s.shape), e) := by
  rw [paintStamp, h]
  rfl

/-- **A stamp** leaves the marks of its actions, in its own colour. -/
theorem after_paintStamp (hfind : d.library.find? s.shape = some shape)
    (hstart : shape.scaled s.scale = .ok start)
    (h : Course s b start (s.actions (s.offsets d.canvas g (s.repeats - 1) e.calls)) ps q) :
    after (paintStamp d g s) e = (.ok (), (e.dip s.color).add
      (s.marks (s.actions (s.offsets d.canvas g (s.repeats - 1) e.calls)) ps)
      (List.replicate (s.repeats - 1) (s.copyBounds d.canvas)).flatten) := by
  have hne : start ≠ [] := by
    rw [← List.length_pos_iff, shape.length_scaled hstart]
    exact List.length_pos_iff.mpr shape.points_ne_nil
  obtain ⟨before, m, final, rfl, hbefore, hfinal⟩ := h.exists_of_append
  cases hbefore with
  | @cons _ _ _ p _ copies hplace hcopies =>
    have hp := Action.ne_nil_of_run hplace.run hne
    have hplaced : placed s start = .ok p := hplace.run
    have hcopied := @after_paintCopies s d.canvas g b p m copies
      ((e.dip s.color).add [.polygon s.style s.color p] []) (s.repeats - 1) rfl hp hcopies
    rw [paintStamp, hfind]
    simp only
    rw [after_bind_of_ok (after_compute hstart e), after_bind_of_ok (after_setColor s.color e),
      after_bind_of_ok (after_compute hplaced _), after_bind_of_ok (after_putDown s.style hp _),
      color_dip, after_bind_of_ok hcopied, add_add]
    refine (after_lastTurn ?_ (Course.ne_nil_last hcopies hp) hfinal).trans ?_
    · rfl
    · have hlength : (p :: copies).length =
          (.place :: (s.offsets d.canvas g (s.repeats - 1) e.calls).flatMap s.copyActions).length :=
        congrArg Nat.succ hcopies.length_eq
      rw [add_add, Stamp.actions, Stamp.marks_append hlength]
      simp [Stamp.marks, Action.isShown]

end Stamp

/-! ## Drawings without random places -/

section Fixed

variable {σ : Type} {canvas : Canvas} {d : Drawing} {s : Stamp}

theorem copyOffset_of_fixed {c : Coordinate} (h : c.isRandom = false) (g : Generator)
    (extent : Nat) (own : Int) : (copyOffset g c extent own : Painting σ Int) = pure own := by
  rw [copyOffset, h, if_neg Bool.false_ne_true]

variable [Surface σ]

theorem paintMoved_of_fixed (h : s.hasRandomAxis = false) (g g' : Generator) (outline : Outline) :
    (paintMoved canvas g s outline : Painting σ Outline) = paintMoved canvas g' s outline := by
  obtain ⟨hx, hy⟩ := Bool.or_eq_false_iff.mp h
  simp only [paintMoved, copyOffset_of_fixed hx, copyOffset_of_fixed hy]

theorem paintCopies_of_fixed (h : s.hasRandomAxis = false) (g g' : Generator) (n : Nat)
    (outline : Outline) :
    (paintCopies canvas g s n outline : Painting σ Outline) =
      paintCopies canvas g' s n outline := by
  induction n generalizing outline with
  | zero => rfl
  | succ n ih => simp only [paintCopies, paintMoved_of_fixed h g g', ih]

theorem paintStamps_of_fixed {stamps : List Stamp} (h : ∀ s ∈ stamps, s.hasRandomAxis = false)
    (d : Drawing) (g g' : Generator) :
    (paintStamps d g stamps : Painting σ Unit) = paintStamps d g' stamps := by
  induction stamps with
  | nil => rfl
  | cons s rest ih =>
    obtain ⟨hs, hrest⟩ := List.forall_mem_cons.mp h
    simp only [paintStamps, paintStamp, paintCopies_of_fixed hs g g', ih hrest]

/-- **A drawing without random places** is painted alike with every generator. -/
theorem paint_of_fixed (h : ∀ s ∈ d.script.stamps, s.hasRandomAxis = false) (g g' : Generator)
    (surface : σ) (calls : Array Nat) : d.paint g surface calls = d.paint g' surface calls := by
  rw [paint, paint, painting, painting, paintStamps_of_fixed h d g g']

end Fixed

end Drawing

end Stencil
