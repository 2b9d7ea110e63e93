import Stencil.Canvas
import Stencil.Outline

/-!
# Surface — what a drawing is painted on

A surface has a size and a current colour and takes three kinds of calls: set the colour, paint the
ground, and put down a polygon, filled or in outline. `Surface` is the class of such types. A call
may be refused, and it leaves a surface either way (`Surface.Action`). A polygon call gives its
vertices as two lists and a count of how many to use; `vertices` checks them, and
`vertices_eq_ok_iff` says when they pass. Some surfaces take no vertices that are too far away
(`nearVertices`). Polygon calls are checked before they change anything (`Surface.checked`).

`Surface.Plain` is the surface that knows its size and colour and can paint nothing.
-/

namespace Stencil

/-- **The size of a surface**, a pixel or more each way. -/
@[ext] structure Size where
  width : Nat
  height : Nat
  width_pos : 0 < width
  height_pos : 0 < height
  deriving Repr

instance : DecidableEq Size := fun _ _ =>
  decidable_of_decidable_of_iff Size.ext_iff.symm

/-- How a polygon is put down. -/
inductive Style where
  | filled
  | outlined
  deriving Repr, DecidableEq

/-- **Why a surface refuses a call.** The first four are surface errors. -/
inductive Refusal where
  /-- A surface of this size is not to be had. -/
  | size (width height : Int)
  /-- The two lists of positions have these different lengths. -/
  | lengths (xs ys : Nat)
  /-- So many vertices are asked for and so many are there. -/
  | count (asked : Int) (given : Nat)
  /-- A position is too far away for pixels. -/
  | rejected
  /-- A position is too far away for paper. -/
  | tooFar
  /-- The surface does not paint. -/
  | unsupported
  deriving Repr, DecidableEq

/-- The message of a refused call. -/
def Refusal.message : Refusal → String
  | size width height =>
    s!"surface size must be positive, got {Decimal.intText width}x{Decimal.intText height}"
  | lengths xs ys => s!"vertex arrays differ in length ({xs} != {ys})"
  | count asked given =>
    s!"vertex count {Decimal.intText asked} out of range for {given} vertices"
  | rejected => "raster backend rejected polygon"
  | tooFar => "position too far away"
  | unsupported => ""

namespace Size

/-- The size of these numbers, which have to be positive. -/
def ofInts (width height : Int) : Except Refusal Size :=
  if h : 0 < width ∧ 0 < height then
    .ok ⟨width.toNat, height.toNat, by omega, by omega⟩
  else .error (.size width height)

end Size

/-- The size of a canvas. -/
def Canvas.size (c : Canvas) : Size :=
  ⟨c.width, c.height, c.width_pos, c.height_pos⟩

/-- Whether a double can hold the positions of a vertex. -/
def Vertex.isNear (v : Vertex) : Bool :=
  (Decimal.ofInt? v.x).isSome && (Decimal.ofInt? v.y).isSome

/-- **The vertices of a polygon call**: the first `count` of the pairs of positions. -/
def vertices (xs ys : List Int) (count : Int) : Except Refusal Outline :=
  if xs.length ≠ ys.length then .error (.lengths xs.length ys.length)
  else if count < 1 ∨ (xs.length : Int) < count then .error (.count count xs.length)
  else .ok ((List.zipWith Vertex.mk xs ys).take count.toNat)

theorem vertices_eq_ok_iff {xs ys : List Int} {count : Int} :
    (∃ o, vertices xs ys count = .ok o) ↔
      xs.length = ys.length ∧ 1 ≤ count ∧ count ≤ xs.length := by
  unfold vertices
  by_cases h : xs.length = ys.length
  · by_cases hc : count < 1 ∨ (xs.length : Int) < count
    · simp only [h, ne_eq, not_true_eq_false, if_false]
      rw [if_pos (by omega)]
      simp
      omega
    · simp only [h, ne_eq, not_true_eq_false, if_false]
      rw [if_neg (by omega)]
      simp
      omega
  · simp [h]

/-- Both lists of an outline, with its own length as the count, give the outline. -/
theorem vertices_outline {o : Outline} (h : o ≠ []) : vertices o.xs o.ys o.length = .ok o := by
  have : 0 < o.length := List.length_pos_iff.mpr h
  unfold vertices
  rw [if_neg (by simp), if_neg (by simp; omega)]
  simp

/-- The vertices of a polygon call, refused for another reason if one of them is too far away. -/
def nearVertices (refusal : Refusal) (xs ys : List Int) (count : Int) : Except Refusal Outline :=
  (vertices xs ys count).bind fun o =>
    if o.all Vertex.isNear then .ok o else .error refusal

/-- **An outline is taken** if it has vertices and they are near enough. -/
theorem nearVertices_eq_ok_iff {refusal : Refusal} {o o' : Outline} :
    nearVertices refusal o.xs o.ys o.length = .ok o' ↔
      o ≠ [] ∧ o.all Vertex.isNear = true ∧ o = o' := by
  by_cases hne : o = []
  · subst hne
    exact iff_of_false nofun fun h => h.1 rfl
  · rw [nearVertices, vertices_outline hne, Except.bind, and_iff_right hne]
    split
    next hnear => rw [Except.ok.injEq, and_iff_right hnear]
    next hfar => exact iff_of_false nofun fun h => hfar h.1

/-- **A call of a surface**: it may be refused, and whatever it changed before that is changed. -/
abbrev Surface.Action (σ α : Type) := ExceptT Refusal (StateM σ) α

/-- **A type of surfaces.** -/
class Surface (σ : Type) where
  /-- The colour of the polygons to come. -/
  setColor : Color → σ → σ
  /-- Paints the ground. -/
  paintGround : Color → Surface.Action σ Unit
  /-- Puts down a polygon, given by two lists of positions and how many of them to use. -/
  paintPolygon : Style → (xs ys : List Int) → (count : Int) → Surface.Action σ Unit

namespace Surface

section

variable {σ : Type}

/-- The surface that a call leaves, unless the call is refused. -/
def result (action : Action σ Unit) (s : σ) : Except Refusal σ :=
  match (ExceptT.run action).run s with
  | (.ok (), t) => .ok t
  | (.error e, _) => .error e

/-- A call is taken with what it leaves. -/
theorem result_eq_ok_iff {action : Action σ Unit} {s t : σ} :
    result action s = .ok t ↔ (ExceptT.run action).run s = (.ok (), t) := by
  unfold result
  split
  next u h => rw [h, Except.ok.injEq, Prod.mk.injEq, and_iff_right rfl]
  next e u h =>
    rw [h]
    exact ⟨nofun, nofun⟩

/-- **A call that checks something** and changes the surface if that is fine. -/
def checked {α : Type} (check : Except Refusal α) (change : α → σ → σ) : Action σ Unit := do
  let a ← check
  modify (change a)

theorem run_checked {α : Type} (check : Except Refusal α) (change : α → σ → σ) (s : σ) :
    (ExceptT.run (checked check change)).run s =
      match check with
      | .ok a => (.ok (), change a s)
      | .error e => (.error e, s) := by
  cases check <;> rfl

theorem result_checked {α : Type} (check : Except Refusal α) (change : α → σ → σ) (s : σ) :
    result (checked check change) s = check.map (change · s) := by
  cases check <;> rfl

variable [Surface σ]

/-- The surface with its ground painted. -/
def setGround (color : Color) (s : σ) : Except Refusal σ :=
  result (paintGround color) s

/-- The surface with a polygon put down. -/
def polygon (style : Style) (xs ys : List Int) (count : Int) (s : σ) : Except Refusal σ :=
  result (paintPolygon style xs ys count) s

end

/-- **The surface that cannot paint.** -/
structure Plain where
  size : Size
  color : Color
  deriving Repr, DecidableEq

/-- The surface before anything has been done. -/
def Plain.blank (size : Size) : Plain :=
  ⟨size, Color.black⟩

instance : Surface Plain where
  setColor color s := { s with color := color }
  paintGround _ := throw .unsupported
  paintPolygon _ _ _ _ := throw .unsupported

end Surface

end Stencil
