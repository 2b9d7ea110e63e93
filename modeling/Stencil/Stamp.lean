import Stencil.Color
import Stencil.Coordinate
import Stencil.Text.Loose

/-!
# Stamp — one shape, drawn once or several times

A `Stamp` says which shape of the library is drawn, how large, where, how often, and how each copy
differs from the one before. `Stamp.make` builds one from any numbers: a scale or a count below one
is lifted to one. It refuses a stamp without a shape name or without a colour.
-/

namespace Stencil

/-- **One instruction to draw.** -/
@[ext] structure Stamp where
  /-- The name of the shape in the library. -/
  shape : Text.Loose
  /-- The size in percent of the shape's own frame. -/
  scale : Nat
  x : Coordinate
  y : Coordinate
  /-- How many copies are drawn. -/
  repeats : Nat
  /-- How far each copy lies to the right of the one before. -/
  offsetX : Int
  /-- How far each copy lies below the one before. -/
  offsetY : Int
  /-- Whether the shape is filled or drawn in outline. -/
  filled : Bool
  color : Color
  /-- The angle in degrees of a last, turned copy. -/
  rotate : Int
  /-- The angle in degrees by which each copy is turned. -/
  repeatRotate : Int
  shape_ne : shape ≠ .plain ""
  scale_pos : 0 < scale
  repeats_pos : 0 < repeats
  deriving Repr

namespace Stamp

instance : DecidableEq Stamp := fun _ _ =>
  decidable_of_decidable_of_iff Stamp.ext_iff.symm

/-- Why a stamp cannot be built. -/
inductive BuildError where
  | unnamed
  | uncolored
  deriving Repr, DecidableEq

/-- The message of a stamp that cannot be built. -/
def BuildError.message : BuildError → String
  | unnamed => "Shape names must not be None or empty"
  | uncolored => "Color must not be None"

/-- What a stamp asks for that nothing is said about: the shape `none` once, at full size, filled in
black at the origin. -/
def plain : Stamp :=
  { shape := "none", scale := 100, x := .fixed 0, y := .fixed 0, repeats := 1, offsetX := 0,
    offsetY := 0, filled := true, color := Color.black, rotate := 0, repeatRotate := 0,
    shape_ne := by decide, scale_pos := by decide, repeats_pos := by decide }

/-- The stamp of another shape. -/
def withShape (s : Stamp) (shape : Text.Loose) (h : shape ≠ .plain "") : Stamp :=
  { s with shape := shape, shape_ne := h }

/-- The stamp at the size nearest to the one asked for. -/
def withScale (s : Stamp) (percent : Int) : Stamp :=
  { s with scale := (max 1 percent).toNat, scale_pos := by omega }

/-- The stamp with the number of copies nearest to the one asked for. -/
def withRepeats (s : Stamp) (count : Int) : Stamp :=
  { s with repeats := (max 1 count).toNat, repeats_pos := by omega }

/-- The stamp with the given name, size, number of copies and colour, and otherwise as `s`. -/
def make (s : Stamp) (shape : Option Text.Loose) (percent count : Int) (color : Option Color) :
    Except BuildError Stamp :=
  if h : shape.getD "" = .plain "" then .error .unnamed
  else
    match color with
    | none => .error .uncolored
    | some c =>
      let s := { s with color := c }
      .ok (((s.withShape (shape.getD "") h).withScale percent).withRepeats count)

/-- Whether the stamp asks for random placement on an axis. -/
def hasRandomAxis (s : Stamp) : Bool :=
  s.x.isRandom || s.y.isRandom

/-- The stamp as descriptions show it. -/
def describe (s : Stamp) : String :=
  let filled := if s.filled then "True" else "False"
  s!"shapeName: {s.shape.shown} scalePercent: {s.scale} startingX: {s.x.describe}\n" ++
  s!"startingY: {s.y.describe} repeats: {s.repeats} repeatOffsetX: {s.offsetX}\n" ++
  s!"repeatOffsetY: {s.offsetY} filled: {filled} color: {s.color.describe}\n" ++
  s!"rotate: {s.rotate} repeatRotate: {s.repeatRotate}\n\n"

end Stamp

end Stencil
