import Stencil.Image

/-!
# Surface/Raster — a surface of pixels

A `Raster` paints on an `Image`. It takes every polygon whose positions a double can hold. A size
has 31 bits, and a row no more than `longestRow` pixels; the memory is taken to hold any image of
such a size.
-/

namespace Stencil.Surface

/-- **The surface that paints pixels.** -/
structure Raster where
  image : Image
  color : Color
  deriving Repr, DecidableEq

namespace Raster

/-- The surface before anything has been done. -/
def blank (size : Size) : Raster :=
  ⟨Image.blank size, Color.black⟩

/-- Why there is no raster of some size. -/
inductive SizeError where
  /-- A side needs more than 31 bits. -/
  | tooLarge
  /-- There is no room for rows of this length. -/
  | noRoom
  deriving Repr, DecidableEq

/-- The message of a raster that is not to be had. -/
def SizeError.message : SizeError → String
  | tooLarge => "picture too large"
  | noRoom => ""

/-- The most pixels in a row. -/
def longestRow : Nat := 0x1ffffffe

/-- **The surface of a size**, if there is one. It is assumed that the memory holds its pixels; a
row that is too long is refused however much memory there is. -/
def ofSize (size : Size) : Except SizeError Raster :=
  if 0x80000000 ≤ size.width ∨ 0x80000000 ≤ size.height then .error .tooLarge
  else if longestRow < size.width then .error .noRoom
  else .ok (blank size)

/-- The surface with one mark more. -/
def add (r : Raster) (mark : Mark) : Raster :=
  { r with image := r.image.cover mark }

instance : Surface Raster where
  setColor color r := { r with color := color }
  paintGround color := modify fun r => r.add (.ground color)
  paintPolygon style xs ys count :=
    checked (nearVertices .rejected xs ys count) fun outline r =>
      r.add (.polygon style r.color outline)

theorem polygon_eq (style : Style) (xs ys : List Int) (count : Int) (r : Raster) :
    polygon style xs ys count r =
      (nearVertices .rejected xs ys count).map fun outline =>
        r.add (.polygon style r.color outline) :=
  result_checked _ _ r

end Raster

end Stencil.Surface
