import Stencil.Surface

/-!
# Surface/Recording — a surface that keeps what is painted on it

A `Recording` keeps the marks that are made, in their order, and paints none of them. A `Mark` is
the ground or a polygon, with the colour it was made in. `Mark.paint` makes a mark on any surface,
and `replay` a whole list of them.
-/

namespace Stencil

/-- **One thing painted.** -/
inductive Mark where
  | ground (color : Color)
  | polygon (style : Style) (color : Color) (outline : Outline)
  deriving Repr, DecidableEq

namespace Mark

/-- The colour of a mark. -/
def color : Mark → Color
  | ground color => color
  | polygon _ color _ => color

/-- The vertices of a mark; the ground has none. -/
def outline : Mark → Outline
  | ground _ => []
  | polygon _ _ outline => outline

/-- Whether the mark is a polygon. -/
def isPolygon : Mark → Bool
  | ground _ => false
  | polygon .. => true

/-- The word for the kind of a mark. -/
def kind : Mark → String
  | ground _ => "background"
  | polygon .filled .. => "fill"
  | polygon .outlined .. => "draw"

/-- The mark made on a surface: a polygon in its own colour. -/
def paint {σ : Type} [Surface σ] (s : σ) : Mark → Except Refusal σ
  | ground color => Surface.setGround color s
  | polygon style color outline =>
    Surface.polygon style outline.xs outline.ys outline.length (Surface.setColor color s)

/-- **The marks made on a surface**, one after the other. -/
def replay {σ : Type} [Surface σ] (s : σ) : List Mark → Except Refusal σ
  | [] => .ok s
  | mark :: rest => (mark.paint s).bind fun s => replay s rest

end Mark

namespace Surface

/-- **The surface that keeps its marks.** -/
structure Recording where
  size : Size
  color : Color
  marks : Array Mark
  deriving Repr, DecidableEq

namespace Recording

/-- The surface before anything has been done. -/
def blank (size : Size) : Recording :=
  ⟨size, Color.black, #[]⟩

/-- The surface with one mark more. -/
def add (r : Recording) (mark : Mark) : Recording :=
  { r with marks := r.marks.push mark }

instance : Surface Recording where
  setColor color r := { r with color := color }
  paintGround color := modify fun r => r.add (.ground color)
  paintPolygon style xs ys count :=
    checked (vertices xs ys count) fun outline r => r.add (.polygon style r.color outline)

theorem polygon_eq (style : Style) (xs ys : List Int) (count : Int) (r : Recording) :
    polygon style xs ys count r =
      (vertices xs ys count).map fun outline => r.add (.polygon style r.color outline) :=
  result_checked _ _ r

/-- The marks that are polygons. -/
def polygons (r : Recording) : List Mark :=
  r.marks.toList.filter Mark.isPolygon

/-- The polygon at an index, which may count from the end. -/
def polygonAt (r : Recording) (index : Int) : Except IndexError Mark :=
  itemAt r.polygons index

end Recording

end Surface

end Stencil
