import Stencil.Surface.Recording

/-!
# Image — pictures of coloured pixels

An `Image` is a white picture with layers over it, each of one colour. A pixel has the colour of the
latest layer that covers it (`Image.pixel`). A filled polygon covers the pixels inside it and those
of its edges, so a rectangle covers its right and its lower side too. An outline is drawn from
vertex to vertex: each edge covers the pixel that it starts from and not the one that it leads to,
which the next edge starts from. An outline that stays in one place therefore covers nothing.
-/

namespace Stencil

/-! ## What a polygon covers -/

namespace Vertex

/-- Twice the signed area of the triangle of three vertices. -/
def cross (a b p : Vertex) : Int :=
  (b.x - a.x) * (p.y - a.y) - (b.y - a.y) * (p.x - a.x)

/-- **Whether the edge from `a` to `b` covers the pixel `p`**: `p` lies in the box around the
edge, and is no more than half a pixel away from it, measured along the axis on which the edge
is shorter. -/
def onEdge (a b p : Vertex) : Bool :=
  min a.x b.x ≤ p.x && p.x ≤ max a.x b.x && min a.y b.y ≤ p.y && p.y ≤ max a.y b.y &&
    2 * (cross a b p).natAbs ≤ max (b.x - a.x).natAbs (b.y - a.y).natAbs

/-- Whether the half line from `p` towards smaller `x` meets the edge from `a` to `b`. -/
def meets (a b p : Vertex) : Bool :=
  if a.y ≤ p.y && p.y < b.y then 0 < -cross a b p
  else if b.y ≤ p.y && p.y < a.y then 0 < cross a b p
  else false

end Vertex

namespace Outline

/-- The edges of the ring, each from a vertex to the next one. -/
def edges (o : Outline) : List (Vertex × Vertex) :=
  List.zip o (o.drop 1 ++ o.take 1)

/-- Whether the pixel belongs to one of the edges. -/
def onEdges (o : Outline) (p : Vertex) : Bool :=
  o.edges.any fun (a, b) => Vertex.onEdge a b p

/-- Whether the pixel belongs to one of the edges and is not where that edge ends. -/
def onPath (o : Outline) (p : Vertex) : Bool :=
  o.edges.any fun (a, b) => Vertex.onEdge a b p && p != b

/-- Whether the pixel is inside the ring: a half line from it meets an odd number of edges. -/
def inside (o : Outline) (p : Vertex) : Bool :=
  (o.edges.filter fun (a, b) => Vertex.meets a b p).length % 2 == 1

/-- **Whether the polygon covers the pixel.** -/
def covers (o : Outline) (style : Style) (p : Vertex) : Bool :=
  match style with
  | .filled => o.onEdges p || o.inside p
  | .outlined => o.onPath p

end Outline

/-! ## Layers -/

/-- **A picture**: its layers, the latest first, over white. -/
structure Image where
  size : Size
  layers : List Mark
  deriving Repr, DecidableEq

/-- Whether a layer covers the pixel. -/
def Mark.covers (p : Vertex) : Mark → Bool
  | ground _ => true
  | polygon style _ outline => outline.covers style p

namespace Image

/-- The white picture. -/
def blank (size : Size) : Image :=
  ⟨size, []⟩

/-- The picture with a layer more. The ground hides everything before it. -/
def cover (image : Image) : Mark → Image
  | .ground color => { image with layers := [.ground color] }
  | mark => { image with layers := mark :: image.layers }

/-- **The colour of a pixel**: that of the latest layer that covers it. -/
def pixel (image : Image) (p : Vertex) : Color :=
  match image.layers.find? (Mark.covers p) with
  | some mark => mark.color
  | none => Color.white

theorem pixel_blank (size : Size) (p : Vertex) : (blank size).pixel p = Color.white := rfl

/-- **A later layer hides the earlier ones** where it covers them. -/
theorem pixel_cover (image : Image) (mark : Mark) (p : Vertex) :
    (image.cover mark).pixel p = if mark.covers p then mark.color else image.pixel p := by
  cases mark with
  | ground color => simp [cover, pixel, Mark.covers, Mark.color]
  | polygon style color outline =>
    by_cases h : Mark.covers p (.polygon style color outline) <;>
      simp [cover, pixel, h]

/-- The colours of row `y`. -/
def row (image : Image) (y : Nat) : List Color :=
  (List.range image.size.width).map fun x : Nat => image.pixel ⟨(x : Int), (y : Int)⟩

/-- **The rows of the picture**, the top one first. -/
def rows (image : Image) : List (List Color) :=
  (List.range image.size.height).map image.row

/-- An index by its last 32 bits. One that needs more than 64 is the last index of all. -/
def shortIndex (n : Int) : Int :=
  if -0x8000000000000000 ≤ n ∧ n < 0x8000000000000000 then n.bmod 0x100000000 else -1

/-- The colour of the pixel at a place, which may count from the right and from below. Of each index
the last 32 bits count. -/
def pixelAt? (image : Image) (x y : Int) : Option Color :=
  let x := if shortIndex x < 0 then shortIndex x + image.size.width else shortIndex x
  let y := if shortIndex y < 0 then shortIndex y + image.size.height else shortIndex y
  if 0 ≤ x ∧ x < image.size.width ∧ 0 ≤ y ∧ y < image.size.height then some (image.pixel ⟨x, y⟩)
  else none

end Image

end Stencil
