import Stencil.Surface.Recording

/-!
# Surface/Figure — a surface of shapes on paper

A `Figure` is measured in inches, at so many dots an inch. It keeps the patches that are put on it:
a filled one has a face and a thin edge, an outline has a thicker edge and no face. `Figure.limits`
are the axes' ends: the whole canvas, with the vertical axis pointing down.
-/

namespace Stencil.Surface

/-- **A polygon on paper.** -/
structure Patch where
  style : Style
  color : Color
  outline : Outline
  deriving Repr, DecidableEq

namespace Patch

/-- The width of a patch's edge, in points. -/
def lineWidth (p : Patch) : Float :=
  match p.style with
  | .filled => 0.5
  | .outlined => 1

/-- The colour with full opacity, each channel on the scale from nought to one. -/
def opaqueUnit (c : Color) : List Float :=
  c.unit ++ [1]

/-- The colour of a patch's edge. -/
def edge (p : Patch) : List Float :=
  opaqueUnit p.color

/-- The colour of a patch's face; an outline has none. -/
def face? (p : Patch) : Option (List Float) :=
  match p.style with
  | .filled => some (opaqueUnit p.color)
  | .outlined => none

/-- Whether two vertices are the same in the form that all the positions come together in. The
positions on one axis come together first, and then the two axes. -/
def sameVertex (o : Outline) (v w : Vertex) : Bool :=
  let x := Number.Form.ofInts o.xs
  let y := Number.Form.ofInts o.ys
  let form (axis : Number.Form) := if x.join y = .double then .double else axis
  (form x).same v.x w.x && (form y).same v.y w.y

/-- The vertices with the first one at the end as well, unless several are there and the last one is
the same already. -/
def close (o : Outline) : Outline :=
  match o, o.getLast? with
  | first :: _ :: _, some last => if sameVertex o first last then o else o ++ [first]
  | _, _ => o ++ o

/-- The outline of a patch on paper: closed, with the nearest positions that doubles have. -/
def closedOutline (p : Patch) : Outline :=
  (close p.outline).map fun v => ⟨Number.nearest v.x, Number.nearest v.y⟩

end Patch

/-- **The surface of shapes on paper.** -/
structure Figure where
  size : Size
  /-- Dots an inch. -/
  dpi : Int
  /-- Width and height in inches. -/
  inches : Float × Float
  color : Color
  /-- The colour of the paper. -/
  ground : Color
  patches : Array Patch
  deriving Repr

namespace Figure

/-- Why there is no figure of some size. -/
inductive SizeError where
  | number (error : Number.Error)
  /-- The size in inches is negative. -/
  | negative (width height : Float)
  /-- The axes are too long for 64 bits. -/
  | tooLong
  deriving Repr

/-- The message of a figure that is not to be had. -/
def SizeError.message : SizeError → String
  | number e => e.message
  | negative width height =>
    "figure size must be positive finite not (" ++ Decimal.floatText width ++ ", " ++
      Decimal.floatText height ++ ")"
  | tooLong => "axes too long"

/-- The surface before anything has been done: white paper. -/
def blank (size : Size) (dpi : Int) : Except SizeError Figure :=
  match Number.quotient size.width dpi, Number.quotient size.height dpi with
  | .error e, _ => .error (.number e)
  | .ok _, .error e => .error (.number e)
  | .ok width, .ok height =>
    if width < 0 || height < 0 then .error (.negative width height)
    else
      match Number.double dpi with
      | .error e => .error (.number e)
      | .ok _ =>
        if 0x10000000000000000 ≤ size.width ∨ 0x10000000000000000 ≤ size.height then
          .error .tooLong
        else .ok ⟨size, dpi, (width, height), Color.black, Color.white, #[]⟩

/-- The surface with one patch more, in its colour. -/
def add (f : Figure) (style : Style) (outline : Outline) : Figure :=
  { f with patches := f.patches.push ⟨style, f.color, outline⟩ }

instance : Surface Figure where
  setColor color f := { f with color := color }
  paintGround color := modify fun f => { f with ground := color }
  paintPolygon style xs ys count :=
    checked (nearVertices .tooFar xs ys count) fun outline f => f.add style outline

theorem polygon_eq (style : Style) (xs ys : List Int) (count : Int) (f : Figure) :
    polygon style xs ys count f =
      (nearVertices .tooFar xs ys count).map fun outline => f.add style outline :=
  result_checked _ _ f

/-- The ends of the two axes. -/
def limits (f : Figure) : (Float × Float) × (Float × Float) :=
  ((0, Float.ofNat f.size.width), (Float.ofNat f.size.height, 0))

end Figure

end Stencil.Surface
