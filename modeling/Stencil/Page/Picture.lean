import Stencil.Image.Png
import Stencil.Page

/-!
# Page/Picture — a page in dots

Every panel of a page is a box of dots, and shows the marks of its exhibit as large as they fit
there. `Page.dots` are the rows of the whole page. Titles are left out: they are only written where
a page keeps text.
-/

namespace Stencil

namespace Exhibit

/-- The colour inside the shapes of a library's sheet. -/
def shapeColor : Color := Color.ofInts 51 115 242

/-- The vertices of a shape in its own frame. -/
def shapeOutline (s : Shape) : Outline :=
  s.points.map fun p => ⟨Number.toPixel p.x, Number.toPixel p.y⟩

/-- **What is painted in a panel**, in its order. -/
def marks : Exhibit → List Mark
  | nothing => []
  | picture image => image.layers.reverse
  | shape s =>
    [.polygon .filled shapeColor (shapeOutline s), .polygon .outlined Color.black (shapeOutline s)]
  | figure f =>
    .ground f.ground :: f.patches.toList.map fun p => .polygon p.style p.color p.outline

/-- The corner of what a panel shows. -/
def corner : Exhibit → Vertex
  | shape _ => ⟨-5, -5⟩
  | _ => ⟨0, 0⟩

/-- The size of what a panel shows. -/
def size : Exhibit → Size
  | nothing => ⟨1, 1, Nat.one_pos, Nat.one_pos⟩
  | picture image => image.size
  | shape _ => ⟨110, 110, by decide, by decide⟩
  | figure f => f.size

/-- The colours that a panel shows, row by row. -/
def colors (e : Exhibit) : Array (Array Color) :=
  let image : Image := ⟨e.size, e.marks.reverse⟩
  Array.ofFn fun y : Fin e.size.height =>
    Array.ofFn fun x : Fin e.size.width =>
      image.pixel ⟨e.corner.x + (x.val : Int), e.corner.y + (y.val : Int)⟩

end Exhibit

/-- **A part of a page**, in dots. -/
structure Box where
  left : Nat
  top : Nat
  width : Nat
  height : Nat
  deriving Repr, DecidableEq

/-- The position in a picture of some size that a dot of the box shows, when the picture is as large
as it fits into the box. -/
def Box.position (b : Box) (size : Size) (x y : Nat) : Nat × Nat :=
  if b.width * size.height ≤ b.height * size.width then
    ((x - b.left) * size.width / b.width, (y - b.top) * size.width / b.width)
  else ((x - b.left) * size.height / b.height, (y - b.top) * size.height / b.height)

namespace Page

/-- So many inches in dots, one at least. -/
def dotsOf (p : Page) (inches : Float) : Nat :=
  max 1 (inches * Float.ofInt p.dpi).toUInt64.toNat

/-- The rows of panels. -/
def rowCount (p : Page) : Nat :=
  max 1 ((p.panels.length + p.columns - 1) / max 1 p.columns)

/-- The cell of a panel. -/
def cell (p : Page) (i : Nat) : Box :=
  let width := max 1 (p.dotsOf p.inches.1 / max 1 p.columns)
  let height := max 1 (p.dotsOf p.inches.2 / p.rowCount)
  ⟨i % max 1 p.columns * width, i / max 1 p.columns * height, width, height⟩

/-- The part of its cell in which a panel shows something: a frame leaves a margin. -/
def box (p : Page) (i : Nat) (e : Exhibit) : Box :=
  let cell := p.cell i
  if e.isFramed then
    ⟨cell.left + cell.width / 10, cell.top + cell.height / 10, cell.width * 4 / 5,
      cell.height * 4 / 5⟩
  else cell

/-- The colours of a page, a row for each dot of its height. -/
def dots (p : Page) : List (List Color) :=
  let panels := (p.panels.map fun panel => (panel.exhibit, panel.exhibit.colors)).toArray
  let cell := p.cell 0
  let color (x y : Nat) : Color :=
    let i := y / cell.height * p.columns + min (x / cell.width) (p.columns - 1)
    match panels[i]? with
    | none => p.paper
    | some (.nothing, _) => p.paper
    | some (e, colors) =>
      let box := p.box i e
      if x < box.left || y < box.top then p.paper
      else
        let (u, v) := box.position e.size x y
        ((colors[v]?).bind fun row => row[u]?).getD p.paper
  (List.range (p.dotsOf p.inches.2)).map fun y => (List.range (p.dotsOf p.inches.1)).map (color · y)

/-- **The file of a page as a picture.** -/
def toPng (p : Page) : ByteArray :=
  Png.encode (p.dotsOf p.inches.1) (p.dotsOf p.inches.2) p.dots

end Page

end Stencil
