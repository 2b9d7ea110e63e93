import Stencil.Grid
import Stencil.Image
import Stencil.Surface.Figure

/-!
# Page — drawings on paper

A `Page` is a sheet of paper of some size with panels on it, and what it takes to print it. A panel
shows a picture, a shape in its frame, a whole figure, or nothing; what its axes look like follows
from that.
-/

namespace Stencil

/-- **What a panel shows.** -/
inductive Exhibit where
  | nothing
  | picture (image : Image)
  | shape (shape : Shape)
  | figure (figure : Surface.Figure)

/-- The ends of the two axes of a panel. -/
structure Limits where
  x : Float × Float
  y : Float × Float
  deriving Repr

namespace Exhibit

/-- Whether the panel has visible axes. -/
def isFramed : Exhibit → Bool
  | nothing => false
  | picture _ => true
  | shape _ => true
  | figure _ => false

/-- The number of polygons in the panel. -/
def polygonCount : Exhibit → Nat
  | nothing => 0
  | picture _ => 0
  | shape _ => 1
  | figure f => f.patches.size

/-- The number of pictures in the panel. -/
def pictureCount : Exhibit → Nat
  | picture _ => 1
  | _ => 0

/-- The ends of the panel's axes: the vertical one points down, except in an empty panel. A pixel of
a picture has its middle at a whole number. -/
def limits : Exhibit → Limits
  | nothing => ⟨(0, 1), (0, 1)⟩
  | picture image =>
    ⟨(-0.5, Float.ofNat image.size.width - 0.5), (Float.ofNat image.size.height - 0.5, -0.5)⟩
  | shape _ => ⟨(-5, 105), (105, -5)⟩
  | figure f => ⟨f.limits.1, f.limits.2⟩

end Exhibit

/-- **A part of a page.** -/
structure Panel where
  title : String
  exhibit : Exhibit

/-- The panel that shows nothing. -/
def Panel.unused : Panel :=
  ⟨"", .nothing⟩

/-- **A printed sheet of paper.** -/
structure Page where
  /-- The file format, where one is asked for. -/
  format : Option String
  /-- Dots an inch. -/
  dpi : Int
  /-- Width and height in inches. -/
  inches : Float × Float
  /-- The colour of the paper. -/
  paper : Color
  /-- The panels in a row. -/
  columns : Nat
  /-- The panels, row by row. -/
  panels : List Panel

namespace Page

/-- The page of a single figure. -/
def ofFigure (f : Surface.Figure) (format : Option String) : Page :=
  ⟨format, f.dpi, f.inches, f.ground, 1, [⟨"", .figure f⟩]⟩

/-- The size of a page of square cells of so many inches. -/
def inchesOfGrid (grid : Grid) (cell : Float) : Float × Float :=
  (cell * Float.ofNat grid.columns, cell * Float.ofNat grid.rows)

/-- **A page of panels in a grid**, each in a square cell of so many inches. -/
def ofGrid (grid : Grid) (cell : Float) (format : String) (panels : List Panel) : Page :=
  { format := some format
    dpi := 150
    inches := inchesOfGrid grid cell
    paper := Color.white
    columns := grid.columns
    panels := grid.fill Panel.unused panels }

end Page

end Stencil
