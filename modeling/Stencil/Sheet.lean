import Stencil.Output

/-!
# Sheet — contact sheets

A contact sheet shows several drawings, or all the shapes of a library, in the cells of a grid, each
under its title. `Session.writeSheet` and `Session.writeLibrarySheet` make one and write it;
`Session.openWindows` shows pictures in windows of their own.
-/

namespace Stencil

/-- The title of a drawing without one of its own: its name, or its number. -/
def Drawing.title (d : Drawing) (i : Nat) : String :=
  match d.name with
  | some name => if name = "" then Decimal.intText i else name
  | none => Decimal.intText i

/-- The panel of a shape. -/
def Shape.panel (s : Shape) : Panel :=
  ⟨s.name.shown ++ s!" ({s.count})", .shape s⟩

namespace Session

/-- The width of a contact sheet's cell, in inches. -/
def drawingCell : Float := 3

/-- The width of a library sheet's cell, in inches. -/
def shapeCell : Float := 2.5

/-- The columns of a library sheet. -/
def libraryColumns : Int := 3

/-- The title of drawing `i`. -/
def titleOf (titles : Option (List String)) (d : Drawing) (i : Nat) : Work String :=
  match titles with
  | none => return d.title i
  | some titles =>
    match titles[i]? with
    | some title => return title
    | none => throw .noTitle

/-- The panels of drawings, the first of which is number `i`. A drawing that comes without its
picture is painted. -/
def drawingPanels (g : Generator) (titles : Option (List String)) :
    (i : Nat) → List (Drawing × Option Image) → Work (List Panel)
  | _, [] => return []
  | i, (d, image) :: rest => do
    let image ←
      match image with
      | some image => pure image
      | none => picture g d
    let title ← titleOf titles d i
    let panels ← drawingPanels g titles (i + 1) rest
    return ⟨title, .picture image⟩ :: panels

/-- A page of some size is begun. -/
def beginPage (inches : Float × Float) : Work Unit :=
  modify fun s => { s with openPages := s.openPages.push inches }

/-- The page begun last is written to a file, together with the folder it lies in. -/
def endPage (path : String) (page : Page) : Work Unit := do
  change fun store => store.makeParent path
  change fun store => store.write path (.page page)
  modify fun s => { s with openPages := s.openPages.pop }

/-- **Panels in a grid on a page that is written to a file.** The page is begun before its panels
are made, and stays open when one of them cannot be made or the page cannot be written. -/
def writePage (path : String) (grid : Grid) (cell : Float) (panels : Work (List Panel)) :
    Work Unit := do
  beginPage (Page.inchesOfGrid grid cell)
  let panels ← panels
  endPage path (Page.ofGrid grid cell (Format.ofPath path).name panels)

/-- Each drawing with its picture, where pictures are given. -/
def pairUp (drawings : List Drawing) : Option (List Image) → List (Drawing × Option Image)
  | none => drawings.map fun d => (d, none)
  | some images => List.zipWith (fun d image => (d, some image)) drawings images

/-- **A contact sheet of drawings.** -/
def writeSheet (g : Generator) (drawings : List Drawing) (path : String) (columns : Int)
    (titles : Option (List String)) (images : Option (List Image)) : Work Unit := do
  if drawings = [] then throw .noDrawings
  if let some images := images then
    if images.length ≠ drawings.length then
      throw (.pictureCount images.length drawings.length)
  writePage path (Grid.make drawings.length columns) drawingCell
    (drawingPanels g titles 0 (pairUp drawings images))

/-- **A contact sheet of a library's shapes.** -/
def writeLibrarySheet (library : Library) (path : String) (columns : Int) : Work Unit := do
  if library.count = 0 then throw .emptyLibrary
  writePage path (Grid.make library.count columns) shapeCell
    (pure (library.shapes.map Shape.panel))

/-- The size of a picture's window, a hundred pixels an inch. -/
def windowSize (image : Image) : Float × Float :=
  (Float.ofNat image.size.width / 100, Float.ofNat image.size.height / 100)

/-- **One window for each picture**, after those of the pages that are still open. -/
def openWindows (images : List Image) : Work Unit :=
  modify fun s =>
    { s with windows := s.windows ++ s.openPages ++ (images.map windowSize).toArray }

/-- The pictures of drawings, in order. -/
def pictures (g : Generator) : List Drawing → Work (List Image)
  | [] => return []
  | d :: rest => do
    let image ← picture g d
    let images ← pictures g rest
    return image :: images

end Session

end Stencil
