import Stencil.Generator
import Stencil.Gradient
import Stencil.Library
import Stencil.Script
import Stencil.Surface

/-!
# Drawing — a script painted with the shapes of a library

A `Drawing` is a script with the library that its stamps take their shapes from. `Drawing.paint`
paints it on any surface: first the ground, then every stamp in order. A stamp puts down its shape
once, then its copies, each turned first and then moved, and last a turned one.

Painting is a run over an `Easel`, which holds the surface and the bounds that the generator was
asked for. When painting fails, what was painted before stays on the easel.
-/

namespace Stencil

namespace Stamp

/-- Whether a stamp is filled or drawn in outline. -/
def style (s : Stamp) : Style :=
  if s.filled then .filled else .outlined

/-- The centre that a stamp's copies are turned about: the middle of its frame. -/
def center (s : Stamp) : Vertex :=
  ⟨s.x.raw + s.scale / 2, s.y.raw + s.scale / 2⟩

end Stamp

/-- **A script and the shapes it needs.** -/
structure Drawing where
  library : Library
  script : Script
  name : Option String
  deriving Repr

namespace Drawing

/-- **Why a drawing cannot be painted.** -/
inductive Error where
  /-- The library has no shape of that name. -/
  | noShape (name : Text.Loose)
  | refused (refusal : Refusal)
  | number (error : Number.Error)
  deriving Repr, DecidableEq

/-- The message of a drawing that cannot be painted. -/
def Error.message : Error → String
  | noShape name => Library.notFoundMessage name
  | refused refusal => refusal.message
  | number error => error.message

/-- The canvas of the drawing. -/
def canvas (d : Drawing) : Canvas := d.script.canvas

/-- **A surface at work**, and the bounds asked of the generator, in order. -/
structure Easel (σ : Type) where
  surface : σ
  calls : Array Nat
  deriving Repr

/-- A step of painting. -/
abbrev Painting (σ : Type) := ExceptT Error (StateM (Easel σ))

section

variable {σ : Type} [Surface σ]

/-! ## Single steps -/

/-- A number that painting needs. -/
def compute {α : Type} (x : Except Number.Error α) : Painting σ α :=
  match x with
  | .ok a => pure a
  | .error e => throw (.number e)

/-- A call of the surface. -/
def call (action : Surface.Action σ Unit) : Painting σ Unit := do
  let easel ← get
  let (answer, surface) := (ExceptT.run action).run easel.surface
  set { easel with surface := surface }
  match answer with
  | .ok () => pure ()
  | .error refusal => throw (.refused refusal)

/-- The colour of the polygons to come. -/
def setColor (color : Color) : Painting σ Unit :=
  modify fun easel => { easel with surface := Surface.setColor color easel.surface }

/-- A polygon of a whole outline. -/
def putDown (style : Style) (outline : Outline) : Painting σ Unit :=
  call (Surface.paintPolygon style outline.xs outline.ys outline.length)

/-- The generator's next answer. -/
def ask (g : Generator) (bound : Nat) : Painting σ Int := do
  let easel ← get
  set { easel with calls := easel.calls.push bound }
  return (g.answer easel.calls bound : Nat)

/-! ## The ground -/

/-- The bands of a gradient with the given indices. -/
def paintBands (canvas : Canvas) (start finish : Color) : List Int → Painting σ Unit
  | [] => pure ()
  | i :: rest => do
    let (color, outline) ← compute (canvas.coloredBand start finish i)
    setColor color
    putDown .filled outline
    paintBands canvas start finish rest

/-- **The ground of a canvas.** -/
def paintGround (canvas : Canvas) : Painting σ Unit :=
  match canvas.ground with
  | .solid color => call (Surface.paintGround color)
  | .gradient start finish _ _ => paintBands canvas start finish canvas.bandIndices

/-! ## Stamps -/

/-- A turned copy, which is put down where it is. -/
def paintTurned (s : Stamp) (degrees : Int) (outline : Outline) : Painting σ Outline := do
  let degrees ← compute (Number.double degrees)
  let turned ← compute (outline.rotate s.center.x s.center.y degrees)
  putDown s.style turned
  return turned

/-- The distance of a copy on one axis: a random pixel of the canvas, or the stamp's own. -/
def copyOffset (g : Generator) (place : Coordinate) (extent : Nat) (own : Int) : Painting σ Int :=
  if place.isRandom then ask g extent else pure own

/-- A moved copy. A copy on a random place leaves the outline where it was; any other one moves it
on. -/
def paintMoved (canvas : Canvas) (g : Generator) (s : Stamp) (outline : Outline) :
    Painting σ Outline := do
  let dx ← copyOffset g s.x canvas.width s.offsetX
  let dy ← copyOffset g s.y canvas.height s.offsetY
  let moved ← compute (outline.translate dx dy)
  putDown s.style moved
  if s.hasRandomAxis then compute (moved.translate (-dx) (-dy)) else return moved

/-- So many copies, each made from the one before. -/
def paintCopies (canvas : Canvas) (g : Generator) (s : Stamp) : Nat → Outline → Painting σ Outline
  | 0, outline => return outline
  | n + 1, outline => do
    let outline ←
      if 0 < s.repeatRotate then paintTurned s s.repeatRotate outline else pure outline
    let outline ← paintMoved canvas g s outline
    paintCopies canvas g s n outline

/-- The outline that a stamp starts with. Its place counts unless both axes are random; a single
random axis counts with the number that stands for it. -/
def placed (s : Stamp) (outline : Outline) : Except Number.Error Outline :=
  if s.x.isRandom && s.y.isRandom then .ok outline else outline.translate s.x.raw s.y.raw

/-- **One stamp.** -/
def paintStamp (d : Drawing) (g : Generator) (s : Stamp) : Painting σ Unit := do
  match d.library.find? s.shape with
  | none => throw (.noShape s.shape)
  | some shape =>
    let outline ← compute (shape.scaled s.scale)
    setColor s.color
    let outline ← compute (placed s outline)
    putDown s.style outline
    let outline ← paintCopies d.canvas g s (s.repeats - 1) outline
    if 1 < s.rotate then
      let _ ← paintTurned s s.rotate outline

/-- Several stamps in order. -/
def paintStamps (d : Drawing) (g : Generator) : List Stamp → Painting σ Unit
  | [] => pure ()
  | s :: rest => do
    paintStamp d g s
    paintStamps d g rest

/-- The whole drawing. -/
def painting (d : Drawing) (g : Generator) : Painting σ Unit := do
  paintGround d.canvas
  paintStamps d g d.script.stamps

/-- **The drawing painted on a surface**: the outcome, and the easel as it was left. The generator
has been asked for the bounds `calls` before. -/
def paint (d : Drawing) (g : Generator) (surface : σ) (calls : Array Nat) :
    Except Error Unit × Easel σ :=
  ((painting d g).run).run ⟨surface, calls⟩

end

/-! ## Descriptions -/

/-- The drawing as descriptions show it. -/
def describe (d : Drawing) : String :=
  d.script.describe

/-- What is said of a drawing before it is painted. -/
def announcement (d : Drawing) : String :=
  let name := match d.name with
    | some name => if name = "" then "drawing" else name
    | none => "drawing"
  let ground := if d.canvas.isGradient then "gradient" else "solid"
  s!"rendering {name}: {d.canvas.width}x{d.canvas.height} {ground}, " ++
    s!"{d.script.stamps.length} instructions"

end Drawing

end Stencil
