import Stencil.Canvas
import Stencil.Outline

/-!
# Gradient — the bands of a graded canvas

A gradient is painted as a row of overlapping bands, each a little nearer to the last colour than
the one before it; a later band covers what an earlier one left too far. `Canvas.band` is the
outline of one band, `Color.step` its colour, and `Canvas.bands?` all of them in order.
-/

namespace Stencil

/-! ## Colours -/

namespace Channel

/-- The channel a fraction of the way between two others. -/
def mix (start finish : Channel) (ratio : Float) : Float :=
  Float.ofNat finish.val * ratio + Float.ofNat start.val * (1 - ratio)

end Channel

namespace Color

/-- The colour a fraction of the way between two others. -/
def mix (start finish : Color) (ratio : Float) : Except Number.Error Color := do
  let red ← Number.wholePart (Channel.mix start.red finish.red ratio)
  let green ← Number.wholePart (Channel.mix start.green finish.green ratio)
  let blue ← Number.wholePart (Channel.mix start.blue finish.blue ratio)
  return ofInts red green blue

/-- **The colour of step `i`** of so many from one colour towards another. -/
def step (start finish : Color) (i steps : Int) : Except Number.Error Color :=
  (Number.quotient i steps).bind fun ratio => mix start finish ratio

end Color

/-! ## Bands -/

namespace Direction

/-- The number of bands. -/
def steps : Direction → Nat
  | down => 100
  | right => 100
  | downRight => 150
  | downLeft => 110

end Direction

namespace Canvas

/-- The outline with these positions, which have to fit their 64 bits. -/
def ring (vertices : List (Int × Int)) : Except Number.Error Outline :=
  vertices.mapM fun (x, y) => do
    let x ← Number.word x
    let y ← Number.word y
    return ⟨x, y⟩

/-- The length of the diagonal of the canvas, without its fraction. -/
def diagonal (c : Canvas) : Except Number.Error Int := do
  let square ← Number.double ((c.width : Int) * c.width + (c.height : Int) * c.height)
  Number.wholePart square.sqrt

/-- A diagonal band: it starts at the given share of the height, in percent, and is turned by the
angle. -/
def slanted (c : Canvas) (share : Int) (degrees : Float) : Except Number.Error Outline := do
  let length ← c.diagonal
  let height : Int := c.height
  let top := (height * share).tdiv 100
  let outline ← ring [(0, top), (length, top), (length, 2 * height), (0, 2 * height)]
  outline.rotate (length / 2) (top + height / 2) degrees

/-- **The outline of band `i`.** -/
def band (c : Canvas) (i : Int) : Except Number.Error Outline :=
  let width : Int := c.width
  let height : Int := c.height
  match c.direction with
  | .down =>
    let top := (height * (i - 1)).tdiv 100
    ring [(0, top), (width, top), (width, top + height), (0, top + height)]
  | .right =>
    let left := (width * (i - 1)).tdiv 100
    ring [(left, 0), (left + width, 0), (left + width, height), (left, height)]
  | .downRight => c.slanted (i - 40) (-15)
  | .downLeft => c.slanted (i - 5) 110

/-- The indices of the bands. -/
def bandIndices (c : Canvas) : List Int :=
  (List.range c.direction.steps).map Int.ofNat

/-- The outline and the colour of band `i` between two colours. -/
def coloredBand (c : Canvas) (start finish : Color) (i : Int) :
    Except Number.Error (Color × Outline) := do
  let outline ← c.band i
  let color ← Color.step start finish i c.direction.steps
  return (color, outline)

/-- What is said of a canvas whose bands are asked for and that has none. -/
def noGradientMessage : String := "canvas has no gradient"

/-- **The bands in the order in which they are painted**; nothing for a plain canvas. -/
def bands? (c : Canvas) : Option (List (Except Number.Error (Color × Outline))) :=
  match c.ground with
  | .solid _ => none
  | .gradient start finish _ _ => some (c.bandIndices.map (c.coloredBand start finish))

end Canvas

end Stencil
