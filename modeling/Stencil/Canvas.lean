import Stencil.Color

/-!
# Canvas — the size and the ground of a drawing

A `Canvas` has a positive width and height, a ground, and a direction along which a gradient runs.
The ground is one colour or a gradient between two colours that differ. `Canvas.make` accepts any
numbers and any choice of colours and brings them to that form; `make_self` says that a canvas made
again from its own parts is the same canvas.
-/

namespace Stencil

/-- **The way a gradient runs** across the canvas. -/
inductive Direction where
  | down
  | right
  | downRight
  | downLeft
  deriving Repr, DecidableEq

namespace Direction

/-- The number that stands for a direction. -/
def code : Direction → Nat
  | down => 0
  | right => 1
  | downRight => 2
  | downLeft => 3

/-- The direction that a number stands for; one that stands for none means downwards. -/
def ofInt (n : Int) : Direction :=
  if n = 1 then right else if n = 2 then downRight else if n = 3 then downLeft else down

@[simp] theorem ofInt_code (d : Direction) : ofInt d.code = d := by
  cases d <;> rfl

end Direction

/-- **What a canvas is painted with** before anything is drawn on it. -/
inductive Ground where
  | solid (color : Color)
  /-- A gradient; `beneath` is a plain colour that was asked for as well and is not painted. -/
  | gradient (start finish : Color) (beneath : Option Color) (differ : start ≠ finish)
  deriving Repr, DecidableEq

namespace Ground

/-- The ground that a choice of colours asks for. A single end of a gradient, or two equal ends,
make a plain ground of that colour; with no colour at all the ground is white. -/
def choose (solid start finish : Option Color) : Ground :=
  match start, finish with
  | some s, some f => if h : s = f then .solid s else .gradient s f solid h
  | some s, none => .solid s
  | none, some f => .solid f
  | none, none => .solid (solid.getD Color.white)

/-- The plain colour of a ground. -/
def solid? : Ground → Option Color
  | solid color => some color
  | gradient _ _ beneath _ => beneath

/-- The colour in which a gradient starts. -/
def start? : Ground → Option Color
  | solid _ => none
  | gradient start _ _ _ => some start

/-- The colour in which a gradient ends. -/
def finish? : Ground → Option Color
  | solid _ => none
  | gradient _ finish _ _ => some finish

@[simp] theorem choose_parts (g : Ground) : choose g.solid? g.start? g.finish? = g := by
  cases g with
  | solid color => rfl
  | gradient start finish beneath differ => simp [choose, solid?, start?, finish?, differ]

end Ground

/-- **The canvas of a drawing.** -/
structure Canvas where
  width : Nat
  height : Nat
  ground : Ground
  direction : Direction
  width_pos : 0 < width
  height_pos : 0 < height
  deriving Repr, DecidableEq

namespace Canvas

/-- A size that is lifted to one is positive. -/
theorem lift_pos (n : Int) : 0 < (max 1 n).toNat := by omega

/-- The canvas nearest to what is asked for: a size below one is lifted to one. -/
def make (width height : Int) (solid start finish : Option Color) (direction : Int) : Canvas :=
  { width := (max 1 width).toNat
    height := (max 1 height).toNat
    ground := Ground.choose solid start finish
    direction := Direction.ofInt direction
    width_pos := lift_pos width
    height_pos := lift_pos height }

/-- The plain colour of the canvas. -/
def solid? (c : Canvas) : Option Color := c.ground.solid?

/-- The colour in which the canvas's gradient starts. -/
def start? (c : Canvas) : Option Color := c.ground.start?

/-- The colour in which the canvas's gradient ends. -/
def finish? (c : Canvas) : Option Color := c.ground.finish?

/-- Whether the canvas is painted with a gradient. -/
def isGradient (c : Canvas) : Bool := c.start?.isSome

@[simp] theorem make_self (c : Canvas) :
    make c.width c.height c.solid? c.start? c.finish? c.direction.code = c := by
  obtain ⟨width, height, ground, direction, hw, hh⟩ := c
  simp only [make, solid?, start?, finish?, Ground.choose_parts, Direction.ofInt_code,
    Canvas.mk.injEq, and_self, and_true]
  omega

/-- The canvas as descriptions show it. -/
def describe (c : Canvas) : String :=
  let solid := Color.describe? c.solid?
  let start := Color.describe? c.start?
  let finish := Color.describe? c.finish?
  let gradient := if c.isGradient then "True" else "False"
  "Canvas:\n" ++
  s!"Width: {c.width} Height: {c.height}\n" ++
  s!"colorSolid: {solid} colorStart: {start}\n" ++
  s!"colorEnd: {finish} gradDirection: {c.direction.code}\n" ++
  s!"isGradient: {gradient}\n"

end Canvas

end Stencil
