import Stencil.Decimal.Notation

/-!
# Point — points of the template frame

A `Point` has two floating-point coordinates. Points are compared coordinate by coordinate as
numbers are: zero equals its negative, and what is not a number equals nothing.
-/

namespace Stencil

/-- **A point.** -/
structure Point where
  x : Float
  y : Float
  deriving Repr, Inhabited

namespace Point

instance : BEq Point where
  beq p q := p.x == q.x && p.y == q.y

/-- The length of the vector with these two coordinates. -/
def norm (x y : Float) : Float :=
  (x * x + y * y).sqrt

/-- The distance from the origin. -/
def distanceToOrigin (p : Point) : Float :=
  norm p.x p.y

/-- The distance between two points. -/
def distance (p q : Point) : Float :=
  norm (p.x - q.x) (p.y - q.y)

/-- The point halfway between two others. -/
def midpoint (p q : Point) : Point :=
  ⟨(p.x + q.x) / 2, (p.y + q.y) / 2⟩

/-- The point as descriptions show it. -/
def describe (p : Point) : String :=
  "(" ++ Decimal.floatText p.x ++ ", " ++ Decimal.floatText p.y ++ ")"

end Point

end Stencil
