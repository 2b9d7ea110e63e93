import Stencil.Point

/-!
# Polygon — the measures of a ring of points

The area of a ring by the shoelace formula and the box that encloses it. The ring is closed by its
first point unless its last point already is the same.
-/

namespace Stencil.Polygon

/-- The lesser of two numbers; the first when they are equal, and what is not a number when there is
one. -/
def least (a b : Float) : Float :=
  if a ≤ b || a.isNaN then a else b

/-- The greater of two numbers; the first when they are equal, and what is not a number when there
is one. -/
def greatest (a b : Float) : Float :=
  if b ≤ a || a.isNaN then a else b

/-- **The box around some points**: least `x`, least `y`, greatest `x`, greatest `y`. -/
def bounds (first : Point) (rest : List Point) : Float × Float × Float × Float :=
  (rest.foldl (fun m p => least m p.x) first.x, rest.foldl (fun m p => least m p.y) first.y,
   rest.foldl (fun m p => greatest m p.x) first.x, rest.foldl (fun m p => greatest m p.y) first.y)

/-- The points with the first one at the end as well, unless it is there already. -/
def closed (points : List Point) : List Point :=
  match points, points.getLast? with
  | first :: _, some last => if first == last then points else points ++ [first]
  | _, _ => points

/-- Twice the signed area, summed over each three consecutive points; `origin` is the abscissa from
which the others are measured. -/
def doubleArea (origin : Float) (sum : Float) : List Point → Float
  | p :: q :: r :: rest =>
    doubleArea origin (sum + (q.x - origin) * (p.y - r.y)) (q :: r :: rest)
  | _ => sum

/-- **The area** that a ring encloses, whichever way it runs. -/
def area (points : List Point) : Float :=
  match closed points with
  | [] => 0
  | first :: rest => (doubleArea first.x 0 (first :: rest) / 2).abs

end Stencil.Polygon
