import Stencil.Polygon
import Stencil.Text.Loose

/-!
# Shape — named polygons

A `Shape` is a polygon with a name, given by one vertex or more in a frame of a hundred by a
hundred. It closes by itself: the last vertex need not repeat the first. `Shape.make` refuses an
empty name, a missing vertex and a polygon without any, in that order.
-/

namespace Stencil

/-- **A named polygon.** -/
structure Shape where
  name : Text.Loose
  first : Point
  rest : List Point
  name_ne : name ≠ .plain ""
  deriving Repr

namespace Shape

/-- Why a shape cannot be built. -/
inductive BuildError where
  | unnamed
  /-- A vertex is missing. -/
  | missingPoint
  | noPoints (name : Text.Loose)
  deriving Repr, DecidableEq

/-- The message of a shape that cannot be built. -/
def BuildError.message : BuildError → String
  | unnamed => "Shape names must not be None or empty"
  | missingPoint => "point must not be None"
  | noPoints name => "shape " ++ name.quoted ++ " requires at least one point"

/-- All the points of a list, none of which may be missing. -/
def allPoints : List (Option Point) → Except BuildError (List Point)
  | [] => .ok []
  | none :: _ => .error .missingPoint
  | some p :: rest => (allPoints rest).map (p :: ·)

/-- The shape of a name and a list of vertices. -/
def make (name : Text.Loose) (points : List (Option Point)) : Except BuildError Shape :=
  if h : name = .plain "" then .error .unnamed
  else
    match allPoints points with
    | .error e => .error e
    | .ok [] => .error (.noPoints name)
    | .ok (first :: rest) => .ok ⟨name, first, rest, h⟩

/-- The vertices in order. -/
def points (s : Shape) : List Point :=
  s.first :: s.rest

theorem points_ne_nil (s : Shape) : s.points ≠ [] :=
  List.cons_ne_nil _ _

/-- The number of vertices. -/
def count (s : Shape) : Nat :=
  s.points.length

/-- Two shapes are equal when their names and all their vertices are. -/
instance : BEq Shape where
  beq s t := s.name == t.name && s.points == t.points

/-- The box around the vertices. -/
def bounds (s : Shape) : Float × Float × Float × Float :=
  Polygon.bounds s.first s.rest

/-- The shape as the library's description shows it. -/
def describe (s : Shape) : String :=
  "Shape name : " ++ s.name.shown ++ "\npoints:\n" ++
    String.join (s.points.map fun p => p.describe ++ "\n")

/-- The shape in short. -/
def inspect (s : Shape) : String :=
  "Shape(" ++ s.name.quoted ++ s!", {s.count} points)"

theorem make_points (s : Shape) : make s.name (s.points.map some) = .ok s := by
  have h : ∀ ps : List Point, allPoints (ps.map some) = .ok ps := by
    intro ps
    induction ps with
    | nil => rfl
    | cons p ps ih => simp [allPoints, ih, Except.map]
  rw [make, dif_neg s.name_ne, h]
  rfl

end Shape

/-- Why there is no item at an index. -/
inductive IndexError where
  | outOfRange
  /-- The index needs more than 64 bits. -/
  | tooLarge
  deriving Repr, DecidableEq

/-- The message of an index without an item, in a list or some other kind of sequence. -/
def IndexError.message (kind : String) : IndexError → String
  | outOfRange => kind ++ " index out of range"
  | tooLarge => "cannot fit 'int' into an index-sized integer"

/-- The item at an index, where `-1` is the last one, `-2` the one before it, and so on. -/
def itemAt {α : Type} (items : List α) (index : Int) : Except IndexError α :=
  if -0x8000000000000000 ≤ index ∧ index < 0x8000000000000000 then
    let i := if index < 0 then index + items.length else index
    match if i < 0 then none else items[i.toNat]? with
    | some item => .ok item
    | none => .error .outOfRange
  else .error .tooLarge

end Stencil
