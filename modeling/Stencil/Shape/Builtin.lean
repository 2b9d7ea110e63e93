import Stencil.Shape

/-!
# Shape/Builtin — the shapes that every library starts with

Six shapes in their fixed order: square, star, circle, heart, rhombus and triangle.
-/

namespace Stencil.Shape

/-- The point with whole coordinates. -/
private def vertex (x y : Nat) : Point :=
  ⟨Float.ofNat x, Float.ofNat y⟩

/-- The frame itself. -/
def square : Shape :=
  { name := "square", first := vertex 0 0, rest := [vertex 100 0, vertex 100 100, vertex 0 100]
    name_ne := by decide }

/-- A star with four points. -/
def star : Shape :=
  { name := "star", first := vertex 50 0
    rest := [
      vertex 60 40, vertex 100 50, vertex 60 60, vertex 50 100, vertex 40 60, vertex 0 50,
      vertex 40 40]
    name_ne := by decide }

/-- A circle of twenty-four sides, closed by its first vertex. -/
def circle : Shape :=
  { name := "circle", first := vertex 100 50
    rest := [
      vertex 98 37, vertex 93 25, vertex 85 15, vertex 75 7, vertex 63 2, vertex 50 0, vertex 37 2,
      vertex 25 7, vertex 15 15, vertex 7 25, vertex 2 37, vertex 0 50, vertex 2 63, vertex 7 75,
      vertex 15 85, vertex 25 93, vertex 37 98, vertex 50 100, vertex 63 98, vertex 75 93,
      vertex 85 85, vertex 93 75, vertex 98 63, vertex 100 50]
    name_ne := by decide }

/-- A heart, closed by its first vertex. -/
def heart : Shape :=
  { name := "heart", first := vertex 100 25
    rest := [
      vertex 99 19, vertex 97 13, vertex 93 7, vertex 88 3, vertex 81 1, vertex 75 0, vertex 69 1,
      vertex 63 3, vertex 57 7, vertex 53 13, vertex 51 19, vertex 50 25, vertex 49 19,
      vertex 47 13, vertex 43 7, vertex 38 3, vertex 31 1, vertex 25 0, vertex 19 1, vertex 13 3,
      vertex 7 7, vertex 3 13, vertex 1 19, vertex 0 25, vertex 50 100, vertex 100 25]
    name_ne := by decide }

/-- A square on one of its corners. -/
def rhombus : Shape :=
  { name := "rhombus", first := vertex 50 0, rest := [vertex 100 50, vertex 50 100, vertex 0 50]
    name_ne := by decide }

/-- A triangle that stands on the lower side of the frame. -/
def triangle : Shape :=
  { name := "triangle", first := vertex 0 100, rest := [vertex 50 0, vertex 100 100]
    name_ne := by decide }

/-- **The built-in shapes**, in their order. -/
def builtins : List Shape :=
  [square, star, circle, heart, rhombus, triangle]

theorem names_builtins :
    builtins.map name =
      ["square", "star", "circle", "heart", "rhombus", "triangle"].map Text.Loose.plain := rfl

end Stencil.Shape
