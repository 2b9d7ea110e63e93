import Stencil.Number
import Stencil.Shape

/-!
# Outline — a shape in pixels

An `Outline` is a ring of vertices at whole pixel positions. `Shape.scaled` makes one from a shape;
`translate` and `rotate` move it. Positions have 64 bits, and `translate` wraps around there;
scaling and rotation saturate at 32 bits. Every one of them keeps the number of vertices
(`length_scaled`, `length_translate`, `length_rotate`).
-/

namespace Stencil

/-- **A pixel position.** -/
structure Vertex where
  x : Int
  y : Int
  deriving Repr, DecidableEq, Inhabited

/-- **A ring of pixel positions**, closed by itself. -/
abbrev Outline := List Vertex

namespace Outline

/-- The positions along the first axis. -/
def xs (o : Outline) : List Int := o.map Vertex.x

/-- The positions along the second axis. -/
def ys (o : Outline) : List Int := o.map Vertex.y

@[simp] theorem length_xs (o : Outline) : o.xs.length = o.length := by simp [xs]

@[simp] theorem length_ys (o : Outline) : o.ys.length = o.length := by simp [ys]

@[simp] theorem zipWith_xs_ys (o : Outline) : List.zipWith Vertex.mk o.xs o.ys = o := by
  simp [xs, ys]

/-- The outline moved along the first axis. -/
def moveX (o : Outline) (dx : Int) : Except Number.Error Outline :=
  (Number.word dx).map fun dx => o.map fun v => ⟨Number.wrap (v.x + dx), v.y⟩

/-- The outline moved along the second axis. -/
def moveY (o : Outline) (dy : Int) : Except Number.Error Outline :=
  (Number.word dy).map fun dy => o.map fun v => ⟨v.x, Number.wrap (v.y + dy)⟩

/-- **The outline moved** by an amount on each axis. -/
def translate (o : Outline) (dx dy : Int) : Except Number.Error Outline :=
  (o.moveX dx).bind fun o => o.moveY dy

/-- The number of radians of a degree. -/
def radian : Float := 3.141592653589793 / 180

/-- A vertex turned about a centre, by the angle of the given cosine and sine. The vertical axis
points down, so a positive angle turns clockwise. -/
def turn (cosine sine cx cy : Float) (wcx wcy : Int) (v : Vertex) : Vertex :=
  let dx := Float.ofInt (Number.wrap (v.x - wcx))
  let dy := Float.ofInt (Number.wrap (v.y - wcy))
  ⟨Number.toPixel (cosine * dx - sine * dy + cx), Number.toPixel (sine * dx + cosine * dy + cy)⟩

/-- The turning of vertices about a centre by an angle in degrees. -/
def turning (cx cy : Int) (degrees : Float) : Except Number.Error (Vertex → Vertex) :=
  let angle := degrees * radian
  if angle.isInf then .error .infiniteAngle
  else
    (Number.word cx).bind fun cx => (Number.word cy).map fun cy =>
      turn angle.cos angle.sin (Float.ofInt cx) (Float.ofInt cy) cx cy

/-- **The outline turned** about a centre by an angle in degrees. -/
def rotate (o : Outline) (cx cy : Int) (degrees : Float) : Except Number.Error Outline :=
  (turning cx cy degrees).map o.map

theorem length_moveX {o p : Outline} {dx : Int} (h : o.moveX dx = .ok p) :
    p.length = o.length := by
  unfold moveX at h
  cases hx : Number.word dx with
  | error e => simp [hx, Except.map] at h
  | ok x =>
    simp only [hx, Except.map, Except.ok.injEq] at h
    simp [← h]

theorem length_moveY {o p : Outline} {dy : Int} (h : o.moveY dy = .ok p) :
    p.length = o.length := by
  unfold moveY at h
  cases hy : Number.word dy with
  | error e => simp [hy, Except.map] at h
  | ok y =>
    simp only [hy, Except.map, Except.ok.injEq] at h
    simp [← h]

theorem length_translate {o p : Outline} {dx dy : Int} (h : o.translate dx dy = .ok p) :
    p.length = o.length := by
  unfold translate at h
  cases hx : o.moveX dx with
  | error e => simp [hx, Except.bind] at h
  | ok q =>
    simp only [hx, Except.bind] at h
    rw [length_moveY h, length_moveX hx]

theorem length_rotate {o p : Outline} {cx cy : Int} {degrees : Float}
    (h : o.rotate cx cy degrees = .ok p) : p.length = o.length := by
  unfold rotate at h
  cases ht : turning cx cy degrees with
  | error e => simp [ht, Except.map] at h
  | ok turn =>
    simp only [ht, Except.map, Except.ok.injEq] at h
    simp [← h]

end Outline

namespace Shape

/-- **The shape at a size in percent** of its own frame, in whole pixels. -/
def scaled (s : Shape) (percent : Int) : Except Number.Error Outline :=
  (Number.double percent).map fun percent =>
    let factor := percent / 100
    s.points.map fun p => ⟨Number.toPixel (p.x * factor), Number.toPixel (p.y * factor)⟩

theorem length_scaled {s : Shape} {percent : Int} {o : Outline} (h : s.scaled percent = .ok o) :
    o.length = s.count := by
  unfold scaled at h
  cases hp : Number.double percent with
  | error e => simp [hp, Except.map] at h
  | ok x =>
    simp only [hp, Except.map, Except.ok.injEq] at h
    simp [← h, count]

end Shape

end Stencil
