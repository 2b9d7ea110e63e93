import Stencil.Outline

/-!
# Axes — positions on two axes that need not match

`Axes` are the positions of vertices on two axes, each a list of its own. Moving changes one axis at
a time and never looks at the other. Turning pairs the positions up, for which the two lists have to
be equally long, or one of them a single position that is used over and over. For the axes of an
outline the pairs are its vertices (`pairs?_ofOutline`), and turning is what it is for the outline
(`rotate_ofOutline`).
-/

namespace Stencil

/-- **Positions on two axes.** -/
structure Axes where
  xs : List Int
  ys : List Int
  deriving Repr, DecidableEq

namespace Axes

/-- Why axes cannot be turned. -/
inductive Error where
  | number (error : Number.Error)
  /-- The lists have these different lengths, and neither is that of a single position. -/
  | unmatched (xs ys : Nat)
  /-- So many positions came out for an axis of so many. -/
  | unfit (given room : Nat)
  deriving Repr, DecidableEq

/-- The message of axes that cannot be turned. -/
def Error.message : Error → String
  | number e => e.message
  | unmatched xs ys => s!"operands could not be broadcast together with shapes ({xs},) ({ys},) "
  | unfit given room =>
    s!"could not broadcast input array from shape ({given},) into shape ({room},)"

/-- The axes of two lists of whole numbers. -/
def ofInts (xs ys : List Int) : Except Number.Error Axes := do
  let xs ← xs.mapM Number.word
  let ys ← ys.mapM Number.word
  return ⟨xs, ys⟩

/-- The axes of an outline. -/
def ofOutline (o : Outline) : Axes :=
  ⟨o.xs, o.ys⟩

/-- A list of positions moved. -/
def moveList (positions : List Int) (d : Int) : Except Number.Error (List Int) :=
  (Number.word d).map fun d => positions.map fun n => Number.wrap (n + d)

/-- **The axes moved** by an amount on each. When the second amount is no word, the first axis has
moved already. -/
def translate (a : Axes) (dx dy : Int) : Axes × Option Error :=
  match moveList a.xs dx with
  | .error e => (a, some (.number e))
  | .ok xs =>
    match moveList a.ys dy with
    | .error e => (⟨xs, a.ys⟩, some (.number e))
    | .ok ys => (⟨xs, ys⟩, none)

/-- The vertices that the positions make in pairs. -/
def pairs? (a : Axes) : Option Outline :=
  if a.xs.length = a.ys.length then some (List.zipWith Vertex.mk a.xs a.ys)
  else
    match a.xs, a.ys with
    | [x], ys => some (ys.map fun y => ⟨x, y⟩)
    | xs, [y] => some (xs.map fun x => ⟨x, y⟩)
    | _, _ => none

/-- The axes with the positions of an outline in place of their own. When these are too many or too
few for the second axis, the first one has them already. -/
def assign (a : Axes) (o : Outline) : Axes × Option Error :=
  if o.length ≠ a.xs.length then (a, some (.unfit o.length a.xs.length))
  else if o.length ≠ a.ys.length then (⟨o.xs, a.ys⟩, some (.unfit o.length a.ys.length))
  else (ofOutline o, none)

/-- **The axes turned** about a centre by an angle in degrees. -/
def rotate (a : Axes) (cx cy : Int) (degrees : Float) : Axes × Option Error :=
  match Outline.turning cx cy degrees with
  | .error e => (a, some (.number e))
  | .ok turn =>
    match a.pairs? with
    | none => (a, some (.unmatched a.xs.length a.ys.length))
    | some o => a.assign (o.map turn)

@[simp] theorem pairs?_ofOutline (o : Outline) : (ofOutline o).pairs? = some o := by
  simp [pairs?, ofOutline]

theorem assign_ofOutline {o p : Outline} (h : p.length = o.length) :
    (ofOutline o).assign p = (ofOutline p, none) := by
  simp [assign, ofOutline, h]

/-- Turning an outline's axes is turning the outline. -/
theorem rotate_ofOutline {o p : Outline} {cx cy : Int} {degrees : Float}
    (h : o.rotate cx cy degrees = .ok p) :
    (ofOutline o).rotate cx cy degrees = (ofOutline p, none) := by
  unfold Outline.rotate at h
  cases ht : Outline.turning cx cy degrees with
  | error e => simp [ht, Except.map] at h
  | ok turn =>
    simp only [ht, Except.map, Except.ok.injEq] at h
    simp [rotate, ht, ← h, assign_ofOutline]

end Axes

end Stencil
