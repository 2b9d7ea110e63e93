import Stencil.Shape.Builtin

/-!
# Library — shapes by name

A `Library` holds shapes in the order in which they were added, no two of one name. `add` refuses a
shape whose name is taken, `find?` looks one up by name and `item` by its place.
-/

namespace Stencil

/-- **A collection of shapes** with distinct names. -/
structure Library where
  shapes : List Shape
  nodup : (shapes.map Shape.name).Nodup
  deriving Repr

namespace Library

/-- Why a library cannot take a shape. -/
inductive AddError where
  /-- The shape is missing. -/
  | missingShape
  | duplicate (name : Text.Loose)
  deriving Repr, DecidableEq

/-- The message of a library that cannot take a shape. -/
def AddError.message : AddError → String
  | missingShape => "shape must not be None"
  | duplicate name => "duplicate shape name " ++ name.quoted

/-- The library without shapes. -/
def empty : Library := ⟨[], List.nodup_nil⟩

/-- The names in order. -/
def names (l : Library) : List Text.Loose :=
  l.shapes.map Shape.name

/-- The number of shapes. -/
def count (l : Library) : Nat :=
  l.shapes.length

/-- The shape of that name. -/
def find? (l : Library) (name : Text.Loose) : Option Shape :=
  l.shapes.find? fun s => s.name == name

/-- The shape at an index, which may count from the end. -/
def item (l : Library) (index : Int) : Except IndexError Shape :=
  itemAt l.shapes index

/-- Whether there is a shape of that name. -/
def contains (l : Library) (name : Text.Loose) : Bool :=
  l.names.contains name

/-- The library with one shape more, at its end. -/
def add (l : Library) : Option Shape → Except AddError Library
  | none => .error .missingShape
  | some s =>
    if h : s.name ∈ l.names then .error (.duplicate s.name)
    else
      .ok
        { shapes := l.shapes ++ [s]
          nodup := by
            rw [List.map_append, List.nodup_append]
            refine ⟨l.nodup, by simp, fun a ha b hb => ?_⟩
            rw [List.map_singleton, List.mem_singleton] at hb
            exact fun e => h (hb ▸ e ▸ ha) }

/-- The library with several shapes more. -/
def addAll (l : Library) : List (Option Shape) → Except AddError Library
  | [] => .ok l
  | s :: rest => (l.add s).bind fun l => l.addAll rest

/-- The library of some shapes. -/
def ofShapes (shapes : List (Option Shape)) : Except AddError Library :=
  empty.addAll shapes

/-- **The built-in library.** -/
def builtin : Library :=
  ⟨Shape.builtins, by decide⟩

/-- The library as descriptions show it. -/
def describe (l : Library) : String :=
  String.intercalate "\n" (l.shapes.map Shape.describe)

/-- What is said of a shape that is looked for and not there. -/
def notFoundMessage (name : Text.Loose) : String :=
  "no shape named " ++ name.quoted ++ " in the library"

theorem contains_iff (l : Library) (name : Text.Loose) :
    l.contains name = true ↔ ∃ s, l.find? name = some s := by
  simp only [contains, names, List.contains_eq_mem, decide_eq_true_eq, List.mem_map, find?]
  rw [← Option.isSome_iff_exists, List.find?_isSome]
  simp

end Library

end Stencil
