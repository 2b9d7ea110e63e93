import Stencil.Proofs.Json.RoundTrip
import Stencil.Proofs.Text.Joined
import Stencil.Shape.Builtin
import Stencil.Shape.Template

/-!
# Proofs/Shape/Template — a shape is read from its template as it was

    shape ──toValue──▸ value ──print──▸ text
      ▴                                   │
      └────── ofValue ────── value ◂─ read ┘

The value of a shape is read from its text as the value of the same shape, whose name has the halves
of its pairs joined (`Shape.joined`), and the shape is built of that value again: a name is a text,
and the coordinates are numbers already (`ofValue_toValue`).  So `ofTemplate_toTemplate` holds of
every shape.  The points always come back as they were, infinities and noughts with a minus sign
included, and so does every name without a pair of halves side by side, which is any text of
characters (`joined_eq_self_iff`); a shape equals itself unless a coordinate is not a number
(`beq_self_of_numbers`).
-/

namespace Stencil

open Stencil.Json Stencil.Text

/-! ## Coordinates -/

/-- A double that is a number equals itself. -/
theorem beq_self_iff (x : Float) : (x == x) = true ↔ x.isNaN = false := by
  change x.toModel.unpack.beq x.toModel.unpack = true ↔ x.toModel.unpack.isNaN = false
  rw [Float.Model.UnpackedFloat.beq_iff_ne_notANumber_and_eq]
  cases x.toModel.unpack <;> simp [Float.Model.UnpackedFloat.isNaN]

/-! ## Templates -/

namespace Shape

variable {s : Shape}

/-- **The shape with the halves of each pair in its name joined.** -/
def joined (s : Shape) : Shape :=
  { s with name := Json.joined s.name, name_ne := joined_ne s.name_ne }

@[simp] theorem points_joined (s : Shape) : s.joined.points = s.points := rfl

theorem joined_eq_self_iff : s.joined = s ↔ ¬HasPair s.name.points := by
  rw [← Json.joined_eq_self_iff]
  constructor
  · exact congrArg Shape.name
  · intro h
    obtain ⟨name, first, rest, hne⟩ := s
    simp only [joined, Shape.mk.injEq, and_true]
    exact h

/-- The vertices are read as they were. -/
theorem itemsReadAs_points {room : ℕ} (points : List Point) :
    ItemsReadAs (room + 1) (points.map fun p => .list [.float p.x, .float p.y])
      (points.map fun p => .list [.float p.x, .float p.y]) := by
  induction points with
  | nil => exact .nil
  | cons p points ih => exact .cons (.list (.cons (.float p.x) (.cons (.float p.y) .nil))) ih

/-- **The value of a shape is read as that of the shape with its name joined.** -/
theorem readsAs_toValue (s : Shape) : ReadsAs maxDepth s.toValue s.joined.toValue := by
  refine .object (.cons (.text s.name) (.cons (.list (itemsReadAs_points s.points)) ?_))
  rw [joined_plain, joined_plain]
  exact .nil

theorem mapM_vertex (points : List Point) :
    (points.map fun p => Value.list [.float p.x, .float p.y]).mapM Template.vertex =
      .ok points := by
  rw [List.mapM_map, mapM_eq_ok_iff]
  exact List.forall₂_same.mpr fun p _ => rfl

/-- **A shape is built of its value again.** -/
theorem ofValue_toValue (s : Shape) : ofValue s.toValue = .ok s := by
  have hcheck : Template.check s.toValue = .ok () := rfl
  have hname : s.toValue.member? "name" = some (.text s.name) := rfl
  have hpoints : s.toValue.member? "points" =
      some (.list (s.points.map fun p => .list [.float p.x, .float p.y])) := rfl
  have hvertices : Template.vertices
      (.list (s.points.map fun p => .list [.float p.x, .float p.y])) = .ok s.points :=
    mapM_vertex s.points
  simp only [ofValue, hcheck, hname, hpoints, hvertices, bind, Except.bind, Value.describe,
    make_points]
  rfl

/-- **A shape is read from its template as it was**, but for pairs of halves in its name. -/
theorem ofTemplate_toTemplate (s : Shape) : ofTemplate s.toTemplate = .ok s.joined := by
  have hends : '\r' ∉ s.toValue.write (.indented 2) 0 := fun h => by
    rcases isWritten_of_mem_write h with h | h
    · cases h
    · exact absurd h (by decide)
  rw [ofTemplate, toTemplate, Value.print, String.toList_ofList, unifyEnds_eq_self hends,
    read_write (.indented 2) (readsAs_toValue s)]
  exact ofValue_toValue s.joined

/-- The built-in shapes have names of characters. -/
theorem joined_of_mem_builtins : ∀ s ∈ builtins, s.joined = s := by
  intro s hs
  have hname : s.name ∈ builtins.map name := List.mem_map_of_mem hs
  rw [names_builtins] at hname
  obtain ⟨name, -, hname⟩ := List.mem_map.mp hname
  rw [joined_eq_self_iff, ← hname]
  exact not_hasPair_plain name

/-- A shape equals itself if its coordinates are numbers. -/
theorem beq_self_of_numbers (h : ∀ p ∈ s.points, p.x.isNaN = false ∧ p.y.isNaN = false) :
    (s == s) = true := by
  have hpoints (points : List Point) (h : ∀ p ∈ points, p.x.isNaN = false ∧ p.y.isNaN = false) :
      (points == points) = true := by
    induction points with
    | nil => rfl
    | cons p points ih =>
      rw [List.forall_mem_cons] at h
      have hp : (p == p) = true :=
        Bool.and_eq_true_iff.mpr ⟨(beq_self_iff p.x).mpr h.1.1, (beq_self_iff p.y).mpr h.1.2⟩
      exact Bool.and_eq_true_iff.mpr ⟨hp, ih h.2⟩
  exact Bool.and_eq_true_iff.mpr ⟨beq_self_eq_true s.name, hpoints s.points h⟩

end Shape

end Stencil
