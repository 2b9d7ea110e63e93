import Stencil.Proofs.Record.Field
import Stencil.Text.Encoding

/-!
# Proofs/Record/Name — the normal form of a name

    ␣ A Σ ½ Σ b ␣  ──trimPoints──▸  A Σ ½ Σ b  ──lowerPoints──▸  a ς ½ σ b
                                    └┬┘   └┬┘
                                    runs of characters

The name of a shape may hold halves of pairs (`½`), which are neither blanks nor letters.  So
trimming stops at a half, and lower-casing goes from one half to the next: each run of characters
between two of them is a text of its own (`lowerPoints`).  A plain name is clean when its characters
are (`isClean_plain_iff`).
-/

namespace Stencil.Text

open Stencil.Record

variable {s : String} {t : Loose}

/-! ## Trimming and lower-casing -/

/-- Whether a code point counts as white space. -/
def CodePoint.isBlank : CodePoint → Bool
  | char c => Text.isBlank c
  | half _ => false

/-- Code points without the blanks at either end. -/
def trimPoints (points : List CodePoint) : List CodePoint :=
  ((points.dropWhile CodePoint.isBlank).reverse.dropWhile CodePoint.isBlank).reverse

/-- A change of each run of characters between two halves. The characters of `run` come first. -/
def mapRuns (f : List Char → List Char) (run : List Char) : List CodePoint → List CodePoint
  | [] => (f run).map .char
  | .char c :: rest => mapRuns f (run ++ [c]) rest
  | .half h :: rest => (f run).map .char ++ .half h :: mapRuns f [] rest

/-- Code points in lower case. -/
def lowerPoints (points : List CodePoint) : List CodePoint :=
  mapRuns lower [] points

theorem mapRuns_map_char (f : List Char → List Char) (run s : List Char) :
    mapRuns f run (s.map .char) = (f (run ++ s)).map .char := by
  induction s generalizing run with
  | nil => rw [List.map_nil, mapRuns, List.append_nil]
  | cons c s ih => rw [List.map_cons, mapRuns, ih, List.append_assoc, List.singleton_append]

-- The sigma before a half ends a word, and the one behind it starts another.
example : lowerPoints (("AΣ".toList.map .char) ++ .half ⟨0xd800, by decide⟩ ::
      "Σb".toList.map .char) =
    ("aς".toList.map .char) ++ .half ⟨0xd800, by decide⟩ :: "σb".toList.map .char := by
  decide +kernel

theorem lowerPoints_map_char (s : List Char) : lowerPoints (s.map .char) = (lower s).map .char :=
  mapRuns_map_char lower [] s

theorem trimPoints_map_char (s : List Char) : trimPoints (s.map .char) = (trim s).map .char := by
  have hblank : CodePoint.isBlank ∘ CodePoint.char = isBlank := rfl
  rw [trimPoints, List.dropWhile_map, ← List.map_reverse, List.dropWhile_map, ← List.map_reverse,
    hblank]
  rfl

/-! ## Halves in a text -/

/-- Lists are kept when they are joined. -/
theorem subset_intercalate {α : Type} (separator : List α) {l : List α} {ls : List (List α)}
    (h : l ∈ ls) : l ⊆ separator.intercalate ls := by
  induction ls with
  | nil => cases h
  | cons first ls ih =>
    cases ls with
    | nil =>
      rw [List.mem_singleton.mp h, List.intercalate_singleton]
      exact List.Subset.refl first
    | cons second ls =>
      rw [List.intercalate_cons_cons, List.append_assoc]
      obtain rfl | h := List.mem_cons.mp h
      · exact List.subset_append_left _ _
      · exact fun a ha => List.mem_append_right _ (List.mem_append_right _ (ih h ha))

namespace Loose

/-- A plain text has no halves. -/
theorem isPlain_iff_forall : t.isPlain = true ↔ ∀ h, .half h ∉ t.points := by
  cases t with
  | plain s =>
    refine iff_of_true rfl fun h hmem => ?_
    obtain ⟨c, -, hc⟩ := List.mem_map.mp hmem
    cases hc
  | broken points hany =>
    refine iff_of_false Bool.false_ne_true fun hno => ?_
    obtain ⟨point, hmem, hhalf⟩ := List.any_eq_true.mp hany
    cases point with
    | char c => cases hhalf
    | half h => exact hno h hmem

theorem isPlain_of_subset {u : Loose} (hu : u.isPlain = true) (h : t.points ⊆ u.points) :
    t.isPlain = true :=
  isPlain_iff_forall.mpr fun half hmem => isPlain_iff_forall.mp hu half (h hmem)

theorem points_subset_append_right (s t : Loose) : t.points ⊆ (s ++ t).points := by
  rw [points_append]
  exact List.subset_append_right _ _

theorem points_subset_append_left (s t : Loose) : s.points ⊆ (s ++ t).points := by
  rw [points_append]
  exact List.subset_append_left _ _

theorem points_subset_intercalate (separator : Loose) {texts : List Loose} (h : t ∈ texts) :
    t.points ⊆ (intercalate separator texts).points := by
  rw [intercalate, points_ofPoints]
  exact subset_intercalate _ (List.mem_map_of_mem h)

/-! ## Clean names -/

/-- The normal form of a text: without outer blanks, in lower case. -/
def normal (t : Loose) : Loose :=
  ofPoints (lowerPoints (trimPoints t.points))

/-- **A text that is its own normal form** and holds neither separator. -/
def IsClean (t : Loose) : Prop :=
  t.normal = t ∧ .char ',' ∉ t.points ∧ .char '=' ∉ t.points

/-- A text without line ends. -/
def IsLine (t : Loose) : Prop :=
  .char '\n' ∉ t.points ∧ .char '\r' ∉ t.points

instance (t : Loose) : Decidable t.IsClean :=
  inferInstanceAs (Decidable (_ ∧ _))

instance (t : Loose) : Decidable t.IsLine :=
  inferInstanceAs (Decidable (_ ∧ _))

theorem char_mem_points_plain {c : Char} : .char c ∈ (plain s).points ↔ c ∈ s.toList := by
  rw [points, List.mem_map_of_injective fun _ _ => CodePoint.char.inj]

theorem normal_plain (s : String) :
    (plain s).normal = plain (String.ofList (Record.normal s.toList)) := by
  rw [normal, points, trimPoints_map_char, lowerPoints_map_char, ofPoints_map_char]
  rfl

/-- **A plain text is clean** when its characters are. -/
theorem isClean_plain_iff : (plain s).IsClean ↔ Record.IsClean s.toList := by
  rw [IsClean, Record.IsClean, normal_plain, plain.injEq, char_mem_points_plain,
    char_mem_points_plain, ← String.toList_inj, String.toList_ofList]

theorem isLine_plain_iff : (plain s).IsLine ↔ Text.IsLine s.toList := by
  rw [IsLine, Text.IsLine, char_mem_points_plain, char_mem_points_plain]

end Loose

end Stencil.Text
