import Mathlib
import Stencil.Text.Lines
import Stencil.Text.Pieces

/-!
# Proofs/Text/Joined — cutting a joined text

Cutting undoes joining: the pieces of texts joined by a separator are these texts
(`pieces_append_cons`, `pieces_intercalate`), and the lines of a text in which each line has its end
are these lines (`lines_joined`), as long as no text holds the separator.  Whatever is cut, no piece
and no line holds a character that the text did not hold, and no line holds a line end
(`isLine_of_mem_lines`).
-/

namespace Stencil.Text

/-! ## Pieces -/

section Pieces

variable {sep : Char}

/-- The first piece ends at the first separator. -/
theorem pieces_append_cons {piece : List Char} (h : sep ∉ piece) (rest : List Char) :
    pieces sep (piece ++ sep :: rest) = piece :: pieces sep rest := by
  induction piece with
  | nil => rw [List.nil_append, pieces, if_pos rfl]
  | cons c piece ih =>
    rw [List.mem_cons, not_or] at h
    rw [List.cons_append, pieces, if_neg (Ne.symm h.1), ih h.2]

/-- A text without separators is one piece. -/
theorem pieces_eq_singleton {s : List Char} (h : sep ∉ s) : pieces sep s = [s] := by
  induction s with
  | nil => rfl
  | cons c s ih =>
    rw [List.mem_cons, not_or] at h
    rw [pieces, if_neg (Ne.symm h.1), ih h.2]

/-- **The pieces of texts joined by a separator and something behind it**: each text but the first
has that something in front. -/
theorem pieces_intercalate {gap : List Char} (hgap : sep ∉ gap) {first : List Char}
    (hfirst : sep ∉ first) {others : List (List Char)} (hothers : ∀ s ∈ others, sep ∉ s) :
    pieces sep ((sep :: gap).intercalate (first :: others)) =
      first :: others.map (gap ++ ·) := by
  induction others generalizing first with
  | nil => simpa using pieces_eq_singleton hfirst
  | cons second others ih =>
    have hsecond : sep ∉ gap ++ second := by
      rw [List.mem_append, not_or]
      exact ⟨hgap, hothers second List.mem_cons_self⟩
    have hrest := ih hsecond fun s hs => hothers s (List.mem_cons_of_mem _ hs)
    have hshift : (sep :: gap).intercalate ((gap ++ second) :: others) =
        gap ++ (sep :: gap).intercalate (second :: others) := by
      cases others <;> simp [List.intercalate_cons_cons]
    rw [List.intercalate_cons_cons, List.append_assoc, List.cons_append,
      pieces_append_cons hfirst, ← hshift, hrest, List.map_cons]

/-- A piece holds nothing that the text does not hold. -/
theorem subset_of_mem_pieces {s piece : List Char} (h : piece ∈ pieces sep s) : piece ⊆ s := by
  induction s generalizing piece with
  | nil =>
    rw [pieces_nil, List.mem_singleton] at h
    exact h ▸ List.Subset.refl _
  | cons c rest ih =>
    rw [pieces] at h
    split at h
    next =>
      rcases List.mem_cons.mp h with rfl | h
      · exact List.nil_subset _
      · exact List.subset_cons_of_subset c (ih h)
    next =>
      split at h
      next hrest => exact absurd hrest (pieces_ne_nil sep rest)
      next first more hrest =>
        rcases List.mem_cons.mp h with rfl | h
        · exact List.cons_subset_cons c (ih (hrest ▸ List.mem_cons_self))
        · exact List.subset_cons_of_subset c (ih (hrest ▸ List.mem_cons_of_mem first h))

end Pieces

/-! ## Lines -/

/-- Without carriage returns the line ends of a text are unified already. -/
theorem unifyEnds_eq_self {s : List Char} (h : '\r' ∉ s) : unifyEnds s = s := by
  induction s with
  | nil => rfl
  | cons c rest ih =>
    rw [List.mem_cons, not_or] at h
    rw [unifyEnds, ih h.2, if_neg (Ne.symm h.1)]
    rintro rest' rfl
    exact absurd rfl h.1

theorem not_mem_unifyEnds (s : List Char) : '\r' ∉ unifyEnds s := by
  fun_induction unifyEnds s with
  | case1 => exact List.not_mem_nil
  | case2 rest ih => exact fun h => ih (List.mem_of_ne_of_mem (by decide) h)
  | case3 c rest _ ih =>
    refine fun h => ih (List.mem_of_ne_of_mem ?_ h)
    split
    · decide
    · exact Ne.symm ‹_›

/-- The first line ends at the first line feed. -/
theorem lines_append_cons {line : List Char} (h : '\n' ∉ line) (rest : List Char) :
    lines (line ++ '\n' :: rest) = line :: lines rest := by
  induction line with
  | nil => rw [List.nil_append, lines, if_pos rfl]
  | cons c line ih =>
    rw [List.mem_cons, not_or] at h
    rw [List.cons_append, lines, if_neg (Ne.symm h.1), ih h.2]

/-- **The lines of lines with their ends** are these lines. -/
theorem lines_joined {ls : List (List Char)} (h : ∀ l ∈ ls, '\n' ∉ l) :
    lines (ls.flatMap (· ++ ['\n'])) = ls := by
  induction ls with
  | nil => rfl
  | cons l ls ih =>
    rw [List.flatMap_cons, List.append_assoc, List.singleton_append,
      lines_append_cons (h l List.mem_cons_self), ih fun m hm => h m (List.mem_cons_of_mem l hm)]

/-- A line holds no line feed, and nothing else that the text does not hold. -/
theorem mem_of_mem_lines {s line : List Char} (h : line ∈ lines s) :
    '\n' ∉ line ∧ line ⊆ s := by
  induction s generalizing line with
  | nil => exact absurd h List.not_mem_nil
  | cons c rest ih =>
    rw [lines] at h
    split at h
    next =>
      rcases List.mem_cons.mp h with rfl | h
      · exact ⟨List.not_mem_nil, List.nil_subset _⟩
      · exact ⟨(ih h).1, List.subset_cons_of_subset c (ih h).2⟩
    next hc =>
      split at h
      next =>
        rw [List.mem_singleton] at h
        subst h
        exact ⟨by simpa using Ne.symm hc, List.cons_subset_cons c (List.nil_subset rest)⟩
      next first more hrest =>
        rcases List.mem_cons.mp h with rfl | h
        · obtain ⟨hend, hsub⟩ := ih (hrest ▸ List.mem_cons_self)
          refine ⟨?_, List.cons_subset_cons c hsub⟩
          rw [List.mem_cons, not_or]
          exact ⟨Ne.symm hc, hend⟩
        · obtain ⟨hend, hsub⟩ := ih (hrest ▸ List.mem_cons_of_mem first h)
          exact ⟨hend, List.subset_cons_of_subset c hsub⟩

/-- **A text of one line**: it holds no line end. -/
def IsLine (s : List Char) : Prop :=
  '\n' ∉ s ∧ '\r' ∉ s

instance (s : List Char) : Decidable (IsLine s) :=
  inferInstanceAs (Decidable (_ ∧ _))

theorem isLine_append_iff {s t : List Char} : IsLine (s ++ t) ↔ IsLine s ∧ IsLine t := by
  simp only [IsLine, List.mem_append, not_or]
  exact and_and_and_comm

theorem IsLine.subset {s t : List Char} (ht : IsLine t) (h : s ⊆ t) : IsLine s :=
  ⟨fun hs => ht.1 (h hs), fun hs => ht.2 (h hs)⟩

/-- Texts of one line make one line, joined by such a text. -/
theorem isLine_intercalate {sep : List Char} (hsep : IsLine sep) {texts : List (List Char)}
    (h : ∀ s ∈ texts, IsLine s) : IsLine (sep.intercalate texts) := by
  induction texts with
  | nil => exact ⟨List.not_mem_nil, List.not_mem_nil⟩
  | cons first texts ih =>
    have hfirst := h first List.mem_cons_self
    have hrest := ih fun s hs => h s (List.mem_cons_of_mem first hs)
    cases texts with
    | nil => simpa using hfirst
    | cons second texts =>
      rw [List.intercalate_cons_cons, isLine_append_iff, isLine_append_iff]
      exact ⟨⟨hfirst, hsep⟩, hrest⟩

/-- **No line of a text with unified ends holds a line end.** -/
theorem isLine_of_mem_lines {s line : List Char} (h : line ∈ lines (unifyEnds s)) : IsLine line :=
  ⟨(mem_of_mem_lines h).1, fun hr => not_mem_unifyEnds s ((mem_of_mem_lines h).2 hr)⟩

end Stencil.Text
