import Stencil.Proofs.Text.Joined

/-!
# Proofs/Text/Seam — putting a text between two others

    s ++ t  ──▸  s ++ m ++ t

A place in a text is a seam when one of `seps` stands beside it, or an end of the text.  What is put
there goes to one piece, and there again to a seam, of the separators that are left
(`exists_pieces_seam`).  The place between the pieces of two texts is a seam itself
(`pieces_append_cons_sep`).
-/

namespace Stencil.Text

/-! ## Seams -/

/-- A text that is empty or ends with one of `seps`. -/
def StopsAt (seps s : List Char) : Prop :=
  ∀ c ∈ s.getLast?, c ∈ seps

/-- A text that is empty or starts with one of `seps`. -/
def StartsAt (seps s : List Char) : Prop :=
  ∀ c ∈ s.head?, c ∈ seps

/-- **A seam** between two texts: one of `seps` stands beside it, or nothing. -/
def IsSeam (seps s t : List Char) : Prop :=
  StopsAt seps s ∨ StartsAt seps t

instance (seps s : List Char) : Decidable (StopsAt seps s) :=
  decidable_of_iff (s.getLast?.all (· ∈ seps) = true) (by simp [StopsAt, Option.all_eq_true])

instance (seps s : List Char) : Decidable (StartsAt seps s) :=
  decidable_of_iff (s.head?.all (· ∈ seps) = true) (by simp [StartsAt, Option.all_eq_true])

instance (seps s t : List Char) : Decidable (IsSeam seps s t) :=
  inferInstanceAs (Decidable (_ ∨ _))

theorem stopsAt_nil_iff {s : List Char} : StopsAt [] s ↔ s = [] := by
  simp [StopsAt, Option.mem_def, ← Option.eq_none_iff_forall_ne_some]

theorem startsAt_nil_iff {s : List Char} : StartsAt [] s ↔ s = [] := by
  simp [StartsAt, Option.mem_def, ← Option.eq_none_iff_forall_ne_some]

/-- Without separators a seam is an end of the text. -/
theorem isSeam_nil_iff {s t : List Char} : IsSeam [] s t ↔ s = [] ∨ t = [] := by
  rw [IsSeam, stopsAt_nil_iff, startsAt_nil_iff]

/-- The end of a text is the end of what it ends in, but for a separator that this does not hold. -/
theorem StopsAt.of_isSuffix {sep : Char} {seps s p : List Char} (h : StopsAt (sep :: seps) s)
    (hp : p <:+ s) (hsep : sep ∉ p) : StopsAt seps p := by
  intro c hc
  obtain ⟨r, rfl⟩ := hp
  have hne : p ≠ [] := by rintro rfl; cases hc
  have hcs := h c (by rwa [List.getLast?_append_of_ne_nil r hne])
  refine List.mem_of_ne_of_mem ?_ hcs
  rintro rfl
  exact hsep (List.mem_of_mem_getLast? hc)

theorem StartsAt.of_isPrefix {sep : Char} {seps s q : List Char} (h : StartsAt (sep :: seps) s)
    (hq : q <+: s) (hsep : sep ∉ q) : StartsAt seps q := by
  intro c hc
  obtain ⟨r, rfl⟩ := hq
  have hne : q ≠ [] := by rintro rfl; cases hc
  have hcs := h c (by rwa [List.head?_append_of_ne_nil q hne])
  refine List.mem_of_ne_of_mem ?_ hcs
  rintro rfl
  exact hsep (List.mem_of_mem_head? hc)

/-! ## Pieces at a seam -/

section Pieces

variable {sep : Char}

/-- **A separator parts the pieces before it from those behind it.** -/
theorem pieces_append_cons_sep (s t : List Char) :
    pieces sep (s ++ sep :: t) = pieces sep s ++ pieces sep t := by
  induction s with
  | nil => simp [pieces]
  | cons c s ih =>
    rw [List.cons_append, pieces, pieces, ih]
    by_cases hc : c = sep
    · rw [if_pos hc, if_pos hc, List.cons_append]
    · rw [if_neg hc, if_neg hc]
      cases hs : pieces sep s with
      | nil => exact absurd hs (pieces_ne_nil sep s)
      | cons first more => rfl

/-- **A separator at a seam leaves an empty piece** and the others as they are. -/
theorem exists_pieces_sep_seam {s t : List Char} (h : IsSeam [sep] s t) :
    ∃ before after, pieces sep (s ++ t) = before ++ after ∧
      pieces sep (s ++ sep :: t) = before ++ [] :: after := by
  rw [pieces_append_cons_sep]
  rcases h with h | h
  · rcases List.eq_nil_or_concat s with rfl | ⟨s, c, rfl⟩
    · exact ⟨[], pieces sep t, rfl, rfl⟩
    · obtain rfl : c = sep := List.mem_singleton.mp (h c (by simp))
      refine ⟨pieces c s, pieces c t, ?_, ?_⟩
      · rw [List.concat_eq_append, List.append_assoc, List.singleton_append,
          pieces_append_cons_sep]
      · rw [List.concat_eq_append, pieces_append_cons_sep, List.append_assoc]
        rfl
  · cases t with
    | nil => exact ⟨pieces sep s, [], by rw [List.append_nil, List.append_nil], rfl⟩
    | cons c t =>
      obtain rfl : c = sep := List.mem_singleton.mp (h c rfl)
      refine ⟨pieces c s, pieces c t, pieces_append_cons_sep s t, ?_⟩
      rw [← List.nil_append (c :: t), pieces_append_cons_sep]
      rfl

/-- The last piece of a text is still open for what follows. -/
theorem exists_pieces_append (sep : Char) (s : List Char) :
    ∃ before p, sep ∉ p ∧ p <:+ s ∧ ∀ t, pieces sep (s ++ t) = before ++ pieces sep (p ++ t) := by
  by_cases h : sep ∈ s.reverse
  · obtain ⟨r, front, hs, hr⟩ := List.eq_append_cons_of_mem h
    have hs : s = front.reverse ++ sep :: r.reverse := by
      rw [← List.reverse_reverse s, hs]
      simp
    refine ⟨pieces sep front.reverse, r.reverse, by simpa using hr, ?_, fun t => ?_⟩
    · exact ⟨front.reverse ++ [sep], by rw [hs, List.append_assoc, List.singleton_append]⟩
    · rw [hs, List.append_assoc, List.cons_append, pieces_append_cons_sep]
  · exact ⟨[], s, by simpa using h, List.suffix_refl s, fun t => rfl⟩

/-- The first piece of a text is still open for what comes before. -/
theorem exists_append_pieces (sep : Char) (t : List Char) :
    ∃ q after, sep ∉ q ∧ q <+: t ∧
      ∀ m, sep ∉ m → pieces sep (m ++ t) = (m ++ q) :: after := by
  by_cases h : sep ∈ t
  · obtain ⟨q, rest, rfl, hq⟩ := List.eq_append_cons_of_mem h
    refine ⟨q, pieces sep rest, hq, List.prefix_append q _, fun m hm => ?_⟩
    rw [← List.append_assoc, pieces_append_cons]
    rw [List.mem_append, not_or]
    exact ⟨hm, hq⟩
  · refine ⟨t, [], h, List.prefix_refl t, fun m hm => ?_⟩
    rw [pieces_eq_singleton]
    rw [List.mem_append, not_or]
    exact ⟨hm, h⟩

/-- **What is put at a seam goes to one piece**, and there to a seam of the other separators. -/
theorem exists_pieces_seam {seps s t : List Char} (h : IsSeam (sep :: seps) s t) :
    ∃ before p q after, IsSeam seps p q ∧
      ∀ m, sep ∉ m → pieces sep (s ++ (m ++ t)) = before ++ (p ++ (m ++ q)) :: after := by
  obtain ⟨before, p, hp, hps, hs⟩ := exists_pieces_append sep s
  obtain ⟨q, after, hq, hqt, ht⟩ := exists_append_pieces sep t
  refine ⟨before, p, q, after, ?_, fun m hm => ?_⟩
  · exact h.imp (fun h => h.of_isSuffix hps hp) fun h => h.of_isPrefix hqt hq
  · have hpm : sep ∉ p ++ m := by
      rw [List.mem_append, not_or]
      exact ⟨hp, hm⟩
    rw [hs, ← List.append_assoc p, ht _ hpm, List.append_assoc]

end Pieces

end Stencil.Text
