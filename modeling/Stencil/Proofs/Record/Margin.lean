import Stencil.Proofs.Record.Grammar

/-!
# Proofs/Record/Margin — blanks at the ends of a record

Blanks at either end of a text change neither its key nor its value, as these count: a line is a
record of the grammar exactly when it is one without its outer blanks (`isRecord_trim_iff`).
-/

namespace Stencil.Record

open Stencil.Text Stencil.Decimal

section Field

variable {keys : List String} {text key value : List Char} {c : Char}

/-- A blank separates nothing. -/
theorem ne_of_isBlank (h : isBlank c = true) : c ≠ ',' ∧ c ≠ '=' := by
  constructor <;> rintro rfl <;> exact absurd h (by decide)

/-- A character in front of a field belongs to its key. -/
theorem isCut_cons (hc : c ≠ '=') (h : IsCut text key value) :
    IsCut (c :: text) (c :: key) value := by
  obtain ⟨hkey, hvalue, rest, rfl, hrest⟩ := h
  refine ⟨?_, hvalue, rest, rfl, hrest⟩
  rw [List.mem_cons, not_or]
  exact ⟨Ne.symm hc, hkey⟩

/-- A character behind a field belongs to its value or is cut off. -/
theorem isCut_concat (hc : c ≠ '=') (h : IsCut text key value) :
    ∃ value', IsCut (text ++ [c]) key value' ∧ (value' = value ∨ value' = value ++ [c]) := by
  obtain ⟨hkey, hvalue, rest, rfl, hrest⟩ := h
  cases rest with
  | nil =>
    refine ⟨value ++ [c], ⟨hkey, ?_, [], by simp, nofun⟩, Or.inr rfl⟩
    rw [List.mem_append, List.mem_singleton, not_or]
    exact ⟨hvalue, Ne.symm hc⟩
  | cons d rest =>
    exact ⟨value, ⟨hkey, hvalue, d :: rest ++ [c], by simp, hrest⟩, Or.inl rfl⟩

/-- Fields that are cut into parts of equal form are fields together. -/
theorem isField_congr {text' key' value' : List Char} (h : IsCut text key value)
    (h' : IsCut text' key' value') (hkey : normal key' = normal key)
    (hvalue : trim value' = trim value) : IsField keys text' ↔ IsField keys text := by
  have hparts : ∀ {t k v}, IsCut t k v → (IsField keys t ↔
      trim v ≠ [] ∧ (String.ofList (normal k) ∈ keys → IsIntegerText (trim v))) := by
    intro t k v hcut
    refine ⟨?_, fun ⟨hv, hk⟩ => ⟨k, v, hcut, hv, hk⟩⟩
    rintro ⟨k', v', hcut', hv, hk⟩
    obtain ⟨-, rfl, rfl⟩ := isCut_iff.mp hcut
    obtain ⟨-, rfl, rfl⟩ := isCut_iff.mp hcut'
    exact ⟨hv, hk⟩
  rw [hparts h, hparts h', hkey, hvalue]

/-- A text is cut as soon as it has an equals sign. -/
theorem exists_isCut (h : '=' ∈ text) : ∃ key value, IsCut text key value :=
  ⟨_, _, isCut_iff.mpr ⟨h, rfl, rfl⟩⟩

theorem IsField.equals_mem (h : IsField keys text) : '=' ∈ text := by
  obtain ⟨key, value, hcut, -⟩ := h
  exact (isCut_iff.mp hcut).1

/-- **A blank in front of a field changes nothing.** -/
theorem isField_cons_iff (h : isBlank c = true) : IsField keys (c :: text) ↔ IsField keys text := by
  have hc := (ne_of_isBlank h).2
  by_cases hmem : '=' ∈ text
  · obtain ⟨key, value, hcut⟩ := exists_isCut hmem
    exact isField_congr hcut (isCut_cons hc hcut) (normal_cons_of_isBlank key h) rfl
  · refine iff_of_false (fun hf => hmem ?_) fun hf => hmem hf.equals_mem
    exact List.mem_of_ne_of_mem (Ne.symm hc) hf.equals_mem

/-- **A blank behind a field changes nothing.** -/
theorem isField_concat_iff (h : isBlank c = true) :
    IsField keys (text ++ [c]) ↔ IsField keys text := by
  have hc := (ne_of_isBlank h).2
  by_cases hmem : '=' ∈ text
  · obtain ⟨key, value, hcut⟩ := exists_isCut hmem
    obtain ⟨value', hcut', hvalue⟩ := isCut_concat hc hcut
    refine isField_congr hcut hcut' rfl ?_
    rcases hvalue with rfl | rfl
    · rfl
    · exact trim_concat_of_isBlank value h
  · refine iff_of_false (fun hf => hmem ?_) fun hf => hmem hf.equals_mem
    rcases List.mem_append.mp hf.equals_mem with hf | hf
    · exact hf
    · exact absurd (List.mem_singleton.mp hf).symm hc

end Field

/-! ## Records -/

section Record

variable {keys : List String} {c : Char}

/-- A character at the start of a text goes to its first piece. -/
theorem pieces_cons {sep : Char} (hc : c ≠ sep) (s : List Char) :
    ∃ first more, pieces sep s = first :: more ∧ pieces sep (c :: s) = (c :: first) :: more := by
  cases hs : pieces sep s with
  | nil => exact absurd hs (pieces_ne_nil sep s)
  | cons first more => exact ⟨first, more, rfl, by rw [pieces, if_neg hc, hs]⟩

/-- A character at the end of a text goes to its last piece. -/
theorem pieces_concat {sep : Char} (hc : c ≠ sep) (s : List Char) :
    ∃ init last, pieces sep s = init ++ [last] ∧ pieces sep (s ++ [c]) = init ++ [last ++ [c]] := by
  induction s with
  | nil => exact ⟨[], [], rfl, by simp [pieces, hc]⟩
  | cons d s ih =>
    obtain ⟨init, last, hs, hsc⟩ := ih
    rw [List.cons_append, pieces, pieces, hs, hsc]
    by_cases hd : d = sep
    · exact ⟨[] :: init, last, by rw [if_pos hd]; rfl, by rw [if_pos hd]; rfl⟩
    · rw [if_neg hd, if_neg hd]
      cases init with
      | nil => exact ⟨[], d :: last, rfl, rfl⟩
      | cons first init => exact ⟨(d :: first) :: init, last, rfl, rfl⟩

/-- **A blank in front of a record changes nothing.** -/
theorem isRecord_cons_iff (h : isBlank c = true) (s : List Char) :
    IsRecord keys (c :: s) ↔ IsRecord keys s := by
  obtain ⟨first, more, hs, hcs⟩ := pieces_cons (ne_of_isBlank h).1 s
  rw [IsRecord, IsRecord, hs, hcs, List.forall_mem_cons, List.forall_mem_cons,
    isBlankText_cons, h, Bool.true_and, isField_cons_iff h]

/-- **A blank behind a record changes nothing.** -/
theorem isRecord_concat_iff (h : isBlank c = true) (s : List Char) :
    IsRecord keys (s ++ [c]) ↔ IsRecord keys s := by
  obtain ⟨init, last, hs, hsc⟩ := pieces_concat (ne_of_isBlank h).1 s
  rw [IsRecord, IsRecord, hs, hsc, List.forall_mem_append, List.forall_mem_append,
    List.forall_mem_singleton, List.forall_mem_singleton, isBlankText_append, isBlankText_singleton,
    h, Bool.and_true, isField_concat_iff h]

theorem isRecord_trimLeft_iff (s : List Char) : IsRecord keys (trimLeft s) ↔ IsRecord keys s := by
  induction s with
  | nil => rfl
  | cons c s ih =>
    by_cases h : isBlank c = true
    · rw [isRecord_cons_iff h, ← ih, trimLeft, List.dropWhile_cons_of_pos h, trimLeft]
    · rw [trimLeft_cons_of_not_isBlank s (Bool.eq_false_iff.mpr h)]

theorem isRecord_trimRight_iff (s : List Char) : IsRecord keys (trimRight s) ↔ IsRecord keys s := by
  induction s using List.reverseRecOn with
  | nil => rfl
  | append_singleton s c ih =>
    by_cases h : isBlank c = true
    · rw [isRecord_concat_iff h, ← ih, trimRight_append_of_isBlank s h]
    · rw [trimRight_append_of_not_isBlank s (Bool.eq_false_iff.mpr h)]

/-- **A text is a record of the grammar** exactly when it is one without its outer blanks. -/
theorem isRecord_trim_iff (s : List Char) : IsRecord keys (trim s) ↔ IsRecord keys s :=
  (isRecord_trimRight_iff (trimLeft s)).trans (isRecord_trimLeft_iff s)

end Record

end Stencil.Record
