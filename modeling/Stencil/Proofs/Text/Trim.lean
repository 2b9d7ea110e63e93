import Mathlib
import Stencil.Text.Blank

/-!
# Proofs/Text/Trim — the texts that trimming leaves alone

A text `IsTrimmed` when it neither starts nor ends with a blank.  Trimming gives such a text
(`isTrimmed_trim`) and changes no other (`trim_eq_self_iff`), so "trimmed" can be checked at the two
ends of a text, wherever its middle comes from.
-/

namespace Stencil.Text

/-- **A text without outer blanks**: neither its first character is a blank nor its last. -/
def IsTrimmed (s : List Char) : Prop :=
  (∀ c ∈ s.head?, isBlank c = false) ∧ ∀ c ∈ s.getLast?, isBlank c = false

theorem isTrimmed_nil : IsTrimmed [] := by
  constructor <;> intro c hc <;> cases hc

/-- A text without blanks has none at its ends. -/
theorem isTrimmed_of_forall {s : List Char} (h : ∀ c ∈ s, isBlank c = false) : IsTrimmed s :=
  ⟨fun c hc => h c (List.mem_of_mem_head? hc), fun c hc => h c (List.mem_of_mem_getLast? hc)⟩

/-- Only the two ends of a text tell whether it is trimmed. -/
theorem IsTrimmed.append {s t : List Char} (hs : IsTrimmed s) (ht : IsTrimmed t) (hs' : s ≠ [])
    (ht' : t ≠ []) (between : List Char) : IsTrimmed (s ++ between ++ t) := by
  constructor
  · rw [List.append_assoc, List.head?_append_of_ne_nil s hs']
    exact hs.1
  · rw [List.getLast?_append_of_ne_nil _ ht']
    exact ht.2

/-- Trimmed texts that are not empty make a trimmed text, whatever joins them. -/
theorem isTrimmed_intercalate (sep : List Char) {texts : List (List Char)}
    (h : ∀ s ∈ texts, IsTrimmed s ∧ s ≠ []) : IsTrimmed (sep.intercalate texts) := by
  induction texts with
  | nil => exact isTrimmed_nil
  | cons first texts ih =>
    obtain ⟨hfirst, hne⟩ := h first List.mem_cons_self
    have hrest := ih fun s hs => h s (List.mem_cons_of_mem first hs)
    cases texts with
    | nil => simpa using hfirst
    | cons second texts =>
      rw [List.intercalate_cons_cons]
      refine hfirst.append hrest hne ?_ sep
      obtain ⟨-, hsecond⟩ := h second (by simp)
      cases texts <;> simp [List.intercalate_cons_cons, hsecond]

/-- Trimming on the right is dropping from the end. -/
theorem trimRight_eq_rdropWhile (s : List Char) : trimRight s = s.rdropWhile isBlank := rfl

theorem not_isBlank_of_mem_getLast?_trimRight {s : List Char} {c : Char}
    (h : c ∈ (trimRight s).getLast?) : isBlank c = false := by
  rw [trimRight_eq_rdropWhile] at h
  obtain ⟨hne, rfl⟩ := List.mem_getLast?_eq_getLast h
  simpa using List.rdropWhile_last_not isBlank s hne

/-- A text without its blanks on the left is empty or starts with a character that is none. -/
theorem trimLeft_eq_nil_or (s : List Char) :
    trimLeft s = [] ∨ ∃ c t, trimLeft s = c :: t ∧ isBlank c = false := by
  cases h : trimLeft s with
  | nil => exact Or.inl rfl
  | cons c t =>
    have hc := List.head?_dropWhile_not isBlank s
    rw [show s.dropWhile isBlank = c :: t from h] at hc
    exact Or.inr ⟨c, t, rfl, by simpa using hc⟩

/-- **Trimming leaves no outer blank.** -/
theorem isTrimmed_trim (s : List Char) : IsTrimmed (trim s) := by
  refine ⟨fun c hc => ?_, fun c hc => not_isBlank_of_mem_getLast?_trimRight hc⟩
  obtain h | ⟨d, t, h, hd⟩ := trimLeft_eq_nil_or s
  · rw [trim, h] at hc
    cases hc
  · rw [trim, h, trimRight_cons_of_not_isBlank t hd] at hc
    obtain rfl : d = c := by simpa using hc
    exact hd

/-- **A text is its own trimmed form** exactly when it has no outer blank. -/
theorem trim_eq_self_iff {s : List Char} : trim s = s ↔ IsTrimmed s := by
  refine ⟨fun h => h ▸ isTrimmed_trim s, ?_⟩
  intro h
  cases s with
  | nil => rfl
  | cons c t =>
    have hc : isBlank c = false := h.1 c rfl
    rw [trim, trimLeft_cons_of_not_isBlank t hc, trimRight_eq_rdropWhile,
      List.rdropWhile_eq_self_iff]
    exact fun hne => by simpa using h.2 _ (List.getLast?_eq_getLast_of_ne_nil hne)

/-- A blank at the start of a text is not part of its trimmed form. -/
theorem trim_cons_of_isBlank {c : Char} (s : List Char) (h : isBlank c = true) :
    trim (c :: s) = trim s := by
  simp [trim, trimLeft, h]

/-- A blank at the end of a text is not part of its trimmed form. -/
theorem trim_concat_of_isBlank {c : Char} (s : List Char) (h : isBlank c = true) :
    trim (s ++ [c]) = trim s := by
  rw [trim, trim, trimLeft, List.dropWhile_append]
  split
  next hs =>
    have hnil : trimLeft s = [] := List.isEmpty_iff.mp hs
    rw [hnil, List.dropWhile_cons_of_pos h]
    rfl
  next => exact trimRight_append_of_isBlank _ h

theorem trim_subset (s : List Char) : trim s ⊆ s := by
  intro c hc
  have hl : c ∈ trimLeft s := (List.rdropWhile_prefix isBlank (l := trimLeft s)).subset hc
  exact List.dropWhile_subset isBlank hl

/-! ## Blank texts -/

theorem isBlankText_append (s t : List Char) :
    isBlankText (s ++ t) = (isBlankText s && isBlankText t) :=
  List.all_append

theorem isBlankText_cons (c : Char) (s : List Char) :
    isBlankText (c :: s) = (isBlank c && isBlankText s) :=
  List.all_cons

theorem isBlankText_singleton (c : Char) : isBlankText [c] = isBlank c :=
  Bool.and_true _

/-- A blank text at the start of a text is not part of its trimmed form. -/
theorem trim_append_left {m : List Char} (hm : isBlankText m = true) (s : List Char) :
    trim (m ++ s) = trim s := by
  induction m with
  | nil => rfl
  | cons c m ih =>
    rw [isBlankText_cons, Bool.and_eq_true] at hm
    rw [List.cons_append, trim_cons_of_isBlank _ hm.1, ih hm.2]

theorem trim_append_right {m : List Char} (hm : isBlankText m = true) (s : List Char) :
    trim (s ++ m) = trim s := by
  induction m using List.reverseRecOn with
  | nil => rw [List.append_nil]
  | append_singleton m c ih =>
    rw [isBlankText_append, Bool.and_eq_true, isBlankText_singleton] at hm
    rw [← List.append_assoc, trim_concat_of_isBlank _ hm.2, ih hm.1]

/-- **Nothing is left of a text** exactly when it holds nothing but blanks. -/
theorem trim_eq_nil_iff {s : List Char} : trim s = [] ↔ isBlankText s = true := by
  rw [trim, trimRight_eq_rdropWhile, List.rdropWhile_eq_nil_iff, isBlankText, List.all_eq_true]
  refine ⟨fun h => ?_, fun h c hc => h c (List.dropWhile_subset isBlank hc)⟩
  obtain hs | ⟨c, t, hs, hc⟩ := trimLeft_eq_nil_or s
  · exact List.dropWhile_eq_nil_iff.mp hs
  · have := h c (by simp [hs])
    simp [hc] at this

end Stencil.Text
