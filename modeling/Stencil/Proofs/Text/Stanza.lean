import Stencil.Proofs.Text.Seam
import Stencil.Proofs.Text.Trim

/-!
# Proofs/Text/Stanza — the lines of a text that are not blank

The stanza of a text is what reading sees of it: its lines without the blank ones.  Blank lines
being left out, it does not matter that a carriage return and a line feed end one line together
(`stanza_eq_pieces`), so a text can be cut beside any character that ends a line and its stanza with
it (`stanza_append`).
-/

namespace Stencil.Text

/-- The characters that end a line. -/
def lineEnds : List Char := ['\n', '\r']

/-- The texts that are not blank. -/
def inked (texts : List (List Char)) : List (List Char) :=
  texts.filter fun text => !isBlankText text

/-- **The stanza of a text**: its lines, without the blank ones. -/
def stanza (s : List Char) : List (List Char) :=
  inked (lines (unifyEnds s))

/-! ## Blank texts left out -/

theorem inked_append (texts more : List (List Char)) :
    inked (texts ++ more) = inked texts ++ inked more :=
  List.filter_append _ _

theorem inked_cons (text : List Char) (texts : List (List Char)) :
    inked (text :: texts) = inked [text] ++ inked texts :=
  inked_append [text] texts

@[simp] theorem inked_cons_nil (texts : List (List Char)) : inked ([] :: texts) = inked texts :=
  List.filter_cons_of_neg (by decide)

theorem inked_eq_nil_iff {texts : List (List Char)} :
    inked texts = [] ↔ ∀ text ∈ texts, isBlankText text = true := by
  simp [inked]

/-! ## Lines and pieces -/

/-- Lines are the pieces between line feeds, but for one that is empty. -/
theorem inked_lines (s : List Char) : inked (lines s) = inked (pieces '\n' s) := by
  suffices h : lines s = pieces '\n' s ∨ lines s ++ [[]] = pieces '\n' s by
    rcases h with h | h
    · rw [h]
    · rw [← h, inked_append]
      exact (List.append_nil _).symm
  induction s with
  | nil => exact Or.inr rfl
  | cons c rest ih =>
    rw [lines, pieces]
    by_cases hc : c = '\n'
    · rw [if_pos hc, if_pos hc]
      exact ih.imp (congrArg _) (congrArg _)
    · rw [if_neg hc, if_neg hc]
      rcases ih with ih | ih
      · rw [← ih]
        cases lines rest with
        | nil => exact Or.inl rfl
        | cons line more => exact Or.inl rfl
      · rw [← ih]
        cases lines rest with
        | nil => exact Or.inl rfl
        | cons line more => exact Or.inr rfl

/-- A character that ends a line, as a line feed. -/
def feed (c : Char) : Char :=
  if c = '\r' then '\n' else c

theorem feed_of_mem_lineEnds {c : Char} (h : c ∈ lineEnds) : feed c = '\n' := by
  rcases List.mem_cons.mp h with rfl | h
  · rfl
  · rw [List.mem_singleton.mp h]
    rfl

/-- Two characters that end one line leave a piece between them, which is empty. -/
theorem inked_pieces_unifyEnds (s : List Char) :
    inked (pieces '\n' (unifyEnds s)) = inked (pieces '\n' (s.map feed)) := by
  suffices h : ∃ first more more', pieces '\n' (unifyEnds s) = first :: more ∧
      pieces '\n' (s.map feed) = first :: more' ∧ inked more = inked more' by
    obtain ⟨first, more, more', h, h', hmore⟩ := h
    rw [h, h', inked_cons, inked_cons first more', hmore]
  have hfeed : ∀ u : List Char, pieces '\n' ('\n' :: u) = [] :: pieces '\n' u := fun u =>
    pieces_append_cons_sep [] u
  fun_induction unifyEnds s with
  | case1 => exact ⟨[], [], [], rfl, rfl, rfl⟩
  | case2 rest ih =>
    obtain ⟨first, more, more', h, h', hmore⟩ := ih
    refine ⟨[], first :: more, [] :: first :: more', ?_, ?_, ?_⟩
    · rw [hfeed, h]
    · change pieces '\n' ('\n' :: '\n' :: rest.map feed) = _
      rw [hfeed, hfeed, h']
    · rw [inked_cons_nil, inked_cons, inked_cons first more', hmore]
  | case3 c rest _ ih =>
    obtain ⟨first, more, more', h, h', hmore⟩ := ih
    rw [List.map_cons]
    change ∃ _ _ _, pieces '\n' (feed c :: unifyEnds rest) = _ ∧ _
    by_cases hc : feed c = '\n'
    · refine ⟨[], first :: more, first :: more', ?_, ?_, ?_⟩
      · rw [hc, hfeed, h]
      · rw [hc, hfeed, h']
      · rw [inked_cons, inked_cons first more', hmore]
    · refine ⟨feed c :: first, more, more', ?_, ?_, hmore⟩
      · rw [pieces, if_neg hc, h]
      · rw [pieces, if_neg hc, h']

/-- **The stanza of a text** holds the pieces between the characters that end lines. -/
theorem stanza_eq_pieces (s : List Char) : stanza s = inked (pieces '\n' (s.map feed)) := by
  rw [stanza, inked_lines, inked_pieces_unifyEnds]

/-! ## Cutting a stanza -/

/-- A character that ends a line parts the stanza. -/
theorem stanza_append_cons {c : Char} (hc : c ∈ lineEnds) (s t : List Char) :
    stanza (s ++ c :: t) = stanza s ++ stanza t := by
  rw [stanza_eq_pieces, List.map_append, List.map_cons, feed_of_mem_lineEnds hc,
    pieces_append_cons_sep, inked_append, ← stanza_eq_pieces, ← stanza_eq_pieces]

@[simp] theorem stanza_nil : stanza [] = [] := rfl

/-- **The stanza of a text that is cut at a line end** is cut in two. -/
theorem stanza_append {s t : List Char} (h : IsSeam lineEnds s t) :
    stanza (s ++ t) = stanza s ++ stanza t := by
  rcases h with h | h
  · rcases List.eq_nil_or_concat s with rfl | ⟨s, c, rfl⟩
    · rfl
    · have hc : c ∈ lineEnds := h c (by simp)
      rw [List.concat_eq_append, List.append_assoc, List.singleton_append, stanza_append_cons hc,
        stanza_append_cons hc, stanza_nil, List.append_nil]
  · cases t with
    | nil => rw [stanza_nil, List.append_nil, List.append_nil]
    | cons c t =>
      have hc : c ∈ lineEnds := h c rfl
      rw [stanza_append_cons hc, ← List.nil_append (c :: t), stanza_append_cons hc, stanza_nil,
        List.nil_append]

/-- A text is blank when its pieces are. -/
theorem isBlankText_iff_pieces {sep : Char} (hsep : isBlank sep = true) (s : List Char) :
    isBlankText s = true ↔ ∀ piece ∈ pieces sep s, isBlankText piece = true := by
  induction s with
  | nil => simp
  | cons c rest ih =>
    rw [pieces, isBlankText_cons, Bool.and_eq_true, ih]
    by_cases hc : c = sep
    · rw [if_pos hc, List.forall_mem_cons, hc]
      exact and_congr_left fun _ => iff_of_true hsep rfl
    · rw [if_neg hc]
      cases hrest : pieces sep rest with
      | nil => exact absurd hrest (pieces_ne_nil sep rest)
      | cons first more =>
        simp only [List.forall_mem_cons, isBlankText_cons, Bool.and_eq_true, and_assoc]

/-- **Nothing of a text is left** exactly when all of it is blank. -/
theorem stanza_eq_nil_iff {s : List Char} : stanza s = [] ↔ isBlankText s = true := by
  have hfeed : isBlankText (s.map feed) = isBlankText s := by
    rw [isBlankText, List.all_map, isBlankText]
    refine congrArg s.all (funext fun c => ?_)
    rw [Function.comp_apply, feed]
    split
    next h => rw [h]; decide
    next => rfl
  rw [stanza_eq_pieces, inked_eq_nil_iff, ← isBlankText_iff_pieces (by decide), hfeed]

/-- The stanza of one line. -/
theorem stanza_of_isLine {line : List Char} (h : IsLine line) : stanza line = inked [line] := by
  have hmap : line.map feed = line := by
    refine (List.map_congr_left fun c hc => if_neg ?_).trans (List.map_id line)
    rintro rfl
    exact h.2 hc
  rw [stanza_eq_pieces, hmap, pieces_eq_singleton h.1]

end Stencil.Text
