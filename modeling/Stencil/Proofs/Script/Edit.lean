import Stencil.Proofs.Record.Edit
import Stencil.Proofs.Script.Acceptance
import Stencil.Proofs.Text.Stanza

/-!
# Proofs/Script/Edit — edits of a file that do not matter

    width=10⏎shape=star,x=5  ──▸  WIDTH= 10⏎ ⏎x=4,x=5,note=hi,shape=star,

An `Edit` of a file edits one of its records, puts in a blank line or changes a line end.  A file is
read record by record from its stanza (`outcome_ofText_strict_eq_ok_iff`), so only the records
count, and those read the same after an edit.  The main statement is `outcome_ofText_iff_of_edits`:
files that are linked by edits, however many and in whichever order, are read as the same script or
are both refused.
-/

namespace Stencil.Script

open Stencil.Text Stencil.Record

/-! ## Edits -/

/-- **A line end**: one of the three ways to end a line. -/
inductive LineEnd where
  | lineFeed
  | carriageReturn
  | both

/-- The characters of a line end. -/
def LineEnd.chars : LineEnd → List Char
  | lineFeed => ['\n']
  | carriageReturn => ['\r']
  | both => ['\r', '\n']

/-- **An edit of a file.**  The first record that is not blank is the canvas, every later one a
stamp, and each has the keys of its kind. -/
inductive Edit : List Char → List Char → Prop
  /-- The record of the canvas is edited. -/
  | canvas (before line line' after : List Char) (hbefore : isBlankText before = true)
    (hstart : StopsAt lineEnds before) (hstop : StartsAt lineEnds after) (hline : IsLine line)
    (hline' : IsLine line')
    (h : Record.Edit Canvas.vocabulary.keys Canvas.vocabulary.integerKeys line line') :
    Edit (before ++ (line ++ after)) (before ++ (line' ++ after))
  /-- The record of a stamp is edited. -/
  | stamp (before line line' after : List Char) (hbefore : isBlankText before = false)
    (hstart : StopsAt lineEnds before) (hstop : StartsAt lineEnds after) (hline : IsLine line)
    (hline' : IsLine line')
    (h : Record.Edit Stamp.vocabulary.keys Stamp.vocabulary.integerKeys line line') :
    Edit (before ++ (line ++ after)) (before ++ (line' ++ after))
  /-- A blank line is put above a line. -/
  | blankAbove (before line after : List Char) (e : LineEnd) (hstart : StopsAt lineEnds before)
    (hblank : isBlankText line = true) :
    Edit (before ++ after) (before ++ (line ++ e.chars ++ after))
  /-- A blank line is put below a line. -/
  | blankBelow (before line after : List Char) (e : LineEnd) (hstop : StartsAt lineEnds after)
    (hblank : isBlankText line = true) :
    Edit (before ++ after) (before ++ (e.chars ++ line ++ after))
  /-- One line end takes the place of another. -/
  | lineEnd (before after : List Char) (e e' : LineEnd) :
    Edit (before ++ (e.chars ++ after)) (before ++ (e'.chars ++ after))

/-- The text with one line end in all places. -/
def withEnds (e : LineEnd) (s : List Char) : List Char :=
  (unifyEnds s).flatMap fun c => if c = '\n' then e.chars else [c]

/-- **All line ends together** are replaced by replacing one after another. -/
theorem edits_withEnds (e : LineEnd) (s : List Char) : Relation.EqvGen Edit s (withEnds e s) := by
  suffices h : ∀ before, Relation.EqvGen Edit (before ++ s) (before ++ withEnds e s) from h []
  unfold withEnds
  -- what is before the place that is reached has its new line ends already
  fun_induction unifyEnds s with
  | case1 => exact fun before => .refl _
  | case2 rest ih =>
    intro before
    have hrest := ih (before ++ e.chars)
    rw [List.append_assoc, List.append_assoc] at hrest
    exact .trans _ _ _ (.rel _ _ (.lineEnd before rest .both e)) hrest
  | case3 c rest _ ih =>
    intro before
    have hrest := ih (before ++ e.chars)
    rw [List.append_assoc, List.append_assoc] at hrest
    by_cases hr : c = '\r'
    · subst hr
      exact .trans _ _ _ (.rel _ _ (.lineEnd before rest .carriageReturn e)) hrest
    · rw [if_neg hr, List.flatMap_cons]
      by_cases hn : c = '\n'
      · subst hn
        exact .trans _ _ _ (.rel _ _ (.lineEnd before rest .lineFeed e)) hrest
      · rw [if_neg hn]
        simpa using ih (before ++ [c])

/-! ## Reading a stanza -/

/-- The canvas of a line, if it has one. -/
def canvasOf? (line : List Char) : Option Canvas :=
  (Canvas.ofRecord (String.ofList (trim line))).toOption

/-- The stamp of a line, if it has one. -/
def stampOf? (line : List Char) : Option Stamp :=
  (Stamp.ofRecord (String.ofList (trim line))).toOption

/-- Without their numbers the records of a file are the lines of its stanza, trimmed. -/
theorem map_snd_records_linesOf (text : String) :
    (records 1 (linesOf text)).map Prod.snd =
      (stanza text.toList).map fun line => String.ofList (trim line) := by
  rw [map_snd_records, linesOf, List.map_map, stanza, inked]
  induction lines (unifyEnds text.toList) with
  | nil => rfl
  | cons line rest ih =>
    have hrecord : (recordOf ∘ String.ofList) line = String.ofList (trim line) := by
      rw [Function.comp_apply, recordOf, String.toList_ofList]
    have hempty : String.ofList (trim line) = "" ↔ isBlankText line = true := by
      rw [String.ofList_eq_empty_iff, trim_eq_nil_iff]
    rw [List.map_cons, hrecord]
    by_cases hblank : isBlankText line = true
    · rw [List.filter_cons_of_neg (by simpa using hempty.mpr hblank),
        List.filter_cons_of_neg (by simpa using hblank), ih]
    · rw [List.filter_cons_of_pos (by simpa using fun h => hblank (hempty.mp h)),
        List.filter_cons_of_pos (by simpa using hblank), List.map_cons, ih]

/-- **What the lines of a stanza say**: the first as a canvas, the others as stamps. -/
def readings (lines : List (List Char)) : Option (Option Canvas) × List (Option Stamp) :=
  (lines.head?.map canvasOf?, lines.tail.map stampOf?)

/-- **A file is read from its stanza.** -/
theorem outcome_ofText_strict_eq_ok_iff {text : String} {s : Script} :
    (ofText .strict text).outcome = .ok s ↔
      readings (stanza text.toList) = (some (some s.canvas), s.stamps.map some) := by
  have hmap := map_snd_records_linesOf text
  rw [ofText, outcome_read, readings]
  cases hstanza : stanza text.toList with
  | nil =>
    rw [hstanza] at hmap
    rw [List.map_eq_nil_iff.mp hmap]
    exact iff_of_false nofun fun h => nomatch (Prod.mk.inj h).1
  | cons line more =>
    rw [hstanza] at hmap
    obtain ⟨first, rest, hrecords, (hfirst : first.2 = String.ofList (trim line)), hrest⟩ :=
      List.map_eq_cons_iff.mp hmap
    have hcanvas : canvasOf? line = (readCanvas first).toOption := by
      rw [canvasOf?, ← hfirst, readCanvas]
      cases Canvas.ofRecord first.2 <;> rfl
    have hstamps : more.map stampOf? = rest.map fun r => (readStamp r).toOption := by
      change more.map ((fun record => (Stamp.ofRecord record).toOption) ∘ _) = _
      rw [← List.map_map, ← hrest, List.map_map]
      refine List.map_congr_left fun r _ => ?_
      rw [Function.comp_apply, readStamp]
      cases Stamp.ofRecord r.2 <;> rfl
    rw [hrecords, outcomeOf_cons_eq_ok_iff, filter_reads_strict, mapM_eq_ok_iff, List.head?_cons,
      Option.map_some, List.tail_cons, Prod.mk.injEq, Option.some.injEq, hcanvas,
      toOption_eq_some_iff, hstamps, ← List.forall₂_eq_eq_eq, List.forall₂_map_left_iff,
      List.forall₂_map_right_iff]
    simp only [toOption_eq_some_iff]

/-! ## What an edit leaves -/

theorem canvasOf?_of_edit {line line' : List Char}
    (h : Record.Edit Canvas.vocabulary.keys Canvas.vocabulary.integerKeys line line') :
    canvasOf? line = canvasOf? line' := by
  have hread := Canvas.vocabulary.toOption_read_of_edit h
  have hmap : ∀ record, (Canvas.ofRecord record).toOption =
      (Canvas.vocabulary.read record).toOption.map Canvas.Request.canvas := by
    intro record
    rw [Canvas.ofRecord_eq_read]
    cases Canvas.vocabulary.read record <;> rfl
  rw [canvasOf?, hmap, hread, ← hmap, canvasOf?]

theorem stampOf?_of_edit {line line' : List Char}
    (h : Record.Edit Stamp.vocabulary.keys Stamp.vocabulary.integerKeys line line') :
    stampOf? line = stampOf? line' := by
  rw [stampOf?, Stamp.ofRecord_eq_read, Stamp.vocabulary.toOption_read_of_edit h,
    ← Stamp.ofRecord_eq_read, stampOf?]

theorem isBlankText_chars (e : LineEnd) : isBlankText e.chars = true := by
  cases e <;> decide

/-- A text that ends with a line end, and one that starts with one. -/
theorem stopsAt_append_chars (s : List Char) (e : LineEnd) : StopsAt lineEnds (s ++ e.chars) := by
  have hchars : StopsAt lineEnds e.chars := by cases e <;> decide
  have hne : e.chars ≠ [] := by cases e <;> decide
  rwa [StopsAt, List.getLast?_append_of_ne_nil s hne]

theorem startsAt_chars_append (e : LineEnd) (s : List Char) : StartsAt lineEnds (e.chars ++ s) := by
  have hchars : StartsAt lineEnds e.chars := by cases e <;> decide
  have hne : e.chars ≠ [] := by cases e <;> decide
  rwa [StartsAt, List.head?_append_of_ne_nil e.chars hne]

/-- A blank text between two line ends leaves no line. -/
theorem stanza_append_blank {before m after : List Char} (hm : isBlankText m = true)
    (hbefore : IsSeam lineEnds before (m ++ after)) (hafter : IsSeam lineEnds m after) :
    stanza (before ++ (m ++ after)) = stanza before ++ stanza after := by
  rw [stanza_append hbefore, stanza_append hafter, stanza_eq_nil_iff.mpr hm, List.nil_append]

/-- A line between two line ends is a line of the stanza, unless it is blank. -/
theorem stanza_append_line {before line after : List Char} (hstart : StopsAt lineEnds before)
    (hstop : StartsAt lineEnds after) (hline : IsLine line) :
    stanza (before ++ (line ++ after)) = stanza before ++ (inked [line] ++ stanza after) := by
  rw [stanza_append (Or.inl hstart), stanza_append (Or.inr hstop), stanza_of_isLine hline]

/-- Lines that are blank together are both left out or both kept. -/
theorem inked_singleton {line line' : List Char} (h : isBlankText line = isBlankText line') :
    inked [line] = [] ∧ inked [line'] = [] ∨ inked [line] = [line] ∧ inked [line'] = [line'] := by
  simp only [inked, List.filter_cons, h, List.filter_nil]
  cases isBlankText line' <;> simp

/-- **An edit changes nothing that the lines of a file say.** -/
theorem readings_of_edit {s t : List Char} (h : Edit s t) :
    readings (stanza s) = readings (stanza t) := by
  cases h with
  | canvas before line line' after hbefore hstart hstop hline hline' h =>
    rw [stanza_append_line hstart hstop hline, stanza_append_line hstart hstop hline',
      stanza_eq_nil_iff.mpr hbefore]
    obtain ⟨h₁, h₂⟩ | ⟨h₁, h₂⟩ := inked_singleton (Canvas.vocabulary.isBlankText_of_edit h)
    · rw [h₁, h₂]
    · rw [h₁, h₂]
      exact Prod.ext (congrArg some (canvasOf?_of_edit h)) rfl
  | stamp before line line' after hbefore hstart hstop hline hline' h =>
    rw [stanza_append_line hstart hstop hline, stanza_append_line hstart hstop hline']
    obtain ⟨h₁, h₂⟩ | ⟨h₁, h₂⟩ := inked_singleton (Stamp.vocabulary.isBlankText_of_edit h)
    · rw [h₁, h₂]
    · have hne : stanza before ≠ [] := by
        rw [ne_eq, stanza_eq_nil_iff, hbefore]
        exact Bool.false_ne_true
      obtain ⟨first, more, hstanza⟩ := List.exists_cons_of_ne_nil hne
      rw [h₁, h₂, hstanza]
      refine Prod.ext rfl ?_
      simp only [readings, List.cons_append, List.nil_append, List.tail_cons, List.map_append,
        List.map_cons, stampOf?_of_edit h]
  | blankAbove before line after e hstart hblank =>
    have hm : isBlankText (line ++ e.chars) = true := by
      rw [isBlankText_append, hblank, isBlankText_chars, Bool.and_self]
    rw [stanza_append (Or.inl hstart),
      stanza_append_blank hm (Or.inl hstart) (Or.inl (stopsAt_append_chars line e))]
  | blankBelow before line after e hstop hblank =>
    have hm : isBlankText (e.chars ++ line) = true := by
      rw [isBlankText_append, hblank, isBlankText_chars, Bool.and_self]
    have hstart : StartsAt lineEnds (e.chars ++ line ++ after) := by
      rw [List.append_assoc]
      exact startsAt_chars_append e (line ++ after)
    rw [stanza_append (Or.inr hstop), stanza_append_blank hm (Or.inr hstart) (Or.inr hstop)]
  | lineEnd before after e e' =>
    have hcut : ∀ e : LineEnd,
        stanza (before ++ (e.chars ++ after)) = stanza before ++ stanza after := fun e =>
      stanza_append_blank (isBlankText_chars e) (Or.inr (startsAt_chars_append e after))
        (Or.inl (stopsAt_append_chars [] e))
    rw [hcut, hcut]

/-- **Edits do not change what a file is read as**, however many there are: files that are linked by
edits give the same script, or both give none. -/
theorem outcome_ofText_iff_of_edits {text text' : String}
    (h : Relation.EqvGen Edit text.toList text'.toList) (s : Script) :
    (ofText .strict text).outcome = .ok s ↔ (ofText .strict text').outcome = .ok s := by
  have hkept : ∀ {t t'}, Relation.EqvGen Edit t t' →
      readings (stanza t) = readings (stanza t') := by
    intro t t' h
    induction h with
    | rel t t' h => exact readings_of_edit h
    | refl t => rfl
    | symm t t' _ ih => exact ih.symm
    | trans t t' t'' _ _ ih ih' => exact ih.trans ih'
  rw [outcome_ofText_strict_eq_ok_iff, outcome_ofText_strict_eq_ok_iff, hkept h]

/-- A file of two lines. -/
def tidyText : String := "width=10\nshape=star,x=5"

/-- The file after an edit of each kind. -/
def editedText : String := "Width= 10\r\n \rx=4,x=5,note=hi,shape=star,"

/-- The edits that lead from one file to the other. -/
theorem edits_tidyText : Relation.EqvGen Edit tidyText.toList editedText.toList := by
  have hends : Edit "width=10\nshape=star,x=5".toList "width=10\r\nshape=star,x=5".toList :=
    .lineEnd "width=10".toList "shape=star,x=5".toList .lineFeed .both
  have hblank : Edit "width=10\r\nshape=star,x=5".toList "width=10\r\n \rshape=star,x=5".toList :=
    .blankAbove "width=10\r\n".toList " ".toList "shape=star,x=5".toList .carriageReturn
      (by decide) (by decide)
  have hcanvas : ∀ line line' : List Char, IsLine line → IsLine line' →
      Record.Edit Canvas.vocabulary.keys Canvas.vocabulary.integerKeys line line' →
      Edit (line ++ "\r\n \rshape=star,x=5".toList) (line' ++ "\r\n \rshape=star,x=5".toList) :=
    fun line line' hline hline' h => .canvas [] line line' _ (by decide) (by decide) (by decide)
      hline hline' h
  have hletters := hcanvas "width=10".toList "Width=10".toList (by decide) (by decide)
    (.letters (by decide))
  have hspace := hcanvas "Width=10".toList "Width= 10".toList (by decide) (by decide)
    (@Record.Edit.blank _ _ ' ' "Width=".toList "10".toList (by decide) (by decide))
  have hstamp : ∀ line line' : List Char, IsLine line → IsLine line' →
      Record.Edit Stamp.vocabulary.keys Stamp.vocabulary.integerKeys line line' →
      Edit ("Width= 10\r\n \r".toList ++ (line ++ []))
        ("Width= 10\r\n \r".toList ++ (line' ++ [])) :=
    fun line line' hline hline' h => .stamp _ line line' [] (by decide) (by decide) (by decide)
      hline hline' h
  have hswap := hstamp "shape=star,x=5".toList "x=5,shape=star".toList (by decide) (by decide)
    (@Record.Edit.swap _ _ _ _ "shape=star".toList "x=5".toList [] [] (by decide) (by decide)
      (by decide))
  have hearlier := hstamp "x=5,shape=star".toList "x=4,x=5,shape=star".toList (by decide)
    (by decide)
    (@Record.Edit.earlier _ _ _ _ "x=4".toList [] ["x=5".toList, "shape=star".toList] (by decide)
      (checkText_eq_ok_iff.mp (rfl : checkText _ "" _ = .ok ()))
      ⟨"x=5".toList, by decide, by decide⟩ (by decide) (by decide))
  have hunknown := hstamp "x=4,x=5,shape=star".toList "x=4,x=5,note=hi,shape=star".toList
    (by decide) (by decide)
    (@Record.Edit.unknown _ _ _ _ "note=hi".toList ["x=4".toList, "x=5".toList]
      ["shape=star".toList] (by decide) (by decide)
      ⟨"note".toList, "hi".toList, isCut_iff.mpr ⟨by decide, by decide, by decide⟩, by decide⟩
      (by decide) (by decide))
  have hcomma := hstamp "x=4,x=5,note=hi,shape=star".toList "x=4,x=5,note=hi,shape=star,".toList
    (by decide) (by decide)
    (@Record.Edit.comma _ _ "x=4,x=5,note=hi,shape=star".toList [] (by decide) (by decide))
  exact .trans _ _ _ (.rel _ _ hends) <| .trans _ _ _ (.rel _ _ hblank) <|
    .trans _ _ _ (.rel _ _ hletters) <| .trans _ _ _ (.rel _ _ hspace) <|
    .trans _ _ _ (.rel _ _ hswap) <| .trans _ _ _ (.rel _ _ hearlier) <|
    .trans _ _ _ (.rel _ _ hunknown) (.rel _ _ hcomma)

theorem outcome_ofText_tidyText_iff_editedText :
    Relation.EqvGen Edit tidyText.toList editedText.toList ∧
      (ofText .strict tidyText).outcome.toOption.isSome = true ∧
      ∀ s, (ofText .strict tidyText).outcome = .ok s ↔
        (ofText .strict editedText).outcome = .ok s :=
  ⟨edits_tidyText, by decide +kernel, outcome_ofText_iff_of_edits edits_tidyText⟩

end Stencil.Script
