import Stencil.Proofs.Record.Canvas
import Stencil.Proofs.Record.Stamp
import Stencil.Proofs.Script.Reading

/-!
# Proofs/Script/RoundTrip — files that say what the script is

    script ──fileText──▸ text ──ofText──▸ script
                  └─────▸ no file can hold the name of a shape, or a number is too long

A script is read back from its own file exactly when it `IsWritable` and its shapes have plain names
(`exists_fileText_iff`), under either policy: a fault in the file of one that is not writable could
be passed over, but what remains is another script.  Halves of pairs may stand in a name that is
writable otherwise, and then there is no file (`not_exists_fileText_loneScript`).

Every script that is read from a file is writable and has plain names (`isWritable_of_ofText`),
whatever the file looks like, so rewriting a file that can be read loses nothing
(`outcome_ofText_toText_of_ofText`).  Of a script that is read from any lines at all the numbers fit
32 bits (`isNarrow_of_read`).
-/

namespace Stencil.Script

open Stencil.Text Stencil.Record

variable {s : Script}

/-- **A script whose parts can be written and read back.** -/
structure IsWritable (s : Script) : Prop where
  canvas : s.canvas.IsWritable
  stamps : ∀ stamp ∈ s.stamps, stamp.IsWritable

/-- **A script without halves of pairs** in the names of its shapes. -/
def IsPlain (s : Script) : Prop :=
  ∀ stamp ∈ s.stamps, stamp.shape.isPlain = true

instance (s : Script) : Decidable s.IsPlain :=
  inferInstanceAs (Decidable (∀ stamp ∈ s.stamps, stamp.shape.isPlain = true))

/-! ## The lines of a script's file -/

/-- The records of a script, one for each line of its file. -/
def recordLines (s : Script) : List String :=
  s.canvas.toRecord :: s.stamps.map Stamp.toRecord

/-- Joining lines and closing the last one gives each line its end. -/
theorem intercalate_append_eq_flatMap (sep : List Char) {ls : List (List Char)} (h : ls ≠ []) :
    sep.intercalate ls ++ sep = ls.flatMap (· ++ sep) := by
  induction ls with
  | nil => exact absurd rfl h
  | cons first ls ih =>
    cases ls with
    | nil => simp
    | cons second ls =>
      rw [List.intercalate_cons_cons, List.append_assoc, ih (List.cons_ne_nil second ls)]
      rfl

/-- **The text of a script with plain names** is a plain one. -/
theorem text_eq (h : s.IsPlain) :
    s.text = .plain (String.intercalate "\n" s.recordLines ++ "\n") := by
  have hrecords : s.stamps.map Stamp.record = (s.stamps.map Stamp.toRecord).map .plain := by
    rw [List.map_map]
    refine List.map_congr_left fun stamp hstamp => ?_
    obtain ⟨name, hname⟩ := Loose.isPlain_iff.mp (h stamp hstamp)
    rw [Function.comp_apply, Stamp.toRecord, Stamp.record_eq hname, Loose.shown_plain]
  rw [text, hrecords, ← List.map_cons, ← recordLines, Loose.intercalate_plain, Loose.plain_append]

/-- **The file of a script with short numbers and plain names** holds its text. -/
theorem fileText_eq (hshort : s.numbers.all Record.isShort = true) (hplain : s.IsPlain) :
    s.fileText = .ok s.toText := by
  rw [fileText, if_pos hshort, toText, text_eq hplain, Loose.encode_plain, Loose.shown_plain]
  rfl

/-- **There is a file for a script** exactly when its numbers are short and its shapes have plain
names. -/
theorem exists_fileText_eq_ok_iff :
    (∃ text, s.fileText = .ok text) ↔ s.numbers.all Record.isShort = true ∧ s.IsPlain := by
  refine ⟨?_, fun h => ⟨_, fileText_eq h.1 h.2⟩⟩
  rintro ⟨text, htext⟩
  rw [fileText] at htext
  have hshort : s.numbers.all Record.isShort = true := by
    by_contra hlong
    rw [if_neg hlong] at htext
    cases htext
  rw [if_pos hshort, mapError_eq_ok_iff] at htext
  refine ⟨hshort, fun stamp hstamp => ?_⟩
  have hplain : s.text.isPlain = true :=
    Loose.isPlain_iff.mpr ⟨text, Loose.encode_eq_ok_iff.mp htext⟩
  refine Loose.isPlain_of_subset hplain ?_
  calc stamp.shape.points ⊆ stamp.record.points := fun _ hp =>
        Loose.points_subset_intercalate _ List.mem_cons_self
          (Loose.points_subset_append_right _ _ hp)
    _ ⊆ s.text.points := fun _ hp => Loose.points_subset_append_left _ _
        (Loose.points_subset_intercalate _
          (List.mem_cons_of_mem _ (List.mem_map_of_mem hstamp)) hp)

/-- The numbers of a writable script are short. -/
theorem IsWritable.isShort (h : s.IsWritable) : s.numbers.all Record.isShort = true := by
  rw [List.all_eq_true]
  intro n hn
  refine InRange.isShort ?_
  rcases List.mem_append.mp hn with hn | hn
  · obtain ⟨hwidth, hheight⟩ := h.canvas
    rw [InRange, minInteger]
    rcases List.mem_pair.mp hn with rfl | rfl
    · exact ⟨by omega, hwidth⟩
    · exact ⟨by omega, hheight⟩
  · obtain ⟨stamp, hstamp, hn⟩ := List.mem_flatMap.mp hn
    exact (h.stamps stamp hstamp).inRange hn

theorem toList_toText (h : s.IsPlain) :
    s.toText.toList = (s.recordLines.map String.toList).flatMap (· ++ ['\n']) := by
  rw [toText, text_eq h, Loose.shown_plain, String.toList_append, String.toList_intercalate]
  exact intercalate_append_eq_flatMap ['\n'] (List.cons_ne_nil _ _)

/-- The record of such a script is a line of its own and nothing is trimmed from it. -/
theorem IsWritable.isLine (h : s.IsWritable) (hplain : s.IsPlain) {record : String}
    (hr : record ∈ s.recordLines) :
    IsLine record.toList ∧ IsTrimmed record.toList ∧ record ≠ "" := by
  rcases List.mem_cons.mp hr with rfl | hr
  · exact ⟨s.canvas.isLine_toRecord, s.canvas.isTrimmed_toRecord⟩
  · obtain ⟨stamp, hstamp, rfl⟩ := List.mem_map.mp hr
    have hw := h.stamps stamp hstamp
    obtain ⟨name, hname⟩ := Loose.isPlain_iff.mp (hplain stamp hstamp)
    exact ⟨Stamp.isLine_toRecord hw hname, Stamp.isTrimmed_toRecord hw hname⟩

/-- **The lines of a writable script's file are its records.** -/
theorem linesOf_toText (h : s.IsWritable) (hplain : s.IsPlain) :
    linesOf s.toText = s.recordLines := by
  have hline : ∀ l ∈ s.recordLines.map String.toList, IsLine l := by
    intro l hl
    obtain ⟨record, hr, rfl⟩ := List.mem_map.mp hl
    exact (h.isLine hplain hr).1
  have hreturn : '\r' ∉ s.toText.toList := by
    rw [toList_toText hplain, List.mem_flatMap]
    rintro ⟨l, hl, hmem⟩
    rcases List.mem_append.mp hmem with hmem | hmem
    · exact (hline l hl).2 hmem
    · exact absurd hmem (by decide)
  rw [linesOf, unifyEnds_eq_self hreturn, toList_toText hplain,
    lines_joined fun l hl => (hline l hl).1, List.map_map]
  exact (List.map_congr_left fun r _ => String.ofList_toList).trans (List.map_id _)

/-- They are read as they stand. -/
theorem map_snd_records_recordLines (h : s.IsWritable) (hplain : s.IsPlain) :
    (records 1 s.recordLines).map Prod.snd = s.recordLines := by
  have hself : s.recordLines.map recordOf = s.recordLines := by
    refine (List.map_congr_left ?_).trans (List.map_id _)
    intro text htext
    rw [recordOf, trim_eq_self_iff.mpr (h.isLine hplain htext).2.1, String.ofList_toList, id]
  rw [map_snd_records, hself, List.filter_eq_self]
  exact fun text htext => decide_eq_true (h.isLine hplain htext).2.2

/-! ## Writing and reading -/

/-- **A writable script with plain names is read back from its own file.** -/
theorem outcome_ofText_toText (policy : Policy) (h : s.IsWritable) (hplain : s.IsPlain) :
    (ofText policy s.toText).outcome = .ok s := by
  rw [ofText, linesOf_toText h hplain, outcome_read_eq_ok_iff]
  have hrecords := map_snd_records_recordLines h hplain
  cases hr : records 1 s.recordLines with
  | nil =>
    rw [hr] at hrecords
    cases hrecords
  | cons first rest =>
    rw [hr, List.map_cons, recordLines, List.cons.injEq] at hrecords
    obtain ⟨hfirst, hrest⟩ := hrecords
    refine ⟨first, rest, rfl, ?_, ?_⟩
    · rw [hfirst]
      exact Canvas.ofRecord_toRecord h.canvas
    · have hread : List.Forall₂ (fun r stamp => Stamp.ofRecord r.2 = .ok stamp) rest s.stamps := by
        refine forall₂_of_map_eq_map hrest ?_
        intro r stamp hstamp hr
        obtain ⟨name, hname⟩ := Loose.isPlain_iff.mp (hplain stamp hstamp)
        rw [hr]
        exact Stamp.ofRecord_toRecord (h.stamps stamp hstamp) hname
      have hkept : rest.filter (reads policy) = rest := by
        refine List.filter_eq_self.mpr ?_
        intro r hr
        obtain ⟨stamp, -, hstamp⟩ := exists_of_mem_left hread hr
        exact reads_of_ofRecord r hstamp policy
      rwa [hkept]

/-- **Every script that is read is writable** and has plain names. -/
theorem isWritable_of_ofText {policy : Policy} {text : String}
    (h : (ofText policy text).outcome = .ok s) : s.IsWritable ∧ s.IsPlain := by
  obtain ⟨first, rest, hrecords, hcanvas, hstamps⟩ := outcome_read_eq_ok_iff.mp h
  have hline : ∀ r ∈ records 1 (linesOf text), IsLine r.2.toList := by
    intro r hr
    obtain ⟨line, hmem, hrecord⟩ := exists_of_mem_records hr
    obtain ⟨l, hl, rfl⟩ := List.mem_map.mp hmem
    rw [hrecord, recordOf, String.toList_ofList, String.toList_ofList]
    exact (isLine_of_mem_lines hl).subset (trim_subset l)
  have hstamp : ∀ stamp ∈ s.stamps, stamp.IsWritable ∧ ∃ name, stamp.shape = .plain name := by
    intro stamp hstamp
    obtain ⟨r, hr, hread⟩ := exists_of_mem_right hstamps hstamp
    have hmem : r ∈ records 1 (linesOf text) := by
      rw [hrecords]
      exact List.mem_cons_of_mem first (List.mem_of_mem_filter hr)
    exact Stamp.isWritable_of_ofRecord (hline r hmem) hread
  exact ⟨⟨Canvas.isWritable_of_ofRecord hcanvas, fun stamp h => (hstamp stamp h).1⟩,
    fun stamp h => Loose.isPlain_iff.mpr (hstamp stamp h).2⟩

/-- **A script whose numbers fit 32 bits.** -/
structure IsNarrow (s : Script) : Prop where
  canvas : s.canvas.IsWritable
  stamps : ∀ stamp ∈ s.stamps, stamp.IsNarrow

/-- **Every script that is read is narrow**, whatever its lines hold. -/
theorem isNarrow_of_read {policy : Policy} {lines : List String}
    (h : (read policy lines).outcome = .ok s) : s.IsNarrow := by
  obtain ⟨first, rest, -, hcanvas, hstamps⟩ := outcome_read_eq_ok_iff.mp h
  refine ⟨Canvas.isWritable_of_ofRecord hcanvas, ?_⟩
  intro stamp hstamp
  obtain ⟨r, -, hread⟩ := exists_of_mem_right hstamps hstamp
  exact Stamp.isNarrow_of_ofRecord hread

/-- **A script is read back from its own file** exactly when it is writable and its shapes have
plain names: otherwise there is no file, or another script or none is read from it. -/
theorem exists_fileText_iff (policy : Policy) (s : Script) :
    (∃ text, s.fileText = .ok text ∧ (ofText policy text).outcome = .ok s) ↔
      s.IsWritable ∧ s.IsPlain := by
  constructor
  · rintro ⟨text, -, hread⟩
    exact isWritable_of_ofText hread
  · rintro ⟨hwritable, hplain⟩
    exact ⟨s.toText, fileText_eq hwritable.isShort hplain,
      outcome_ofText_toText policy hwritable hplain⟩

/-- A canvas of a hundred pixels each way, and a shape whose name is half of a pair. -/
def loneScript : Script :=
  ⟨Canvas.make 100 100 none none none 0,
    [Stamp.plain.withShape (.broken [.half ⟨0xd800, by decide⟩] rfl) nofun]⟩

/-- **No file can hold half of a pair**, though nothing else is wrong with the name. -/
theorem not_exists_fileText_loneScript :
    loneScript.IsWritable ∧ ∀ policy, ¬∃ text, loneScript.fileText = .ok text ∧
      (ofText policy text).outcome = .ok loneScript := by
  have hcanvas : loneScript.canvas.IsWritable := by decide
  have hstamp :
      (Stamp.plain.withShape (.broken [.half ⟨0xd800, by decide⟩] rfl) nofun).IsWritable :=
    { Stamp.isNarrow_plain with shape_clean := by decide, shape_line := by decide }
  refine ⟨⟨hcanvas, fun stamp h => List.mem_singleton.mp h ▸ hstamp⟩, ?_⟩
  rintro policy ⟨text, htext, -⟩
  exact absurd (exists_fileText_eq_ok_iff.mp ⟨text, htext⟩).2 (by decide)

/-- **Rewriting a file that can be read loses nothing**: what was read from it has a file of its
own, is read again from there, strictly, and the file of that is the same. -/
theorem outcome_ofText_toText_of_ofText {policy : Policy} {text : String}
    (h : (ofText policy text).outcome = .ok s) :
    s.fileText = .ok s.toText ∧ (ofText .strict s.toText).outcome = .ok s ∧
      (ofText .strict s.toText).outcome.map toText = .ok s.toText := by
  obtain ⟨hwritable, hplain⟩ := isWritable_of_ofText h
  have hread := outcome_ofText_toText .strict hwritable hplain
  rw [hread]
  exact ⟨fileText_eq hwritable.isShort hplain, rfl, rfl⟩

/-- A file with three kinds of line ends, keys in any case, a name in Greek capitals, a blank field,
a random coordinate and a last line that is passed over. -/
def untidyText : String :=
  " WIDTH = 10,red=300\r\n\nShape=ΌΡΟΣ ,,x=-2147483648\rscale=big"

theorem outcome_ofText_toText_of_untidyText :
    ∃ s, (ofText .lenient untidyText).outcome = .ok s ∧ s.stamps.map Stamp.shape = ["όρος"] ∧
      s.fileText = .ok s.toText ∧ (ofText .strict s.toText).outcome = .ok s ∧
      (ofText .strict s.toText).outcome.map toText = .ok s.toText := by
  have hshapes : (ofText .lenient untidyText).outcome.toOption.map
      (fun s => s.stamps.map Stamp.shape) = some [.plain "όρος"] := by decide +kernel
  cases hs : (ofText .lenient untidyText).outcome with
  | error e =>
    rw [hs] at hshapes
    cases hshapes
  | ok s =>
    rw [hs] at hshapes
    exact ⟨s, rfl, Option.some.inj hshapes, outcome_ofText_toText_of_ofText hs⟩

end Stencil.Script
