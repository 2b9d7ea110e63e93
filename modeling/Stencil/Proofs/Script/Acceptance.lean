import Stencil.Proofs.Record.Margin
import Stencil.Proofs.Script.Reading

/-!
# Proofs/Script/Acceptance — what strict reading accepts, and where it stops

The grammar of a file is that of its lines: `IsAccepted` asks of each line that is not blank that it
is a record, with the integer keys of its place (`keysAfter`).  Strict reading gives a script
exactly for these files, one stamp for each record after the canvas, and any fault it reports is at
the first line outside the grammar (`outcome_read_strict`).

Reading goes by records and not by lines, so all this is shown for numbered records first
(`AreAccepted`) and carried over by `isAccepted_iff`.
-/

namespace Stencil.Script

open Stencil.Text Stencil.Record

/-! ## The grammar of a file -/

/-- **The integer keys of the line behind these**: the first line that is not blank is the canvas,
every later one a stamp. -/
def keysAfter (before : List String) : List String :=
  if before.all fun text => isBlankText text.toList then Canvas.integerKeys else Stamp.integerKeys

/-- **Lines of the grammar**: each that is not blank is a record, with the keys of its place. -/
def IsAccepted (lines : List String) : Prop :=
  ∀ before text after, lines = before ++ text :: after → isBlankText text.toList = false →
    IsRecord (keysAfter before) text.toList

/-- The integer keys of the record behind these. -/
def keysBehind (before : List (Nat × String)) : List String :=
  if before.isEmpty then Canvas.integerKeys else Stamp.integerKeys

/-- Records of the grammar, each with the keys of its place. -/
def AreAccepted (rs : List (Nat × String)) : Prop :=
  ∀ before r after, rs = before ++ r :: after → IsRecord (keysBehind before) r.2.toList

theorem keysBehind_records (line : Nat) (before : List String) :
    keysBehind (records line before) = keysAfter before := by
  have h : (records line before).isEmpty = before.all fun text => isBlankText text.toList := by
    rw [Bool.eq_iff_iff, List.isEmpty_iff, records_eq_nil_iff, List.all_eq_true]
  rw [keysBehind, keysAfter, h]

/-- A line is a record of the grammar when what reading takes for its record is. -/
theorem isRecord_recordOf_iff {keys : List String} {text : String} :
    IsRecord keys (recordOf text).toList ↔ IsRecord keys text.toList := by
  rw [recordOf, String.toList_ofList, isRecord_trim_iff]

/-- **Lines are of the grammar** exactly when their records are. -/
theorem isAccepted_iff {line : Nat} {lines : List String} :
    IsAccepted lines ↔ AreAccepted (records line lines) := by
  constructor
  · intro h before r after hr
    obtain ⟨before', text, after', hlines, rfl, rfl, htext⟩ := exists_split_of_records hr
    rw [keysBehind_records, isRecord_recordOf_iff]
    exact h before' text after' hlines htext
  · rintro h before text after rfl htext
    have hne : recordOf text ≠ "" := by
      rw [ne_eq, recordOf_eq_empty_iff, htext]
      exact Bool.false_ne_true
    rw [records_append, records_cons_of_ne hne] at h
    have hrecord := h _ _ _ rfl
    rwa [keysBehind_records, isRecord_recordOf_iff] at hrecord

theorem areAccepted_nil : AreAccepted [] := fun before r after h =>
  absurd h.symm (List.append_ne_nil_of_right_ne_nil before (List.cons_ne_nil r after))

theorem areAccepted_cons_iff {first : Nat × String} {rest : List (Nat × String)} :
    AreAccepted (first :: rest) ↔ IsRecord Canvas.integerKeys first.2.toList ∧
      ∀ r ∈ rest, IsRecord Stamp.integerKeys r.2.toList := by
  constructor
  · intro h
    refine ⟨h [] first rest rfl, ?_⟩
    intro r hr
    obtain ⟨before, after, rfl⟩ := List.append_of_mem hr
    exact h (first :: before) r after rfl
  · rintro ⟨hfirst, hrest⟩ before r after hrs
    cases before with
    | nil =>
      cases hrs
      exact hfirst
    | cons _ before =>
      cases hrs
      exact hrest r (by simp)

/-! ## Strict reading -/

/-- Strict reading reads every record. -/
theorem filter_reads_strict (rest : List (Nat × String)) : rest.filter (reads .strict) = rest :=
  List.filter_eq_self.mpr fun _ _ => rfl

/-- A fault that is reported for a record has the number and the text of this record. -/
theorem locate_eq_fault {α : Type} {x : Except Error α} {n : Nat} {text : String} {f : Fault}
    {line : Option Nat} {record : Option String}
    (h : x.mapError (Error.locate n text) = .error (.fault f line record)) :
    line = some n ∧ record = some text ∧ ¬∃ a, x = .ok a := by
  cases x with
  | ok a => cases h
  | error e =>
    cases e with
    | fault g _ _ =>
      cases h
      exact ⟨rfl, rfl, fun ⟨_, h⟩ => by cases h⟩
    | tooManyDigits count => cases h

theorem exists_outcomeOf_strict_iff {rs : List (Nat × String)} :
    (∃ s, outcomeOf .strict rs = .ok s) ↔ rs ≠ [] ∧ AreAccepted rs := by
  cases rs with
  | nil =>
    refine iff_of_false ?_ fun h => h.1 rfl
    rintro ⟨s, h⟩
    cases h
  | cons first rest =>
    have hcanvas : (∃ c, readCanvas first = .ok c) ↔
        IsRecord Canvas.integerKeys first.2.toList := by
      simp only [readCanvas, mapError_eq_ok_iff]
      exact Canvas.exists_ofRecord_eq_ok_iff
    have hstamps : (∃ stamps, rest.mapM readStamp = .ok stamps) ↔
        ∀ r ∈ rest, IsRecord Stamp.integerKeys r.2.toList := by
      rw [exists_mapM_eq_ok_iff]
      simp only [readStamp, mapError_eq_ok_iff, Stamp.exists_ofRecord_eq_ok_iff]
    rw [and_iff_right (List.cons_ne_nil first rest), areAccepted_cons_iff, ← hcanvas, ← hstamps]
    simp only [outcomeOf_cons_eq_ok_iff, filter_reads_strict]
    constructor
    · rintro ⟨s, hcanvas, hstamps⟩
      exact ⟨⟨s.canvas, hcanvas⟩, s.stamps, hstamps⟩
    · rintro ⟨⟨canvas, hcanvas⟩, stamps, hstamps⟩
      exact ⟨⟨canvas, stamps⟩, hcanvas, hstamps⟩

/-- **A fault is reported at the first record outside the grammar**, if there is any record. -/
theorem outcomeOf_strict_eq_fault {rs : List (Nat × String)} {f : Fault} {line : Option Nat}
    {record : Option String} (h : outcomeOf .strict rs = .error (.fault f line record)) :
    rs = [] ∧ line = none ∨ ∃ before r after, rs = before ++ r :: after ∧ line = some r.1 ∧
      record = some r.2 ∧ AreAccepted before ∧ ¬IsRecord (keysBehind before) r.2.toList := by
  cases rs with
  | nil =>
    cases h
    exact Or.inl ⟨rfl, rfl⟩
  | cons first rest =>
    refine Or.inr ?_
    rw [outcomeOf_cons_eq_error_iff, filter_reads_strict] at h
    obtain h | ⟨⟨canvas, hcanvas⟩, h⟩ := h
    · obtain ⟨hline, hrecord, hno⟩ := locate_eq_fault h
      exact ⟨[], first, rest, rfl, hline, hrecord, areAccepted_nil,
        fun hr => hno (Canvas.exists_ofRecord_eq_ok_iff.mpr hr)⟩
    · obtain ⟨before, r, after, rfl, hbefore, hr⟩ := mapM_eq_error_iff.mp h
      obtain ⟨hline, hrecord, hno⟩ := locate_eq_fault hr
      refine ⟨first :: before, r, after, rfl, hline, hrecord, areAccepted_cons_iff.mpr ⟨?_, ?_⟩,
        fun hr => hno (Stamp.exists_ofRecord_eq_ok_iff.mpr hr)⟩
      · exact Canvas.exists_ofRecord_eq_ok_iff.mp ⟨canvas, mapError_eq_ok_iff.mp hcanvas⟩
      · intro b hb
        obtain ⟨stamp, hstamp⟩ := hbefore b hb
        exact Stamp.exists_ofRecord_eq_ok_iff.mp ⟨stamp, mapError_eq_ok_iff.mp hstamp⟩

/-- **Strict reading accepts exactly the grammar and points at the first fault.** -/
theorem outcome_read_strict (lines : List String) :
    ((∃ s, (read .strict lines).outcome = .ok s) ↔
      (∃ text ∈ lines, isBlankText text.toList = false) ∧ IsAccepted lines) ∧
    (∀ s, (read .strict lines).outcome = .ok s → ∃ canvas rest,
      (lines.map recordOf).filter (· ≠ "") = canvas :: rest ∧
      Canvas.ofRecord canvas = .ok s.canvas ∧
      List.Forall₂ (fun record stamp => Stamp.ofRecord record = .ok stamp) rest s.stamps) ∧
    ∀ f line record, (read .strict lines).outcome = .error (.fault f line record) →
      (∀ text ∈ lines, isBlankText text.toList = true) ∧ line = none ∨
      ∃ before text after, lines = before ++ text :: after ∧ line = some (before.length + 1) ∧
        record = some (recordOf text) ∧ isBlankText text.toList = false ∧ IsAccepted before ∧
        ¬IsRecord (keysAfter before) text.toList := by
  refine ⟨?_, fun s hs => ?_, fun f line record h => ?_⟩
  · rw [outcome_read, exists_outcomeOf_strict_iff, ← isAccepted_iff, ne_eq, records_eq_nil_iff]
    simp only [not_forall, Bool.not_eq_true, exists_prop]
  · obtain ⟨first, rest, hrecords, hcanvas, hstamps⟩ := outcome_read_eq_ok_iff.mp hs
    rw [filter_reads_strict] at hstamps
    refine ⟨first.2, rest.map Prod.snd, ?_, hcanvas, List.forall₂_map_left_iff.mpr hstamps⟩
    rw [← map_snd_records 1, hrecords, List.map_cons]
  · rw [outcome_read] at h
    obtain ⟨hnil, hline⟩ | ⟨before, r, after, hrs, rfl, rfl, hbefore, hr⟩ :=
      outcomeOf_strict_eq_fault h
    · exact Or.inl ⟨records_eq_nil_iff.mp hnil, hline⟩
    · obtain ⟨before', text, after', hlines, rfl, rfl, htext⟩ := exists_split_of_records hrs
      rw [keysBehind_records, isRecord_recordOf_iff] at hr
      exact Or.inr ⟨before', text, after', hlines, by rw [Nat.add_comm], rfl, htext,
        isAccepted_iff.mpr hbefore, hr⟩

end Stencil.Script
