import Stencil.Proofs.Script.Acceptance
import Stencil.Proofs.Script.Lenient

/-!
# Proofs/Script/Cleaning — lenient reading as strict reading of cleaned lines

    lines ──cleaned──▸ lines without faulty stamps ──read .strict──▸ outcome
      └────────────────────────read .lenient─────────────────────────▴

Emptying the lines of stamps that have a fault, and no others, turns lenient reading into strict
reading: the two end alike, with the same script or with the same error at the same line
(`read_lenient_eq_read_strict_cleaned`).  What is lost on the way is told by the warnings, one for
each emptied line that reading came to, in order; so the first of them is the error with which
strict reading would have stopped.
-/

namespace Stencil.Script

open Stencil.Text Stencil.Record

/-! ## Cleaning -/

/-- Whether the record of a line has a fault as a stamp. -/
def isFaulty (text : String) : Bool :=
  match Stamp.ofRecord (recordOf text) with
  | .error e => e.isFault
  | .ok _ => false

/-- The lines with the faulty ones emptied. -/
def cleanedStamps (lines : List String) : List String :=
  lines.map fun text => if isFaulty text then "" else text

/-- **The lines with the faulty stamps emptied**, all of which stand after the canvas, the first
line that is not blank. -/
def cleaned : List String → List String
  | [] => []
  | text :: rest =>
    if recordOf text = "" then text :: cleaned rest else text :: cleanedStamps rest

/-- Lenient reading reads the records of the lines that are not faulty. -/
theorem reads_lenient_recordOf (line : Nat) (text : String) :
    reads .lenient (line, recordOf text) = !isFaulty text := by
  cases h : Stamp.ofRecord (recordOf text) <;> simp [reads, isFaulty, h]

/-- The empty record asks for the plain stamp, so no blank line is faulty. -/
theorem isFaulty_of_blank {text : String} (h : recordOf text = "") : isFaulty text = false := by
  have hplain : Stamp.ofRecord "" = .ok Stamp.plain := rfl
  rw [isFaulty, h, hplain]

theorem records_cleanedStamps (line : Nat) (lines : List String) :
    records line (cleanedStamps lines) = (records line lines).filter (reads .lenient) := by
  induction lines generalizing line with
  | nil => rfl
  | cons text rest ih =>
    change records line ((if isFaulty text then "" else text) :: cleanedStamps rest) = _
    have hreads := reads_lenient_recordOf line text
    by_cases hblank : recordOf text = ""
    · rw [isFaulty_of_blank hblank, if_neg Bool.false_ne_true, records_cons_of_blank hblank,
        records_cons_of_blank hblank, ih]
    · rw [records_cons_of_ne hblank]
      cases hfaulty : isFaulty text with
      | false =>
        rw [if_neg Bool.false_ne_true, records_cons_of_ne hblank, ih,
          List.filter_cons_of_pos (by rw [hreads, hfaulty]; rfl)]
      | true =>
        rw [if_pos rfl, records_cons_of_blank rfl, ih,
          List.filter_cons_of_neg (by rw [hreads, hfaulty]; exact Bool.false_ne_true)]

/-- **The records of cleaned lines** are the first one and those of the others that lenient reading
reads. -/
theorem records_cleaned (line : Nat) (lines : List String) :
    records line (cleaned lines) =
      match records line lines with
      | [] => []
      | first :: rest => first :: rest.filter (reads .lenient) := by
  induction lines generalizing line with
  | nil => rfl
  | cons text rest ih =>
    rw [cleaned]
    split
    next h => rw [records_cons_of_blank h, records_cons_of_blank h, ih]
    next h => rw [records_cons_of_ne h, records_cons_of_ne h, records_cleanedStamps]

/-- **Lenient reading and strict reading of the cleaned lines** have one outcome. -/
theorem outcome_read_lenient_eq_cleaned (lines : List String) :
    (read .lenient lines).outcome = (read .strict (cleaned lines)).outcome := by
  rw [outcome_read, outcome_read, records_cleaned]
  cases records 1 lines with
  | nil => rfl
  | cons first rest => rw [outcomeOf, outcomeOf, filter_reads_strict]

/-! ## Warnings -/

/-- The warning with which a record is passed over: its fault, at its place. -/
def warning? (r : Nat × String) : Option Error :=
  match Stamp.ofRecord r.2 with
  | .error (.fault f _ _) => some (.fault f (some r.1) (some r.2))
  | _ => none

/-- Whether lenient reading goes on behind a record: it is a stamp or it has a fault. -/
def goesOn (r : Nat × String) : Bool :=
  (tryStamp r).isOk

/-- **The stamp records that lenient reading comes to** and goes on behind: all of them up to one
that is refused without a fault, and none when there is no canvas. -/
def reached (lines : List String) : List (Nat × String) :=
  match records 1 lines with
  | [] => []
  | first :: rest =>
    match Canvas.ofRecord first.2 with
    | .error _ => []
    | .ok _ => rest.takeWhile goesOn

section Record

variable {r : Nat × String}

theorem goesOn_of_ok {stamp : Stamp} (h : Stamp.ofRecord r.2 = .ok stamp) :
    goesOn r = true ∧ warning? r = none := by
  rw [goesOn, tryStamp, warning?, h]
  exact ⟨rfl, rfl⟩

theorem goesOn_of_fault {f : Fault} {line : Option Nat} {record : Option String}
    (h : Stamp.ofRecord r.2 = .error (.fault f line record)) :
    goesOn r = true ∧ warning? r = some (.fault f (some r.1) (some r.2)) := by
  rw [goesOn, tryStamp, warning?, h]
  exact ⟨rfl, rfl⟩

theorem goesOn_of_tooManyDigits {count : Nat}
    (h : Stamp.ofRecord r.2 = .error (.tooManyDigits count)) : goesOn r = false := by
  rw [goesOn, tryStamp, h]
  rfl

/-- The records without a warning are those that lenient reading reads. -/
theorem warning?_eq_none_iff : warning? r = none ↔ reads .lenient r = true := by
  cases h : Stamp.ofRecord r.2 with
  | ok stamp => exact iff_of_true (goesOn_of_ok h).2 (reads_of_ofRecord r h .lenient)
  | error e => cases e <;> simp [warning?, reads, h, Error.isFault]

end Record

/-- Strict reading never warns. -/
theorem warnings_readStamps_strict (line : Nat) (lines : List String) :
    (readStamps .strict line lines).warnings = [] := by
  induction lines generalizing line with
  | nil => rfl
  | cons text rest ih =>
    rw [readStamps]
    simp only
    split
    next => exact ih _
    next =>
      cases Stamp.ofRecord (recordOf text) with
      | ok stamp => exact ih _
      | error e => rfl

/-- **Each record that lenient reading comes to and that has a fault** leaves one warning. -/
theorem warnings_readStamps_lenient (line : Nat) (lines : List String) :
    (readStamps .lenient line lines).warnings =
      ((records line lines).takeWhile goesOn).filterMap warning? := by
  induction lines generalizing line with
  | nil => rfl
  | cons text rest ih =>
    rw [readStamps]
    simp only
    split
    next h => rw [records_cons_of_blank h, ih]
    next h =>
      rw [records_cons_of_ne h]
      cases hstamp : Stamp.ofRecord (recordOf text) with
      | ok stamp =>
        obtain ⟨hgo, hnone⟩ := @goesOn_of_ok (line, recordOf text) _ hstamp
        rw [List.takeWhile_cons_of_pos hgo, List.filterMap_cons_none hnone, ← ih]
      | error e =>
        cases e with
        | fault f l r =>
          obtain ⟨hgo, hsome⟩ := @goesOn_of_fault (line, recordOf text) _ _ _ hstamp
          rw [List.takeWhile_cons_of_pos hgo, List.filterMap_cons_some hsome, ← ih]
          rfl
        | tooManyDigits count =>
          have hstop := @goesOn_of_tooManyDigits (line, recordOf text) _ hstamp
          rw [List.takeWhile_cons_of_neg (by rw [hstop]; exact Bool.false_ne_true)]
          rfl

theorem warnings_read_strict (lines : List String) : (read .strict lines).warnings = [] := by
  suffices h : ∀ line, (readFrom .strict line lines).warnings = [] from h 1
  induction lines with
  | nil => exact fun _ => rfl
  | cons text rest ih =>
    intro line
    rw [readFrom]
    simp only
    split
    next => exact ih _
    next =>
      cases Canvas.ofRecord (recordOf text) with
      | error e => rfl
      | ok canvas => exact warnings_readStamps_strict _ _

/-- **The warnings of lenient reading** are the faults of the stamp records it comes to. -/
theorem warnings_read_lenient (lines : List String) :
    (read .lenient lines).warnings = (reached lines).filterMap warning? := by
  suffices h : ∀ line, (readFrom .lenient line lines).warnings =
      match records line lines with
      | [] => []
      | first :: rest =>
        match Canvas.ofRecord first.2 with
        | .error _ => []
        | .ok _ => (rest.takeWhile goesOn).filterMap warning? by
    rw [read, h 1, reached]
    cases records 1 lines with
    | nil => rfl
    | cons first rest =>
      simp only
      cases Canvas.ofRecord first.2 <;> rfl
  induction lines with
  | nil => exact fun _ => rfl
  | cons text rest ih =>
    intro line
    rw [readFrom]
    simp only
    split
    next h => rw [records_cons_of_blank h, ih]
    next h =>
      rw [records_cons_of_ne h]
      simp only
      cases Canvas.ofRecord (recordOf text) with
      | error e => rfl
      | ok canvas => exact warnings_readStamps_lenient _ _

/-- **The first warning is the fault with which strict reading stops.** -/
theorem head?_warnings_read_lenient {lines : List String} {first : Nat × String}
    {rest : List (Nat × String)} {canvas : Canvas} (hrecords : records 1 lines = first :: rest)
    (hcanvas : Canvas.ofRecord first.2 = .ok canvas) {e : Error} (hfault : e.isFault = true)
    (h : (read .strict lines).outcome = .error e) :
    (read .lenient lines).warnings.head? = some e := by
  have hread : readCanvas first = .ok canvas := mapError_eq_ok_iff.mpr hcanvas
  rw [outcome_read, hrecords, outcomeOf_cons_eq_error_iff, filter_reads_strict, hread] at h
  obtain h | ⟨-, h⟩ := h
  · cases h
  obtain ⟨before, r, after, rfl, hbefore, hr⟩ := mapM_eq_error_iff.mp h
  have hpassed : ∀ b ∈ before, goesOn b = true ∧ warning? b = none := by
    intro b hb
    obtain ⟨stamp, hstamp⟩ := hbefore b hb
    exact goesOn_of_ok (mapError_eq_ok_iff.mp hstamp)
  have hhere : goesOn r = true ∧ warning? r = some e := by
    rw [readStamp] at hr
    cases hstamp : Stamp.ofRecord r.2 with
    | ok stamp =>
      rw [hstamp] at hr
      cases hr
    | error d =>
      rw [hstamp] at hr
      cases hr
      cases d with
      | fault f line record => exact goesOn_of_fault hstamp
      | tooManyDigits count => cases hfault
  have hnone : before.filterMap warning? = [] :=
    List.filterMap_eq_nil_iff.mpr fun b hb => (hpassed b hb).2
  rw [warnings_read_lenient, reached, hrecords]
  simp only [hcanvas]
  rw [List.takeWhile_append_of_pos fun b hb => (hpassed b hb).1, List.filterMap_append, hnone,
    List.takeWhile_cons_of_pos hhere.1, List.filterMap_cons_some hhere.2]
  rfl

/-! ## The two policies -/

/-- Where nothing is emptied, the two policies read alike. -/
theorem read_strict_eq_read_lenient {lines : List String} (h : cleaned lines = lines) :
    read .strict lines = read .lenient lines := by
  have houtcome := outcome_read_lenient_eq_cleaned lines
  rw [h] at houtcome
  have hwarnings : (read .lenient lines).warnings = [] := by
    have hrecords := records_cleaned 1 lines
    rw [h] at hrecords
    rw [warnings_read_lenient, reached]
    cases hr : records 1 lines with
    | nil => rfl
    | cons first rest =>
      rw [hr] at hrecords
      have hkept := List.filter_eq_self.mp (List.cons.inj hrecords).2.symm
      simp only
      cases Canvas.ofRecord first.2 with
      | error e => rfl
      | ok canvas =>
        refine List.filterMap_eq_nil_iff.mpr fun r hr => ?_
        exact warning?_eq_none_iff.mpr (hkept r (List.takeWhile_subset goesOn hr))
  rw [← warnings_read_strict lines] at hwarnings
  cases hs : read .strict lines
  cases hl : read .lenient lines
  simp_all

/-- **Lenient reading is strict reading of the cleaned lines**, with one warning for each emptied
line that reading comes to, in order; without emptied lines the policies agree, and the first
warning says why strict reading stops. -/
theorem read_lenient_eq_read_strict_cleaned (lines : List String) :
    (read .lenient lines).outcome = (read .strict (cleaned lines)).outcome ∧
    (read .lenient lines).warnings = (reached lines).filterMap warning? ∧
    (cleaned lines = lines → read .strict lines = read .lenient lines) ∧
    ∀ first rest canvas e, records 1 lines = first :: rest →
      Canvas.ofRecord first.2 = .ok canvas → e.isFault = true →
      (read .strict lines).outcome = .error e →
      ((read .lenient lines).warnings.map warningMessage).head? =
        some ("skipping draw record: " ++ e.message) := by
  refine ⟨outcome_read_lenient_eq_cleaned lines, warnings_read_lenient lines,
    read_strict_eq_read_lenient, ?_⟩
  intro first rest canvas e hrecords hcanvas hfault h
  rw [List.head?_map, head?_warnings_read_lenient hrecords hcanvas hfault h]
  rfl

/-- Two faulty stamps of four lines: each is warned of by the number of its line. -/
example : (read .lenient ["width=10", "scale=big", " ", "x=", "shape=star"]).warnings.map
    warningMessage = ["skipping draw record: line 2: scale='big' is not an integer",
      "skipping draw record: line 4: field 'x=' has no value"] := by
  decide +kernel

end Stencil.Script
