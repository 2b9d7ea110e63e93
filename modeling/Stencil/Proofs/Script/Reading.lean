import Stencil.Proofs.Sequence
import Stencil.Proofs.Text.Trim
import Stencil.Script

/-!
# Proofs/Script/Reading — reading record by record

    lines ──records──▸ (number, record), … ──readCanvas, readStamp──▸ canvas, stamps

Reading takes the lines that are not blank as numbered `records`, the first for the canvas and each
later one for a stamp, and stops at the first that is refused.  Policies differ in one thing only:
lenient reading leaves out the stamp records that have a fault before it starts (`outcome_read`).
-/

namespace Stencil.Script

open Stencil.Text Stencil.Record

/-! ## The records of a list of lines -/

/-- **The records of the lines from number `line` on**: the lines that are not blank, trimmed, each
with its number. -/
def records (line : Nat) (lines : List String) : List (Nat × String) :=
  ((lines.zipIdx line).map fun p => (p.2, recordOf p.1)).filter fun r => r.2 ≠ ""

@[simp] theorem records_nil (line : Nat) : records line [] = [] := rfl

theorem records_cons_of_blank {text : String} (h : recordOf text = "") (line : Nat)
    (rest : List String) : records line (text :: rest) = records (line + 1) rest := by
  simp [records, h]

theorem records_cons_of_ne {text : String} (h : recordOf text ≠ "") (line : Nat)
    (rest : List String) :
    records line (text :: rest) = (line, recordOf text) :: records (line + 1) rest := by
  simp [records, h]

theorem records_append (line : Nat) (before after : List String) :
    records line (before ++ after) =
      records line before ++ records (line + before.length) after := by
  rw [records, List.zipIdx_append, List.map_append, List.filter_append]
  rfl

/-- A line has no record exactly when it is blank. -/
theorem recordOf_eq_empty_iff {text : String} :
    recordOf text = "" ↔ isBlankText text.toList = true := by
  rw [recordOf, String.ofList_eq_empty_iff, trim_eq_nil_iff]

theorem records_eq_nil_iff {line : Nat} {lines : List String} :
    records line lines = [] ↔ ∀ text ∈ lines, isBlankText text.toList = true := by
  induction lines generalizing line with
  | nil => simp
  | cons text rest ih =>
    rw [List.forall_mem_cons, ← recordOf_eq_empty_iff]
    by_cases h : recordOf text = ""
    · rw [records_cons_of_blank h, ih, and_iff_right h]
    · rw [records_cons_of_ne h]
      exact iff_of_false (List.cons_ne_nil _ _) fun hall => h hall.1

/-- **Where a record stands** among the others, its line stands among the lines. -/
theorem exists_split_of_records {line : Nat} {lines : List String}
    {before after : List (Nat × String)} {r : Nat × String}
    (h : records line lines = before ++ r :: after) :
    ∃ before' text after', lines = before' ++ text :: after' ∧ records line before' = before ∧
      r = (line + before'.length, recordOf text) ∧ isBlankText text.toList = false := by
  induction lines generalizing line before with
  | nil =>
    exact absurd h.symm (List.append_ne_nil_of_right_ne_nil before (List.cons_ne_nil r after))
  | cons text rest ih =>
    by_cases hblank : recordOf text = ""
    · rw [records_cons_of_blank hblank] at h
      obtain ⟨before', text', after', rfl, hbefore, hr, htext'⟩ := ih h
      refine ⟨text :: before', text', after', rfl, ?_, ?_, htext'⟩
      · rw [records_cons_of_blank hblank, hbefore]
      · rw [hr, List.length_cons, Nat.add_comm before'.length 1, Nat.add_assoc]
    · rw [records_cons_of_ne hblank] at h
      cases before with
      | nil =>
        cases h
        refine ⟨[], text, rest, rfl, rfl, rfl, ?_⟩
        rwa [Bool.eq_false_iff, ne_eq, ← recordOf_eq_empty_iff]
      | cons b before =>
        obtain ⟨rfl, htail⟩ := List.cons.inj h
        obtain ⟨before', text', after', rfl, hbefore, hr, htext'⟩ := ih htail
        refine ⟨text :: before', text', after', rfl, ?_, ?_, htext'⟩
        · rw [records_cons_of_ne hblank, hbefore]
        · rw [hr, List.length_cons, Nat.add_comm before'.length 1, Nat.add_assoc]

/-- Every record is a line without its outer blanks. -/
theorem exists_of_mem_records {line : Nat} {lines : List String} {r : Nat × String}
    (h : r ∈ records line lines) : ∃ text ∈ lines, r.2 = recordOf text := by
  obtain ⟨p, hp, rfl⟩ := List.mem_map.mp (List.mem_of_mem_filter h)
  exact ⟨p.1, List.fst_mem_of_mem_zipIdx hp, rfl⟩

/-- Without their numbers the records are the trimmed lines, the empty ones left out. -/
theorem map_snd_records (line : Nat) (lines : List String) :
    (records line lines).map Prod.snd = (lines.map recordOf).filter (· ≠ "") := by
  induction lines generalizing line with
  | nil => rfl
  | cons text rest ih =>
    by_cases h : recordOf text = ""
    · rw [records_cons_of_blank h, ih, List.map_cons, List.filter_cons_of_neg (by simpa using h)]
    · rw [records_cons_of_ne h, List.map_cons, ih, List.map_cons,
        List.filter_cons_of_pos (by simpa using h)]

/-! ## Reading one record -/

/-- The canvas of a numbered record. -/
def readCanvas (r : Nat × String) : Except Error Canvas :=
  (Canvas.ofRecord r.2).mapError (Error.locate r.1 r.2)

/-- The stamp of a numbered record. -/
def readStamp (r : Nat × String) : Except Error Stamp :=
  (Stamp.ofRecord r.2).mapError (Error.locate r.1 r.2)

/-- **Whether a policy reads a stamp record at all**: lenient reading passes over one with a
fault. -/
def reads (policy : Policy) (r : Nat × String) : Bool :=
  match policy, Stamp.ofRecord r.2 with
  | .lenient, .error e => !e.isFault
  | _, _ => true

/-- A record without a fault is read under either policy. -/
theorem reads_of_ofRecord (r : Nat × String) {stamp : Stamp} (h : Stamp.ofRecord r.2 = .ok stamp)
    (policy : Policy) : reads policy r = true := by
  cases policy <;> simp [reads, h]

/-- Locating an error does not change what it is. -/
@[simp] theorem isFault_locate (line : Nat) (record : String) (e : Error) :
    (e.locate line record).isFault = e.isFault := by
  cases e <;> rfl

/-! ## Reading all of them -/

/-- **The stamps of a list of lines** are those of its records, read one after another. -/
theorem outcome_readStamps (policy : Policy) (line : Nat) (lines : List String) :
    (readStamps policy line lines).outcome =
      ((records line lines).filter (reads policy)).mapM readStamp := by
  induction lines generalizing line with
  | nil => rfl
  | cons text rest ih =>
    rw [readStamps]
    simp only
    split
    next h => rw [records_cons_of_blank h, ih]
    next h =>
      rw [records_cons_of_ne h]
      cases hstamp : Stamp.ofRecord (recordOf text) with
      | ok stamp =>
        have hread : readStamp (line, recordOf text) = .ok stamp :=
          mapError_eq_ok_iff.mpr hstamp
        have hkept : reads policy (line, recordOf text) = true :=
          reads_of_ofRecord (line, recordOf text) hstamp policy
        rw [List.filter_cons_of_pos hkept, mapM_cons_of_ok hread, ← ih]
      | error e =>
        have hread : readStamp (line, recordOf text) = .error (e.locate line (recordOf text)) := by
          rw [readStamp, hstamp]
          rfl
        simp only [isFault_locate]
        split
        next hskip =>
          have hleft : ¬reads policy (line, recordOf text) = true := by
            rw [hskip.1]
            simp [reads, hstamp, hskip.2]
          rw [List.filter_cons_of_neg hleft, ← ih]
        next hstop =>
          have hkept : reads policy (line, recordOf text) = true := by
            cases policy with
            | strict => rfl
            | lenient => simpa [reads, hstamp] using hstop
          rw [List.filter_cons_of_pos hkept, mapM_cons_of_error hread]

/-- The outcome of reading numbered records. -/
def outcomeOf (policy : Policy) : List (Nat × String) → Except Error Script
  | [] => .error (.fault .noCanvas none none)
  | first :: rest =>
    (readCanvas first).bind fun canvas =>
      ((rest.filter (reads policy)).mapM readStamp).map (⟨canvas, ·⟩)

/-- **A list of lines is read record by record.** -/
theorem outcome_read (policy : Policy) (lines : List String) :
    (read policy lines).outcome = outcomeOf policy (records 1 lines) := by
  suffices h : ∀ line, (readFrom policy line lines).outcome =
      outcomeOf policy (records line lines) from h 1
  induction lines with
  | nil => exact fun _ => rfl
  | cons text rest ih =>
    intro line
    rw [readFrom]
    simp only
    split
    next h => rw [records_cons_of_blank h, ih]
    next h =>
      rw [records_cons_of_ne h, outcomeOf, readCanvas]
      cases Canvas.ofRecord (recordOf text) with
      | error e => rfl
      | ok canvas =>
        change (readStamps policy (line + 1) rest).outcome.map _ = _
        rw [outcome_readStamps]
        rfl

theorem outcomeOf_cons_eq_ok_iff {policy : Policy} {first : Nat × String}
    {rest : List (Nat × String)} {s : Script} :
    outcomeOf policy (first :: rest) = .ok s ↔ readCanvas first = .ok s.canvas ∧
      (rest.filter (reads policy)).mapM readStamp = .ok s.stamps := by
  rw [outcomeOf, bind_eq_ok_iff]
  simp only [map_eq_ok_iff]
  constructor
  · rintro ⟨canvas, hcanvas, stamps, hstamps, rfl⟩
    exact ⟨hcanvas, hstamps⟩
  · rintro ⟨hcanvas, hstamps⟩
    exact ⟨s.canvas, hcanvas, s.stamps, hstamps, rfl⟩

theorem outcomeOf_cons_eq_error_iff {policy : Policy} {first : Nat × String}
    {rest : List (Nat × String)} {e : Error} :
    outcomeOf policy (first :: rest) = .error e ↔ readCanvas first = .error e ∨
      (∃ canvas, readCanvas first = .ok canvas) ∧
        (rest.filter (reads policy)).mapM readStamp = .error e := by
  rw [outcomeOf]
  cases readCanvas first with
  | error d =>
    refine ⟨fun h => Or.inl (congrArg _ (Except.error.inj h)), ?_⟩
    rintro (h | ⟨⟨_, h⟩, _⟩)
    · exact congrArg _ (Except.error.inj h)
    · cases h
  | ok canvas =>
    change ((rest.filter (reads policy)).mapM readStamp).map _ = _ ↔ _
    rw [map_eq_error_iff]
    refine ⟨fun h => Or.inr ⟨⟨canvas, rfl⟩, h⟩, ?_⟩
    rintro (h | ⟨-, h⟩)
    · cases h
    · exact h

/-- **What it takes to be read**: a first record that is a canvas, and a stamp from each of the
later ones that the policy reads. -/
theorem outcome_read_eq_ok_iff {policy : Policy} {lines : List String} {s : Script} :
    (read policy lines).outcome = .ok s ↔ ∃ first rest, records 1 lines = first :: rest ∧
      Canvas.ofRecord first.2 = .ok s.canvas ∧
      List.Forall₂ (fun r stamp => Stamp.ofRecord r.2 = .ok stamp) (rest.filter (reads policy))
        s.stamps := by
  rw [outcome_read]
  cases records 1 lines with
  | nil => exact ⟨nofun, fun ⟨_, _, h, _⟩ => by cases h⟩
  | cons first rest =>
    rw [outcomeOf_cons_eq_ok_iff, mapM_eq_ok_iff]
    simp only [readCanvas, readStamp, mapError_eq_ok_iff]
    refine ⟨fun h => ⟨first, rest, rfl, h⟩, ?_⟩
    rintro ⟨_, _, ⟨⟩, h⟩
    exact h

end Stencil.Script
