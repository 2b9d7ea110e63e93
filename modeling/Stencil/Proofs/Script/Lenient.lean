import Stencil.Proofs.Record.Canvas
import Stencil.Proofs.Script.Reading

/-!
# Proofs/Script/Lenient — what lenient reading passes over

Lenient reading tries every stamp record (`tryStamp`), keeps what is read and leaves out what has a
fault.  One kind of record ends it all the same: one with a number of too many digits, which is no
fault.  Without such a record the stamps are those of the records that can be read, in order; with
one, the first of them is the outcome (`outcome_read_lenient`).
-/

namespace Stencil.Script

open Stencil.Text Stencil.Decimal Stencil.Record

/-! ## Trying a record -/

/-- **A record is tried**: it gives a stamp, nothing where it has a fault, and an error where it is
refused without one. -/
def tryStamp (r : Nat × String) : Except Error (Option Stamp) :=
  match Stamp.ofRecord r.2 with
  | .ok stamp => .ok (some stamp)
  | .error (.fault ..) => .ok none
  | .error (.tooManyDigits count) => .error (.tooManyDigits count)

theorem tryStamp_eq_error_iff {r : Nat × String} {e : Error} :
    tryStamp r = .error e ↔
      ∃ count, HasLongNumber Stamp.integerKeys count r.2 ∧ e = .tooManyDigits count := by
  simp only [← Stamp.ofRecord_eq_tooManyDigits_iff]
  unfold tryStamp
  split
  next h => exact ⟨nofun, fun ⟨_, h', _⟩ => by rw [h] at h'; cases h'⟩
  next h => exact ⟨nofun, fun ⟨_, h', _⟩ => by rw [h] at h'; cases h'⟩
  next count h =>
    refine ⟨fun he => ⟨count, h, (Except.error.inj he).symm⟩, ?_⟩
    rintro ⟨n, h', rfl⟩
    cases h.symm.trans h'
    rfl

/-- A record that can be tried gives what reading it gives, if that is anything. -/
theorem tryStamp_eq_ok_iff {r : Nat × String} {o : Option Stamp} :
    tryStamp r = .ok o ↔ (∀ count, ¬HasLongNumber Stamp.integerKeys count r.2) ∧
      o = (Stamp.ofRecord r.2).toOption := by
  simp only [← Stamp.ofRecord_eq_tooManyDigits_iff]
  unfold tryStamp
  split
  next stamp h => simp [h, Except.toOption, eq_comm]
  next h => simp [h, Except.toOption, eq_comm]
  next count h => simp [h]

/-- **Lenient reading tries record by record** and keeps what is read. -/
theorem mapM_readStamp_lenient (rest : List (Nat × String)) :
    (rest.filter (reads .lenient)).mapM readStamp =
      (rest.mapM tryStamp).map List.reduceOption := by
  induction rest with
  | nil => rfl
  | cons r rest ih =>
    cases hr : Stamp.ofRecord r.2 with
    | ok stamp =>
      have hread : readStamp r = .ok stamp := mapError_eq_ok_iff.mpr hr
      have htry : tryStamp r = .ok (some stamp) := by rw [tryStamp, hr]
      rw [List.filter_cons_of_pos (reads_of_ofRecord r hr .lenient), mapM_cons_of_ok hread,
        mapM_cons_of_ok htry, ih]
      cases rest.mapM tryStamp <;> rfl
    | error e =>
      cases e with
      | fault f line record =>
        have hleft : ¬reads .lenient r = true := by simp [reads, hr, Error.isFault]
        have htry : tryStamp r = .ok none := by rw [tryStamp, hr]
        rw [List.filter_cons_of_neg hleft, mapM_cons_of_ok htry, ih]
        cases rest.mapM tryStamp <;> rfl
      | tooManyDigits count =>
        have hkept : reads .lenient r = true := by simp [reads, hr, Error.isFault]
        have hread : readStamp r = .error (.tooManyDigits count) := by
          rw [readStamp, hr]
          rfl
        have htry : tryStamp r = .error (.tooManyDigits count) := by rw [tryStamp, hr]
        rw [List.filter_cons_of_pos hkept, mapM_cons_of_error hread, mapM_cons_of_error htry]
        rfl

/-! ## The outcome -/

section Outcome

variable {lines : List String} {first : Nat × String} {rest : List (Nat × String)} {canvas : Canvas}

/-- After the canvas, lenient reading is trying the records and keeping what is read. -/
theorem outcome_read_lenient_eq (hrecords : records 1 lines = first :: rest)
    (hcanvas : Canvas.ofRecord first.2 = .ok canvas) :
    (read .lenient lines).outcome =
      (rest.mapM tryStamp).map fun stamps => ⟨canvas, stamps.reduceOption⟩ := by
  have hread : readCanvas first = .ok canvas := mapError_eq_ok_iff.mpr hcanvas
  rw [outcome_read, hrecords, outcomeOf, hread, mapM_readStamp_lenient]
  change ((rest.mapM tryStamp).map List.reduceOption).map _ = _
  cases rest.mapM tryStamp <;> rfl

/-- **Lenient reading after a canvas.**  It gives the stamps of the records that can be read, in
order, exactly when no record has a number of too many digits; the first that has one ends it. -/
theorem outcome_read_lenient (hrecords : records 1 lines = first :: rest)
    (hcanvas : Canvas.ofRecord first.2 = .ok canvas) :
    ((read .lenient lines).outcome =
        .ok ⟨canvas, rest.filterMap fun r => (Stamp.ofRecord r.2).toOption⟩ ↔
      ∀ r ∈ rest, ∀ count, ¬HasLongNumber Stamp.integerKeys count r.2) ∧
    ∀ e, (read .lenient lines).outcome = .error e ↔
      ∃ before r after count, rest = before ++ r :: after ∧
        (∀ b ∈ before, ∀ n, ¬HasLongNumber Stamp.integerKeys n b.2) ∧
        HasLongNumber Stamp.integerKeys count r.2 ∧ e = .tooManyDigits count := by
  have htried : ∀ r : Nat × String, (∃ o, tryStamp r = .ok o) ↔
      ∀ count, ¬HasLongNumber Stamp.integerKeys count r.2 := fun r =>
    ⟨fun ⟨_, h⟩ => (tryStamp_eq_ok_iff.mp h).1, fun h => ⟨_, tryStamp_eq_ok_iff.mpr ⟨h, rfl⟩⟩⟩
  rw [outcome_read_lenient_eq hrecords hcanvas]
  constructor
  · simp only [← htried]
    rw [← exists_mapM_eq_ok_iff]
    cases hm : rest.mapM tryStamp with
    | error e => exact iff_of_false nofun fun ⟨_, h⟩ => by cases h
    | ok os =>
      refine iff_of_true ?_ ⟨os, rfl⟩
      have hos : List.Forall₂ (· = ·) (rest.map fun r => (Stamp.ofRecord r.2).toOption) os :=
        List.forall₂_map_left_iff.mpr
          ((mapM_eq_ok_iff.mp hm).imp fun _ _ h => (tryStamp_eq_ok_iff.mp h).2.symm)
      rw [List.forall₂_eq_eq_eq] at hos
      rw [Except.map, ← hos, List.reduceOption, List.filterMap_map]
      rfl
  · intro e
    simp only [← htried]
    rw [map_eq_error_iff, mapM_eq_error_iff]
    constructor
    · rintro ⟨before, r, after, hrest, hbefore, hr⟩
      obtain ⟨count, hlong, he⟩ := tryStamp_eq_error_iff.mp hr
      exact ⟨before, r, after, count, hrest, hbefore, hlong, he⟩
    · rintro ⟨before, r, after, count, hrest, hbefore, hlong, he⟩
      exact ⟨before, r, after, hrest, hbefore, tryStamp_eq_error_iff.mpr ⟨count, hlong, he⟩⟩

end Outcome

/-! ## A number of too many digits -/

/-- A stamp record with a number of so many ones. -/
def longRecord (count : Nat) : String :=
  "x=" ++ String.ofList (List.replicate count '1')

theorem toList_longRecord (count : Nat) :
    (longRecord count).toList = 'x' :: '=' :: List.replicate count '1' := by
  rw [longRecord, String.toList_append, @String.toList_ofList (List.replicate count '1')]
  rfl

/-- Nothing is trimmed from the record. -/
theorem recordOf_longRecord (count : Nat) : recordOf (longRecord count) = longRecord count := by
  have htrim : IsTrimmed (longRecord count).toList := by
    refine isTrimmed_of_forall ?_
    intro c hc
    rw [toList_longRecord, List.mem_cons, List.mem_cons, List.mem_replicate] at hc
    rcases hc with rfl | rfl | ⟨-, rfl⟩ <;> decide
  rw [recordOf, trim_eq_self_iff.mpr htrim, String.ofList_toList]

theorem hasLongNumber_longRecord {count : Nat} (h : maxDigits < count) :
    HasLongNumber Stamp.integerKeys count (longRecord count) := by
  have hones : ∀ c ∈ List.replicate count '1', c = '1' := fun c hc => (List.mem_replicate.mp hc).2
  have hcut : IsCut (longRecord count).toList ['x'] (List.replicate count '1') := by
    refine ⟨by decide, fun hc => absurd (hones _ hc) (by decide), [], ?_, by simp⟩
    rw [toList_longRecord, List.append_nil]
    rfl
  have htrim : trim (List.replicate count '1') = List.replicate count '1' := by
    refine trim_eq_self_iff.mpr (isTrimmed_of_forall ?_)
    intro c hc
    rw [hones c hc]
    decide
  have hnumeral : IsNumeral (List.replicate count '1') false (List.replicate count 1) := by
    refine ⟨fun hnil => ?_, [], _, by decide, rfl, ?_⟩
    · rw [List.replicate_eq_nil_iff] at hnil
      omega
    · rw [AreDigits, List.map_replicate, List.map_replicate]
      rfl
  have htexts : fieldTexts (longRecord count) = [(longRecord count).toList] := by
    have hcomma : ',' ∉ (longRecord count).toList := by
      rw [toList_longRecord, List.mem_cons, List.mem_cons, not_or, not_or]
      exact ⟨by decide, by decide, fun hc => absurd (hones _ hc) (by decide)⟩
    rw [fieldTexts, pieces_eq_singleton hcomma, List.filter_cons_of_pos, List.filter_nil]
    rw [toList_longRecord]
    rfl
  refine ⟨fun text htext => ?_, [], _, [], htexts, by simp, ['x'], _, hcut, by decide, false,
    List.replicate count 1, htrim.symm ▸ hnumeral, ?_, List.length_replicate⟩
  · rw [htexts, List.mem_singleton] at htext
    exact ⟨['x'], _, htext ▸ hcut, htrim.symm ▸ hnumeral.ne_nil⟩
  · rwa [List.length_replicate]

/-- A file of which one record has a number of 4301 digits: the canvas is right and the last record
can be read, but lenient reading ends at the number. -/
theorem outcome_read_lenient_longRecord :
    records 1 ["width=10", longRecord 4301, "shape=circle"] =
        [(1, "width=10"), (2, longRecord 4301), (3, "shape=circle")] ∧
      (∃ canvas, Canvas.ofRecord "width=10" = .ok canvas) ∧
      (read .lenient ["width=10", longRecord 4301, "shape=circle"]).outcome =
        .error (.tooManyDigits 4301) := by
  have hne : longRecord 4301 ≠ "" := by
    rw [ne_eq, ← String.toList_eq_nil_iff, toList_longRecord]
    exact List.cons_ne_nil _ _
  have hrecords : records 1 ["width=10", longRecord 4301, "shape=circle"] =
      [(1, "width=10"), (2, longRecord 4301), (3, "shape=circle")] := by
    rw [records_cons_of_ne (by decide), records_cons_of_ne (by rwa [recordOf_longRecord]),
      records_cons_of_ne (by decide), recordOf_longRecord]
    rfl
  obtain ⟨canvas, hcanvas⟩ : ∃ canvas, Canvas.ofRecord "width=10" = .ok canvas := ⟨_, rfl⟩
  refine ⟨hrecords, ⟨canvas, hcanvas⟩, ?_⟩
  have hlong := @hasLongNumber_longRecord 4301 (by decide)
  exact ((outcome_read_lenient hrecords hcanvas).2 _).mpr
    ⟨[], (2, longRecord 4301), [(3, "shape=circle")], 4301, rfl, nofun, hlong, rfl⟩

end Stencil.Script
