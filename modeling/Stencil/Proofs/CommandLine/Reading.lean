import Stencil.Proofs.CommandLine.Batch
import Stencil.Proofs.Script.Cleaning
import Stencil.Proofs.Store.Folders

/-!
# Proofs/CommandLine/Reading — files read one after another

    files ──reading──▸ drawings, and lines about the files that cannot be read

What a file of instructions is read as depends on the files alone (`run_readDrawing`), so that
several of them settle (`settles_readDrawing`).  A failure is forgiven unless the path is none, the
file holds no text, or one of its numbers is too long (`isOfReading_iff`).
-/

namespace Stencil

namespace CommandLine

open Session

variable {library : Library} {store : Store} {s : Session} {path : String}

/-- **What a file of instructions is read as**, strictly. -/
def reading (library : Library) (store : Store) (path : String) : Except Failure Drawing :=
  (store.text path).bind fun text =>
    ((Script.ofText .strict text).outcome.mapError .record).map fun script =>
      ⟨library, script, some (Path.stem path)⟩

/-- The line about a file that cannot be read. -/
def readingLine (path : String) (e : Failure) : String :=
  "[error] " ++ path ++ ": " ++ e.message

/-! ## One file -/

/-- **A file is read** without any change, when no messages are wanted. -/
theorem run_readDrawing (hs : s.verbose = false) (path : String) :
    s.run (readDrawing library .strict path) = (reading library s.store path, s) := by
  have htext := run_readText path s
  rw [readDrawing, reading]
  cases hread : s.store.text path with
  | error e =>
    rw [hread] at htext
    exact run_bind_of_error htext
  | ok text =>
    rw [hread] at htext
    have hwarnings : (Script.ofText .strict text).warnings = [] :=
      Script.warnings_read_strict (Script.linesOf text)
    have hcheck := run_check Failure.record (Script.ofText .strict text).outcome s
    rw [run_bind_of_ok htext]
    simp only [hwarnings, List.forIn_nil, pure_bind]
    change _ = (((Script.ofText .strict text).outcome.mapError Failure.record).map _, s)
    cases houtcome : (Script.ofText .strict text).outcome with
    | error e =>
      rw [houtcome] at hcheck
      exact run_bind_of_error hcheck
    | ok script =>
      rw [houtcome] at hcheck
      rw [run_bind_of_ok hcheck, run_bind_of_ok (run_tell hs _ _)]
      rfl

/-! ## Several files -/

theorem readDrawings_eq_collect (library : Library) (policy : Script.Policy)
    (paths : List String) :
    readDrawings library policy paths =
      collect Failure.isOfReading readingLine (readDrawing library policy) paths := by
  induction paths with
  | nil => rfl
  | cons path rest ih =>
    rw [collect, ← ih, readDrawings, attempt]
    refine bind_congr fun found => bind_congr fun later => ?_
    cases found <;> rfl

/-- **Files settle**: reading changes nothing. -/
theorem settles_readDrawing (library : Library) (store : Store) (paths : List String) :
    Settles (readDrawing library .strict) (reading library store)
      (fun _ s => s.verbose = false ∧ s.store = store) paths where
  messages _ h := h
  step path _ := by
    rintro before s ⟨hverbose, rfl⟩
    exact ⟨s, run_readDrawing hverbose path, rfl, hverbose, rfl⟩

/-! ## Failures that are forgiven -/

theorem text_eq_error_iff {e : Failure} : store.text path = .error e ↔
    (∃ e', store.read path = .error e' ∧ e = .file e') ∨
      ∃ contents, store.read path = .ok contents ∧ contents.text? = none ∧ e = .notText := by
  rw [Store.text]
  cases store.read path with
  | error e' => simp [Except.mapError, Except.bind, eq_comm]
  | ok contents =>
    cases htext : contents.text? with
    | none => simp [Except.mapError, Except.bind, htext, eq_comm]
    | some text => simp [Except.mapError, Except.bind, htext]

/-- **What is read from a file**: a script, on a path. -/
theorem exists_of_reading_eq_ok {d : Drawing} (h : reading library store path = .ok d) :
    ∃ lines, (Script.read .strict lines).outcome = .ok d.script ∧ d.library = library ∧
      d.name = some (Path.stem path) ∧ Char.ofNat 0 ∉ path.toList := by
  obtain ⟨text, htext, h⟩ := bind_eq_ok_iff.mp h
  obtain ⟨script, hscript, rfl⟩ := map_eq_ok_iff.mp h
  obtain ⟨contents, hread, -⟩ := bind_eq_ok_iff.mp htext
  rw [mapError_eq_ok_iff] at hread hscript
  exact ⟨Script.linesOf text, hscript, rfl, rfl, (Store.IsPath.of_read hread).null⟩

/-- **A file's failure is forgiven** unless its path is none, it holds no text, or one of its
numbers is too long. -/
theorem isOfReading_iff :
    (∀ e, reading library store path = .error e → e.isOfReading = true) ↔
      Char.ofNat 0 ∉ path.toList ∧ reading library store path ≠ .error .notText ∧
        ∀ count, reading library store path ≠ .error (.record (.tooManyDigits count)) := by
  constructor
  · intro h
    refine ⟨fun hnull => ?_, fun he => ?_, fun count he => ?_⟩
    · have hread : store.read path = .error ⟨.notPath, path⟩ := by
        rw [Store.read, Store.locate_eq_notPath_iff.mpr hnull]
      have htext := text_eq_error_iff.mpr (.inl ⟨_, hread, rfl⟩)
      have hforgiven := h _ (bind_eq_error_iff.mpr (.inl htext))
      rw [Failure.isOfReading, Store.Error.isOfFile, decide_eq_true_eq] at hforgiven
      exact hforgiven rfl
    · exact Bool.false_ne_true (h _ he)
    · exact Bool.false_ne_true (h _ he)
  · rintro ⟨hnull, hnotText, hdigits⟩ e he
    obtain htext | ⟨text, -, hrecord⟩ := bind_eq_error_iff.mp he
    · obtain ⟨e', hread, rfl⟩ | ⟨contents, -, -, rfl⟩ := text_eq_error_iff.mp htext
      · have := (Store.read_eq_notPath_iff hread).not.mpr hnull
        exact decide_eq_true this
      · exact absurd he hnotText
    · rw [map_eq_error_iff] at hrecord
      cases houtcome : (Script.ofText .strict text).outcome with
      | ok script =>
        rw [houtcome] at hrecord
        cases hrecord
      | error e' =>
        rw [houtcome] at hrecord
        cases hrecord
        cases e' with
        | fault f line record => rfl
        | tooManyDigits count => exact absurd he (hdigits count)

end CommandLine

end Stencil
