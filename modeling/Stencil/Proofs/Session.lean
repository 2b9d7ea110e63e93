import Stencil.Proofs.Sequence
import Stencil.Session

/-!
# Proofs/Session — what work leaves of a session

    session ──work──▸ outcome, session

Steps that follow one another are taken apart (`run_bind_of_ok`, `run_bind_of_error`), and so is a
step whose failure is caught (`run_tryCatch`).  Reading changes nothing (`run_readText`), and a
message about the course of the work none but the lines of messages.  What each step of some work
keeps to, the work keeps to, also when it fails (`rel_run_bind`, `rel_run_forIn`): so work of which
each step leaves the files alone leaves them alone (`Keeps.bind`, `keeps_forIn`).
-/

namespace Stencil

/-- The text of a file, as far as it holds one. -/
def Store.text (s : Store) (path : String) : Except Failure String :=
  ((s.read path).mapError .file).bind fun contents =>
    match contents.text? with
    | some text => .ok text
    | none => .error .notText

namespace Session

variable {α β : Type} {work : Work α} {next : α → Work β} {s t : Session} {a : α} {e : Failure}

/-! ## Steps in a row -/

@[simp] theorem run_pure (a : α) (s : Session) : s.run (pure a) = (.ok a, s) := rfl

@[simp] theorem run_throw (e : Failure) (s : Session) : s.run (throw e : Work α) = (.error e, s) :=
  rfl

theorem run_bind_of_ok (h : s.run work = (.ok a, t)) : s.run (work >>= next) = t.run (next a) :=
  run_bind_eq_of_ok h

theorem run_bind_of_error (h : s.run work = (.error e, t)) :
    s.run (work >>= next) = (.error e, t) :=
  run_bind_eq_of_error h

/-- **Two steps succeed** when the first one does, and the second one after it. -/
theorem run_bind_eq_ok_iff {b : β} {u : Session} : s.run (work >>= next) = (.ok b, u) ↔
    ∃ a t, s.run work = (.ok a, t) ∧ t.run (next a) = (.ok b, u) := by
  rcases hrun : s.run work with ⟨e | a, t⟩
  · rw [run_bind_of_error hrun]
    exact ⟨nofun, fun ⟨_, _, h, _⟩ => nomatch h⟩
  · rw [run_bind_of_ok hrun]
    refine ⟨fun h => ⟨a, t, rfl, h⟩, ?_⟩
    rintro ⟨_, _, ⟨⟩, h⟩
    exact h

theorem run_map (f : α → β) (work : Work α) (s : Session) :
    s.run (f <$> work) = ((s.run work).1.map f, (s.run work).2) := by
  rw [map_eq_pure_bind]
  rcases hrun : s.run work with ⟨_ | _, t⟩
  · exact run_bind_of_error hrun
  · exact run_bind_of_ok hrun

theorem run_check {ε : Type} (failure : ε → Failure) (result : Except ε α) (s : Session) :
    s.run (check failure result) = (result.mapError failure, s) := by
  cases result <;> rfl

theorem run_print (line : String) (s : Session) :
    s.run (print line) = (.ok (), { s with output := s.output.push line }) := rfl

/-- The session after a message about the course of the work. -/
def told (s : Session) (topic message : String) : Session :=
  if s.verbose then { s with messages := s.messages.push ("DEBUG " ++ topic ++ ": " ++ message) }
  else s

theorem run_tell_eq (topic message : String) (s : Session) :
    s.run (tell topic message) = (.ok (), s.told topic message) := rfl

@[simp] theorem store_told (s : Session) (topic message : String) :
    (s.told topic message).store = s.store := by
  rw [told]
  split <;> rfl

theorem told_eq_self (h : s.verbose = false) (topic message : String) :
    s.told topic message = s := by
  rw [told, h, if_neg Bool.false_ne_true]

theorem run_tell (h : s.verbose = false) (topic message : String) :
    s.run (tell topic message) = (.ok (), s) := by
  rw [run_tell_eq, told_eq_self h]

theorem run_get (s : Session) : s.run get = (.ok s, s) := rfl

theorem run_modify (f : Session → Session) (s : Session) : s.run (modify f) = (.ok (), f s) := rfl

theorem calls_told (s : Session) (topic message : String) :
    (s.told topic message).calls = s.calls := by
  rw [told]
  split <;> rfl

theorem run_change_of_ok {f : Store → Except Store.Error Store} {store : Store}
    (h : f s.store = .ok store) : s.run (change f) = (.ok (), { s with store := store }) := by
  rw [Session.change, run_bind_of_ok (run_get s), h]
  rfl

theorem run_change_of_error {f : Store → Except Store.Error Store} {e : Store.Error}
    (h : f s.store = .error e) : s.run (change f) = (.error (.file e), s) := by
  rw [Session.change, run_bind_of_ok (run_get s), h]
  rfl

theorem run_change_eq_ok_iff {f : Store → Except Store.Error Store} :
    s.run (change f) = (.ok (), t) ↔ ∃ store, f s.store = .ok store ∧ t = { s with store } := by
  cases h : f s.store with
  | error e =>
    rw [run_change_of_error h]
    exact ⟨nofun, fun ⟨_, h, _⟩ => nomatch h⟩
  | ok store =>
    rw [run_change_of_ok h]
    constructor
    · rintro ⟨⟩
      exact ⟨store, rfl, rfl⟩
    · rintro ⟨_, ⟨⟩, rfl⟩
      rfl

/-- **Reading** changes nothing. -/
theorem run_readText (path : String) (s : Session) :
    s.run (readText path) = (s.store.text path, s) := by
  have hcheck := run_check Failure.file (s.store.read path) s
  rw [readText, run_bind_of_ok (run_get s), Store.text]
  cases hread : s.store.read path with
  | error e =>
    rw [hread] at hcheck
    exact run_bind_of_error hcheck
  | ok contents =>
    rw [hread] at hcheck
    rw [run_bind_of_ok hcheck]
    change s.run (match contents.text? with | some text => _ | none => _) =
      ((match contents.text? with | some text => _ | none => _), s)
    cases contents.text? <;> rfl

theorem run_tryCatch (work : Work α) (handler : Failure → Work α) (s : Session) :
    s.run (tryCatch work handler) =
      match s.run work with
      | (.ok a, t) => (.ok a, t)
      | (.error e, t) => t.run (handler e) := by
  change StateT.run (ExceptT.tryCatch work handler) s = _
  rw [ExceptT.tryCatch, ExceptT.mk, StateT.run_bind]
  have hrun : s.run work = StateT.run work s := rfl
  rw [hrun]
  rcases StateT.run work s with ⟨_ | _, t⟩ <;> rfl

/-! ## Relations that steps keep to -/

section Relation

variable {R : Session → Session → Prop} (htrans : ∀ {s t u}, R s t → R t u → R s u)
include htrans

theorem rel_run_bind (h : ∀ s, R s (s.run work).2) (hnext : ∀ a s, R s (s.run (next a)).2)
    (s : Session) : R s (s.run (work >>= next)).2 := by
  have hfirst := h s
  rcases hrun : s.run work with ⟨e | a, t⟩ <;> rw [hrun] at hfirst
  · rw [run_bind_of_error hrun]
    exact hfirst
  · rw [run_bind_of_ok hrun]
    exact htrans hfirst (hnext a t)

/-- **What each round of a loop keeps to**, the loop keeps to. -/
theorem rel_run_forIn (hrefl : ∀ s, R s s) {f : α → PUnit → Work (ForInStep PUnit)}
    (h : ∀ a u s, R s (s.run (f a u)).2) (xs : List α) (s : Session) :
    R s (s.run (forIn xs PUnit.unit f)).2 := by
  induction xs generalizing s with
  | nil => exact hrefl s
  | cons x rest ih =>
    rw [List.forIn_cons]
    refine rel_run_bind (R := R) htrans (h x _) (fun step s => ?_) s
    cases step with
    | done => exact hrefl s
    | yield => exact ih s

end Relation

/-! ## Steps that leave the files alone -/

/-- **A step that leaves the files alone**, whether it succeeds or not. -/
def Keeps (work : Work α) : Prop :=
  ∀ s : Session, (s.run work).2.store = s.store

theorem Keeps.store_eq (h : Keeps work) {outcome : Except Failure α}
    (hrun : s.run work = (outcome, t)) : t.store = s.store := by
  rw [← h s, hrun]

theorem keeps_pure (a : α) : Keeps (pure a) := fun _ => rfl

theorem keeps_throw (e : Failure) : Keeps (throw e : Work α) := fun _ => rfl

theorem Keeps.bind (h : Keeps work) (hnext : ∀ a, Keeps (next a)) : Keeps (work >>= next) :=
  rel_run_bind (R := fun s t => t.store = s.store) (fun hs ht => ht.trans hs) h hnext

/-- A step that may be left out leaves the files alone either way. -/
theorem keeps_ite {c : Bool} {work : Work Unit} (h : Keeps work) :
    Keeps (if c = true then work else pure ()) := by
  split
  · exact h
  · exact keeps_pure ()

theorem keeps_check {ε : Type} (failure : ε → Failure) (result : Except ε α) :
    Keeps (check failure result) := by
  intro s
  rw [run_check]

theorem keeps_print (line : String) : Keeps (print line) := fun _ => rfl

theorem keeps_complain (line : String) : Keeps (complain line) := fun _ => rfl

theorem keeps_tell (topic message : String) : Keeps (tell topic message) :=
  fun s => store_told s topic message

theorem keeps_forIn {f : α → PUnit → Work (ForInStep PUnit)} (h : ∀ a u, Keeps (f a u))
    (xs : List α) : Keeps (forIn xs PUnit.unit f) :=
  rel_run_forIn (R := fun s t => t.store = s.store) (fun hs ht => ht.trans hs) (fun _ => rfl) h xs

end Session

end Stencil
