import Stencil.CommandLine
import Stencil.Proofs.Session

/-!
# Proofs/CommandLine/Batch — one thing after another, in spite of failures

    x₁, x₂, …, xₙ  ──collect──▸  what was done, and a line for each forgiven failure

A thing that is attempted leaves a line when it fails and the failure is forgiven (`attempt`), and
`collect` attempts several things in a row.  Where each of them comes to the same after whatever
went before, none of them is left out (`exists_run_collect`): each is done or has its line, unless
one fails and is not forgiven, which ends the run (`exists_run_collect_eq_error`).
-/

namespace Stencil.CommandLine

open Session

section Attempt

variable {α : Type} {work : Work α} {s t : Session} {a : α} {e : Failure}
  {forgiven : Failure → Bool} {line : Failure → String}

/-- A step that may fail. A failure that is forgiven leaves a line and nothing else. -/
def attempt (forgiven : Failure → Bool) (line : Failure → String) (work : Work α) :
    Work (Option α) :=
  try some <$> work
  catch e =>
    if forgiven e then
      complain (line e)
      pure none
    else throw e

theorem run_attempt_of_ok (h : s.run work = (.ok a, t)) :
    s.run (attempt forgiven line work) = (.ok (some a), t) := by
  have hwork : s.run (some <$> work) = (.ok (some a), t) := by
    rw [map_eq_pure_bind, run_bind_of_ok h, run_pure]
  rw [attempt, run_tryCatch, hwork]

theorem run_attempt_of_forgiven (h : s.run work = (.error e, t)) (he : forgiven e = true) :
    s.run (attempt forgiven line work) =
      (.ok none, { t with messages := t.messages.push (line e) }) := by
  have hwork : s.run (some <$> work) = (.error e, t) := by
    rw [map_eq_pure_bind, run_bind_of_error h]
  rw [attempt, run_tryCatch, hwork]
  change t.run (if forgiven e = true then _ else _) = _
  rw [if_pos he]
  rfl

theorem run_attempt_of_error (h : s.run work = (.error e, t)) (he : forgiven e = false) :
    s.run (attempt forgiven line work) = (.error e, t) := by
  have hwork : s.run (some <$> work) = (.error e, t) := by
    rw [map_eq_pure_bind, run_bind_of_error h]
  rw [attempt, run_tryCatch, hwork]
  change t.run (if forgiven e = true then _ else _) = _
  rw [he, if_neg Bool.false_ne_true, run_throw]

/-- What is done with a result of an attempt may be done before. -/
theorem attempt_map {β : Type} (f : α → β) (work : Work α) :
    attempt forgiven line (f <$> work) = Option.map f <$> attempt forgiven line work := by
  refine funext fun s => ?_
  change s.run (attempt forgiven line (f <$> work)) =
    s.run (Option.map f <$> attempt forgiven line work)
  have hmap := run_map f work s
  rw [run_map]
  rcases hrun : s.run work with ⟨e | a, t⟩
  · rw [hrun] at hmap
    by_cases he : forgiven e = true
    · rw [run_attempt_of_forgiven hmap he, run_attempt_of_forgiven hrun he]
      rfl
    · rw [Bool.not_eq_true] at he
      rw [run_attempt_of_error hmap he, run_attempt_of_error hrun he]
      rfl
  · rw [hrun] at hmap
    rw [run_attempt_of_ok hmap, run_attempt_of_ok hrun]
    rfl

end Attempt

/-! ## Several things -/

section Collect

variable {ι α : Type}

/-- **Several things attempted in a row**, with a count of those that failed. -/
def collect (forgiven : Failure → Bool) (line : ι → Failure → String) (work : ι → Work α) :
    List ι → Work (Tally α)
  | [] => return ⟨[], 0⟩
  | x :: rest => do
    let found ← attempt forgiven (line x) (work x)
    let later ← collect forgiven line work rest
    match found with
    | some a => return ⟨a :: later.done, later.failures⟩
    | none => return ⟨later.done, later.failures + 1⟩

variable {forgiven : Failure → Bool} {line : ι → Failure → String} {work : ι → Work α}

/-- Whatever fails is forgiven. -/
def AreForgiven (forgiven : Failure → Bool) (result : ι → Except Failure α) (xs : List ι) : Prop :=
  ∀ x ∈ xs, ∀ e, result x = .error e → forgiven e = true

theorem areForgiven_map_iff {β : Type} {f : ι → α → β} {result : ι → Except Failure α}
    {xs : List ι} :
    AreForgiven forgiven (fun x => (result x).map (f x)) xs ↔ AreForgiven forgiven result xs := by
  simp only [AreForgiven, map_eq_error_iff]

/-- The line of a thing that fails. -/
def lineOf? (line : ι → Failure → String) (result : ι → Except Failure α) (x : ι) :
    Option String :=
  match result x with
  | .ok _ => none
  | .error e => some (line x e)

/-- What is done with a result has no part in the line. -/
theorem lineOf?_map {β : Type} (f : ι → α → β) (result : ι → Except Failure α) :
    lineOf? line (fun x => (result x).map (f x)) = lineOf? line result := by
  funext x
  rw [lineOf?, lineOf?]
  cases result x <;> rfl

/-- **Each thing comes to its result**, whatever went before it. The state after some things have
been attempted is told by these; what is complained of has no part in it. -/
structure Settles (work : ι → Work α) (result : ι → Except Failure α)
    (state : List ι → Session → Prop) (xs : List ι) : Prop where
  messages : ∀ {before s} messages, state before s → state before { s with messages := messages }
  step : ∀ x ∈ xs, ∀ {before s}, state before s →
    ∃ t, s.run (work x) = (result x, t) ∧ t.messages = s.messages ∧ state (before ++ [x]) t

variable {result : ι → Except Failure α} {state : List ι → Session → Prop} {xs : List ι}
  {s : Session}

theorem Settles.tail {x : ι} (h : Settles work result state (x :: xs)) :
    Settles work result state xs :=
  ⟨h.messages, fun y hy => h.step y (List.mem_cons_of_mem x hy)⟩

/-- **Nothing is left out**: each thing is done or has its line. -/
theorem exists_run_collect (before : List ι) (h : Settles work result state xs)
    (hforgiven : AreForgiven forgiven result xs) (hs : state before s) :
    ∃ t, s.run (collect forgiven line work xs) =
        (.ok ⟨xs.filterMap fun x => (result x).toOption,
          (xs.filterMap (lineOf? line result)).length⟩, t) ∧
      t.messages = s.messages ++ (xs.filterMap (lineOf? line result)).toArray ∧
      state (before ++ xs) t := by
  induction xs generalizing before s with
  | nil => exact ⟨s, rfl, (Array.append_empty).symm, by rwa [List.append_nil]⟩
  | cons x rest ih =>
    obtain ⟨t, hrun, hmessages, ht⟩ := h.step x List.mem_cons_self hs
    obtain ⟨hx, hrest⟩ := List.forall_mem_cons.mp hforgiven
    cases hresult : result x with
    | ok a =>
      rw [hresult] at hrun
      obtain ⟨u, hu, hlines, hstate⟩ := ih _ h.tail hrest ht
      refine ⟨u, ?_, ?_, by rwa [List.append_cons]⟩
      · rw [collect, run_bind_of_ok (run_attempt_of_ok hrun), run_bind_of_ok hu]
        simp [lineOf?, hresult, Except.toOption]
      · simp [lineOf?, hresult, hlines, hmessages]
    | error e =>
      rw [hresult] at hrun
      obtain ⟨u, hu, hlines, hstate⟩ :=
        ih _ h.tail hrest (h.messages (t.messages.push (line x e)) ht)
      refine ⟨u, ?_, ?_, by rwa [List.append_cons]⟩
      · rw [collect, run_bind_of_ok (run_attempt_of_forgiven hrun (hx e hresult)),
          run_bind_of_ok hu]
        simp [lineOf?, hresult, Except.toOption]
      · simp [lineOf?, hresult, hlines, hmessages]

/-- **What is not forgiven** ends the run. -/
theorem exists_run_collect_eq_error (before : List ι) (h : Settles work result state xs)
    (hforgiven : ¬AreForgiven forgiven result xs) (hs : state before s) :
    ∃ e t, s.run (collect forgiven line work xs) = (.error e, t) := by
  induction xs generalizing before s with
  | nil => exact absurd (List.forall_mem_nil _) hforgiven
  | cons x rest ih =>
    obtain ⟨t, hrun, -, ht⟩ := h.step x List.mem_cons_self hs
    rw [AreForgiven, List.forall_mem_cons, not_and] at hforgiven
    cases hresult : result x with
    | ok a =>
      rw [hresult] at hrun hforgiven
      obtain ⟨e, u, hu⟩ := ih _ h.tail (hforgiven nofun) ht
      refine ⟨e, u, ?_⟩
      rw [collect, run_bind_of_ok (run_attempt_of_ok hrun), run_bind_of_error hu]
    | error e =>
      rw [hresult] at hrun hforgiven
      by_cases he : forgiven e = true
      · have hrest := hforgiven fun e' he' => Except.error.inj he' ▸ he
        obtain ⟨e', u, hu⟩ := ih _ h.tail hrest (h.messages (t.messages.push (line x e)) ht)
        refine ⟨e', u, ?_⟩
        rw [collect, run_bind_of_ok (run_attempt_of_forgiven hrun he), run_bind_of_error hu]
      · refine ⟨e, t, ?_⟩
        have he := Bool.eq_false_of_not_eq_true he
        rw [collect, run_bind_of_error (run_attempt_of_error hrun he)]

end Collect

end Stencil.CommandLine
