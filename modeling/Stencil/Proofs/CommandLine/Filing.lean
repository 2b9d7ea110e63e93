import Stencil.Proofs.CommandLine.Quiet

/-!
# Proofs/CommandLine/Filing — what files and drawings come to

    session ──work──▸ outcome, session
       │                 ‖        │
     store ──step──▸  outcome, store

What comes of reading a file or painting a drawing, and which files it leaves, depends on the files
alone.  Such work `Does` a step on a store, quietly; `loaded` is the step of a file and `painted`
that of a drawing.  Several things done in a row are told by their `trials`, each of which starts
from the store that the one before has left (`exists_run_collect_trials`).
-/

namespace Stencil.CommandLine

open Session
open Surface (Figure)

/-! ## Steps on a store -/

/-- **A step on a store** that may fail. -/
abbrev Filing := ExceptT Failure (StateM Store)

section Does

variable {α β : Type} {work : Work α} {next : α → Work β} {step : Filing α} {later : α → Filing β}
  {s : Session} {store : Store}

/-- A change of the files. -/
def alter (f : Store → Except Store.Error Store) : Filing Unit := do
  match f (← get) with
  | .ok store => set store
  | .error e => throw (.file e)

/-- What a step leaves of a store. -/
def Filing.on (step : Filing α) (store : Store) : Except Failure α × Store :=
  (ExceptT.run step).run store

theorem Filing.on_bind (step : Filing α) (later : α → Filing β) (store : Store) :
    Filing.on (step >>= later) store =
      match step.on store with
      | (.ok a, store) => (later a).on store
      | (.error e, store) => (.error e, store) := by
  rcases hstep : step.on store with ⟨e | a, t⟩
  · exact run_bind_eq_of_error hstep
  · exact run_bind_eq_of_ok hstep

theorem Filing.on_alter (f : Store → Except Store.Error Store) (store : Store) :
    (alter f).on store =
      match f store with
      | .ok t => (.ok (), t)
      | .error e => (.error (.file e), store) := by
  change (match f store with | .ok t => _ | .error e => _ : Filing Unit).on store = _
  cases f store <;> rfl

theorem Filing.on_lift (x : Except Failure α) (store : Store) :
    (liftM x : Filing α).on store = (x, store) := rfl

/-- **Work does a step**: it has the step's outcome, leaves the step's files, and is quiet. -/
def Does (work : Work α) (step : Filing α) (s : Session) : Prop :=
  ∃ t, s.run work = ((step.on s.store).1, t) ∧ t.store = (step.on s.store).2 ∧ Quiet s t

/-- Quiet work that leaves the files alone does nothing but come to its outcome. -/
theorem Does.of_keeps {x : Except Failure α} (hrun : (s.run work).1 = x) (hkeeps : Keeps work)
    (hhushed : Hushed work) : Does work (liftM x) s :=
  ⟨(s.run work).2, Prod.ext hrun rfl, hkeeps s, hhushed s⟩

theorem Does.bind (h : Does work step s)
    (hnext : ∀ a t, s.run work = (.ok a, t) → Does (next a) (later a) t) :
    Does (work >>= next) (step >>= later) s := by
  obtain ⟨t, hrun, hstore, hquiet⟩ := h
  rw [Does, Filing.on_bind]
  rcases hstep : step.on s.store with ⟨e | a, u⟩ <;> rw [hstep] at hrun hstore
  · exact ⟨t, run_bind_of_error hrun, hstore, hquiet⟩
  · obtain ⟨v, hrun', hstore', hquiet'⟩ := hnext a t hrun
    obtain rfl : t.store = u := hstore
    exact ⟨v, (run_bind_of_ok hrun).trans hrun', hstore', hquiet.trans hquiet'⟩

/-- Quiet work that leaves the files alone may come first. -/
theorem Does.after {first : Work β} {rest : β → Work α} {b : β} {t : Session}
    (hrun : s.run first = (.ok b, t)) (hkeeps : Keeps first) (hhushed : Hushed first)
    (h : Does (rest b) step t) :
    Does (first >>= rest) step s := by
  obtain ⟨u, hrun', hstore, hquiet⟩ := h
  rw [hkeeps.store_eq hrun] at hrun' hstore
  exact ⟨u, (run_bind_of_ok hrun).trans hrun', hstore, (hhushed.quiet hrun).trans hquiet⟩

theorem does_change (f : Store → Except Store.Error Store) (s : Session) :
    Does (change f) (alter f) s := by
  have hquiet := hushed_change f s
  rw [Does, Filing.on_alter]
  cases h : f s.store with
  | error e =>
    rw [run_change_of_error h] at hquiet ⊢
    exact ⟨s, rfl, rfl, hquiet⟩
  | ok store =>
    rw [run_change_of_ok h] at hquiet ⊢
    exact ⟨_, rfl, rfl, hquiet⟩

end Does

/-! ## Reading -/

section Reading

variable {library : Library} {policy : Script.Policy} {path : String}

/-- A file read is a step that leaves the store. -/
def loaded (library : Library) (policy : Script.Policy) (path : String) : Filing Drawing := do
  loading library policy (← get) path

theorem on_loaded (library : Library) (policy : Script.Policy) (path : String) (store : Store) :
    (loaded library policy path).on store = (loading library policy store path, store) := rfl

/-- The name of a drawing that was read is not empty. -/
theorem exists_name_of_loading {store : Store} {d : Drawing}
    (h : loading library policy store path = .ok d) :
    d.name = some (Path.stem path) ∧ Path.stem path ≠ "" := by
  obtain ⟨⟨text, htext, -⟩, -, hname⟩ := isDrawingOf_of_loading h
  obtain ⟨contents, hread, -⟩ := bind_eq_ok_iff.mp htext
  exact ⟨hname, Path.stem_ne_empty (Store.steps_ne_nil_of_read (mapError_eq_ok_iff.mp hread))⟩

theorem hushed_readDrawing : Hushed (readDrawing library policy path) := by
  refine (hushed_readText path).bind fun text => ?_
  refine (hushed_forIn (fun _ _ => (hushed_warn _ _).bind fun _ => hushed_pure _) _).bind
    fun _ => ?_
  exact (hushed_check _ _).bind fun _ => (hushed_tell _ _).bind fun _ => hushed_pure _

/-- **A file is read** quietly, whatever is told or warned of. -/
theorem does_readDrawing (s : Session) :
    Does (readDrawing library policy path) (loaded library policy path) s :=
  ⟨_, Prod.ext (outcome_readDrawing s) rfl, keeps_readDrawing s, hushed_readDrawing s⟩

end Reading

/-! ## Painting -/

section Painting

variable {a : Arguments} {g : Generator} {d : Drawing} {folder : String} {count i : Nat}

/-- **A drawing put into a file**, when it has its picture. -/
def filed (a : Arguments) (g : Generator) (d : Drawing) (image : Image) (path : String) :
    Filing Unit :=
  if a.format = .value .svg then
    match a.dpi with
    | .value dpi => do
      alter fun store => store.makeParent path
      let figure ← figuring g d dpi
      alter fun store => store.write path (.page (Page.ofFigure figure (some Format.svg.name)))
    | _ => throw (.noValue "--dpi")
  else alter fun store => store.write path (.image image)

/-- **A drawing written** into a folder, which is made for it. -/
def written (a : Arguments) (g : Generator) (folder : String) (d : Drawing) (image : Image) :
    Filing Unit := do
  alter fun store => store.makeFolders folder
  filed a g d image (outputPath a folder (d.name.getD ""))

/-- **A drawing painted**, and written where a folder is given. -/
def painted (a : Arguments) (g : Generator) (d : Drawing) : Filing Image := do
  let image ← picturing g d
  if let some folder := given? a.outdir then written a g folder d image
  return image

theorem run_restart (s : Session) : s.run restart = (.ok (), { s with calls := #[] }) := rfl

theorem keeps_restart : Keeps restart := fun _ => rfl

theorem hushed_restart : Hushed restart := fun _ => ⟨rfl, rfl, rfl⟩

/-- A figure written to a file. -/
theorem does_writeDrawing {s : Session} (hcalls : s.calls = #[]) (path : String) (dpi : Int) :
    Does (writeDrawing g d path (some Format.svg.name) dpi) (do
      alter fun store => store.makeParent path
      let figure ← figuring g d dpi
      alter fun store =>
        store.write path (.page (Page.ofFigure figure (some Format.svg.name)))) s := by
  have hformat : s.run (check id (Format.choose path (some Format.svg.name))) = (.ok .svg, s) := by
    rw [run_check, choose_svg]
    rfl
  refine Does.after hformat (keeps_check _ _) (hushed_check _ _) ?_
  refine (does_change _ s).bind fun _ t hparent => ?_
  have hcalls' : t.calls = #[] := by
    obtain ⟨made, -, rfl⟩ := run_change_eq_ok_iff.mp hparent
    exact hcalls
  refine Does.bind ?_ fun figure u _ => does_change _ u
  exact Does.of_keeps (outcome_figure hcalls' g d dpi) (keeps_figure g d dpi)
    (hushed_figure g d dpi)

/-- What is put into the file depends on the format. -/
theorem does_filed (path : String) (image : Image) (s : Session) :
    Does (if a.format = .value .svg then do
        restart
        match a.dpi with
        | .value dpi => writeDrawing g d path (some Format.svg.name) dpi
        | _ =>
          tell paintingTopic d.announcement
          throw (.noValue "--dpi")
      else change fun store => store.write path (.image image))
    (filed a g d image path) s := by
  have hnone : Does (do
        tell paintingTopic d.announcement
        throw (.noValue "--dpi")) (throw (.noValue "--dpi") : Filing Unit)
      { s with calls := #[] } :=
    Does.after (run_tell_eq _ _ _) (keeps_tell _ _) (hushed_tell _ _)
      (Does.of_keeps rfl (keeps_throw _) (hushed_throw _))
  rw [filed]
  by_cases hsvg : a.format = .value .svg
  · rw [if_pos hsvg, if_pos hsvg]
    refine Does.after (run_restart s) keeps_restart hushed_restart ?_
    cases a.dpi with
    | value dpi => exact does_writeDrawing rfl path dpi
    | unset => exact hnone
    | withheld => exact hnone
  · rw [if_neg hsvg, if_neg hsvg]
    exact does_change _ s

/-- **A drawing is written** quietly. -/
theorem does_writeTo (s : Session) (image : Image) :
    Does (writeTo a g folder count i d image) (written a g folder d image) s := by
  rw [writeTo, written]
  refine (does_change _ s).bind fun _ t _ => ?_
  refine Does.after (run_print _ t) (keeps_print _) (hushed_print _) ?_
  exact does_filed _ image _

/-- **A drawing is painted** quietly. -/
theorem does_paint (s : Session) : Does (paint a g count i d) (painted a g d) s := by
  have hpicture :
      Does (picture g d) (liftM (picturing g d) : Filing Image) { s with calls := #[] } :=
    Does.of_keeps (outcome_picture rfl g d) (keeps_picture g d) (hushed_picture g d)
  have hreturn (image : Image) (t : Session) : Does (pure image) (pure image) t :=
    Does.of_keeps rfl (keeps_pure image) (hushed_pure image)
  rw [paint, painted]
  refine Does.after (run_restart s) keeps_restart hushed_restart ?_
  refine hpicture.bind fun image t _ => ?_
  cases given? a.outdir with
  | none => exact hreturn image t
  | some folder => exact (does_writeTo t image).bind fun _ u _ => hreturn image u

end Painting

/-! ## Several things -/

section Trials

variable {ι α : Type}

/-- **What several things come to** that are tried one after another, and the store in the end. -/
def trials (step : ι → Filing α) : List ι → Store → List (ι × Except Failure α) × Store
  | [], store => ([], store)
  | x :: rest, store =>
    let tried := (step x).on store
    let later := trials step rest tried.2
    ((x, tried.1) :: later.1, later.2)

/-- The report of a thing that has failed. -/
def trialLine? (line : ι → Failure → String) : ι × Except Failure α → Option String
  | (_, .ok _) => none
  | (x, .error e) => some (line x e)

variable {forgiven : Failure → Bool} {line : ι → Failure → String} {work : ι → Work α}
  {step : ι → Filing α} {xs : List ι} {s t : Session}

/-- **Things tried one after another** are done or reported, when all failures are forgiven. -/
theorem exists_run_collect_trials (hdoes : ∀ x ∈ xs, ∀ s, Does (work x) (step x) s)
    (hline : ∀ x e, isReport (line x e) = true)
    (hforgiven : AreForgiven forgiven Prod.snd (trials step xs s.store).1) :
    ∃ t, s.run (collect forgiven line work xs) =
        (.ok ⟨(trials step xs s.store).1.filterMap fun tried => tried.2.toOption,
          ((trials step xs s.store).1.filterMap (trialLine? line)).length⟩, t) ∧
      t.store = (trials step xs s.store).2 ∧
      t.reports = s.reports ++ (trials step xs s.store).1.filterMap (trialLine? line) ∧
      t.openPages = s.openPages ∧ t.windows = s.windows := by
  induction xs generalizing s with
  | nil => exact ⟨s, rfl, rfl, (List.append_nil _).symm, rfl, rfl⟩
  | cons x rest ih =>
    obtain ⟨hx, hrest⟩ := List.forall_mem_cons.mp hdoes
    obtain ⟨t, hrun, hstore, hquiet⟩ := hx s
    rw [trials] at hforgiven ⊢
    obtain ⟨hfirst, hlater⟩ := List.forall_mem_cons.mp hforgiven
    simp only at hfirst hlater ⊢
    cases houtcome : ((step x).on s.store).1 with
    | ok a =>
      rw [houtcome] at hrun
      rw [← hstore] at hlater ⊢
      obtain ⟨u, hu, hstore', hreports, hpages, hwindows⟩ := ih hrest hlater
      refine ⟨u, ?_, hstore', ?_, hpages.trans hquiet.openPages, hwindows.trans hquiet.windows⟩
      · rw [collect, run_bind_of_ok (run_attempt_of_ok hrun), run_bind_of_ok hu]
        simp [List.filterMap_cons, trialLine?, Except.toOption]
      · rw [hreports, hquiet.reports]
        simp [List.filterMap_cons, trialLine?]
    | error e =>
      rw [houtcome] at hrun hfirst
      rw [← hstore] at hlater ⊢
      let told : Session := { t with messages := t.messages.push (line x e) }
      obtain ⟨u, hu, hstore', hreports, hpages, hwindows⟩ := ih (s := told) hrest hlater
      refine ⟨u, ?_, hstore', ?_, hpages.trans hquiet.openPages, hwindows.trans hquiet.windows⟩
      · rw [collect, run_bind_of_ok (run_attempt_of_forgiven hrun (hfirst e rfl)),
          run_bind_of_ok hu]
        simp [told, trialLine?, Except.toOption]
      · rw [hreports, reports_push (hline x e), hquiet.reports]
        simp [told, trialLine?]

/-- **Whatever has failed was forgiven** when the run goes on. -/
theorem areForgiven_of_run_collect (hdoes : ∀ x ∈ xs, ∀ s, Does (work x) (step x) s)
    {tally : Tally α} (h : s.run (collect forgiven line work xs) = (.ok tally, t)) :
    AreForgiven forgiven Prod.snd (trials step xs s.store).1 := by
  induction xs generalizing s t tally with
  | nil => exact fun x hx => absurd hx List.not_mem_nil
  | cons x rest ih =>
    obtain ⟨hx, hrest⟩ := List.forall_mem_cons.mp hdoes
    obtain ⟨u, hrun, hstore, -⟩ := hx s
    obtain ⟨found, v, hfound, h⟩ := run_bind_eq_ok_iff.mp h
    obtain ⟨later, w, hlater, -⟩ := run_bind_eq_ok_iff.mp h
    rw [trials]
    refine List.forall_mem_cons.mpr ⟨fun e he => ?_, ?_⟩
    · simp only at he
      rw [he] at hrun
      by_contra hne
      rw [run_attempt_of_error hrun (Bool.eq_false_of_not_eq_true hne)] at hfound
      cases hfound
    · have hstore' : v.store = u.store := by
        rcases houtcome : ((step x).on s.store).1 with e | a <;> rw [houtcome] at hrun
        · by_cases he : forgiven e = true
          · rw [run_attempt_of_forgiven hrun he] at hfound
            cases hfound
            rfl
          · rw [run_attempt_of_error hrun (Bool.eq_false_of_not_eq_true he)] at hfound
            cases hfound
        · rw [run_attempt_of_ok hrun] at hfound
          cases hfound
          rfl
      rw [← hstore, ← hstore']
      exact ih hrest hlater

/-- **What comes of several things** is told by their trials, when the run goes on. -/
theorem tally_of_run_collect (hdoes : ∀ x ∈ xs, ∀ s, Does (work x) (step x) s)
    (hline : ∀ x e, isReport (line x e) = true) {tally : Tally α}
    (h : s.run (collect forgiven line work xs) = (.ok tally, t)) :
    tally.done = (trials step xs s.store).1.filterMap (fun tried => tried.2.toOption) ∧
      tally.failures = ((trials step xs s.store).1.filterMap (trialLine? line)).length ∧
      t.store = (trials step xs s.store).2 ∧
      t.reports = s.reports ++ (trials step xs s.store).1.filterMap (trialLine? line) ∧
      t.openPages = s.openPages ∧ t.windows = s.windows := by
  obtain ⟨u, hu, hcollected⟩ :=
    exists_run_collect_trials hdoes hline (areForgiven_of_run_collect hdoes h)
  obtain ⟨htally, rfl⟩ := Prod.mk.inj (h.symm.trans hu)
  obtain rfl := Except.ok.inj htally
  exact ⟨rfl, rfl, hcollected⟩

end Trials

end Stencil.CommandLine
