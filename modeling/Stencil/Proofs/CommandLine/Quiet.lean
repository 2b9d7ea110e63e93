import Stencil.Proofs.CommandLine.Outputs

/-!
# Proofs/CommandLine/Quiet — work that reports nothing

    read, paint, write        quiet, also when they fail
    a page                    quiet when it is written, and left open when it is not

The errors reported, the pages left open and the windows are what is seen of a session afterwards.
Most work adds to none of these, whether it succeeds or not (`Hushed.bind`).  Only a page whose
panels cannot be made or that cannot be written is left behind (`run_writePage`, `run_endPage`).
-/

namespace Stencil

namespace Session

variable {α β : Type} {work : Work α} {next : α → Work β} {s t u : Session}

/-! ## Reports -/

/-- Whether a line of messages reports an error. -/
def isReport (line : String) : Bool :=
  "[error] ".toList.isPrefixOf line.toList

theorem isReport_of_ne {line : String} {c : Char} {rest : List Char} (h : line.toList = c :: rest)
    (hc : c ≠ '[') : isReport line = false := by
  have hmark : "[error] ".toList = '[' :: "error] ".toList := rfl
  rw [isReport, h, hmark, List.isPrefixOf_cons_cons, Bool.and_eq_false_iff]
  exact .inl (beq_eq_false_iff_ne.mpr hc.symm)

/-- **The errors that have been reported**, in their order. -/
def reports (s : Session) : List String :=
  s.messages.toList.filter isReport

@[simp] theorem reports_push {line : String} (h : isReport line = true) :
    reports { s with messages := s.messages.push line } = s.reports ++ [line] := by
  simp [reports, h]

/-- **Nothing was reported, begun or opened** between two sessions. -/
structure Quiet (s t : Session) : Prop where
  reports : t.reports = s.reports
  openPages : t.openPages = s.openPages
  windows : t.windows = s.windows

theorem Quiet.refl (s : Session) : Quiet s s :=
  ⟨rfl, rfl, rfl⟩

theorem Quiet.trans (h : Quiet s t) (h' : Quiet t u) : Quiet s u :=
  ⟨h'.reports.trans h.reports, h'.openPages.trans h.openPages, h'.windows.trans h.windows⟩

/-- Any line but a report may be shown. -/
theorem quiet_push {line : String} (h : isReport line = false) :
    Quiet s { s with messages := s.messages.push line } :=
  ⟨by simp [Session.reports, h], rfl, rfl⟩

/-! ## Quiet work -/

/-- **Work that reports nothing**, leaves no page open and opens no window, whether it succeeds or
not. -/
def Hushed (work : Work α) : Prop :=
  ∀ s : Session, Quiet s (s.run work).2

theorem Hushed.quiet (h : Hushed work) {outcome : Except Failure α}
    (hrun : s.run work = (outcome, t)) : Quiet s t := by
  have hs := h s
  rwa [hrun] at hs

theorem hushed_pure (a : α) : Hushed (pure a) := Quiet.refl

theorem hushed_throw (e : Failure) : Hushed (throw e : Work α) := Quiet.refl

theorem Hushed.bind (h : Hushed work) (hnext : ∀ a, Hushed (next a)) : Hushed (work >>= next) :=
  rel_run_bind (R := Quiet) Quiet.trans h hnext

theorem Hushed.tryCatch (h : Hushed work) {handler : Failure → Work α}
    (hhandler : ∀ e, Hushed (handler e)) : Hushed (tryCatch work handler) := by
  intro s
  rw [run_tryCatch]
  rcases hrun : s.run work with ⟨e | a, t⟩
  · exact (h.quiet hrun).trans (hhandler e t)
  · exact h.quiet hrun

theorem hushed_ite {c : Bool} {work : Work Unit} (h : Hushed work) :
    Hushed (if c = true then work else pure ()) := by
  split
  · exact h
  · exact hushed_pure ()

theorem hushed_check {ε : Type} (failure : ε → Failure) (result : Except ε α) :
    Hushed (check failure result) := by
  intro s
  rw [run_check]
  exact Quiet.refl s

theorem hushed_print (line : String) : Hushed (print line) :=
  fun _ => ⟨rfl, rfl, rfl⟩

theorem hushed_tell (topic message : String) : Hushed (tell topic message) := by
  intro s
  rw [run_tell_eq, told]
  split
  · exact quiet_push (isReport_of_ne (by simp only [String.toList_append]; rfl) (by decide))
  · exact Quiet.refl s

theorem hushed_warn (topic message : String) : Hushed (warn topic message) :=
  fun _ => quiet_push (isReport_of_ne (by simp only [String.toList_append]; rfl) (by decide))

theorem hushed_change (f : Store → Except Store.Error Store) : Hushed (change f) := by
  intro s
  cases h : f s.store with
  | error e =>
    rw [run_change_of_error h]
    exact Quiet.refl s
  | ok store =>
    rw [run_change_of_ok h]
    exact ⟨rfl, rfl, rfl⟩

theorem hushed_readText (path : String) : Hushed (readText path) := by
  intro s
  rw [run_readText]
  exact Quiet.refl s

theorem hushed_forIn {f : α → PUnit → Work (ForInStep PUnit)} (h : ∀ a u, Hushed (f a u))
    (xs : List α) : Hushed (forIn xs PUnit.unit f) :=
  rel_run_forIn (R := Quiet) Quiet.trans Quiet.refl h xs

theorem hushed_paintOn {σ : Type} [Surface σ] (g : Generator) (d : Drawing) (surface : σ) :
    Hushed (paintOn g d surface) := by
  intro s
  rw [CommandLine.run_paintOn]
  exact ⟨rfl, rfl, rfl⟩

theorem hushed_picture (g : Generator) (d : Drawing) : Hushed (picture g d) :=
  (hushed_tell _ _).bind fun _ => (hushed_check _ _).bind fun blank =>
    (hushed_paintOn g d blank).bind fun _ => hushed_pure _

theorem hushed_figure (g : Generator) (d : Drawing) (dpi : Int) : Hushed (figure g d dpi) :=
  (hushed_tell _ _).bind fun _ => (hushed_check _ _).bind fun blank => hushed_paintOn g d blank

/-! ## Libraries -/

theorem hushed_writeTemplates (folder : String) (shapes : List Shape) :
    Hushed (writeTemplates folder shapes) := by
  induction shapes with
  | nil => exact hushed_pure _
  | cons shape rest ih =>
    exact (hushed_tell _ _).bind fun _ => (hushed_change _).bind fun _ => ih

theorem hushed_readTemplate (path : String) : Hushed (readTemplate path) := by
  refine ((hushed_readText path).tryCatch fun e => ?_).bind fun text => hushed_check _ _
  split
  · exact hushed_throw _
  · exact hushed_throw _

theorem hushed_readTemplates (folder : String) (names : List String) :
    Hushed (readTemplates folder names) := by
  induction names with
  | nil => exact hushed_pure _
  | cons name rest ih =>
    exact (hushed_readTemplate _).bind fun _ => ih.bind fun _ => hushed_pure _

theorem hushed_library (folder : Option String) : Hushed (library folder) := by
  cases folder with
  | none => exact hushed_pure _
  | some path =>
    refine (hushed_change _).bind fun _ => (hushed_writeTemplates _ _).bind fun _ => ?_
    refine Hushed.bind (Quiet.refl ·) fun _ => (hushed_readTemplates _ _).bind fun _ => ?_
    exact (hushed_tell _ _).bind fun _ => hushed_check _ _

/-! ## Pages -/

/-- The session after a page of some size has been begun. -/
def begun (inches : Float × Float) (s : Session) : Session :=
  { s with openPages := s.openPages.push inches }

/-- **Panels on a page** are made after the page is begun, and it is ended when they are there. -/
theorem run_writePage (path : String) (grid : Grid) (cell : Float) (panels : Work (List Panel))
    (s : Session) :
    s.run (writePage path grid cell panels) =
      (s.begun (Page.inchesOfGrid grid cell)).run (panels >>= fun panels =>
        endPage path (Page.ofGrid grid cell (Format.ofPath path).name panels)) := by
  rw [writePage, beginPage, run_bind_of_ok (run_modify _ s)]
  rfl

/-- **A page written to a file**: the files change and it is closed when it can be, and it stays
open when not. -/
theorem run_endPage (path : String) (page : Page) (s : Session) :
    (∃ made store, s.store.makeParent path = .ok made ∧
      made.write path (.page page) = .ok store ∧
      s.run (endPage path page) =
        (.ok (), { s with store := store, openPages := s.openPages.pop })) ∨
    ∃ e store, s.run (endPage path page) = (.error (.file e), { s with store := store }) := by
  let parent (store : Store) := store.makeParent path
  let write (store : Store) := store.write path (.page page)
  rw [endPage]
  cases hparent : s.store.makeParent path with
  | error e =>
    have hfailed := run_change_of_error (s := s) (f := parent) hparent
    rw [run_bind_of_error hfailed]
    exact .inr ⟨e, s.store, rfl⟩
  | ok made =>
    rw [run_bind_of_ok (run_change_of_ok (s := s) (f := parent) hparent)]
    cases hwrite : made.write path (.page page) with
    | error e =>
      have hfailed := run_change_of_error (s := { s with store := made }) (f := write) hwrite
      rw [run_bind_of_error hfailed]
      exact .inr ⟨e, made, rfl⟩
    | ok store =>
      have hwritten := run_change_of_ok (s := { s with store := made }) (f := write) hwrite
      rw [run_bind_of_ok hwritten, run_modify]
      exact .inl ⟨made, store, rfl, hwrite, rfl⟩

/-- A page that was written has been closed, if its panels were made quietly. -/
theorem quiet_of_run_writePage {path : String} {grid : Grid} {cell : Float}
    {panels : Work (List Panel)} (hpanels : Hushed panels)
    (h : s.run (writePage path grid cell panels) = (.ok (), t)) : Quiet s t := by
  rw [run_writePage] at h
  obtain ⟨made, u, hmade, hend⟩ := run_bind_eq_ok_iff.mp h
  have hquiet := hpanels.quiet hmade
  obtain ⟨_, _, -, -, hrun⟩ | ⟨_, _, hrun⟩ := run_endPage path
    (Page.ofGrid grid cell (Format.ofPath path).name made) u
  · rw [hrun] at hend
    cases hend
    refine ⟨hquiet.reports, ?_, hquiet.windows⟩
    change u.openPages.pop = s.openPages
    rw [hquiet.openPages, begun, Array.pop_push]
  · rw [hrun] at hend
    cases hend

end Session

end Stencil
