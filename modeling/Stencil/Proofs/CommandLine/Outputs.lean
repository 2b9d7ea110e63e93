import Stencil.Proofs.CommandLine.Status
import Stencil.Proofs.Store.Changes

/-!
# Proofs/CommandLine/Outputs — what a run without failures leaves in its folder

    files ──reading──▸ drawings ──painting──▸ files in the folder ──▸ contact sheet

In a run of status 0 each step succeeds (`steps_of_run_collect`, `exists_steps_of_run_work`).
Reading and describing leave the files alone, a drawing that is painted is written to one path
(`wrote_of_run_paint`), and the contact sheet to another one (`changes_of_run_sheetStage`).  The
path of a drawing is named for the stem of its file, whatever folder the file lies in, and the place
that the path leads to tells that stem (`stem_eq_of_locate`).  So the folder holds one picture for
each stem, that of the last file of the stem (`outputs_of_run`).
-/

namespace Stencil

/-! ## Names in a folder -/

namespace Store

variable {s : Store} {start place : Place} {folder name : String}

theorem getLast?_of_walk {steps : List String} (hname : name ≠ "..")
    (h : s.walk start (steps ++ [name]) = .ok place) : place.getLast? = some name := by
  induction steps generalizing start with
  | nil =>
    rw [List.nil_append, walk_cons_eq_ok_iff, if_neg hname] at h
    rw [← Except.ok.inj h.2, List.getLast?_concat]
  | cons step rest ih =>
    rw [List.cons_append, walk_cons_eq_ok_iff] at h
    split at h
    · exact ih h
    · exact ih h.2

/-- A name in a folder leads to a place of that name. -/
theorem getLast?_of_locate_join (hname : Path.IsName name) (hfolder : folder ≠ "")
    (h : s.locate (Path.join folder name) = .ok place) : place.getLast? = some name := by
  obtain ⟨-, hwalk, -⟩ := locate_eq_ok_iff.mp h
  rw [Path.steps_join hfolder hname] at hwalk
  exact getLast?_of_walk hname.ne_dots hwalk

end Store

/-! ## Steps that leave the files alone -/

namespace Session

theorem keeps_paintOn {σ : Type} [Surface σ] (g : Generator) (d : Drawing) (surface : σ) :
    Keeps (paintOn g d surface) := by
  intro s
  rw [CommandLine.run_paintOn]

theorem keeps_picture (g : Generator) (d : Drawing) : Keeps (picture g d) :=
  (keeps_tell _ _).bind fun _ => (keeps_check _ _).bind fun blank =>
    (keeps_paintOn g d blank).bind fun _ => keeps_pure _

theorem keeps_figure (g : Generator) (d : Drawing) (dpi : Int) : Keeps (figure g d dpi) :=
  (keeps_tell _ _).bind fun _ => (keeps_check _ _).bind fun blank => keeps_paintOn g d blank

end Session

namespace CommandLine

open Session
open Surface (Raster Figure)

variable {s t : Session} {path : String} {d : Drawing}

theorem keeps_describe (library : Library) (drawings : List Drawing) :
    Keeps (describe library drawings) :=
  (keeps_print _).bind fun _ => (keeps_print _).bind fun _ =>
    (keeps_forIn (fun _ _ => (keeps_print _).bind fun _ => (keeps_print _).bind fun _ =>
      keeps_pure _) drawings).bind fun _ => keeps_pure _

/-! ## Reading -/

section Reading

variable {library : Library} {policy : Script.Policy}

/-- **What a file of instructions is read as.** -/
def loading (library : Library) (policy : Script.Policy) (store : Store) (path : String) :
    Except Failure Drawing :=
  (store.text path).bind fun text =>
    ((Script.ofText policy text).outcome.mapError .record).map fun script =>
      ⟨library, script, some (Path.stem path)⟩

/-- **The drawing that a file of a store is read as.** -/
structure IsDrawingOf (library : Library) (policy : Script.Policy) (store : Store) (path : String)
    (d : Drawing) : Prop where
  script : ∃ text, store.text path = .ok text ∧ (Script.ofText policy text).outcome = .ok d.script
  library : d.library = library
  name : d.name = some (Path.stem path)

theorem IsDrawingOf.script_eq {store : Store} (h : IsDrawingOf library policy store path d) :
    ((store.text path).toOption.bind fun text => (Script.ofText policy text).outcome.toOption) =
      some d.script := by
  obtain ⟨text, htext, hscript⟩ := h.script
  rw [htext, Except.toOption, Option.bind_some, hscript, Except.toOption]

theorem isDrawingOf_of_loading {store : Store} {d : Drawing}
    (h : loading library policy store path = .ok d) : IsDrawingOf library policy store path d := by
  obtain ⟨text, htext, h⟩ := bind_eq_ok_iff.mp h
  obtain ⟨script, hscript, rfl⟩ := map_eq_ok_iff.mp h
  exact ⟨⟨text, htext, mapError_eq_ok_iff.mp hscript⟩, rfl, rfl⟩

/-- Warnings are always shown. -/
theorem exists_run_warnings (warnings : List Record.Error) (s : Session) :
    ∃ t, s.run (forIn warnings PUnit.unit fun e _ => do
      warn readingTopic (Script.warningMessage e)
      pure (ForInStep.yield PUnit.unit)) = (.ok PUnit.unit, t) := by
  induction warnings generalizing s with
  | nil => exact ⟨s, rfl⟩
  | cons e rest ih =>
    rw [List.forIn_cons]
    exact ih _

theorem keeps_readDrawing : Keeps (readDrawing library policy path) := by
  have hread : Keeps (readText path) := fun s => by rw [run_readText]
  refine hread.bind fun text => ?_
  refine (keeps_forIn (fun _ _ => (keeps_complain _).bind fun _ => keeps_pure _) _).bind fun _ => ?_
  exact (keeps_check _ _).bind fun _ => (keeps_tell _ _).bind fun _ => keeps_pure _

theorem outcome_readDrawing (s : Session) : (s.run (readDrawing library policy path)).1 =
    loading library policy s.store path := by
  have htext := run_readText path s
  rw [readDrawing, loading]
  cases hread : s.store.text path with
  | error e =>
    rw [hread] at htext
    rw [run_bind_of_error htext]
    rfl
  | ok text =>
    rw [hread] at htext
    obtain ⟨t, hwarned⟩ := exists_run_warnings (Script.ofText policy text).warnings s
    have hcheck := run_check Failure.record (Script.ofText policy text).outcome t
    rw [run_bind_of_ok htext]
    simp only
    rw [run_bind_of_ok hwarned]
    cases houtcome : (Script.ofText policy text).outcome with
    | error e =>
      rw [houtcome] at hcheck
      rw [run_bind_of_error hcheck]
      simp [Except.bind, houtcome, Except.mapError, Except.map]
    | ok script =>
      rw [houtcome] at hcheck
      rw [run_bind_of_ok hcheck, run_bind_of_ok (run_tell_eq _ _ t)]
      simp [Except.bind, houtcome, Except.mapError, Except.map]

theorem isDrawingOf_of_run_readDrawing
    (h : s.run (readDrawing library policy path) = (.ok d, t)) :
    t.store = s.store ∧ IsDrawingOf library policy s.store path d := by
  have houtcome := @outcome_readDrawing path library policy s
  rw [h] at houtcome
  exact ⟨keeps_readDrawing.store_eq h, isDrawingOf_of_loading houtcome.symm⟩

/-! ## Steps in a row, all of which succeed -/

section Steps

variable {ι α : Type} {forgiven : Failure → Bool} {line : ι → Failure → String}
  {work : ι → Work α} {xs : List ι}

/-- **Each of several steps succeeds**, one after another. -/
inductive Steps (work : ι → Work α) : List ι → List α → Session → Session → Prop
  | nil (first : Session) : Steps work [] [] first first
  | cons {x : ι} {a : α} {xs : List ι} {as : List α} {first second last : Session} :
    first.run (work x) = (.ok a, second) → Steps work xs as second last →
      Steps work (x :: xs) (a :: as) first last

/-- **Where no failure was counted** each step has succeeded. -/
theorem steps_of_run_collect {tally : Tally α}
    (h : s.run (collect forgiven line work xs) = (.ok tally, t)) (hnone : tally.failures = 0) :
    Steps work xs tally.done s t := by
  induction xs generalizing s tally with
  | nil =>
    cases h
    exact .nil _
  | cons x rest ih =>
    obtain ⟨found, u, hfound, hrest⟩ := run_bind_eq_ok_iff.mp h
    obtain ⟨later, v, hlater, hlast⟩ := run_bind_eq_ok_iff.mp hrest
    rcases hrun : s.run (work x) with ⟨e | a, w⟩
    · by_cases he : forgiven e = true
      · rw [run_attempt_of_forgiven hrun he, Prod.mk.injEq, Except.ok.injEq] at hfound
        obtain ⟨rfl, rfl⟩ := hfound
        rw [run_pure, Prod.mk.injEq, Except.ok.injEq] at hlast
        obtain ⟨rfl, rfl⟩ := hlast
        cases hnone
      · rw [run_attempt_of_error hrun (Bool.eq_false_of_not_eq_true he)] at hfound
        cases hfound
    · rw [run_attempt_of_ok hrun, Prod.mk.injEq, Except.ok.injEq] at hfound
      obtain ⟨rfl, rfl⟩ := hfound
      rw [run_pure, Prod.mk.injEq, Except.ok.injEq] at hlast
      obtain ⟨rfl, rfl⟩ := hlast
      exact .cons hrun (ih hlater hnone)

end Steps

/-- **Files that were read**, each as its drawing. -/
theorem isDrawingOf_of_steps {paths : List String} {drawings : List Drawing}
    (h : Steps (readDrawing library policy) paths drawings s t) :
    t.store = s.store ∧ List.Forall₂ (IsDrawingOf library policy s.store) paths drawings := by
  induction h with
  | nil => exact ⟨rfl, .nil⟩
  | cons hrun _ ih =>
    obtain ⟨hstore, hdrawing⟩ := isDrawingOf_of_run_readDrawing hrun
    rw [hstore] at ih
    exact ⟨ih.1, .cons hdrawing ih.2⟩

end Reading

/-! ## Painting -/

/-- The figure of a drawing, at so many dots an inch. -/
def figuring (g : Generator) (d : Drawing) (dpi : Int) : Except Failure Figure :=
  ((Figure.blank d.canvas.size dpi).mapError .figure).bind fun blank =>
    ((d.paint g blank #[]).1.mapError .drawing).map fun _ => (d.paint g blank #[]).2.surface

/-- **What the file of a drawing holds**: its picture, or the page of its figure. -/
def rendered (a : Arguments) (g : Generator) (d : Drawing) : Except Failure Contents :=
  (picturing g d).bind fun image =>
    if a.format = .value .svg then
      match a.dpi with
      | .value dpi =>
        (figuring g d dpi).map fun figure => .page (Page.ofFigure figure (some Format.svg.name))
      | _ => .error (.noValue "--dpi")
    else .ok (.image image)

theorem outcome_figure (hcalls : s.calls = #[]) (g : Generator) (d : Drawing) (dpi : Int) :
    (s.run (Session.figure g d dpi)).1 = figuring g d dpi := by
  have hcheck := run_check Failure.figure (Figure.blank d.canvas.size dpi)
    (s.told paintingTopic d.announcement)
  rw [Session.figure, run_bind_of_ok (run_tell_eq paintingTopic d.announcement s), figuring]
  cases hblank : Figure.blank d.canvas.size dpi with
  | error e =>
    rw [hblank] at hcheck
    rw [run_bind_of_error hcheck]
    rfl
  | ok blank =>
    rw [hblank] at hcheck
    rw [run_bind_of_ok hcheck, run_paintOn, calls_told, hcalls]
    rfl

variable {a : Arguments} {g : Generator} {folder : String} {count i : Nat} {image : Image}

theorem choose_svg (path : String) : Format.choose path (some Format.svg.name) = .ok .svg := by
  have hlower : Format.lowerText Format.svg.name = "svg" := by decide +kernel
  rw [Format.choose]
  simp only [hlower]
  rfl

/-- **A figure written to a file.** -/
theorem wrote_of_run_writeDrawing {dpi : Int}
    (h : s.run (writeDrawing g d path (some Format.svg.name) dpi) = (.ok (), t))
    (hcalls : s.calls = #[]) :
    ∃ figure, figuring g d dpi = .ok figure ∧
      Store.Wrote path (.page (Page.ofFigure figure (some Format.svg.name))) s.store t.store := by
  obtain ⟨format, u, hformat, hrest⟩ := run_bind_eq_ok_iff.mp h
  rw [run_check, choose_svg, Prod.mk.injEq] at hformat
  obtain ⟨⟨⟩, rfl⟩ := hformat
  obtain ⟨_, v, hparent, hsvg⟩ := run_bind_eq_ok_iff.mp hrest
  obtain ⟨made, hmade, rfl⟩ := run_change_eq_ok_iff.mp hparent
  obtain ⟨figure, w, hfigure, hchange⟩ := run_bind_eq_ok_iff.mp hsvg
  obtain ⟨written, hwrite, rfl⟩ := run_change_eq_ok_iff.mp hchange
  rw [(keeps_figure g d dpi).store_eq hfigure] at hwrite
  have hfiguring := outcome_figure (s := { s with store := made }) hcalls g d dpi
  rw [hfigure] at hfiguring
  exact ⟨figure, hfiguring.symm,
    (Store.wrote_of_write hwrite).after (Store.changes_makeParent hmade)⟩

/-- **A drawing painted** is in its file, and nothing else is changed. -/
theorem wrote_of_run_paint (hfolder : given? a.outdir = some folder)
    (h : s.run (paint a g count i d) = (.ok image, t)) :
    ∃ contents, rendered a g d = .ok contents ∧
      Store.Wrote (outputPath a folder (d.name.getD "")) contents s.store t.store := by
  rw [paint, restart, run_bind_of_ok (run_modify _ s)] at h
  obtain ⟨picture, u, hpicture, hrest⟩ := run_bind_eq_ok_iff.mp h
  have hpicturing := outcome_picture (s := { s with calls := #[] }) rfl g d
  rw [hpicture] at hpicturing
  have hstore := (keeps_picture g d).store_eq hpicture
  simp only [hfolder] at hrest
  obtain ⟨_, v, hwriteTo, hlast⟩ := run_bind_eq_ok_iff.mp hrest
  rw [run_pure, Prod.mk.injEq] at hlast
  obtain ⟨-, rfl⟩ := hlast
  obtain ⟨_, w, hmake, hwriteTo⟩ := run_bind_eq_ok_iff.mp hwriteTo
  obtain ⟨made, hmade, rfl⟩ := run_change_eq_ok_iff.mp hmake
  rw [hstore] at hmade
  rw [run_bind_of_ok (run_print _ _)] at hwriteTo
  split at hwriteTo
  next hsvg =>
    rw [restart, run_bind_of_ok (run_modify _ _)] at hwriteTo
    split at hwriteTo
    next dpi hdpi =>
      obtain ⟨figure, hfiguring, hwrote⟩ := wrote_of_run_writeDrawing hwriteTo rfl
      refine ⟨_, bind_eq_ok_iff.mpr ⟨picture, hpicturing.symm, ?_⟩,
        hwrote.after (Store.changes_makeFolders hmade)⟩
      rw [if_pos hsvg, hdpi]
      exact map_eq_ok_iff.mpr ⟨figure, hfiguring, rfl⟩
    next =>
      rw [run_bind_of_ok (run_tell_eq _ _ _), run_throw] at hwriteTo
      cases hwriteTo
  next hpng =>
    obtain ⟨written, hwrite, rfl⟩ := run_change_eq_ok_iff.mp hwriteTo
    exact ⟨.image picture, bind_eq_ok_iff.mpr ⟨picture, hpicturing.symm, if_neg hpng⟩,
      (Store.wrote_of_write hwrite).after (Store.changes_makeFolders hmade)⟩

/-- **The file of a drawing**: the drawing with its number, the path and what is written there. -/
def IsOutputOf (a : Arguments) (folder : String) (generators : Nat → Generator)
    (x : Drawing × Nat) (file : String × Contents) : Prop :=
  file.1 = outputPath a folder (x.1.name.getD "") ∧ rendered a (generators x.2) x.1 = .ok file.2

/-- **Drawings painted one after another** are written one after another. -/
theorem written_of_steps {generators : Nat → Generator} {drawings : List (Drawing × Nat)}
    {done : List (Drawing × Image)} (hfolder : given? a.outdir = some folder)
    (h : Steps (fun x => (x.1, ·) <$> paint a (generators x.2) count x.2 x.1) drawings done s t) :
    ∃ files, List.Forall₂ (IsOutputOf a folder generators) drawings files ∧
      Store.Written files s.store t.store := by
  induction h with
  | nil first => exact ⟨[], .nil, .nil first.store⟩
  | @cons x _ _ _ first second last hrun _ ih =>
    obtain ⟨files, hfiles, hwritten⟩ := ih
    rw [run_map, Prod.mk.injEq] at hrun
    obtain ⟨houtcome, rfl⟩ := hrun
    obtain ⟨image, himage, -⟩ := map_eq_ok_iff.mp houtcome
    obtain ⟨contents, hrendered, hwrote⟩ := wrote_of_run_paint hfolder (Prod.ext himage rfl)
    exact ⟨(_, contents) :: files, .cons ⟨rfl, hrendered⟩ hfiles, .cons hwrote hwritten⟩

/-! ## The contact sheet -/

theorem keeps_titleOf (titles : Option (List String)) (d : Drawing) (i : Nat) :
    Keeps (titleOf titles d i) := by
  cases titles with
  | none => exact keeps_pure _
  | some titles =>
    rw [titleOf]
    split
    · exact keeps_pure _
    · exact keeps_throw _

theorem keeps_required {α : Type} (name : String) (setting : Setting α) :
    Keeps (required name setting) := by
  cases setting with
  | value a => exact keeps_pure a
  | _ => exact keeps_throw _

theorem keeps_drawingPanels (g : Generator) (titles : Option (List String)) (i : Nat)
    (drawings : List (Drawing × Option Image)) : Keeps (drawingPanels g titles i drawings) := by
  induction drawings generalizing i with
  | nil => exact keeps_pure _
  | cons x rest ih =>
    obtain ⟨d, image⟩ := x
    have hrest (image : Image) : Keeps (do
        let title ← titleOf titles d i
        let panels ← drawingPanels g titles (i + 1) rest
        return (⟨title, .picture image⟩ :: panels : List Panel)) :=
      (keeps_titleOf titles d i).bind fun _ => (ih (i + 1)).bind fun _ => keeps_pure _
    cases image with
    | none => exact (keeps_picture g d).bind hrest
    | some image => exact (keeps_pure image).bind hrest

theorem wrote_of_run_writePage {grid : Grid} {cell : Float} {panels : Work (List Panel)}
    (hpanels : Keeps panels) (h : s.run (writePage path grid cell panels) = (.ok (), t)) :
    ∃ contents, Store.Wrote path contents s.store t.store := by
  rw [writePage, beginPage, run_bind_of_ok (run_modify _ s)] at h
  obtain ⟨made, u, hmade, hend⟩ := run_bind_eq_ok_iff.mp h
  have hstore := hpanels.store_eq hmade
  obtain ⟨_, v, hparent, hrest⟩ := run_bind_eq_ok_iff.mp hend
  obtain ⟨made, hmade, rfl⟩ := run_change_eq_ok_iff.mp hparent
  obtain ⟨_, w, hchange, hlast⟩ := run_bind_eq_ok_iff.mp hrest
  obtain ⟨written, hwrite, rfl⟩ := run_change_eq_ok_iff.mp hchange
  cases hlast
  rw [hstore] at hmade
  exact ⟨_, (Store.wrote_of_write hwrite).after (Store.changes_makeParent hmade)⟩

theorem wrote_of_run_writeSheet {drawings : List Drawing} {columns : Int}
    {titles : Option (List String)} {images : Option (List Image)}
    (h : s.run (writeSheet g drawings path columns titles images) = (.ok (), t)) :
    ∃ contents, Store.Wrote path contents s.store t.store := by
  have hpanels := keeps_drawingPanels g titles 0 (pairUp drawings images)
  unfold writeSheet at h
  dsimp only at h
  split at h
  next => cases h
  next =>
    split at h
    next =>
      split at h
      next => cases h
      next => exact wrote_of_run_writePage hpanels h
    next => exact wrote_of_run_writePage hpanels h

/-- **A contact sheet that did not fail** changes no other file. -/
theorem changes_of_run_sheetStage {painted : List (Drawing × Image)}
    (h : s.run (sheetStage a painted) = (.ok 0, t)) :
    Store.Changes (fun p => ∃ sheet, given? a.grid = some sheet ∧ t.store.locate sheet = .ok p)
      s.store t.store := by
  unfold sheetStage at h
  split at h
  next sheet x rest hsheet =>
    rw [run_bind_of_ok (run_print _ s)] at h
    obtain ⟨columns, u, hcolumns, hrest⟩ := run_bind_eq_ok_iff.mp h
    obtain ⟨ended, v, hattempt, hlast⟩ := run_bind_eq_ok_iff.mp hrest
    have hstore := (keeps_required _ _).store_eq hcolumns
    rw [run_tryCatch] at hattempt
    rcases hwrite : u.run (writeSheet Generator.zero ((x :: rest).map Prod.fst) sheet columns none
      (some ((x :: rest).map Prod.snd))) with ⟨e | _, w⟩
    · rw [run_bind_of_error hwrite] at hattempt
      dsimp only at hattempt
      split at hattempt
      next =>
        cases hattempt
        cases hlast
      next => cases hattempt
    · rw [run_bind_of_ok hwrite] at hattempt
      cases hattempt
      cases hlast
      obtain ⟨contents, place, hlocate, -, -, hchanges⟩ := wrote_of_run_writeSheet hwrite
      rw [hstore] at hchanges
      refine hchanges.mono ?_
      rintro p rfl
      exact ⟨sheet, hsheet, hlocate⟩
  next =>
    cases h
    exact .refl _ _

/-! ## The whole run -/

variable {generators : Nat → Generator}

/-- What a run does before it reads the files of instructions. -/
def opening (a : Arguments) : Work Library := do
  modify fun s => { s with verbose := a.verbose }
  checkSeed a
  let library ← libraryOf a
  libraryStage a library
  return library

/-- A step that may be left out. -/
theorem ite_bind_eq {α : Type} {c : Bool} (first : Work Unit) (next : Unit → Work α) :
    (if c = true then first >>= next else next ()) =
      (if c = true then first else pure ()) >>= next := by
  split <;> rfl

/-- **A run stage by stage.** -/
theorem work_eq_stages (a : Arguments) (generators : Nat → Generator) :
    work a generators =
      opening a >>= fun library =>
      readDrawings library (policy a) a.files >>= fun reading =>
      (if a.describe then describe library reading.done else pure ()) >>= fun _ =>
      paintAll a generators reading.done.length 0 reading.done >>= fun painting =>
      sheetStage a painting.done >>= fun unwritten =>
      (if a.windows && !painting.done.isEmpty then openWindows (painting.done.map Prod.snd)
        else pure ()) >>= fun _ =>
      print (closingLine (reading.failures + painting.failures + unwritten)) >>= fun _ =>
      pure (status (reading.failures + painting.failures + unwritten)) := by
  simp only [work, opening, bind_assoc, pure_bind, ite_bind_eq]

/-- **A run that returns** has gone through its stages. -/
theorem exists_of_run_work {st : Nat} (h : s.run (work a generators) = (.ok st, t)) :
    ∃ library opened reading read described painting painted unwritten sheeted shown,
      s.run (opening a) = (.ok library, opened) ∧
      opened.run (readDrawings library (policy a) a.files) = (.ok reading, read) ∧
      read.run (if a.describe then describe library reading.done else pure ()) =
        (.ok (), described) ∧
      described.run (paintAll a generators reading.done.length 0 reading.done) =
        (.ok painting, painted) ∧
      painted.run (sheetStage a painting.done) = (.ok unwritten, sheeted) ∧
      sheeted.run (if a.windows && !painting.done.isEmpty then
        openWindows (painting.done.map Prod.snd) else pure ()) = (.ok (), shown) ∧
      st = status (reading.failures + painting.failures + unwritten) ∧
      t = { shown with output :=
        shown.output.push (closingLine (reading.failures + painting.failures + unwritten)) } := by
  rw [work_eq_stages] at h
  obtain ⟨library, opened, hopening, h⟩ := run_bind_eq_ok_iff.mp h
  obtain ⟨reading, read, hread, h⟩ := run_bind_eq_ok_iff.mp h
  obtain ⟨_, described, hdescribed, h⟩ := run_bind_eq_ok_iff.mp h
  obtain ⟨painting, painted, hpaint, h⟩ := run_bind_eq_ok_iff.mp h
  obtain ⟨unwritten, sheeted, hsheet, h⟩ := run_bind_eq_ok_iff.mp h
  obtain ⟨_, shown, hshown, h⟩ := run_bind_eq_ok_iff.mp h
  rw [run_bind_of_ok (run_print _ shown), run_pure, Prod.mk.injEq, Except.ok.injEq] at h
  exact ⟨library, opened, reading, read, described, painting, painted, unwritten, sheeted, shown,
    hopening, hread, hdescribed, hpaint, hsheet, hshown, h.1.symm, h.2.symm⟩

/-- **A run without failures**: each file is read, each drawing painted. -/
theorem exists_steps_of_run_work (h : s.run (work a generators) = (.ok 0, t)) :
    ∃ library opened drawings read described done painted sheeted,
      s.run (opening a) = (.ok library, opened) ∧
      Steps (readDrawing library (policy a)) a.files drawings opened read ∧
      described.store = read.store ∧
      Steps (fun x => (x.1, ·) <$> paint a (generators x.2) drawings.length x.2 x.1)
        drawings.zipIdx done described painted ∧
      painted.run (sheetStage a done) = (.ok 0, sheeted) ∧ t.store = sheeted.store := by
  obtain ⟨library, opened, reading, read, described, painting, painted, unwritten, sheeted, shown,
    hopening, hread, hdescribed, hpaint, hsheet, hshown, hstatus, rfl⟩ := exists_of_run_work h
  obtain ⟨⟨hreads, hpaints⟩, rfl⟩ :
      (reading.failures = 0 ∧ painting.failures = 0) ∧ unwritten = 0 := by
    rw [status] at hstatus
    split at hstatus <;> omega
  rw [readDrawings_eq_collect] at hread
  rw [paintAll_eq_collect] at hpaint
  have hdescribe := (keeps_ite (keeps_describe library reading.done)).store_eq hdescribed
  have hwindows : Keeps (openWindows (painting.done.map Prod.snd)) := fun _ => rfl
  have hstore : shown.store = sheeted.store := (keeps_ite hwindows).store_eq hshown
  exact ⟨library, opened, reading.done, read, described, painting.done, painted, sheeted, hopening,
    steps_of_run_collect hread hreads, hdescribe, steps_of_run_collect hpaint hpaints, hsheet,
    hstore⟩

/-- A run without a folder of templates and without a sheet of the library starts from the files as
they are. -/
theorem store_of_run_opening {library : Library} (htemplates : a.templates = .unset)
    (hsheet : given? a.librarySheet = none) (h : s.run (opening a) = (.ok library, t)) :
    t.store = s.store ∧ library = Library.builtin := by
  rw [opening, run_bind_of_ok (run_modify _ s)] at h
  obtain ⟨_, u, hseed, hrest⟩ := run_bind_eq_ok_iff.mp h
  have hkeeps : Keeps (checkSeed a) := by
    rw [checkSeed]
    split
    · split
      · exact keeps_throw _
      · exact keeps_pure _
    · exact keeps_pure _
  have hstore := hkeeps.store_eq hseed
  have hlibrary : libraryOf a = pure Library.builtin := by
    rw [libraryOf, htemplates]
    rfl
  have hstage (library : Library) : libraryStage a library = pure () := by
    unfold libraryStage
    rw [hsheet]
  rw [hlibrary, run_bind_of_ok (run_pure _ u), hstage, run_bind_of_ok (run_pure _ u), run_pure,
    Prod.mk.injEq, Except.ok.injEq] at hrest
  obtain ⟨rfl, rfl⟩ := hrest
  exact ⟨hstore, rfl⟩

/-- What is given is not empty. -/
theorem ne_empty_of_given? {setting : Setting String} {text : String}
    (h : given? setting = some text) : text ≠ "" := by
  unfold given? at h
  split at h
  next =>
    split at h
    next => cases h
    next hne =>
      cases h
      exact hne
  next => cases h

/-- The name of an output file is a name that a folder can hold. -/
theorem isName_output (a : Arguments) (path : String) :
    Path.IsName (Path.stem path ++ "." ++ ending a) := by
  have hending : '/' ∉ (ending a).toList ∧ 2 ≤ (ending a).toList.length := by
    rw [ending]
    split
    next format _ => cases format <;> decide
    next => decide
  have hslash := (Path.stem_subset path).1
  have hlength : 3 ≤ (Path.stem path ++ "." ++ ending a).toList.length := by
    simp only [String.toList_append, List.length_append]
    have : ".".toList.length = 1 := rfl
    omega
  refine ⟨?_, ?_, ?_, ?_⟩
  · simp only [String.toList_append, List.mem_append, not_or]
    exact ⟨⟨hslash, by decide⟩, hending.1⟩
  all_goals
    intro he
    rw [he] at hlength
    exact absurd hlength (by decide)

/-- **Where an output file lies** tells the stem it is named for. -/
theorem stem_eq_of_locate {store : Store} {place : Place} {path' : String} (hfolder : folder ≠ "")
    (h : store.locate (outputPath a folder (Path.stem path)) = .ok place)
    (h' : store.locate (outputPath a folder (Path.stem path')) = .ok place) :
    Path.stem path = Path.stem path' := by
  have hname := Store.getLast?_of_locate_join (isName_output a path) hfolder h
  have hname' := Store.getLast?_of_locate_join (isName_output a path') hfolder h'
  have heq := Option.some.inj (hname.symm.trans hname')
  rw [String.append_assoc, String.append_assoc] at heq
  exact String.append_left_inj _ |>.mp heq

/-- A file that is written lies at the output path of a file that was read. -/
theorem exists_path_of_mem {library : Library} {policy : Script.Policy} {store : Store}
    {paths : List String} {drawings : List Drawing} {files : List (String × Contents)} {start : Nat}
    {file : String × Contents}
    (hdrawings : List.Forall₂ (IsDrawingOf library policy store) paths drawings)
    (hfiles : List.Forall₂ (IsOutputOf a folder generators) (drawings.zipIdx start) files)
    (h : file ∈ files) : ∃ path ∈ paths, file.1 = outputPath a folder (Path.stem path) := by
  obtain ⟨x, hx, hfile, -⟩ := exists_of_mem_right hfiles h
  obtain ⟨path, hpath, hd⟩ := exists_of_mem_right hdrawings (List.fst_mem_of_mem_zipIdx hx)
  exact ⟨path, hpath, by rw [hfile, hd.name, Option.getD_some]⟩

/-- **What the painting leaves.**  Each drawing has its file at the path named for its stem, and the
file holds what was written for the last drawing of the stem. -/
theorem exists_of_written {library : Library} {policy : Script.Policy} {store first last : Store}
    {before after : List String} {drawings : List Drawing} {files : List (String × Contents)}
    (hne : folder ≠ "")
    (hdrawings : List.Forall₂ (IsDrawingOf library policy store) (before ++ path :: after) drawings)
    (hfiles : List.Forall₂ (IsOutputOf a folder generators) drawings.zipIdx files)
    (hwritten : Store.Written files first last) :
    ∃ d contents place, IsDrawingOf library policy store path d ∧
      rendered a (generators before.length) d = .ok contents ∧
      last.locate (outputPath a folder (Path.stem path)) = .ok place ∧
      Store.wantsFolder (outputPath a folder (Path.stem path)) = false ∧
      ((∀ path' ∈ after, Path.stem path' ≠ Path.stem path) →
        last.get? place = some (.file contents)) := by
  obtain ⟨ds, d, ds', rfl, hlength, hd, hds'⟩ := exists_split_of_forall₂ hdrawings
  rw [List.zipIdx_append, List.zipIdx_cons] at hfiles
  obtain ⟨fs, file, fs', rfl, -, ⟨hpath, hrendered⟩, hfs'⟩ := exists_split_of_forall₂ hfiles
  obtain ⟨place, hlocate, hslash, hlast⟩ := hwritten.exists_locate
  simp only [hpath, hd.name, Option.getD_some] at hlocate hslash
  refine ⟨d, file.2, place, hd, ?_, hlocate, hslash,
    fun hstems => hlast fun later hlater hsame => ?_⟩
  · simpa [hlength] using hrendered
  · obtain ⟨path', hpath', hlater⟩ := exists_path_of_mem hds' hfs' hlater
    rw [hlater] at hsame
    exact hstems path' hpath' (stem_eq_of_locate hne hsame hlocate)

/-- **What a run without failures leaves in its folder.**  Each file of instructions has been read
as a drawing, and each drawing has been written to the path that is named for the stem of its file.
Files of one stem have one such path: what was written there last stays.  No other file is
changed. -/
theorem outputs_of_run {store : Store} {session : Session} (hfolder : given? a.outdir = some folder)
    (hrun : run a generators store = (.ok 0, session)) :
    ∃ library opened, (Session.start store).run (opening a) = (.ok library, opened) ∧
      (a.templates = .unset → given? a.librarySheet = none →
        opened.store = store ∧ library = Library.builtin) ∧
      Store.Changes (fun p =>
          (∃ path ∈ a.files,
            session.store.locate (outputPath a folder (Path.stem path)) = .ok p) ∨
          ∃ sheet, given? a.grid = some sheet ∧ session.store.locate sheet = .ok p)
        opened.store session.store ∧
      (∀ path ∈ a.files, ∀ path' ∈ a.files,
        session.store.locate (outputPath a folder (Path.stem path)) =
            session.store.locate (outputPath a folder (Path.stem path')) ↔
          Path.stem path = Path.stem path') ∧
      ∀ before path after, a.files = before ++ path :: after →
        ∃ d contents, IsDrawingOf library (policy a) opened.store path d ∧
          rendered a (generators before.length) d = .ok contents ∧
          ((∀ path' ∈ after, Path.stem path' ≠ Path.stem path) →
            (∀ sheet, given? a.grid = some sheet → session.store.locate sheet ≠
              session.store.locate (outputPath a folder (Path.stem path))) →
            session.store.read (outputPath a folder (Path.stem path)) = .ok contents) := by
  have hne := ne_empty_of_given? hfolder
  obtain ⟨library, opened, drawings, read, described, done, painted, sheeted, hopening, hread,
    hdescribed, hpaint, hsheet, hstore⟩ := exists_steps_of_run_work hrun
  obtain ⟨hkept, hdrawings⟩ := isDrawingOf_of_steps hread
  obtain ⟨files, hfiles, hwritten⟩ := written_of_steps hfolder hpaint
  have hsheet := changes_of_run_sheetStage hsheet
  rw [← hstore] at hsheet
  refine ⟨library, opened, hopening, fun htemplates hnone => ?_, ?_,
    fun path hpath path' hpath' => ⟨fun hsame => ?_, fun hstem => by rw [hstem]⟩, ?_⟩
  · exact store_of_run_opening htemplates hnone hopening
  · rw [← hkept, ← hdescribed]
    refine (hwritten.changes.mono ?_).trans (hsheet.mono fun p => .inr)
    rintro p ⟨file, hfile, hlocate⟩
    obtain ⟨path, hpath, hfile⟩ := exists_path_of_mem hdrawings hfiles hfile
    exact .inl ⟨path, hpath, hsheet.locate (hfile ▸ hlocate)⟩
  · obtain ⟨before, after, heq⟩ := List.append_of_mem hpath
    rw [heq] at hdrawings
    obtain ⟨-, -, place, -, -, hlocate, -⟩ := exists_of_written hne hdrawings hfiles hwritten
    have hlocate := hsheet.locate hlocate
    exact stem_eq_of_locate hne hlocate (hsame ▸ hlocate)
  · intro before path after heq
    rw [heq] at hdrawings
    obtain ⟨d, contents, place, hd, hrendered, hlocate, hslash, hlast⟩ :=
      exists_of_written hne hdrawings hfiles hwritten
    have hlocate := hsheet.locate hlocate
    refine ⟨d, contents, hd, hrendered, fun hstems hsheets => ?_⟩
    refine Store.read_eq_ok hlocate ?_ hslash
    -- The contact sheet comes after the pictures and may only be written elsewhere.
    refine (hsheet.file place ?_ contents).mpr (hlast hstems)
    rintro ⟨sheet, hgiven, hplace⟩
    exact hsheets sheet hgiven (hplace.trans hlocate.symm)

/-- Two files of one stem. -/
def twinStore : Store :=
  ⟨["home"], [(["home"], .folder), (["home", "a"], .folder), (["home", "b"], .folder),
    (["home", "a", "x.txt"], .file (.text "width=8,height=4\n")),
    (["home", "b", "x.txt"], .file (.text "width=6,height=2\n"))]⟩

/-- **Of two files of one stem one picture is left**, that of the second, and the run has no
failures. -/
theorem outputs_of_run_twinStore :
    ∃ a session lost d image, Arguments.read ["a/x.txt", "b/x.txt", "--outdir", "o"] = .ok a ∧
      given? a.outdir = some "o" ∧
      run a (fun _ => Generator.zero) twinStore = (.ok 0, session) ∧
      outputPath a "o" (Path.stem "a/x.txt") = outputPath a "o" (Path.stem "b/x.txt") ∧
      IsDrawingOf Library.builtin .strict twinStore "a/x.txt" lost ∧ lost.canvas.width = 8 ∧
      IsDrawingOf Library.builtin .strict twinStore "b/x.txt" d ∧ d.canvas.width = 6 ∧
      picturing Generator.zero d = .ok image ∧
      session.store.read (outputPath a "o" (Path.stem "a/x.txt")) = .ok (.image image) := by
  have hne : ["a/x.txt", "b/x.txt"] ≠ [] := List.cons_ne_nil _ _
  have hwords : ∀ word ∈ ["o", "a/x.txt", "b/x.txt"], Arguments.IsWord word := by decide
  have hread := Arguments.read_plain hne hwords
  have hfolder : given? (plain ["a/x.txt", "b/x.txt"] "o").outdir = some "o" := rfl
  have hsame : Path.stem "a/x.txt" = Path.stem "b/x.txt" := by decide
  have hstatus : (run (plain ["a/x.txt", "b/x.txt"] "o") (fun _ => Generator.zero)
      twinStore).1.toOption = some 0 := by
    decide +kernel
  have hwidths : ["a/x.txt", "b/x.txt"].map (fun path =>
      ((twinStore.text path).toOption.bind fun text =>
        (Script.ofText .strict text).outcome.toOption).map fun script => script.canvas.width) =
      [some 8, some 6] := by
    decide +kernel
  generalize hsession : run (plain ["a/x.txt", "b/x.txt"] "o") (fun _ => Generator.zero) twinStore =
    ended at hstatus
  obtain ⟨status, session⟩ := ended
  obtain ⟨library, opened, -, hopened, -, -, houtputs⟩ :=
    outputs_of_run hfolder (hsession.trans (Prod.ext (toOption_eq_some_iff.mp hstatus) rfl))
  have hgrid : given? (plain ["a/x.txt", "b/x.txt"] "o").grid = none := rfl
  have htemplates : (plain ["a/x.txt", "b/x.txt"] "o").templates = .unset := rfl
  have hsheet : given? (plain ["a/x.txt", "b/x.txt"] "o").librarySheet = none := rfl
  have hpolicy : policy (plain ["a/x.txt", "b/x.txt"] "o") = .strict := rfl
  have hformat : (plain ["a/x.txt", "b/x.txt"] "o").format ≠ .value .svg := nofun
  obtain ⟨hstore, rfl⟩ := hopened htemplates hsheet
  obtain ⟨lost, -, hlost, -⟩ := houtputs [] _ _ rfl
  obtain ⟨d, contents, hd, hrendered, hlast⟩ := houtputs ["a/x.txt"] _ _ rfl
  rw [hstore, hpolicy] at hlost hd
  rw [List.map_cons, List.map_singleton, hlost.script_eq, hd.script_eq] at hwidths
  obtain ⟨hlostWidth, hwidth⟩ : lost.canvas.width = 8 ∧ d.canvas.width = 6 := by
    simpa [Drawing.canvas] using hwidths
  obtain ⟨image, himage, hcontents⟩ := bind_eq_ok_iff.mp hrendered
  rw [if_neg hformat, Except.ok.injEq] at hcontents
  have hlast := hlast (List.forall_mem_nil _) fun sheet h => nomatch hgrid.symm.trans h
  rw [← hcontents, ← hsame] at hlast
  exact ⟨_, session, lost, d, image, hread, hfolder,
    hsession.trans (Prod.ext (toOption_eq_some_iff.mp hstatus) rfl),
    congrArg (outputPath _ "o") hsame, hlost, hlostWidth, hd, hwidth, himage, hlast⟩

end CommandLine

end Stencil
