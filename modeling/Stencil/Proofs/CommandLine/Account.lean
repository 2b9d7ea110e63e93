import Stencil.Proofs.CommandLine.Filing
import Stencil.Proofs.Image.Layers

/-!
# Proofs/CommandLine/Account — every file is accounted for

    files ──reading──▸ drawings ──painting──▸ pictures ──▸ contact sheet, windows
      │                   │                                     │
    unread             unpainted                            unwritten

A run takes the files in two passes, and each pass may drop some.  What becomes of a file is its
`Fate`, told in a single pass (`follow`); the two passes come to the same (`follow_eq_trials`).  So
every file has one fate, each failure one report, and the pictures are those of the files that are
left, in their order (`account_of_run`).  A contact sheet that cannot be written stays open, and is
shown before the pictures.
-/

namespace Stencil.CommandLine

open Session
open Surface (Raster)

variable {a : Arguments} {library : Library} {generators : Nat → Generator} {s t : Session}
  {store : Store} {d : Drawing}

/-! ## Fates -/

/-- **What becomes of a file of instructions.** -/
inductive Fate where
  | unread (path : String) (e : Failure)
  | unpainted (path : String) (d : Drawing) (e : Failure)
  | shown (path : String) (d : Drawing) (image : Image)

namespace Fate

/-- The file. -/
def path : Fate → String
  | unread path _ => path
  | unpainted path _ _ => path
  | shown path _ _ => path

/-- The fate of a file that was read, by what came of painting its drawing. -/
def ofPainting (path : String) (d : Drawing) : Except Failure Image → Fate
  | .error e => unpainted path d e
  | .ok image => shown path d image

/-- The drawing with its picture, if it has one. -/
def picture? : Fate → Option (Drawing × Image)
  | shown _ d image => some (d, image)
  | _ => none

/-- The report of a file that cannot be read. -/
def unreadLine? : Fate → Option String
  | unread path e => some (readingLine path e)
  | _ => none

/-- The report of a drawing that cannot be painted. -/
def unpaintedLine? : Fate → Option String
  | unpainted _ d e => some (paintingLine (d, 0) e)
  | _ => none

end Fate

/-- **What becomes of each of some files**, one after another, and the store in the end.  A file is
read as it is in the store that the run was opened with, and its drawing is painted into the store
that those before it have left. -/
def follow (a : Arguments) (library : Library) (generators : Nat → Generator) (opened : Store) :
    (i : Nat) → List String → Store → List Fate × Store
  | _, [], store => ([], store)
  | i, path :: rest, store =>
    match loading library (policy a) opened path with
    | .error e =>
      let later := follow a library generators opened i rest store
      (.unread path e :: later.1, later.2)
    | .ok d =>
      let painting := (painted a (generators i) d).on store
      let later := follow a library generators opened (i + 1) rest painting.2
      (.ofPainting path d painting.1 :: later.1, later.2)

/-- The pictures of some files, in their order. -/
def picturesOf (fates : List Fate) : List (Drawing × Image) :=
  fates.filterMap Fate.picture?

section Follow

variable {opened : Store} {i : Nat} {files : List String} {fate : Fate}

/-- **Each file has one fate.** -/
theorem map_path_follow :
    (follow a library generators opened i files store).1.map Fate.path = files := by
  induction files generalizing i store with
  | nil => rfl
  | cons path rest ih =>
    rw [follow]
    cases loading library (policy a) opened path with
    | error e => exact congrArg (path :: ·) ih
    | ok d =>
      simp only [List.map_cons, ih]
      cases ((painted a (generators i) d).on store).1 <;> rfl

/-- **A fate is a report or a picture**, and not both. -/
theorem length_reports_add_length_pictures (fates : List Fate) :
    (fates.filterMap Fate.unreadLine?).length + (fates.filterMap Fate.unpaintedLine?).length +
      (picturesOf fates).length = fates.length := by
  induction fates with
  | nil => rfl
  | cons fate rest ih =>
    rw [picturesOf] at ih ⊢
    cases fate <;>
      simp only [List.filterMap_cons, Fate.unreadLine?, Fate.unpaintedLine?, Fate.picture?,
        List.length_cons] <;>
      omega

/-- **Each file without a picture has one report.** -/
theorem length_reports_follow {fates : List Fate}
    (h : fates = (follow a library generators opened i files store).1) :
    (fates.filterMap Fate.unreadLine?).length + (fates.filterMap Fate.unpaintedLine?).length =
      files.length - (picturesOf fates).length := by
  have hlength := length_reports_add_length_pictures fates
  have hfiles : (fates.map Fate.path).length = files.length := by rw [h, map_path_follow]
  rw [List.length_map] at hfiles
  omega

/-- **A picture in the account** is that of a file that was read, painted as its drawing. -/
theorem exists_of_shown_mem_follow {path : String} {image : Image}
    (h : .shown path d image ∈ (follow a library generators opened i files store).1) :
    loading library (policy a) opened path = .ok d ∧
      ∃ i before, ((painted a (generators i) d).on before).1 = .ok image := by
  induction files generalizing i store with
  | nil => cases h
  | cons first rest ih =>
    rw [follow] at h
    cases hloading : loading library (policy a) opened first with
    | error e =>
      rw [hloading] at h
      exact ih ((List.mem_cons.mp h).resolve_left nofun)
    | ok d' =>
      rw [hloading] at h
      rcases List.mem_cons.mp h with hfirst | hrest
      · cases hpainting : ((painted a (generators i) d').on store).1 with
        | error e =>
          rw [hpainting] at hfirst
          cases hfirst
        | ok image' =>
          rw [hpainting] at hfirst
          cases hfirst
          exact ⟨hloading, i, store, hpainting⟩
      · exact ih hrest

/-- Painting of a drawing with its number, as it is done in a run. -/
def paintedPair (a : Arguments) (generators : Nat → Generator) (x : Drawing × Nat) :
    Filing (Drawing × Image) :=
  (x.1, ·) <$> painted a (generators x.2) x.1

theorem on_paintedPair (x : Drawing × Nat) (store : Store) :
    (paintedPair a generators x).on store =
      (((painted a (generators x.2) x.1).on store).1.map (x.1, ·),
        ((painted a (generators x.2) x.1).on store).2) := by
  rw [paintedPair, map_eq_pure_bind, Filing.on_bind]
  rcases (painted a (generators x.2) x.1).on store with ⟨e | image, t⟩ <;> rfl

theorem does_paintedPair (count : Nat) (x : Drawing × Nat) (s : Session) :
    Does ((x.1, ·) <$> paint a (generators x.2) count x.2 x.1) (paintedPair a generators x) s := by
  rw [paintedPair, map_eq_pure_bind, map_eq_pure_bind]
  exact (does_paint s).bind fun image t _ =>
    Does.of_keeps rfl (keeps_pure _) (hushed_pure _)

/-- What the drawings of some files come to. -/
def readings (a : Arguments) (library : Library) (opened : Store) (files : List String) :
    List (String × Except Failure Drawing) :=
  files.map fun path => (path, loading library (policy a) opened path)

theorem trials_loaded (files : List String) (opened : Store) :
    trials (loaded library (policy a)) files opened =
      (readings a library opened files, opened) := by
  induction files with
  | nil => rfl
  | cons path rest ih =>
    rw [trials]
    simp only [on_loaded, ih]
    rfl

/-- The drawings of the files that can be read. -/
def loadedDrawings (a : Arguments) (library : Library) (opened : Store) (files : List String) :
    List Drawing :=
  (readings a library opened files).filterMap fun tried => tried.2.toOption

/-- **One pass comes to what two passes come to**: to read all files first, and then to paint all
drawings that there are. -/
theorem follow_eq_trials :
    (follow a library generators opened i files store).1.filterMap Fate.unreadLine? =
        (readings a library opened files).filterMap (trialLine? readingLine) ∧
      (follow a library generators opened i files store).1.filterMap Fate.unpaintedLine? =
        (trials (paintedPair a generators) ((loadedDrawings a library opened files).zipIdx i)
          store).1.filterMap (trialLine? paintingLine) ∧
      picturesOf (follow a library generators opened i files store).1 =
        ((trials (paintedPair a generators) ((loadedDrawings a library opened files).zipIdx i)
          store).1.filterMap fun tried => tried.2.toOption) ∧
      (follow a library generators opened i files store).2 =
        (trials (paintedPair a generators) ((loadedDrawings a library opened files).zipIdx i)
          store).2 := by
  induction files generalizing i store with
  | nil => exact ⟨rfl, rfl, rfl, rfl⟩
  | cons path rest ih =>
    rw [follow, loadedDrawings, readings, List.map_cons]
    cases hloading : loading library (policy a) opened path with
    | error e =>
      obtain ⟨hunread, hlater⟩ := @ih store i
      exact ⟨congrArg (readingLine path e :: ·) hunread, hlater⟩
    | ok d =>
      obtain ⟨hunread, hunpainted, hpictures, hstore⟩ :=
        @ih ((painted a (generators i) d).on store).2 (i + 1)
      simp only [List.filterMap_cons, Except.toOption, List.zipIdx_cons, trials, on_paintedPair]
      cases hpainting : ((painted a (generators i) d).on store).1 with
      | error e =>
        exact ⟨hunread, congrArg (paintingLine (d, 0) e :: ·) hunpainted, hpictures, hstore⟩
      | ok image => exact ⟨hunread, hunpainted, congrArg ((d, image) :: ·) hpictures, hstore⟩

end Follow

/-! ## Pictures -/

/-- **A picture is as large as the canvas.** -/
theorem size_of_picturing {g : Generator} {image : Image} (h : picturing g d = .ok image) :
    image.size = d.canvas.size := by
  obtain ⟨blank, hblank, h⟩ := bind_eq_ok_iff.mp h
  obtain ⟨_, -, rfl⟩ := map_eq_ok_iff.mp h
  obtain rfl := Raster.eq_blank_of_ofSize (mapError_eq_ok_iff.mp hblank)
  obtain ⟨-, -, u, color, hreplay, hsurface⟩ :=
    Drawing.paint_eq_replay Raster.lawful d g (Raster.blank d.canvas.size) #[]
  have himage : (d.paint g (Raster.blank d.canvas.size) #[]).2.surface.image = u.image := by
    rw [hsurface]
    rfl
  rw [himage, Raster.image_replay hreplay, Image.size_covered]
  rfl

theorem picturing_of_painted {g : Generator} {image : Image}
    (h : ((painted a g d).on store).1 = .ok image) : picturing g d = .ok image := by
  rw [painted, Filing.on_bind, Filing.on_lift] at h
  cases hpicturing : picturing g d with
  | error e =>
    rw [hpicturing] at h
    cases h
  | ok picture =>
    rw [hpicturing] at h
    simp only at h
    split at h
    next folder _ =>
      rw [Filing.on_bind] at h
      split at h
      next => exact h
      next => cases h
    next => exact h

/-! ## The stages of a run -/

theorem hushed_required {α : Type} (name : String) (setting : Setting α) :
    Hushed (required name setting) := by
  cases setting with
  | value x => exact hushed_pure x
  | _ => exact hushed_throw _

theorem hushed_checkSeed (a : Arguments) : Hushed (checkSeed a) := by
  rw [checkSeed]
  split
  · split
    · exact hushed_throw _
    · exact hushed_pure _
  · exact hushed_pure _

theorem hushed_libraryOf (a : Arguments) : Hushed (libraryOf a) := by
  rw [libraryOf]
  split
  · exact hushed_library none
  · exact (hushed_required _ _).bind fun folder => hushed_library (some folder)

theorem quiet_of_run_libraryStage (h : s.run (libraryStage a library) = (.ok (), t)) :
    Quiet s t := by
  unfold libraryStage at h
  split at h
  next path _ =>
    obtain ⟨_, u, hprint, h⟩ := run_bind_eq_ok_iff.mp h
    refine ((hushed_print _).quiet hprint).trans ?_
    unfold writeLibrarySheet at h
    dsimp only at h
    split at h
    next => cases h
    next => exact quiet_of_run_writePage (hushed_pure _) h
  next =>
    cases h
    exact Quiet.refl _

/-- **Before the files of instructions are read** nothing is reported, left open or shown. -/
theorem quiet_of_run_opening (h : s.run (opening a) = (.ok library, t)) : Quiet s t := by
  rw [opening, run_bind_of_ok (run_modify _ s)] at h
  obtain ⟨_, u, hseed, h⟩ := run_bind_eq_ok_iff.mp h
  obtain ⟨_, v, hlibrary, h⟩ := run_bind_eq_ok_iff.mp h
  obtain ⟨_, w, hstage, h⟩ := run_bind_eq_ok_iff.mp h
  cases h
  have hbegun : Quiet s { s with verbose := a.verbose } := ⟨rfl, rfl, rfl⟩
  exact hbegun.trans (((hushed_checkSeed a).quiet hseed).trans
    (((hushed_libraryOf a).quiet hlibrary).trans (quiet_of_run_libraryStage hstage)))

theorem hushed_describe (library : Library) (drawings : List Drawing) :
    Hushed (describe library drawings) :=
  (hushed_print _).bind fun _ => (hushed_print _).bind fun _ =>
    (hushed_forIn (fun _ _ => (hushed_print _).bind fun _ => (hushed_print _).bind fun _ =>
      hushed_pure _) drawings).bind fun _ => hushed_pure _

/-! ## The contact sheet -/

/-- The panel of a drawing that has its picture. -/
def panelOf (x : Drawing × Image) : Panel :=
  ⟨x.1.name.getD "", .picture x.2⟩

/-- The contact sheet of some pictures. -/
def sheetOf (pictures : List (Drawing × Image)) (columns : Int) (format : Format) : Page :=
  Page.ofGrid (Grid.make pictures.length columns) drawingCell format.name (pictures.map panelOf)

/-- A drawing with a name that is not empty. -/
def IsTitled (d : Drawing) : Prop :=
  ∃ name, d.name = some name ∧ name ≠ ""

/-- **Pictures that are there** go into the panels as they are, under the names of their
drawings. -/
theorem run_drawingPanels {pictures : List (Drawing × Image)} (h : ∀ x ∈ pictures, IsTitled x.1)
    (g : Generator) (i : Nat) (s : Session) :
    s.run (drawingPanels g none i (pictures.map fun x => (x.1, some x.2))) =
      (.ok (pictures.map panelOf), s) := by
  induction pictures generalizing i with
  | nil => rfl
  | cons x rest ih =>
    obtain ⟨⟨name, hname, hne⟩, hrest⟩ := List.forall_mem_cons.mp h
    have htitle : s.run (titleOf none x.1 i) = (.ok (x.1.name.getD ""), s) := by
      rw [titleOf, run_pure, Drawing.title, hname]
      simp [hne]
    rw [List.map_cons, drawingPanels, run_bind_of_ok (run_pure x.2 s), run_bind_of_ok htitle,
      run_bind_of_ok (ih hrest (i + 1)), run_pure]
    rfl

theorem pairUp_unzip (pictures : List (Drawing × Image)) :
    pairUp (pictures.map Prod.fst) (some (pictures.map Prod.snd)) =
      pictures.map fun x => (x.1, some x.2) := by
  rw [pairUp]
  induction pictures with
  | nil => rfl
  | cons x rest ih => exact congrArg ((x.1, some x.2) :: ·) ih

/-- **A contact sheet of pictures** is a page that is begun, and then to be written. -/
theorem run_writeSheet {pictures : List (Drawing × Image)} (hne : pictures ≠ [])
    (h : ∀ x ∈ pictures, IsTitled x.1) (g : Generator) (path : String) (columns : Int)
    (s : Session) :
    s.run (writeSheet g (pictures.map Prod.fst) path columns none (some (pictures.map Prod.snd))) =
      (s.begun (sheetOf pictures columns (Format.ofPath path)).inches).run
        (endPage path (sheetOf pictures columns (Format.ofPath path))) := by
  have hpanels := run_drawingPanels h g 0
    (s.begun (sheetOf pictures columns (Format.ofPath path)).inches)
  rw [← pairUp_unzip] at hpanels
  unfold writeSheet
  dsimp only
  rw [if_neg (by simpa using hne), if_neg (by simp), run_writePage, List.length_map]
  exact run_bind_of_ok hpanels

/-- The report of a contact sheet that cannot be written. -/
def sheetLine (e : Failure) : String :=
  "[error] contact sheet: " ++ e.message

/-- A line that begins as a report is one. -/
theorem isReport_append {line : String} (h : isReport line = true) (rest : String) :
    isReport (line ++ rest) = true := by
  rw [isReport, List.isPrefixOf_iff_prefix] at h ⊢
  rw [String.toList_append]
  exact h.trans (List.prefix_append _ _)

theorem isReport_readingLine (path : String) (e : Failure) :
    isReport (readingLine path e) = true :=
  isReport_append (isReport_append (isReport_append (by decide) path) ": ") e.message

theorem isReport_paintingLine (x : Drawing × Nat) (e : Failure) :
    isReport (paintingLine x e) = true :=
  isReport_append (isReport_append (isReport_append (by decide) _) ": ") e.message

theorem isReport_sheetLine (e : Failure) : isReport (sheetLine e) = true :=
  isReport_append (by decide) e.message

theorem run_sheetStage_of_none {pictures : List (Drawing × Image)}
    (h : given? a.grid = none ∨ pictures = []) (s : Session) :
    s.run (sheetStage a pictures) = (.ok 0, s) := by
  unfold sheetStage
  split
  next path x rest hpath =>
    rcases h with h | h
    · exact absurd (hpath.symm.trans h) (Option.some_ne_none path)
    · exact absurd h (List.cons_ne_nil x rest)
  next => rfl

theorem run_required_eq_ok {α : Type} {name : String} {setting : Setting α} {x : α}
    (h : s.run (required name setting) = (.ok x, t)) : setting = .value x ∧ t = s := by
  cases setting with
  | value y =>
    cases h
    exact ⟨rfl, rfl⟩
  | unset => cases h
  | withheld => cases h

/-- **What the contact sheet comes to**, when there is something to show: it is in its file; or it
is reported, and is left open. -/
theorem exists_of_run_sheetStage {pictures : List (Drawing × Image)} {path : String}
    {unwritten : Nat} (hpath : given? a.grid = some path) (hne : pictures ≠ [])
    (htitled : ∀ x ∈ pictures, IsTitled x.1)
    (h : s.run (sheetStage a pictures) = (.ok unwritten, t)) :
    ∃ columns, a.columns = .value columns ∧
      ((unwritten = 0 ∧ Quiet s t ∧
          t.store.read path = .ok (.page (sheetOf pictures columns (Format.ofPath path)))) ∨
        ∃ e, unwritten = 1 ∧ e.isOfFile = true ∧ t.reports = s.reports ++ [sheetLine e] ∧
          t.openPages = s.openPages.push (sheetOf pictures columns (Format.ofPath path)).inches ∧
          t.windows = s.windows) := by
  obtain ⟨x, rest, rfl⟩ := List.exists_cons_of_ne_nil hne
  unfold sheetStage at h
  simp only [hpath] at h
  obtain ⟨_, u, hprint, hrest⟩ := run_bind_eq_ok_iff.mp h
  obtain ⟨columns, v, hcolumns, hsheet⟩ := run_bind_eq_ok_iff.mp hrest
  obtain ⟨ended, w, hattempt, hlast⟩ := run_bind_eq_ok_iff.mp hsheet
  have hbegun := (hushed_print _).quiet hprint
  obtain ⟨hvalue, rfl⟩ := run_required_eq_ok hcolumns
  refine ⟨columns, hvalue, ?_⟩
  rw [run_tryCatch] at hattempt
  obtain ⟨made, store, -, hwrite, hpage⟩ | ⟨e, store, hpage⟩ :=
    run_endPage path (sheetOf (x :: rest) columns (Format.ofPath path))
      (v.begun (sheetOf (x :: rest) columns (Format.ofPath path)).inches)
  · rw [← run_writeSheet hne htitled Generator.zero path columns] at hpage
    rw [run_bind_of_ok hpage] at hattempt
    cases hattempt
    cases hlast
    obtain ⟨place, hlocate, hget, hslash, -⟩ := Store.wrote_of_write hwrite
    exact .inl ⟨rfl, hbegun.trans ⟨rfl, Array.pop_push, rfl⟩,
      Store.read_eq_ok hlocate hget hslash⟩
  · rw [← run_writeSheet hne htitled Generator.zero path columns] at hpage
    rw [run_bind_of_error hpage] at hattempt
    dsimp only at hattempt
    split at hattempt
    next he =>
      cases hattempt
      cases hlast
      refine .inr ⟨.file e, rfl, he, ?_, congrArg (Array.push · _) hbegun.openPages,
        hbegun.windows⟩
      rw [← hbegun.reports]
      exact reports_push (isReport_sheetLine (.file e))
    next => cases hattempt

/-! ## The whole run -/

/-- The size of a canvas in inches, a hundred pixels an inch. -/
def canvasInches (d : Drawing) : Float × Float :=
  (Float.ofNat d.canvas.width / 100, Float.ofNat d.canvas.height / 100)

/-- The size of the contact sheet of so many pictures, in inches. -/
def sheetInches (count : Nat) (columns : Int) : Float × Float :=
  (drawingCell * Float.ofNat (Grid.make count columns).columns,
    drawingCell * Float.ofNat (Grid.make count columns).rows)

/-- **What the account says of the pictures**: each is that of its own file. -/
theorem exists_of_shown {opened : Store} {files : List String} {path : String} {image : Image}
    (h : .shown path d image ∈ (follow a library generators opened 0 files store).1) :
    loading library (policy a) opened path = .ok d ∧ d.name = some (Path.stem path) ∧
      Path.stem path ≠ "" ∧ ∃ i, picturing (generators i) d = .ok image := by
  obtain ⟨hloading, i, before, hpainted⟩ := exists_of_shown_mem_follow h
  obtain ⟨hname, hne⟩ := exists_name_of_loading hloading
  exact ⟨hloading, hname, hne, i, picturing_of_painted hpainted⟩

theorem exists_shown_of_mem {fates : List Fate} {x : Drawing × Image} (h : x ∈ picturesOf fates) :
    ∃ path, .shown path x.1 x.2 ∈ fates := by
  obtain ⟨fate, hfate, hx⟩ := List.mem_filterMap.mp h
  cases fate with
  | shown path d image =>
    cases hx
    exact ⟨path, hfate⟩
  | unread => cases hx
  | unpainted => cases hx

/-- **The two passes of a run** end with the pictures of the files that are left, after a report for
each of the others. -/
theorem exists_fates_of_run {st : Nat} {session : Session}
    (hrun : run a generators store = (.ok st, session)) :
    ∃ library opened fates unwritten, ∃ painted sheeted shown : Session,
      (Session.start store).run (opening a) = (.ok library, opened) ∧
      fates = (follow a library generators opened.store 0 a.files opened.store).1 ∧
      painted.store = (follow a library generators opened.store 0 a.files opened.store).2 ∧
      painted.reports =
        fates.filterMap Fate.unreadLine? ++ fates.filterMap Fate.unpaintedLine? ∧
      painted.openPages = #[] ∧ painted.windows = #[] ∧
      painted.run (sheetStage a (picturesOf fates)) = (.ok unwritten, sheeted) ∧
      sheeted.run (if a.windows && !(picturesOf fates).isEmpty then
        openWindows ((picturesOf fates).map Prod.snd) else pure ()) = (.ok (), shown) ∧
      st = status (a.files.length - (picturesOf fates).length + unwritten) ∧
      session = { shown with output := shown.output.push (closingLine
        (a.files.length - (picturesOf fates).length + unwritten)) } := by
  obtain ⟨library, opened, reading, read, described, painting, painted, unwritten, sheeted, shown,
    hopening, hread, hdescribed, hpaint, hsheet, hshown, hstatus, hsession⟩ :=
    exists_of_run_work hrun
  generalize hfates : (follow a library generators opened.store 0 a.files opened.store).1 = fates
  obtain ⟨hunread, hunpainted, hpictures, hfollowed⟩ :=
    @follow_eq_trials a library generators opened.store opened.store 0 a.files
  rw [hfates] at hunread hunpainted hpictures
  -- The first pass.
  rw [readDrawings_eq_collect] at hread
  obtain ⟨hdone, hfailures, hkept, hreports, hpages, hwindows⟩ :=
    tally_of_run_collect (fun _ _ s => does_readDrawing s) isReport_readingLine hread
  rw [trials_loaded] at hdone hfailures hkept hreports
  -- The second pass.
  have hdescribe := (hushed_ite (hushed_describe library reading.done)).quiet hdescribed
  have hdescribedStore : described.store = opened.store :=
    ((keeps_ite (keeps_describe library reading.done)).store_eq hdescribed).trans hkept
  rw [paintAll_eq_collect] at hpaint
  obtain ⟨hdone', hfailures', hstore, hreports', hpages', hwindows'⟩ :=
    tally_of_run_collect (fun x _ s => does_paintedPair _ x s) isReport_paintingLine hpaint
  have hdrawings : reading.done = loadedDrawings a library opened.store a.files := hdone
  rw [hdrawings, hdescribedStore, ← hpictures] at hdone'
  rw [hdrawings, hdescribedStore, ← hunpainted] at hfailures' hreports'
  rw [hdrawings, hdescribedStore, ← hfollowed] at hstore
  rw [← hunread] at hfailures hreports
  have hopened := quiet_of_run_opening hopening
  have htotal : reading.failures + painting.failures =
      a.files.length - (picturesOf fates).length := by
    rw [hfailures, hfailures', length_reports_follow hfates.symm]
  rw [hdone'] at hsheet hshown
  rw [htotal] at hstatus hsession
  refine ⟨library, opened, fates, unwritten, painted, sheeted, shown, hopening, hfates.symm,
    hstore, ?_, ?_, ?_, hsheet, hshown, hstatus, hsession⟩
  · rw [hreports', hdescribe.reports, hreports, hopened.reports]
    rfl
  · rw [hpages', hdescribe.openPages, hpages, hopened.openPages]
    rfl
  · rw [hwindows', hdescribe.windows, hwindows, hopened.windows]
    rfl

/-- **Windows** are opened for the pages that are still open, and then for the pictures. -/
theorem eq_of_run_windows {pictures : List (Drawing × Image)}
    (h : s.run (if a.windows && !pictures.isEmpty then openWindows (pictures.map Prod.snd)
      else pure ()) = (.ok (), t)) :
    t = { s with windows := s.windows ++
      if a.windows = true ∧ pictures ≠ [] then
        s.openPages ++ (pictures.map fun x => windowSize x.2).toArray
      else #[] } := by
  have hcondition : (a.windows && !pictures.isEmpty) = true ↔ a.windows = true ∧ pictures ≠ [] := by
    simp
  split at h
  next hyes =>
    rw [if_pos (hcondition.mp hyes)]
    cases h
    simp [Array.append_assoc, Function.comp_def]
  next hno =>
    rw [if_neg (hcondition.not.mp hno)]
    cases h
    simp

/-- **What is left of the pictures**: a contact sheet in its file or a report of it, and windows. -/
theorem exists_of_run_showing {pictures : List (Drawing × Image)} {count : Nat}
    {painted sheeted shown : Session} (hpages : painted.openPages = #[])
    (hwindows : painted.windows = #[]) (htitled : ∀ x ∈ pictures, IsTitled x.1)
    (hsheet : painted.run (sheetStage a pictures) = (.ok count, sheeted))
    (hshown : sheeted.run (if a.windows && !pictures.isEmpty then
      openWindows (pictures.map Prod.snd) else pure ()) = (.ok (), shown)) :
    ∃ unwritten left, count = unwritten.toList.length ∧
      shown.reports = painted.reports ++ (unwritten.map sheetLine).toList ∧
      (∀ e, unwritten = some e → e.isOfFile = true ∧ given? a.grid ≠ none ∧ pictures ≠ []) ∧
      (∀ path, given? a.grid = some path → pictures ≠ [] → unwritten = none →
        ∃ page unused, shown.store.read path = .ok (.page page) ∧
          page.panels = pictures.map panelOf ++ List.replicate unused Panel.unused) ∧
      shown.windows.toList =
        (if a.windows = true ∧ pictures ≠ [] then left ++ pictures.map fun x => windowSize x.2
        else []) ∧
      (unwritten = none → left = []) ∧
      (unwritten ≠ none → ∃ columns, a.columns = .value columns ∧
        left = [sheetInches pictures.length columns]) := by
  obtain rfl := eq_of_run_windows hshown
  -- The windows are those of the pages that are open after the contact sheet.
  have hall (h : sheeted.windows = #[]) : (sheeted.windows ++
      if a.windows = true ∧ pictures ≠ [] then
        sheeted.openPages ++ (pictures.map fun x => windowSize x.2).toArray
      else #[]).toList =
      if a.windows = true ∧ pictures ≠ [] then
        sheeted.openPages.toList ++ pictures.map fun x => windowSize x.2
      else [] := by
    rw [h]
    split <;> simp
  by_cases hnone : given? a.grid = none ∨ pictures = []
  · rw [run_sheetStage_of_none hnone, Prod.mk.injEq, Except.ok.injEq] at hsheet
    obtain ⟨rfl, rfl⟩ := hsheet
    refine ⟨none, [], rfl, (List.append_nil _).symm, nofun, fun path hpath hne _ => ?_, ?_,
      fun _ => rfl, fun h => absurd rfl h⟩
    · rcases hnone with hgrid | hempty
      · cases hgrid.symm.trans hpath
      · exact absurd hempty hne
    · rw [hall hwindows, hpages]
  · rw [not_or] at hnone
    obtain ⟨hgrid, hne⟩ := hnone
    obtain ⟨path, hpath⟩ := Option.ne_none_iff_exists'.mp hgrid
    obtain ⟨columns, hcolumns, ⟨rfl, hquiet, hread⟩ | ⟨e, rfl, he, hreports, hleft, hopen⟩⟩ :=
      exists_of_run_sheetStage hpath hne htitled hsheet
    · refine ⟨none, [], rfl, hquiet.reports.trans (List.append_nil _).symm, nofun,
        fun path' hpath' _ _ => ?_, ?_, fun _ => rfl, fun h => absurd rfl h⟩
      · obtain rfl := Option.some.inj (hpath.symm.trans hpath')
        exact ⟨_, _, hread, rfl⟩
      · rw [hall (hquiet.windows.trans hwindows), hquiet.openPages, hpages]
    · refine ⟨some e, [sheetInches pictures.length columns], rfl, hreports, ?_, nofun, ?_, nofun,
        fun _ => ⟨columns, hcolumns, rfl⟩⟩
      · rintro _ ⟨⟩
        exact ⟨he, hgrid, hne⟩
      · rw [hall (hopen.trans hwindows), hleft, hpages]
        rfl

/-- **A run accounts for every file.**  Each file has one fate, in the order of the files.  There is
one report for each file that cannot be read and one for each drawing that cannot be painted, and
the failures counted are these and the contact sheet, if that cannot be written.  The contact sheet
has the pictures of the other files in its first cells, in order and under their names, and nothing
in the other ones.  There is a window for each of these pictures, as large as its canvas, after one
for the contact sheet if that could not be written. -/
theorem account_of_run {st : Nat} {session : Session}
    (hrun : run a generators store = (.ok st, session)) :
    ∃ library opened fates unwritten failures left,
      (Session.start store).run (opening a) = (.ok library, opened) ∧
      fates = (follow a library generators opened.store 0 a.files opened.store).1 ∧
      fates.map Fate.path = a.files ∧
      (∀ path d image, .shown path d image ∈ fates →
        loading library (policy a) opened.store path = .ok d ∧ d.name = some (Path.stem path) ∧
          ∃ i, picturing (generators i) d = .ok image) ∧
      (fates.filterMap Fate.unreadLine?).length + (fates.filterMap Fate.unpaintedLine?).length =
        a.files.length - (picturesOf fates).length ∧
      session.reports = fates.filterMap Fate.unreadLine? ++ fates.filterMap Fate.unpaintedLine? ++
        (unwritten.map sheetLine).toList ∧
      failures = a.files.length - (picturesOf fates).length + unwritten.toList.length ∧
      session.output.back? = some (closingLine failures) ∧ st = status failures ∧
      (st = 1 ↔ 0 < failures) ∧
      (∀ e, unwritten = some e →
        e.isOfFile = true ∧ given? a.grid ≠ none ∧ picturesOf fates ≠ []) ∧
      (∀ path, given? a.grid = some path → picturesOf fates ≠ [] → unwritten = none →
        ∃ page unused, session.store.read path = .ok (.page page) ∧
          page.panels =
            (picturesOf fates).map panelOf ++ List.replicate unused Panel.unused) ∧
      session.windows.toList =
        (if a.windows = true ∧ picturesOf fates ≠ [] then
          left ++ (picturesOf fates).map fun x => canvasInches x.1
        else []) ∧
      (unwritten = none → left = []) ∧
      (unwritten ≠ none → ∃ columns, a.columns = .value columns ∧
        left = [sheetInches (picturesOf fates).length columns]) := by
  obtain ⟨library, opened, fates, count, painted, sheeted, shown, hopening, hfates, -, hreports,
    hpages, hwindows, hsheet, hshown, rfl, rfl⟩ := exists_fates_of_run hrun
  have hpaths : fates.map Fate.path = a.files := by rw [hfates, map_path_follow]
  have hpictures : ∀ path d image, .shown path d image ∈ fates → _ := fun path d image h =>
    exists_of_shown (hfates ▸ h)
  have htitled : ∀ x ∈ picturesOf fates, IsTitled x.1 := fun x hx => by
    obtain ⟨path, hmem⟩ := exists_shown_of_mem hx
    obtain ⟨-, hname, hne, -⟩ := hpictures _ _ _ hmem
    exact ⟨_, hname, hne⟩
  obtain ⟨unwritten, left, rfl, hlines, hfailed, hwritten, hopened, hnone, hsome⟩ :=
    exists_of_run_showing hpages hwindows htitled hsheet hshown
  have hsizes : (picturesOf fates).map (fun x => windowSize x.2) =
      (picturesOf fates).map fun x => canvasInches x.1 := by
    refine List.map_congr_left fun x hx => ?_
    obtain ⟨path, hmem⟩ := exists_shown_of_mem hx
    obtain ⟨-, -, -, i, hpicturing⟩ := hpictures _ _ _ hmem
    rw [windowSize, size_of_picturing hpicturing]
    rfl
  rw [hsizes] at hopened
  refine ⟨library, opened, fates, unwritten, _, left, hopening, hfates, hpaths,
    fun path d image h => ?_, length_reports_follow hfates, ?_, rfl, by simp, rfl, ?_, hfailed,
    hwritten, hopened, hnone, hsome⟩
  · obtain ⟨hloading, hname, -, hpicturing⟩ := hpictures path d image h
    exact ⟨hloading, hname, hpicturing⟩
  · rw [← hreports]
    exact hlines
  · rw [status]
    split <;> omega

/-- A drawing, and no folder for a contact sheet. -/
def lonelyStore : Store :=
  ⟨["home"], [(["home"], .folder),
    (["home", "s.txt"], .file (.text "width=20,height=12,red=255,green=255,blue=255\n"))]⟩

/-- The arguments that ask for a contact sheet in a folder, and for windows. -/
def windowed : Arguments :=
  { files := ["s.txt"], grid := .value "g/", windows := true }

/-- **A contact sheet that cannot be written has a window** before that of the drawing. -/
theorem account_of_run_windowed :
    ∃ session d, Arguments.read ["s.txt", "--grid", "g/", "--show"] = .ok windowed ∧
      run windowed (fun _ => Generator.zero) lonelyStore = (.ok 1, session) ∧
      loading Library.builtin .strict lonelyStore "s.txt" = .ok d ∧
      session.windows.toList = [sheetInches 1 4, canvasInches d] := by
  have hread : Arguments.read ["s.txt", "--grid", "g/", "--show"] = .ok windowed := by
    decide +kernel
  have hstatus : (run windowed (fun _ => Generator.zero) lonelyStore).1.toOption = some 1 := by
    decide +kernel
  generalize hsession : run windowed (fun _ => Generator.zero) lonelyStore = ended at hstatus
  obtain ⟨status, session⟩ := ended
  obtain ⟨library, opened, fates, unwritten, failures, left, hopening, hfates, hpaths, hshown, -, -,
    hfailures, -, -, hfailed, -, -, hwindows, -, hleft⟩ :=
    account_of_run (hsession.trans (Prod.ext (toOption_eq_some_iff.mp hstatus) rfl))
  obtain ⟨hstart, rfl⟩ := store_of_run_opening rfl rfl hopening
  have hstore : opened.store = lonelyStore := hstart
  rw [hstore] at hfates hshown
  have hpictures : (picturesOf (follow windowed Library.builtin (fun _ => Generator.zero)
      lonelyStore 0 windowed.files lonelyStore).1).length = 1 := by
    decide +kernel
  rw [← hfates] at hpictures
  obtain ⟨x, hx⟩ := List.length_eq_one_iff.mp hpictures
  obtain ⟨path, hmem⟩ := exists_shown_of_mem (hx ▸ List.mem_singleton_self x)
  have hpath : path ∈ windowed.files := by
    rw [← hpaths]
    exact List.mem_map_of_mem hmem
  obtain rfl : path = "s.txt" := List.mem_singleton.mp hpath
  obtain ⟨hloading, -⟩ := hshown _ _ _ hmem
  -- One file has its picture, so that the failure is that of the contact sheet.
  have hunwritten : unwritten ≠ none := by
    rintro rfl
    rw [hx] at hfailures
    have hnone : failures = 0 := hfailures
    exact absurd (hfailed.mp rfl) (Nat.not_lt.mpr hnone.le)
  obtain ⟨columns, hcolumns, rfl⟩ := hleft hunwritten
  cases hcolumns
  rw [hx, if_pos ⟨rfl, List.cons_ne_nil _ _⟩] at hwindows
  exact ⟨session, x.1, hread, Prod.ext (toOption_eq_some_iff.mp hstatus) rfl, hloading, hwindows⟩

end Stencil.CommandLine
