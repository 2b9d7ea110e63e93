import Stencil.Proofs.CommandLine.Account
import Stencil.Proofs.Store.Fresh

/-!
# Proofs/CommandLine/Separate — files of instructions on their own

    all files ────one run────▸ pictures in a new folder, reports
                                  ‖                         ‖
    each file ──its own run──▸ pictures in a new folder, reports

A drawing without random places comes to the same whatever has been painted before it into the same
new folder: its file is there afterwards, under a name of its own, or it is reported
(`exists_on_painted_of_ready`).  If the folder cannot be made, every drawing is reported
(`exists_on_painted_of_shut`).  So what a run leaves of a file of instructions depends on that file
alone (`holdsIn_of_run`), and one run over several files leaves what the runs over each of them
leave (`holdsIn_iff_separate`).
-/

namespace Stencil

/-- **A file below a folder**, and what it holds. -/
def Store.HoldsIn (s : Store) (folder : String) (names : List String) (contents : Contents) :
    Prop :=
  ∃ place, s.locate folder = .ok place ∧ s.get? place = some .folder ∧
    s.get? (place ++ names) = some (.file contents)

namespace CommandLine

open Session

variable {a : Arguments} {library : Library} {generators : Nat → Generator} {g : Generator}
  {store made s : Store} {folder path : String} {place : Place} {d : Drawing} {image : Image}
  {done : List (String × Contents)}

/-! ## Drawings without random places -/

/-- None of the stamps has a random place. -/
def IsFixed (d : Drawing) : Prop :=
  ∀ s ∈ d.script.stamps, s.hasRandomAxis = false

theorem picturing_of_fixed (h : IsFixed d) (g g' : Generator) : picturing g d = picturing g' d := by
  simp only [picturing, Drawing.paint_of_fixed h g g']

theorem figuring_of_fixed (h : IsFixed d) (g g' : Generator) (dpi : Int) :
    figuring g d dpi = figuring g' d dpi := by
  simp only [figuring, Drawing.paint_of_fixed h g g']

theorem rendered_of_fixed (h : IsFixed d) (g g' : Generator) :
    rendered a g d = rendered a g' d := by
  simp only [rendered, picturing_of_fixed h g g', figuring_of_fixed h g g']

/-! ## A file in the folder -/

/-- The name of the file that a drawing is written to, when it was read from a path. -/
def outputName (a : Arguments) (path : String) : String :=
  Path.stem path ++ "." ++ ending a

theorem outputName_inj {path' : String} :
    outputName a path = outputName a path' ↔ Path.stem path = Path.stem path' := by
  rw [outputName, outputName, String.append_assoc, String.append_assoc, String.append_left_inj]

/-- **A drawing that was read from a path** that holds no null character. -/
structure IsRead (path : String) (d : Drawing) : Prop where
  name : d.name = some (Path.stem path)
  null : Char.ofNat 0 ∉ path.toList

theorem isRead_of_loading {opened : Store} (h : loading library (policy a) opened path = .ok d) :
    IsRead path d := by
  obtain ⟨⟨text, htext, -⟩, -, hname⟩ := isDrawingOf_of_loading h
  obtain ⟨contents, hread, -⟩ := bind_eq_ok_iff.mp htext
  exact ⟨hname, (Store.IsPath.of_read (mapError_eq_ok_iff.mp hread)).null⟩

theorem IsRead.outputPath_eq (h : IsRead path d) (a : Arguments) (folder : String) :
    outputPath a folder (d.name.getD "") = Path.join folder (outputName a path) := by
  rw [h.name]
  rfl

theorem IsRead.null_outputName (h : IsRead path d) (a : Arguments) :
    Char.ofNat 0 ∉ (outputName a path).toList := by
  have hending : Char.ofNat 0 ∉ (ending a).toList := by
    rw [ending]
    split
    next format _ => cases format <;> decide
    next => decide
  simp only [outputName, String.toList_append, List.mem_append, not_or]
  exact ⟨⟨fun h' => h.null ((Path.stem_subset path).2 h'), by decide⟩, hending⟩

/-- **What becomes of a drawing's file** in a folder that has been made for it. -/
def filing (a : Arguments) (made : Store) (folder : String) (d : Drawing) :
    Except Failure Contents :=
  (rendered a Generator.zero d).bind fun contents =>
    ((made.write (outputPath a folder (d.name.getD "")) contents).mapError .file).map
      fun _ => contents

/-- **In a folder that is there** a drawing's file is written at once. -/
theorem on_filed (hs : s.IsTree) (hfolder : s.isFolder folder = true) {name : String}
    (hname : Path.IsName name) (hpicturing : picturing g d = .ok image) :
    (filed a g d image (Path.join folder name)).on s =
      match rendered a g d with
      | .ok contents => (alter fun store => store.write (Path.join folder name) contents).on s
      | .error e => (.error e, s) := by
  have hparent := Store.makeParent_join hs hname hfolder
  rw [filed, rendered, hpicturing]
  change _ = match (if a.format = .value .svg then _ else _ : Except Failure Contents) with
    | .ok contents => _
    | .error e => _
  by_cases hsvg : a.format = .value .svg
  · rw [if_pos hsvg, if_pos hsvg]
    cases a.dpi with
    | value dpi =>
      simp only [Filing.on_bind, Filing.on_alter, Filing.on_lift, hparent]
      cases figuring g d dpi <;> rfl
    | unset => rfl
    | withheld => rfl
  · rw [if_neg hsvg, if_neg hsvg]

theorem on_painted (hgiven : given? a.outdir = some folder) (g : Generator) (d : Drawing)
    (s : Store) :
    (painted a g d).on s =
      match picturing g d with
      | .error e => (.error e, s)
      | .ok image =>
        match s.makeFolders folder with
        | .error e => (.error (.file e), s)
        | .ok t =>
          let path := outputPath a folder (d.name.getD "")
          (((filed a g d image path).on t).1.map fun _ => image,
            ((filed a g d image path).on t).2) := by
  rw [painted, Filing.on_bind, Filing.on_lift]
  cases picturing g d with
  | error e => rfl
  | ok image =>
    simp only [hgiven, written, Filing.on_bind, Filing.on_alter]
    cases s.makeFolders folder with
    | error e => rfl
    | ok t =>
      simp only
      rcases (filed a g d image (outputPath a folder (d.name.getD ""))).on t with ⟨e | _, u⟩ <;> rfl

/-! ## Folders that can be made -/

/-- **A new folder with some files in it**, or the store before there are any: the folder is made
for the first of them. -/
def IsReady (store made : Store) (place : Place) (done : List (String × Contents)) (s : Store) :
    Prop :=
  Store.Filled made place done s ∨ done = [] ∧ s = store

section Ready

variable (h : IsMade store made folder place) (hempty : Store.Filled made place [] made)
include h hempty

theorem exists_makeFolders_of_ready (hs : IsReady store made place done s) :
    ∃ t, s.makeFolders folder = .ok t ∧ Store.Filled made place done t := by
  rcases hs with hfilled | ⟨rfl, rfl⟩
  · have hfolder := Store.isFolder_iff.mpr ⟨place, h.locate, h.get?⟩
    exact ⟨s, Store.makeFolders_of_isFolder (hfilled.alike.isTree h.isTree)
      (hfilled.alike.isFolder hfolder), hfilled⟩
  · exact ⟨made, h.makeFolders, hempty⟩

omit hempty in
/-- The same stands against a file as in the folder when it was made. -/
theorem exists_write_of_filled {t : Store} {name : String} (ht : Store.Filled made place done t)
    (hname : Path.IsName name) (hnull : Char.ofNat 0 ∉ name.toList)
    (hnew : ∀ x ∈ done, x.1 ≠ name) (contents : Contents) :
    (∃ u v, made.write (Path.join folder name) contents = .ok u ∧
      t.write (Path.join folder name) contents = .ok v ∧
      Store.Filled made place (done ++ [(name, contents)]) v) ∨
    ∃ e, made.write (Path.join folder name) contents = .error e ∧
      t.write (Path.join folder name) contents = .error e := by
  have hlocate := ht.alike.locate_eq_ok_iff.mpr h.locate
  have hget := ht.alike.get?_eq_folder_iff.mpr h.get?
  rw [Store.write_join h.locate h.get? hname hnull, Store.write_join hlocate hget hname hnull,
    ht.alike.obstacle?]
  split
  · exact .inr ⟨_, rfl, rfl⟩
  · cases hobstacle : made.obstacle? (place ++ [name]) with
    | some problem => exact .inr ⟨_, rfl, rfl⟩
    | none => exact .inl ⟨_, _, rfl, rfl, ht.put hobstacle hnew contents⟩

/-- **A drawing painted into a new folder** is in a file of its own there, or there is an error,
whatever has been painted into the folder before. -/
theorem exists_on_painted_of_ready (hgiven : given? a.outdir = some folder) (hd : IsRead path d)
    (hfixed : IsFixed d) (hnew : ∀ x ∈ done, x.1 ≠ outputName a path)
    (hs : IsReady store made place done s) (g : Generator) :
    (∃ image contents t, filing a made folder d = .ok contents ∧
      (painted a g d).on s = (.ok image, t) ∧
      IsReady store made place (done ++ [(outputName a path, contents)]) t) ∨
    ∃ e t, filing a made folder d = .error e ∧ (painted a g d).on s = (.error e, t) ∧
      IsReady store made place done t := by
  have hrendered : rendered a g d = rendered a Generator.zero d := rendered_of_fixed hfixed _ _
  rw [on_painted hgiven, filing, hd.outputPath_eq, ← hrendered]
  cases hpicturing : picturing g d with
  | error e =>
    have hnone : rendered a g d = .error e := by
      rw [rendered, hpicturing]
      rfl
    rw [hnone]
    exact .inr ⟨e, s, rfl, rfl, hs⟩
  | ok image =>
    obtain ⟨t, hmake, ht⟩ := exists_makeFolders_of_ready h hempty hs
    have hname : Path.IsName (outputName a path) := isName_output a path
    have hfolder := ht.alike.isFolder (Store.isFolder_iff.mpr ⟨place, h.locate, h.get?⟩)
    simp only [hmake]
    rw [on_filed (ht.alike.isTree h.isTree) hfolder hname hpicturing]
    cases rendered a g d with
    | error e => exact .inr ⟨e, t, rfl, rfl, .inl ht⟩
    | ok contents =>
      simp only [Filing.on_alter]
      obtain ⟨u, v, hmade, hwrite, hv⟩ | ⟨e, hmade, hwrite⟩ :=
        exists_write_of_filled h ht hname (hd.null_outputName a) hnew contents
      · rw [hwrite]
        exact .inl ⟨image, contents, v, by simp [Except.bind, hmade, Except.mapError, Except.map],
          rfl, .inl hv⟩
      · rw [hwrite]
        exact .inr ⟨.file e, t, by simp [Except.bind, hmade, Except.mapError, Except.map], rfl,
          .inl ht⟩

end Ready

/-! ## Folders that cannot be made -/

/-- **A folder that can never be made**: a file will stand in the way, or it is refused. -/
def IsShut (folder : String) (s : Store) : Prop :=
  s.IsTree ∧ ∀ t, s.makeFolders folder = .ok t → t.Barred folder

theorem isShut_of_barred (hs : s.IsTree) (h : s.Barred folder) : IsShut folder s :=
  ⟨hs, fun _ ht => h.of_changes (Store.changes_makeFolders ht)⟩

theorem IsShut.isFolder_ne_true (h : IsShut folder s) : s.isFolder folder ≠ true := fun hfolder =>
  (h.2 s (Store.makeFolders_of_isFolder h.1 hfolder)).isFolder_ne_true hfolder

/-- Where a file stands against the folder, nothing is written. -/
theorem exists_on_filed_of_barred (a : Arguments) (g : Generator) (d : Drawing) (image : Image)
    (hs : s.IsTree) (h : s.Barred folder) (hfolder : folder ≠ "") {name : String}
    (hname : Path.IsName name) :
    ∃ e t, (filed a g d image (Path.join folder name)).on s = (.error e, t) ∧ IsShut folder t := by
  have hwrite {t : Store} (ht : t.IsTree) (hbarred : t.Barred folder) (contents : Contents) :
      ∃ e, (alter fun store => store.write (Path.join folder name) contents).on t =
        (.error e, t) := by
    rw [Filing.on_alter]
    cases hwritten : t.write (Path.join folder name) contents with
    | error e => exact ⟨_, rfl⟩
    | ok u =>
      exact absurd (Store.isFolder_of_write_join ht hfolder hname hwritten) hbarred.isFolder_ne_true
  rw [filed]
  by_cases hsvg : a.format = .value .svg
  · rw [if_pos hsvg]
    cases a.dpi with
    | value dpi =>
      simp only [Filing.on_bind, Filing.on_alter, Filing.on_lift]
      cases hparent : s.makeParent (Path.join folder name) with
      | error e => exact ⟨_, s, rfl, isShut_of_barred hs h⟩
      | ok t =>
        have ht := hs.makeParent hparent
        have hbarred := h.of_changes (Store.changes_makeParent hparent)
        cases figuring g d dpi with
        | error e => exact ⟨e, t, rfl, isShut_of_barred ht hbarred⟩
        | ok figure =>
          obtain ⟨e, he⟩ := hwrite ht hbarred
            (.page (Page.ofFigure figure (some Format.svg.name)))
          rw [Filing.on_alter] at he
          exact ⟨e, t, he, isShut_of_barred ht hbarred⟩
    | unset => exact ⟨_, s, rfl, isShut_of_barred hs h⟩
    | withheld => exact ⟨_, s, rfl, isShut_of_barred hs h⟩
  · rw [if_neg hsvg]
    obtain ⟨e, he⟩ := hwrite hs h (.image image)
    exact ⟨e, s, he, isShut_of_barred hs h⟩

/-- **Without a folder** no drawing has a file. -/
theorem exists_on_painted_of_shut (hgiven : given? a.outdir = some folder) (hd : IsRead path d)
    (hs : IsShut folder s) (g : Generator) :
    ∃ e t, (painted a g d).on s = (.error e, t) ∧ IsShut folder t := by
  rw [on_painted hgiven, hd.outputPath_eq]
  cases picturing g d with
  | error e => exact ⟨e, s, rfl, hs⟩
  | ok image =>
    simp only
    cases hmake : s.makeFolders folder with
    | error e => exact ⟨_, s, rfl, hs⟩
    | ok t =>
      obtain ⟨e, u, hfiled, hu⟩ := exists_on_filed_of_barred a g d image (hs.1.makeFolders hmake)
        (hs.2 t hmake) (ne_empty_of_given? hgiven) (isName_output a path)
      refine ⟨e, u, ?_, hu⟩
      simp only
      rw [outputName, hfiled]
      rfl

/-- **A folder can be made, or not.** -/
theorem isMade_or_isShut (hs : s.IsTree) (folder : String) :
    (∃ made place, IsMade s made folder place) ∨ IsShut folder s := by
  cases hmake : s.makeFolders folder with
  | error e => exact .inr ⟨hs, fun t ht => nomatch hmake.symm.trans ht⟩
  | ok made =>
    rcases Store.isFolder_or_barred_of_makeFolders hmake with hfolder | hbarred
    · obtain ⟨place, hlocate, hget⟩ := Store.isFolder_iff.mp hfolder
      exact .inl ⟨made, place, hs.makeFolders hmake, hmake, hlocate, hget⟩
    · refine .inr ⟨hs, fun t ht => ?_⟩
      cases hmake.symm.trans ht
      exact hbarred

/-! ## Files one after another -/

/-- **What a file of instructions leaves** in a folder made for it, if it leaves anything. -/
def leaving (a : Arguments) (library : Library) (opened : Store) (folder path : String) :
    Option Contents :=
  (loading library (policy a) opened path).toOption.bind fun d =>
    match opened.makeFolders folder with
    | .ok made => if made.isFolder folder then (filing a made folder d).toOption else none
    | .error _ => none

section Follow

variable {opened : Store} {files : List String} {i : Nat}

theorem leaving_of_error {e : Failure} (h : loading library (policy a) opened path = .error e) :
    leaving a library opened folder path = none := by
  rw [leaving, h]
  rfl

theorem leaving_of_ok (h : IsMade opened made folder place)
    (hd : loading library (policy a) opened path = .ok d) :
    leaving a library opened folder path = (filing a made folder d).toOption := by
  have hfolder : made.isFolder folder = true := Store.isFolder_iff.mpr ⟨place, h.locate, h.get?⟩
  rw [leaving, hd, h.makeFolders]
  exact if_pos hfolder

theorem leaving_of_shut (h : IsShut folder opened) :
    leaving a library opened folder path = none := by
  rw [leaving, Option.bind_eq_none_iff]
  intro d _
  split
  next made hmake => rw [if_neg (h.2 made hmake).isFolder_ne_true]
  next => rfl

/-- The files that are left in the folder, each under its name. -/
def leavings (a : Arguments) (library : Library) (opened : Store) (folder : String)
    (files : List String) : List (String × Contents) :=
  files.filterMap fun path => (leaving a library opened folder path).map (outputName a path, ·)

theorem leavings_cons_of_none (files : List String)
    (h : leaving a library opened folder path = none) :
    leavings a library opened folder (path :: files) = leavings a library opened folder files :=
  List.filterMap_cons_none (by rw [h, Option.map_none])

theorem leavings_cons_of_some {contents : Contents} (files : List String)
    (h : leaving a library opened folder path = some contents) :
    leavings a library opened folder (path :: files) =
      (outputName a path, contents) :: leavings a library opened folder files :=
  List.filterMap_cons_some (by rw [h, Option.map_some])

/-- **Files followed into a new folder**: each leaves there what it leaves by itself. -/
theorem ready_follow (h : IsMade opened made folder place)
    (hempty : Store.Filled made place [] made) (hgiven : given? a.outdir = some folder)
    (hfixed : ∀ path ∈ files, ∀ d, loading library (policy a) opened path = .ok d → IsFixed d)
    (hstems : (files.map Path.stem).Nodup)
    (hdone : ∀ path ∈ files, ∀ x ∈ done, x.1 ≠ outputName a path)
    (hs : IsReady opened made place done s) :
    IsReady opened made place (done ++ leavings a library opened folder files)
        (follow a library generators opened i files s).2 ∧
      (picturesOf (follow a library generators opened i files s).1).length =
        (leavings a library opened folder files).length := by
  induction files generalizing i s done with
  | nil =>
    rw [leavings, List.filterMap_nil, List.append_nil]
    exact ⟨hs, rfl⟩
  | cons path rest ih =>
    obtain ⟨hfirst, hfixed⟩ := List.forall_mem_cons.mp hfixed
    obtain ⟨hnew, hdone⟩ := List.forall_mem_cons.mp hdone
    rw [List.map_cons, List.nodup_cons] at hstems
    rw [follow]
    cases hloading : loading library (policy a) opened path with
    | error e =>
      rw [leavings_cons_of_none rest (leaving_of_error hloading)]
      exact ih hfixed hstems.2 hdone hs
    | ok d =>
      have hleaving := leaving_of_ok h hloading
      obtain ⟨image, contents, t, hfiling, hpainted, ht⟩ | ⟨e, t, hfiling, hpainted, ht⟩ :=
        exists_on_painted_of_ready h hempty hgiven (isRead_of_loading hloading)
          (hfirst d hloading) hnew hs (generators i)
      · rw [hfiling] at hleaving
        rw [leavings_cons_of_some rest hleaving, List.append_cons]
        simp only [hpainted]
        have hlater : ∀ path' ∈ rest, ∀ x ∈ done ++ [(outputName a path, contents)],
            x.1 ≠ outputName a path' := by
          intro path' hpath' x hx
          rcases List.mem_append.mp hx with hx | hx
          · exact hdone path' hpath' x hx
          · obtain rfl := List.mem_singleton.mp hx
            intro hsame
            exact hstems.1 (List.mem_map.mpr ⟨path', hpath', (outputName_inj.mp hsame).symm⟩)
        obtain ⟨hready, hpictures⟩ := ih hfixed hstems.2 hlater ht
        exact ⟨hready, congrArg Nat.succ hpictures⟩
      · rw [hfiling] at hleaving
        rw [leavings_cons_of_none rest hleaving]
        simp only [hpainted]
        exact ih hfixed hstems.2 hdone ht

/-- **Files followed without a folder** leave nothing. -/
theorem shut_follow (hgiven : given? a.outdir = some folder) (hs : IsShut folder s) :
    IsShut folder (follow a library generators opened i files s).2 ∧
      picturesOf (follow a library generators opened i files s).1 = [] := by
  induction files generalizing i s with
  | nil => exact ⟨hs, rfl⟩
  | cons path rest ih =>
    rw [follow]
    cases hloading : loading library (policy a) opened path with
    | error e => exact ih hs
    | ok d =>
      obtain ⟨e, t, hpainted, ht⟩ :=
        exists_on_painted_of_shut hgiven (isRead_of_loading hloading) hs (generators i)
      simp only [hpainted]
      exact ih ht

/-- **What a new folder holds** is what was put there. -/
theorem holdsIn_iff_of_ready (h : IsMade opened made folder place)
    (hnew : opened.get? place = none) (hs : IsReady opened made place done s)
    (names : List String) (contents : Contents) :
    s.HoldsIn folder names contents ↔ ∃ x ∈ done, names = [x.1] ∧ contents = x.2 := by
  rcases hs with hfilled | ⟨rfl, rfl⟩
  · have hlocate := hfilled.alike.locate_eq_ok_iff.mpr h.locate
    rw [← hfilled.get?_iff]
    constructor
    · rintro ⟨place', hlocate', -, hget⟩
      cases hlocate.symm.trans hlocate'
      exact hget
    · exact fun hget => ⟨place, hlocate, hfilled.alike.get?_eq_folder_iff.mpr h.get?, hget⟩
  · refine iff_of_false ?_ nofun
    rintro ⟨place', hlocate', hfolder, -⟩
    have hmade := (Store.changes_makeFolders h.makeFolders).locate hlocate'
    cases h.locate.symm.trans hmade
    cases hnew.symm.trans hfolder

theorem not_holdsIn_of_shut (hs : IsShut folder s) (names : List String) (contents : Contents) :
    ¬s.HoldsIn folder names contents := fun ⟨place, hlocate, hfolder, _⟩ =>
  hs.isFolder_ne_true (Store.isFolder_iff.mpr ⟨place, hlocate, hfolder⟩)

theorem mem_leavings_iff {x : String × Contents} :
    x ∈ leavings a library opened folder files ↔
      ∃ path ∈ files, leaving a library opened folder path = some x.2 ∧
        x.1 = outputName a path := by
  rw [leavings, List.mem_filterMap]
  refine exists_congr fun path => and_congr_right fun _ => ?_
  rw [Option.map_eq_some_iff]
  constructor
  · rintro ⟨contents, hleaving, rfl⟩
    exact ⟨hleaving, rfl⟩
  · rintro ⟨hleaving, hname⟩
    exact ⟨x.2, hleaving, Prod.ext hname.symm rfl⟩

/-- A file leaves one file or has one report. -/
theorem length_sub_length_leavings (files : List String) :
    files.length - (leavings a library opened folder files).length =
      (files.map fun path => 1 - (leavings a library opened folder [path]).length).sum := by
  induction files with
  | nil => rfl
  | cons path rest ih =>
    have hle : (leavings a library opened folder rest).length ≤ rest.length :=
      List.length_filterMap_le _ _
    have hnil : (leavings a library opened folder []).length = 0 := rfl
    rw [List.map_cons, List.sum_cons, ← ih, List.length_cons]
    cases hleaving : leaving a library opened folder path with
    | none =>
      rw [leavings_cons_of_none rest hleaving, leavings_cons_of_none [] hleaving]
      omega
    | some contents =>
      rw [leavings_cons_of_some rest hleaving, leavings_cons_of_some [] hleaving,
        List.length_cons, List.length_cons]
      omega

end Follow

/-! ## The whole run -/

section Run

variable {opened session : Session} {st : Nat}

/-- A folder that is not there, and nothing that will be in its place. -/
def IsNew (s : Store) (folder : String) : Prop :=
  ∀ made place, s.makeFolders folder = .ok made → made.locate folder = .ok place →
    s.get? place = none

/-- **What a run leaves in a new folder** is what each file of instructions leaves by itself. -/
theorem holdsIn_of_run (hgiven : given? a.outdir = some folder) (hgrid : given? a.grid = none)
    (hopening : (Session.start store).run (opening a) = (.ok library, opened))
    (hwhole : opened.store.IsWhole) (hnew : IsNew opened.store folder)
    (hstems : (a.files.map Path.stem).Nodup)
    (hfixed : ∀ path ∈ a.files, ∀ d,
      loading library (policy a) opened.store path = .ok d → IsFixed d)
    (hrun : run a generators store = (.ok st, session)) :
    (∀ names contents, session.store.HoldsIn folder names contents ↔
      ∃ path ∈ a.files, leaving a library opened.store folder path = some contents ∧
        names = [outputName a path]) ∧
    session.reports.length =
      a.files.length - (leavings a library opened.store folder a.files).length ∧
    session.output.back? = some (closingLine session.reports.length) := by
  obtain ⟨library', opened', fates, unwritten, painted, sheeted, shown, hopening', hfates, hstore,
    hreports, -, -, hsheet, hshown, -, rfl⟩ := exists_fates_of_run hrun
  cases hopening.symm.trans hopening'
  rw [run_sheetStage_of_none (.inl hgrid), Prod.mk.injEq, Except.ok.injEq] at hsheet
  obtain ⟨rfl, rfl⟩ := hsheet
  obtain rfl := eq_of_run_windows hshown
  change (∀ names contents, painted.store.HoldsIn folder names contents ↔ _) ∧
    painted.reports.length = _ ∧ _ = some (closingLine painted.reports.length)
  have hlength : painted.reports.length = a.files.length - (picturesOf fates).length := by
    rw [hreports, List.length_append, length_reports_follow hfates]
  have hclosing : (painted.output.push (closingLine
      (a.files.length - (picturesOf fates).length + 0))).back? =
        some (closingLine painted.reports.length) := by
    rw [hlength, Array.back?_push, Nat.add_zero]
  rcases isMade_or_isShut hwhole.toIsTree folder with ⟨made, place, hmade⟩ | hshut
  · have hplace := hnew made place hmade.makeFolders hmade.locate
    have hempty := Store.Filled.nil hwhole (Store.changes_makeFolders hmade.makeFolders) hplace
    obtain ⟨hready, hpictures⟩ := @ready_follow a library generators made opened.store folder place
      [] opened.store a.files 0 hmade hempty hgiven hfixed hstems nofun (.inr ⟨rfl, rfl⟩)
    rw [← hstore, List.nil_append] at hready
    rw [← hfates] at hpictures
    refine ⟨fun names contents => ?_, by rw [hlength, hpictures], hclosing⟩
    rw [holdsIn_iff_of_ready hmade hplace hready]
    constructor
    · rintro ⟨x, hx, rfl, rfl⟩
      obtain ⟨path, hpath, hleaving, hname⟩ := mem_leavings_iff.mp hx
      exact ⟨path, hpath, hleaving, by rw [hname]⟩
    · rintro ⟨path, hpath, hleaving, rfl⟩
      exact ⟨(outputName a path, contents), mem_leavings_iff.mpr ⟨path, hpath, hleaving, rfl⟩,
        rfl, rfl⟩
  · obtain ⟨hstill, hpictures⟩ := @shut_follow a library generators opened.store folder
      opened.store a.files 0 hgiven hshut
    rw [← hstore] at hstill
    rw [← hfates] at hpictures
    have hnone : leavings a library opened.store folder a.files = [] :=
      List.filterMap_eq_nil_iff.mpr fun path _ => by rw [leaving_of_shut hshut, Option.map_none]
    refine ⟨fun names contents => iff_of_false (not_holdsIn_of_shut hstill names contents) ?_,
      by rw [hlength, hpictures, hnone, List.length_nil, List.length_nil], hclosing⟩
    rintro ⟨path, -, hleaving, -⟩
    cases (leaving_of_shut hshut).symm.trans hleaving

/-- What a file leaves is a matter of that file alone. -/
theorem leaving_with_files (a : Arguments) (files : List String) :
    leaving { a with files := files } = leaving a := by
  have hfiling : filing { a with files := files } = filing a := rfl
  have hpolicy : policy { a with files := files } = policy a := rfl
  funext library opened folder path
  rw [leaving, leaving, hfiling, hpolicy]

theorem leavings_with_files (a : Arguments) (files : List String) :
    leavings { a with files := files } = leavings a := by
  have hname : outputName { a with files := files } = outputName a := rfl
  funext library opened folder paths
  rw [leavings, leavings, leaving_with_files, hname]

/-- **A run over a single file** leaves what that file leaves by itself. -/
theorem holdsIn_of_run_singleton (hgiven : given? a.outdir = some folder)
    (hgrid : given? a.grid = none)
    (hopening : (Session.start store).run (opening a) = (.ok library, opened))
    (hwhole : opened.store.IsWhole) (hnew : IsNew opened.store folder)
    (hfixed : ∀ d, loading library (policy a) opened.store path = .ok d → IsFixed d)
    (hrun : run { a with files := [path] } generators store = (.ok st, session)) :
    (∀ names contents, session.store.HoldsIn folder names contents ↔
      leaving a library opened.store folder path = some contents ∧
        names = [outputName a path]) ∧
    session.reports.length =
      1 - (leavings a library opened.store folder [path]).length ∧
    session.output.back? = some (closingLine session.reports.length) := by
  have hopening' : (Session.start store).run (opening { a with files := [path] }) =
      (.ok library, opened) := hopening
  have hfixed' : ∀ path' ∈ [path], ∀ d,
      loading library (policy { a with files := [path] }) opened.store path' = .ok d →
        IsFixed d := by
    intro path' hpath' d hd
    obtain rfl := List.mem_singleton.mp hpath'
    exact hfixed d hd
  have hstems : ([path].map Path.stem).Nodup := List.nodup_singleton _
  obtain ⟨hholds, hlength, hclosing⟩ := @holdsIn_of_run { a with files := [path] } library
    generators store folder opened session st hgiven hgrid hopening' hwhole hnew hstems hfixed' hrun
  rw [leavings_with_files] at hlength
  refine ⟨fun names contents => ?_, hlength, hclosing⟩
  rw [hholds, leaving_with_files]
  constructor
  · rintro ⟨path', hpath', hheld⟩
    obtain rfl := List.mem_singleton.mp hpath'
    exact hheld
  · exact fun hheld => ⟨path, List.mem_singleton_self path, hheld⟩

/-- **Files of one run have no part in one another.**  A run over several files, of different stems
and without random places, puts into a new folder what the runs over each of them put there, and
nothing else.  What a file cannot have there it has in neither run, and its failure is counted in
both.

Files are compared by the pictures and the pages that they hold.  What the printing of a page adds
to its file, a date and identifiers, is no part of the page and is not compared. -/
theorem holdsIn_iff_separate {generators' : String → Nat → Generator} {st' : String → Nat}
    {separate : String → Session} (hgiven : given? a.outdir = some folder)
    (hgrid : given? a.grid = none)
    (hopening : (Session.start store).run (opening a) = (.ok library, opened))
    (hwhole : opened.store.IsWhole) (hnew : IsNew opened.store folder)
    (hstems : (a.files.map Path.stem).Nodup)
    (hfixed : ∀ path ∈ a.files, ∀ d,
      loading library (policy a) opened.store path = .ok d → IsFixed d)
    (hrun : run a generators store = (.ok st, session))
    (hseparate : ∀ path ∈ a.files,
      run { a with files := [path] } (generators' path) store = (.ok (st' path), separate path)) :
    (∀ names contents, session.store.HoldsIn folder names contents ↔
      ∃ path ∈ a.files, (separate path).store.HoldsIn folder names contents) ∧
    (∀ path ∈ a.files,
      ((separate path).reports = [] ∧
        ∃ contents, ∀ names contents', (separate path).store.HoldsIn folder names contents' ↔
          names = [outputName a path] ∧ contents' = contents) ∨
      (separate path).reports.length = 1 ∧ ∀ names contents,
        ¬(separate path).store.HoldsIn folder names contents ∧
          ¬session.store.HoldsIn folder [outputName a path] contents) ∧
    session.reports.length = (a.files.map fun path => (separate path).reports.length).sum ∧
    session.output.back? = some (closingLine session.reports.length) ∧
    ∀ path ∈ a.files,
      (separate path).output.back? = some (closingLine (separate path).reports.length) := by
  obtain ⟨hholds, hlength, hclosing⟩ :=
    holdsIn_of_run hgiven hgrid hopening hwhole hnew hstems hfixed hrun
  have hone (path : String) (hpath : path ∈ a.files) := holdsIn_of_run_singleton hgiven hgrid
    hopening hwhole hnew (hfixed path hpath) (hseparate path hpath)
  refine ⟨fun names contents => ?_, fun path hpath => ?_, ?_, hclosing,
    fun path hpath => (hone path hpath).2.2⟩
  · rw [hholds]
    exact exists_congr fun path => and_congr_right fun hpath =>
      ((hone path hpath).1 names contents).symm
  · obtain ⟨hheld, hreports, -⟩ := hone path hpath
    cases hleaving : leaving a library opened.store folder path with
    | some contents =>
      refine .inl ⟨?_, contents, fun names contents' => ?_⟩
      · rw [leavings_cons_of_some [] hleaving] at hreports
        exact List.length_eq_zero_iff.mp hreports
      · rw [hheld, hleaving, Option.some.injEq, and_comm, eq_comm (a := contents)]
    | none =>
      refine .inr ⟨?_, fun names contents => ⟨fun h => ?_, fun h => ?_⟩⟩
      · rw [leavings_cons_of_none [] hleaving] at hreports
        exact hreports
      · cases hleaving.symm.trans ((hheld names contents).mp h).1
      · obtain ⟨path', hpath', hleaving', hname⟩ := (hholds _ contents).mp h
        -- Only the file itself could have left that name.
        have hsame := outputName_inj.mp (List.singleton_inj.mp hname)
        obtain rfl := List.inj_on_of_nodup_map hstems hpath hpath' hsame
        cases hleaving.symm.trans hleaving'
  · rw [hlength, length_sub_length_leavings]
    refine congrArg List.sum (List.map_congr_left fun path hpath => ?_)
    exact (hone path hpath).2.1.symm

/-- A drawing, and a file of instructions that cannot be read. -/
def unevenStore : Store :=
  ⟨["home"], [(["home"], .folder),
    (["home", "a.txt"], .file (.text ("width=8,height=4\n" ++
      "shape=square,x=1,y=1,scale=2,red=0,green=0,blue=0\n"))),
    (["home", "b.txt"], .file (.text "height=\n"))]⟩

theorem isWhole_unevenStore : unevenStore.IsWhole := by
  refine Store.IsWhole.of_entries rfl ?_
  intro e he
  fin_cases he <;> rfl

theorem isNew_unevenStore : IsNew unevenStore "o" := by
  intro made place hmade hlocate
  obtain ⟨-, hwalk, -⟩ := Store.locate_eq_ok_iff.mp hlocate
  have hstart : made.startOf "o" = ["home"] := (Store.changes_makeFolders hmade).home
  have hsteps : Path.steps "o" = ["o"] := by decide
  rw [hstart, hsteps] at hwalk
  cases hwalk
  rfl

/-- The arguments that name both files, and a folder. -/
def uneven : Arguments :=
  plain ["a.txt", "b.txt"] "o"

/-- **One file leaves what it leaves by itself**, and the other one is reported in both runs. -/
theorem holdsIn_iff_separate_uneven :
    ∃ session, ∃ separate : String → Session,
      run uneven (fun _ => Generator.zero) unevenStore = (.ok 1, session) ∧
      run { uneven with files := ["a.txt"] } (fun _ => Generator.zero) unevenStore =
        (.ok 0, separate "a.txt") ∧
      run { uneven with files := ["b.txt"] } (fun _ => Generator.zero) unevenStore =
        (.ok 1, separate "b.txt") ∧
      (∀ names contents, session.store.HoldsIn "o" names contents ↔
        ∃ path ∈ uneven.files, (separate path).store.HoldsIn "o" names contents) ∧
      session.reports.length =
        (uneven.files.map fun path => (separate path).reports.length).sum := by
  have hstatus : (run uneven (fun _ => Generator.zero) unevenStore).1.toOption = some 1 := by
    decide +kernel
  have hstatuses : ∀ path ∈ uneven.files, (run { uneven with files := [path] }
      (fun _ => Generator.zero) unevenStore).1.toOption =
        some (if path = "a.txt" then 0 else 1) := by
    decide +kernel
  have hstamps : (uneven.files.all fun path =>
      match loading Library.builtin (policy uneven) unevenStore path with
      | .ok d => d.script.stamps.all fun s => !s.hasRandomAxis
      | .error _ => true) = true := by
    decide +kernel
  have hstems : (uneven.files.map Path.stem).Nodup := by decide +kernel
  generalize hrun : run uneven (fun _ => Generator.zero) unevenStore = ended at hstatus
  obtain ⟨outcome, session⟩ := ended
  obtain rfl : outcome = .ok 1 := toOption_eq_some_iff.mp hstatus
  obtain ⟨separate, hseparate⟩ : ∃ separate : String → Session, ∀ path ∈ uneven.files,
      run { uneven with files := [path] } (fun _ => Generator.zero) unevenStore =
        (.ok (if path = "a.txt" then 0 else 1), separate path) :=
    ⟨fun path => (run { uneven with files := [path] } (fun _ => Generator.zero) unevenStore).2,
      fun path hpath => Prod.ext (toOption_eq_some_iff.mp (hstatuses path hpath)) rfl⟩
  have hopening : (Session.start unevenStore).run (opening uneven) =
      (.ok Library.builtin, Session.start unevenStore) := rfl
  have hfixed : ∀ path ∈ uneven.files, ∀ d,
      loading Library.builtin (policy uneven) unevenStore path = .ok d → IsFixed d := by
    intro path hpath d hd s hs
    have hall := List.all_eq_true.mp hstamps path hpath
    rw [hd] at hall
    simpa using List.all_eq_true.mp hall s hs
  have hgiven : given? uneven.outdir = some "o" := rfl
  have hgrid : given? uneven.grid = none := rfl
  obtain ⟨hholds, -, hlength, -⟩ := holdsIn_iff_separate hgiven hgrid hopening isWhole_unevenStore
    isNew_unevenStore hstems hfixed hrun hseparate
  have hfirst := hseparate "a.txt" (by decide)
  have hsecond := hseparate "b.txt" (by decide)
  rw [if_pos rfl] at hfirst
  rw [if_neg (by decide)] at hsecond
  exact ⟨session, separate, rfl, hfirst, hsecond, hholds, hlength⟩

end Run

end CommandLine

end Stencil
