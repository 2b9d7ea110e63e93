import Stencil.Proofs.Arguments
import Stencil.Proofs.CommandLine.Reading
import Stencil.Proofs.CommandLine.Rendering

/-!
# Proofs/CommandLine/Status — the exit status of a run into a folder

    files ──reading──▸ drawings ──rendering──▸ pictures
      │                    │
    lines        ++      lines

A run over some files into a folder that can be made returns an exit status exactly when each file
lies on a path, holds a text and no number that is too long, and no canvas has too long rows
(`exists_status_iff`).  Then the status tells whether a file has no picture, each of these has its
line, and every other one has its picture in the folder (`run_plain`).
-/

namespace Stencil.CommandLine

open Session
open Surface (Raster Recording)

variable {store made : Store} {folder path : String} {place : Place} {files : List String}
  {library : Library} {generators : Nat → Generator} {d : Drawing} {x : Drawing × Nat}

/-! ## Drawings that were read -/

theorem toList_fileName (h : d.name = some (Path.stem path)) :
    (fileName d).toList = (Path.stem path).toList ++ ['.', 'p', 'n', 'g'] := by
  rw [fileName, h, Option.getD_some, String.toList_append, String.toList_append, List.append_assoc]
  rfl

theorem isNamed_of_reading (h : reading library store path = .ok d) : IsNamed d := by
  obtain ⟨-, -, -, hname, hnull⟩ := exists_of_reading_eq_ok h
  have hchars := toList_fileName hname
  obtain ⟨hslash, hsub⟩ := Path.stem_subset path
  have hlength : 4 ≤ (fileName d).toList.length := by
    rw [hchars, List.length_append]
    exact Nat.le_add_left _ _
  refine ⟨⟨?_, ?_, ?_, ?_⟩, ?_⟩
  · rw [hchars, List.mem_append, not_or]
    exact ⟨hslash, by decide⟩
  · intro he
    rw [he] at hlength
    exact absurd hlength (by decide)
  · intro he
    rw [he] at hlength
    exact absurd hlength (by decide)
  · intro he
    rw [he] at hlength
    exact absurd hlength (by decide)
  · rw [hchars, List.mem_append, not_or]
    exact ⟨fun hmem => hnull (hsub hmem), by decide⟩

/-! ## The whole run -/

/-- The drawings of the files that can be read, with their numbers. -/
def drawingsOf (store : Store) (files : List String) : List (Drawing × Nat) :=
  (files.filterMap fun path => (reading Library.builtin store path).toOption).zipIdx

theorem exists_of_mem_drawingsOf (h : x ∈ drawingsOf store files) :
    ∃ path ∈ files, reading Library.builtin store path = .ok x.1 := by
  obtain ⟨path, hpath, hread⟩ := List.mem_filterMap.mp (List.fst_mem_of_mem_zipIdx h)
  exact ⟨path, hpath, toOption_eq_some_iff.mp hread⟩

/-- The lines about the files that cannot be read. -/
def readingLines (store : Store) (files : List String) : List String :=
  files.filterMap (lineOf? readingLine (reading Library.builtin store))

/-- The lines about the drawings that have no picture. -/
def paintingLines (folder : String) (made : Store) (generators : Nat → Generator)
    (drawings : List (Drawing × Nat)) : List String :=
  drawings.filterMap (lineOf? paintingLine (rendering folder made generators))

/-- What a run with nothing but files and a folder is made up of. -/
theorem run_plain (files : List String) (folder : String) (generators : Nat → Generator)
    (store : Store) :
    run (plain files folder) generators store = (Session.start store).run (do
      let read ← readDrawings Library.builtin .strict files
      let painted ← paintAll (plain files folder) generators read.done.length 0 read.done
      print (closingLine (read.failures + painted.failures))
      return status (read.failures + painted.failures)) := by
  have hquiet : (Session.start store).run
      (modify fun s => { s with verbose := (plain files folder).verbose }) =
        (.ok (), Session.start store) := rfl
  rw [run, work, run_bind_of_ok hquiet]
  rfl

/-- **When all failures of reading are forgiven** the drawings are those of all other files. -/
theorem exists_run_readDrawings
    (hread : AreForgiven Failure.isOfReading (reading Library.builtin store) files) :
    ∃ t, (Session.start store).run (readDrawings Library.builtin .strict files) =
        (.ok ⟨files.filterMap fun path => (reading Library.builtin store path).toOption,
          (readingLines store files).length⟩, t) ∧
      t.messages = (readingLines store files).toArray ∧ t.verbose = false ∧ t.store = store := by
  obtain ⟨t, hrun, hlines, hstate⟩ :=
    exists_run_collect [] (s := Session.start store)
      (settles_readDrawing Library.builtin store files) hread ⟨rfl, rfl⟩
  rw [← readDrawings_eq_collect] at hrun
  exact ⟨t, hrun, hlines.trans (Array.empty_append), hstate⟩

/-- **All failures of a run** are forgiven. -/
def IsForgiven (store made : Store) (folder : String) (generators : Nat → Generator)
    (files : List String) : Prop :=
  AreForgiven Failure.isOfReading (reading Library.builtin store) files ∧
    AreForgiven Failure.isOfPainting (rendering folder made generators) (drawingsOf store files)

section Run

variable (h : IsMade store made folder place)
include h

/-- The drawings settle in the session that the reading of the files leaves. -/
theorem settles_drawingsOf (files : List String) (count : Nat) :
    Settles (fun x => (x.1, ·) <$> paint (plain files folder) (generators x.2) count x.2 x.1)
      (fun x => (rendering folder made generators x).map (x.1, ·))
      (HasPainted store made folder place generators) (drawingsOf store files) :=
  settles_paint h files count fun _ hx =>
    have ⟨_, _, hread⟩ := exists_of_mem_drawingsOf hx
    isNamed_of_reading hread

/-- **When all failures are forgiven** the run goes to its end. -/
theorem exists_run_eq_ok (hforgiven : IsForgiven store made folder generators files) :
    ∃ t, run (plain files folder) generators store =
        (.ok (status ((readingLines store files).length +
          (paintingLines folder made generators (drawingsOf store files)).length)), t) ∧
      t.messages.toList = readingLines store files ++
        paintingLines folder made generators (drawingsOf store files) ∧
      HasPainted store made folder place generators (drawingsOf store files) t := by
  obtain ⟨hread, hpaint⟩ := hforgiven
  obtain ⟨t, hreads, hlines, hverbose, hstore⟩ := exists_run_readDrawings hread
  obtain ⟨u, hpaints, hlines', hpainted⟩ :=
    exists_run_collect [] (settles_drawingsOf h files _) (areForgiven_map_iff.mpr hpaint)
      (.nil hverbose hstore)
  rw [drawingsOf, ← paintAll_eq_collect] at hpaints
  rw [lineOf?_map] at hpaints hlines'
  rw [run_plain, run_bind_of_ok hreads, run_bind_of_ok hpaints, run_bind_of_ok (run_print _ _)]
  refine ⟨_, rfl, ?_, hpainted.verbose, hpainted.isFilled, hpainted.areTaken⟩
  change u.messages.toList = _
  rw [hlines', hlines]
  simp [readingLines, paintingLines]

/-- **A failure that is not forgiven** ends the run. -/
theorem exists_run_eq_error (hforgiven : ¬IsForgiven store made folder generators files) :
    ∃ e t, run (plain files folder) generators store = (.error e, t) := by
  rw [run_plain]
  by_cases hread : AreForgiven Failure.isOfReading (reading Library.builtin store) files
  · obtain ⟨t, hreads, -, hverbose, hstore⟩ := exists_run_readDrawings hread
    obtain ⟨e, u, hpaints⟩ :=
      exists_run_collect_eq_error [] (settles_drawingsOf h files _)
        (mt areForgiven_map_iff.mp fun hpaint => hforgiven ⟨hread, hpaint⟩) (.nil hverbose hstore)
    rw [drawingsOf, ← paintAll_eq_collect] at hpaints
    exact ⟨e, u, (run_bind_of_ok hreads).trans (run_bind_of_error hpaints)⟩
  · obtain ⟨e, t, hreads⟩ :=
      exists_run_collect_eq_error [] (s := Session.start store)
        (settles_readDrawing Library.builtin store files) hread ⟨rfl, rfl⟩
    rw [← readDrawings_eq_collect] at hreads
    exact ⟨e, t, run_bind_of_error hreads⟩

/-- **A run returns** exactly when all its failures are forgiven. -/
theorem exists_status_iff : (∃ status, (run (plain files folder) generators store).1 = .ok status) ↔
    IsForgiven store made folder generators files := by
  constructor
  · rintro ⟨status, hrun⟩
    by_contra hforgiven
    obtain ⟨e, t, herror⟩ := exists_run_eq_error h hforgiven
    rw [herror] at hrun
    cases hrun
  · intro hforgiven
    obtain ⟨t, hrun, -⟩ := exists_run_eq_ok h hforgiven
    exact ⟨_, congrArg Prod.fst hrun⟩

/-- **All failures are forgiven** unless a path is none, a file holds no text, a number is too long,
or the rows of a canvas are. -/
theorem isForgiven_iff : IsForgiven store made folder generators files ↔
    (∀ path ∈ files, Char.ofNat 0 ∉ path.toList ∧
      reading Library.builtin store path ≠ .error .notText ∧
      ∀ count, reading Library.builtin store path ≠ .error (.record (.tooManyDigits count))) ∧
    ∀ x ∈ drawingsOf store files, x.1.canvas.width ≤ Raster.longestRow := by
  refine and_congr (forall₂_congr fun path _ => isOfReading_iff) (forall₂_congr fun x hx => ?_)
  obtain ⟨path, -, hread⟩ := exists_of_mem_drawingsOf hx
  obtain ⟨lines, hscript, -⟩ := exists_of_reading_eq_ok hread
  exact isOfPainting_iff hscript h (isNamed_of_reading hread)

end Run

/-! ## The status -/

theorem exists_isMade (htree : store.IsTree) (hmake : store.makeFolders folder = .ok made)
    (hfolder : made.isFolder folder = true) : ∃ place, IsMade store made folder place := by
  obtain ⟨place, hlocate, hplace⟩ := Store.isFolder_iff.mp hfolder
  exact ⟨place, htree.makeFolders hmake, hmake, hlocate, hplace⟩

theorem status_eq_one_iff {failures : Nat} : status failures = 1 ↔ 0 < failures := by
  rw [status]
  split <;> omega

theorem length_lines_pos_iff {ι α : Type} {line : ι → Failure → String}
    {result : ι → Except Failure α} {xs : List ι} :
    0 < (xs.filterMap (lineOf? line result)).length ↔ ∃ x ∈ xs, ∃ e, result x = .error e := by
  have hline (x : ι) : (∃ text, lineOf? line result x = some text) ↔ ∃ e, result x = .error e := by
    rw [lineOf?]
    cases result x <;> simp
  simp only [List.length_pos_iff_exists_mem, List.mem_filterMap, ← hline]
  constructor
  · rintro ⟨text, x, hx, htext⟩
    exact ⟨x, hx, text, htext⟩
  · rintro ⟨x, hx, text, htext⟩
    exact ⟨text, x, hx, htext⟩

/-- **The exit status of a run into a folder that can be made.**  There is one exactly when each
file lies on a path, holds a text and no number that is too long, and no canvas has too long rows.
Then it is `1` exactly when a file cannot be read, or a drawing painted or written; each of these
has its line, in the order of the files; and every other drawing has its picture in the folder, if
no later one that has a picture has a file of that name.

The condition is exact for files that are named by texts and for a memory that holds the pictures: a
name that is not UTF-8 and a picture that does not fit into the memory are beyond it. -/
theorem status_of_makeFolders (hne : files ≠ [])
    (hwords : ∀ word ∈ folder :: files, Arguments.IsWord word) (htree : store.IsTree)
    (hmake : store.makeFolders folder = .ok made) (hfolder : made.isFolder folder = true)
    (generators : Nat → Generator) :
    ∃ a, Arguments.read (files ++ ["--outdir", folder]) = .ok a ∧
      ((∃ status, (run a generators store).1 = .ok status) ↔
        (∀ path ∈ files, Char.ofNat 0 ∉ path.toList ∧
          reading Library.builtin store path ≠ .error .notText ∧
          ∀ count, reading Library.builtin store path ≠
            .error (.record (.tooManyDigits count))) ∧
        ∀ x ∈ drawingsOf store files, x.1.canvas.width ≤ Raster.longestRow) ∧
      ∀ status session, run a generators store = (.ok status, session) →
        (status = 0 ∨ status = 1) ∧
        (status = 1 ↔
          (∃ path ∈ files, ∃ e, reading Library.builtin store path = .error e) ∨
            ∃ x ∈ drawingsOf store files, ∃ e,
              rendering folder made generators x = .error e) ∧
        session.messages.toList = readingLines store files ++
          paintingLines folder made generators (drawingsOf store files) ∧
        ∀ before x after, drawingsOf store files = before ++ x :: after →
          ∀ image, rendering folder made generators x = .ok image →
            (∀ y ∈ after, fileName y.1 = fileName x.1 →
              ∃ e, rendering folder made generators y = .error e) →
            session.store.read (Path.join folder (fileName x.1)) = .ok (.image image) := by
  obtain ⟨place, h⟩ := exists_isMade htree hmake hfolder
  refine ⟨_, Arguments.read_plain hne hwords,
    (exists_status_iff h).trans (isForgiven_iff h), ?_⟩
  intro status' session hrun
  have hforgiven := (exists_status_iff h).mp ⟨status', congrArg Prod.fst hrun⟩
  obtain ⟨t, hends, hmessages, hpainted⟩ := exists_run_eq_ok h hforgiven
  obtain ⟨hstatus, rfl⟩ := Prod.mk.inj (hrun.symm.trans hends)
  rw [Except.ok.injEq] at hstatus
  refine ⟨?_, ?_, hmessages, fun before x after hdrawings image hrendering hlater => ?_⟩
  · rw [hstatus, status]
    split
    · exact .inl rfl
    · exact .inr rfl
  · rw [hstatus, status_eq_one_iff, Nat.add_pos_iff_pos_or_pos, readingLines, paintingLines,
      length_lines_pos_iff, length_lines_pos_iff]
  · have hx : x ∈ drawingsOf store files := by
      rw [hdrawings]
      exact List.mem_append_right _ List.mem_cons_self
    obtain ⟨path, -, hread⟩ := exists_of_mem_drawingsOf hx
    rw [hdrawings] at hpainted
    exact read_of_hasPainted h hpainted (isNamed_of_reading hread) hrendering hlater

/-- A file with a fault and one without. -/
def sampleStore : Store :=
  ((Store.ofHome ["home"]).put ["home", "a.txt"] (.file (.text "width=ten"))).put ["home", "b.txt"]
    (.file (.text "width=8, height=4"))

theorem status_of_sampleStore :
    ∃ a, Arguments.read ["a.txt", "b.txt", "--outdir", "o"] = .ok a ∧
      ∃ session, run a (fun _ => Generator.zero) sampleStore = (.ok 1, session) := by
  have htree : sampleStore.IsTree := by
    refine (Store.alike_put ?_).isTree ((Store.alike_put ?_).isTree (Store.isTree_ofHome _))
    · decide
    · decide
  have hmake : (sampleStore.makeFolders "o").toOption.any (·.isFolder "o") = true := by
    decide +kernel
  obtain ⟨made, hmake, hfolder⟩ := Option.any_eq_true _ _ |>.mp hmake
  have hreads : ∀ path ∈ ["a.txt", "b.txt"], ∀ e,
      reading Library.builtin sampleStore path = .error e → e.isOfReading = true := by
    have hforgiven : (["a.txt", "b.txt"].all fun path =>
        match reading Library.builtin sampleStore path with
        | .ok _ => true
        | .error e => e.isOfReading) = true := by
      decide +kernel
    intro path hpath e he
    have := List.all_eq_true.mp hforgiven path hpath
    rwa [he] at this
  have hfault : ∃ e, reading Library.builtin sampleStore "a.txt" = .error e := by
    have hnone : (reading Library.builtin sampleStore "a.txt").toOption.isNone = true := by
      decide +kernel
    cases hread : reading Library.builtin sampleStore "a.txt" with
    | error e => exact ⟨e, rfl⟩
    | ok d =>
      rw [hread] at hnone
      cases hnone
  have hwidths : ∀ x ∈ drawingsOf sampleStore ["a.txt", "b.txt"],
      x.1.canvas.width ≤ Raster.longestRow := by
    have hshort : ((drawingsOf sampleStore ["a.txt", "b.txt"]).all fun x =>
        x.1.canvas.width ≤ Raster.longestRow) = true := by
      decide +kernel
    exact fun x hx => of_decide_eq_true (List.all_eq_true.mp hshort x hx)
  have hne : ["a.txt", "b.txt"] ≠ [] := List.cons_ne_nil _ _
  obtain ⟨a, hread, hreturns, hstatus⟩ := status_of_makeFolders hne (by decide) htree
    (toOption_eq_some_iff.mp hmake) hfolder fun _ => Generator.zero
  obtain ⟨status, hrun⟩ :=
    hreturns.mpr ⟨fun path hpath => isOfReading_iff.mp (hreads path hpath), hwidths⟩
  refine ⟨a, hread, (run a (fun _ => Generator.zero) sampleStore).2, ?_⟩
  obtain ⟨-, hone, -⟩ := hstatus status _ (Prod.ext hrun rfl)
  have : status = 1 := hone.mpr (.inl ⟨"a.txt", List.mem_cons_self, hfault⟩)
  exact Prod.ext (this ▸ hrun) rfl

-- A file that holds no text ends the run, and the other file has no picture.
example : (run (plain ["a.txt", "b.txt"] "o") (fun _ => Generator.zero)
    (sampleStore.put ["home", "a.txt"] (.file (.bytes ⟨#[0xff]⟩)))).1.toOption = none := by
  decide +kernel

end Stencil.CommandLine
