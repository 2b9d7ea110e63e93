import Stencil.Proofs.CommandLine.Batch
import Stencil.Proofs.Drawing.Replay
import Stencil.Proofs.Store.Writing

/-!
# Proofs/CommandLine/Rendering — drawings painted into a folder

    drawings ──rendering──▸ pictures in the folder, and lines about the drawings without one

Whether a drawing gets its picture is told by the drawing and by the folder as it was made
(`rendering`): what was painted into the folder before takes nothing away (`exists_run_paint`), so
that several drawings settle (`settles_paint`).  A failure is forgiven unless the rows of the canvas
are too long (`isOfPainting_iff`).
-/

namespace Stencil.CommandLine

open Session
open Surface (Raster)

variable {store made : Store} {folder : String} {place : Place} {files : List String}
  {g : Generator} {generators : Nat → Generator} {d : Drawing} {x : Drawing × Nat} {s : Session}
  {images : List (String × Image)}

/-- The arguments that name some files, and a folder to paint them into. -/
def plain (files : List String) (folder : String) : Arguments :=
  { files := files, outdir := .value folder }

/-- The name of a drawing's file. -/
def fileName (d : Drawing) : String :=
  d.name.getD "" ++ "." ++ Format.png.name

/-! ## Pictures -/

/-- The picture of a drawing. -/
def picturing (g : Generator) (d : Drawing) : Except Failure Image :=
  ((Raster.ofSize d.canvas.size).mapError .raster).bind fun blank =>
    ((d.paint g blank #[]).1.mapError .drawing).map fun _ => (d.paint g blank #[]).2.surface.image

theorem run_paintOn {σ : Type} [Surface σ] (g : Generator) (d : Drawing) (surface : σ)
    (s : Session) :
    s.run (paintOn g d surface) =
      (((d.paint g surface s.calls).1.mapError .drawing).map fun _ =>
          (d.paint g surface s.calls).2.surface,
        { s with calls := (d.paint g surface s.calls).2.calls }) := by
  rw [paintOn, run_bind_of_ok (run_get s)]
  rcases d.paint g surface s.calls with ⟨_ | _, easel⟩ <;> rfl

/-- **A picture is made** without regard to what is told on the way. -/
theorem exists_run_picture (hcalls : s.calls = #[]) (g : Generator) (d : Drawing) :
    ∃ calls, s.run (picture g d) =
      (picturing g d, { s.told paintingTopic d.announcement with calls := calls }) := by
  have hcheck := run_check Failure.raster (Raster.ofSize d.canvas.size)
    (s.told paintingTopic d.announcement)
  rw [picture, run_bind_of_ok (run_tell_eq paintingTopic d.announcement s), picturing]
  cases hblank : Raster.ofSize d.canvas.size with
  | error e =>
    rw [hblank] at hcheck
    exact ⟨_, run_bind_of_error hcheck⟩
  | ok blank =>
    rw [hblank] at hcheck
    have hpaint := run_paintOn g d blank (s.told paintingTopic d.announcement)
    rw [calls_told, hcalls] at hpaint
    refine ⟨(d.paint g blank #[]).2.calls, ?_⟩
    rw [run_bind_of_ok hcheck]
    change _ = (((d.paint g blank #[]).1.mapError Failure.drawing).map _, _)
    cases houtcome : (d.paint g blank #[]).1 with
    | error e =>
      rw [houtcome] at hpaint
      exact run_bind_of_error hpaint
    | ok _ =>
      rw [houtcome] at hpaint
      rw [run_bind_of_ok hpaint]
      rfl

theorem outcome_picture (hcalls : s.calls = #[]) (g : Generator) (d : Drawing) :
    (s.run (picture g d)).1 = picturing g d := by
  obtain ⟨calls, hrun⟩ := exists_run_picture hcalls g d
  rw [hrun]

/-- **The picture of a drawing in its file**, in a folder of a store. The drawing comes with the
number of its generator. -/
def rendering (folder : String) (made : Store) (generators : Nat → Generator) (x : Drawing × Nat) :
    Except Failure Image :=
  (picturing (generators x.2) x.1).bind fun image =>
    ((made.write (Path.join folder (fileName x.1)) (.image image)).mapError .file).map
      fun _ => image

theorem rendering_of_picturing (folder : String) (made : Store) {image : Image}
    (h : picturing (generators x.2) x.1 = .ok image) :
    rendering folder made generators x =
      ((made.write (Path.join folder (fileName x.1)) (.image image)).mapError .file).map
        fun _ => image := by
  rw [rendering, h]
  rfl

/-! ## The folder -/

/-- **A folder that can be made** in a tree, and the place where it is then. -/
structure IsMade (store made : Store) (folder : String) (place : Place) : Prop where
  isTree : made.IsTree
  makeFolders : store.makeFolders folder = .ok made
  locate : made.locate folder = .ok place
  get? : made.get? place = some .folder

/-- The store when some pictures have been put into the folder; it is made for the first one. -/
def IsFilled (store made : Store) (place : Place) (images : List (String × Image)) (s : Store) :
    Prop :=
  s = made.withImages place images ∨ images = [] ∧ s = store

/-- The pictures have files that nothing stands against. -/
def AreTaken (made : Store) (place : Place) (images : List (String × Image)) : Prop :=
  ∀ x ∈ images, made.obstacle? (place ++ [x.1]) = none

/-- A drawing's file has a name that a folder can hold. -/
structure IsNamed (d : Drawing) : Prop where
  isName : Path.IsName (fileName d)
  null : Char.ofNat 0 ∉ (fileName d).toList

theorem IsMade.makeFolders_of_isFilled (h : IsMade store made folder place)
    (htaken : AreTaken made place images) {s : Store} (hs : IsFilled store made place images s) :
    s.makeFolders folder = .ok (made.withImages place images) := by
  rcases hs with rfl | ⟨rfl, rfl⟩
  · have halike := Store.alike_withImages htaken
    exact Store.makeFolders_of_isFolder (halike.isTree h.isTree)
      (halike.isFolder (Store.isFolder_iff.mpr ⟨place, h.locate, h.get?⟩))
  · exact h.makeFolders

/-- **A picture is written** in spite of those that are there, unless it cannot be written
at all. -/
theorem IsMade.write_withImages (h : IsMade store made folder place)
    (htaken : AreTaken made place images) (hd : IsNamed d) (image : Image) :
    (∃ e, made.write (Path.join folder (fileName d)) (.image image) = .error e ∧
      (made.withImages place images).write (Path.join folder (fileName d)) (.image image) =
        .error e ∧ e.isOfFile = true) ∨
    (∃ t, made.write (Path.join folder (fileName d)) (.image image) = .ok t ∧
      (made.withImages place images).write (Path.join folder (fileName d)) (.image image) =
        .ok (made.withImages place (images ++ [(fileName d, image)])) ∧
      made.obstacle? (place ++ [fileName d]) = none) := by
  have halike := Store.alike_withImages htaken
  rw [Store.write_join h.locate h.get? hd.isName hd.null,
    Store.write_join (halike.locate_eq_ok_iff.mpr h.locate) (halike.get?_eq_folder_iff.mpr h.get?)
      hd.isName hd.null, halike.obstacle?]
  split
  · exact .inl ⟨_, rfl, rfl, rfl⟩
  · cases hobstacle : made.obstacle? (place ++ [fileName d]) with
    | some problem =>
      refine .inl ⟨_, rfl, rfl, decide_eq_true ?_⟩
      rintro rfl
      exact Store.obstacle?_ne_notPath hobstacle
    | none =>
      refine .inr ⟨_, rfl, ?_, rfl⟩
      rw [Store.withImages_append]
      rfl

/-- The pictures that some drawings come to, with the names of their files. -/
def pictures (folder : String) (made : Store) (generators : Nat → Generator)
    (drawings : List (Drawing × Nat)) : List (String × Image) :=
  drawings.filterMap fun x =>
    (rendering folder made generators x).toOption.map (fileName x.1, ·)

/-! ## One drawing -/

/-- The line about a drawing that has a picture. -/
def progressLine (folder : String) (count i : Nat) (d : Drawing) : String :=
  s!"[{i + 1}/{count}] Rendering " ++ d.name.getD "" ++ " -> " ++ Path.join folder (fileName d)

theorem run_writeTo (files : List String) {filled : Store}
    (h : s.store.makeFolders folder = .ok filled) (count i : Nat) (image : Image) :
    s.run (writeTo (plain files folder) g folder count i d image) =
      match filled.write (Path.join folder (fileName d)) (.image image) with
      | .ok t =>
        (.ok (), { s with store := t, output := s.output.push (progressLine folder count i d) })
      | .error e =>
        (.error (.file e),
          { s with store := filled, output := s.output.push (progressLine folder count i d) }) := by
  have hformat : (plain files folder).format ≠ .value .svg := nofun
  have hchange := run_change_of_ok (f := fun store => store.makeFolders folder) h
  rw [writeTo, run_bind_of_ok hchange]
  simp only [if_neg hformat]
  rw [run_bind_of_ok (run_print _ _)]
  split
  next hwrite => exact run_change_of_ok hwrite
  next hwrite => exact run_change_of_error hwrite

/-- What is known of a session in which some drawings have been painted into the folder. -/
structure HasPainted (store made : Store) (folder : String) (place : Place)
    (generators : Nat → Generator) (drawings : List (Drawing × Nat)) (s : Session) : Prop where
  verbose : s.verbose = false
  isFilled : IsFilled store made place (pictures folder made generators drawings) s.store
  areTaken : AreTaken made place (pictures folder made generators drawings)

variable {drawings before : List (Drawing × Nat)}

/-- Before any drawing nothing has been painted. -/
theorem HasPainted.nil (hverbose : s.verbose = false) (hstore : s.store = store) :
    HasPainted store made folder place generators [] s :=
  ⟨hverbose, .inr ⟨rfl, hstore⟩, List.forall_mem_nil _⟩

theorem pictures_concat_of_error (before : List (Drawing × Nat)) {e : Failure}
    (h : rendering folder made generators x = .error e) :
    pictures folder made generators (before ++ [x]) = pictures folder made generators before := by
  simp [pictures, h, Except.toOption]

theorem pictures_concat_of_ok (before : List (Drawing × Nat)) {image : Image}
    (h : rendering folder made generators x = .ok image) :
    pictures folder made generators (before ++ [x]) =
      pictures folder made generators before ++ [(fileName x.1, image)] := by
  simp [pictures, h, Except.toOption]

/-- A drawing without a picture leaves the pictures that are there. -/
theorem HasPainted.concat_of_error {t : Session} {e : Failure}
    (hs : HasPainted store made folder place generators before s)
    (hx : rendering folder made generators x = .error e) (hverbose : t.verbose = false)
    (hstore : IsFilled store made place (pictures folder made generators before) t.store) :
    HasPainted store made folder place generators (before ++ [x]) t := by
  have hpictures := pictures_concat_of_error before hx
  refine ⟨hverbose, ?_, ?_⟩
  · rw [hpictures]
    exact hstore
  · rw [hpictures]
    exact hs.areTaken

/-- A drawing with a picture adds it to them. -/
theorem HasPainted.concat_of_ok {t : Session} {image : Image}
    (hs : HasPainted store made folder place generators before s)
    (hx : rendering folder made generators x = .ok image) (hverbose : t.verbose = false)
    (hfree : made.obstacle? (place ++ [fileName x.1]) = none)
    (hstore : t.store = made.withImages place
      (pictures folder made generators before ++ [(fileName x.1, image)])) :
    HasPainted store made folder place generators (before ++ [x]) t := by
  have hpictures := pictures_concat_of_ok before hx
  refine ⟨hverbose, ?_, ?_⟩
  · rw [hpictures]
    exact .inl hstore
  · rw [hpictures]
    exact List.forall_mem_append.mpr ⟨hs.areTaken, List.forall_mem_singleton.mpr hfree⟩

/-- **A drawing is painted into the folder** whatever has been painted there before. -/
theorem exists_run_paint (h : IsMade store made folder place) (hx : IsNamed x.1)
    (files : List String) (hs : HasPainted store made folder place generators before s)
    (count : Nat) :
    ∃ t, s.run (paint (plain files folder) (generators x.2) count x.2 x.1) =
        (rendering folder made generators x, t) ∧ t.messages = s.messages ∧
      HasPainted store made folder place generators (before ++ [x]) t := by
  have hrestart : s.run restart = (.ok (), { s with calls := #[] }) := rfl
  obtain ⟨calls, hpicture⟩ :=
    exists_run_picture (s := { s with calls := #[] }) rfl (generators x.2) x.1
  rw [told_eq_self (s := { s with calls := #[] }) hs.verbose] at hpicture
  rw [paint, run_bind_of_ok hrestart]
  cases hpicturing : picturing (generators x.2) x.1 with
  | error e =>
    have hrendering : rendering folder made generators x = .error e :=
      bind_eq_error_iff.mpr (.inl hpicturing)
    rw [hpicturing] at hpicture
    rw [run_bind_of_error hpicture, hrendering]
    exact ⟨_, rfl, rfl, hs.concat_of_error hrendering hs.verbose hs.isFilled⟩
  | ok image =>
    have hgiven : given? (plain files folder).outdir = some folder :=
      if_neg (Store.locate_eq_ok_iff.mp h.locate).1.ne_empty
    have hwriteTo := run_writeTo (g := generators x.2) (d := x.1) (s := { s with calls := calls })
      files (h.makeFolders_of_isFilled hs.areTaken hs.isFilled) count x.2 image
    have hrendering := rendering_of_picturing folder made hpicturing
    rw [hpicturing] at hpicture
    rw [run_bind_of_ok hpicture, hgiven]
    obtain ⟨e, hmade, hfilled, -⟩ | ⟨t, hmade, hfilled, hfree⟩ :=
      h.write_withImages hs.areTaken hx image
    · rw [hmade] at hrendering
      rw [hfilled] at hwriteTo
      rw [run_bind_of_error hwriteTo, hrendering]
      exact ⟨_, rfl, rfl, hs.concat_of_error hrendering hs.verbose (.inl rfl)⟩
    · rw [hmade] at hrendering
      rw [hfilled] at hwriteTo
      rw [run_bind_of_ok hwriteTo, hrendering]
      exact ⟨_, rfl, rfl, hs.concat_of_ok hrendering hs.verbose hfree rfl⟩

/-! ## What becomes of a drawing -/

theorem pictures_append_cons (before after : List (Drawing × Nat)) {image : Image}
    (h : rendering folder made generators x = .ok image) :
    pictures folder made generators (before ++ x :: after) =
      pictures folder made generators before ++
        (fileName x.1, image) :: pictures folder made generators after := by
  simp [pictures, h, Except.toOption]

/-- **A picture that was painted is in the folder**, unless a later one has a file of its name. -/
theorem read_of_hasPainted (h : IsMade store made folder place) {after : List (Drawing × Nat)}
    (hs : HasPainted store made folder place generators (before ++ x :: after) s)
    (hx : IsNamed x.1) {image : Image} (hrendering : rendering folder made generators x = .ok image)
    (hlater : ∀ y ∈ after, fileName y.1 = fileName x.1 →
      ∃ e, rendering folder made generators y = .error e) :
    s.store.read (Path.join folder (fileName x.1)) = .ok (.image image) := by
  have hpath : Store.IsPath (Path.join folder (fileName x.1)) := by
    obtain ⟨_, -, hwrite⟩ := bind_eq_ok_iff.mp hrendering
    obtain ⟨_, hwrite, -⟩ := map_eq_ok_iff.mp hwrite
    exact .of_write (mapError_eq_ok_iff.mp hwrite)
  have hnames : ∀ p ∈ pictures folder made generators after, p.1 ≠ fileName x.1 := by
    intro p hp hname
    obtain ⟨y, hy, hp⟩ := List.mem_filterMap.mp hp
    obtain ⟨_, hpainted, rfl⟩ := Option.map_eq_some_iff.mp hp
    obtain ⟨e, he⟩ := hlater y hy hname
    rw [he] at hpainted
    cases hpainted
  have hpictures := pictures_append_cons before after hrendering
  have halike := Store.alike_withImages hs.areTaken
  have hstore := hs.isFilled.resolve_right fun ⟨hnone, _⟩ => by simp [hpictures] at hnone
  rw [hstore]
  refine Store.read_join (halike.locate_eq_ok_iff.mpr h.locate)
    (halike.get?_eq_folder_iff.mpr h.get?) hx.isName hpath ?_
  rw [hpictures]
  exact Store.get?_withImages_of_last made place _ (fileName x.1, image) hnames

/-- **A drawing's failure is forgiven** unless the rows of the canvas are too long. -/
theorem isOfPainting_iff {lines : List String}
    (hread : (Script.read .strict lines).outcome = .ok x.1.script)
    (h : IsMade store made folder place) (hx : IsNamed x.1) :
    (∀ e, rendering folder made generators x = .error e → e.isOfPainting = true) ↔
      x.1.canvas.width ≤ Raster.longestRow := by
  have hnarrow := Script.isNarrow_of_read hread
  rw [← Drawing.ofSize_eq_ok_iff hnarrow.canvas]
  cases hsize : Raster.ofSize x.1.canvas.size with
  | error e =>
    refine iff_of_false (fun hforgiven => ?_) nofun
    have hpicturing : picturing (generators x.2) x.1 = .error (.raster e) := by
      rw [picturing, hsize]
      rfl
    exact Bool.false_ne_true (hforgiven _ (bind_eq_error_iff.mpr (.inl hpicturing)))
  | ok blank =>
    obtain rfl := Raster.eq_blank_of_ofSize hsize
    refine iff_of_true (fun e he => ?_) rfl
    have hpicturing : picturing (generators x.2) x.1 =
        ((x.1.paint (generators x.2) (Raster.blank x.1.canvas.size) #[]).1.mapError .drawing).map
          fun _ =>
            (x.1.paint (generators x.2) (Raster.blank x.1.canvas.size) #[]).2.surface.image := by
      rw [picturing, hsize]
      rfl
    rw [(Drawing.paint_eq_replay Raster.lawful x.1 _ _ #[]).1] at hpicturing
    rcases Drawing.paint_eq_ok_or_noShape hnarrow.canvas hnarrow.stamps (generators x.2) #[] with
      hok | ⟨s, -, -, hmissing⟩
    · rw [hok] at hpicturing
      rw [rendering_of_picturing folder made hpicturing] at he
      have hnone : AreTaken made place [] := List.forall_mem_nil _
      obtain ⟨e', hwrite, -, hfile⟩ | ⟨t, hwrite, -⟩ := h.write_withImages hnone hx _
      · rw [hwrite] at he
        cases he
        exact hfile
      · rw [hwrite] at he
        cases he
    · rw [hmissing] at hpicturing
      rw [rendering, hpicturing] at he
      cases he
      rfl

/-! ## Several drawings -/

/-- The line about a drawing that has no picture. -/
def paintingLine (x : Drawing × Nat) (e : Failure) : String :=
  "[error] " ++ x.1.name.getD "" ++ ": " ++ e.message

theorem paintAll_eq_collect (a : Arguments) (generators : Nat → Generator) (count i : Nat)
    (drawings : List Drawing) :
    paintAll a generators count i drawings =
      collect Failure.isOfPainting paintingLine
        (fun x => (x.1, ·) <$> paint a (generators x.2) count x.2 x.1) (drawings.zipIdx i) := by
  induction drawings generalizing i with
  | nil => rfl
  | cons d rest ih =>
    rw [List.zipIdx_cons, collect, ← ih, paintAll, attempt_map, bind_map_left, attempt]
    refine bind_congr fun found => bind_congr fun later => ?_
    cases found <;> rfl

/-- **Drawings settle**: none has a say in what becomes of another one. -/
theorem settles_paint (h : IsMade store made folder place) (files : List String) (count : Nat)
    (hnamed : ∀ x ∈ drawings, IsNamed x.1) :
    Settles (fun x => (x.1, ·) <$> paint (plain files folder) (generators x.2) count x.2 x.1)
      (fun x => (rendering folder made generators x).map (x.1, ·))
      (HasPainted store made folder place generators) drawings where
  messages _ hs := ⟨hs.verbose, hs.isFilled, hs.areTaken⟩
  step x hx _ _ hs := by
    obtain ⟨t, hrun, hmessages, ht⟩ := exists_run_paint h (hnamed x hx) files hs count
    refine ⟨t, ?_, hmessages, ht⟩
    rw [run_map, hrun]

end Stencil.CommandLine
