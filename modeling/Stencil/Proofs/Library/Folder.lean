import Stencil.Library.Folder
import Stencil.Proofs.Session
import Stencil.Proofs.Shape.Template
import Stencil.Proofs.Store.Changes

/-!
# Proofs/Library/Folder — loading a folder restores the built-in shapes and nothing else

    folder ──makeMissing──▸ ──write the six──▸ ──read the six, then the others──▸ library
      ▴                                                                             │
      └───────────────────────────────── again, the same ───────────────────────────┘

What loading the library of a folder does is told by the files alone
(`exists_run_libraryOfFolder_iff`).  Whatever the files of the built-in shapes held, they hold
their templates afterwards, and these are read back as the shapes they were written from
(`Shape.ofTemplate_toTemplate`).  Every other file is as it was, and every other
template is read, once, in the order of the names.  Loading again changes nothing at all and gives
the same library (`libraryOfFolder_restores`).  Of the template of any shape that is written to any
file, `readTemplate_writeTemplate` says how the shape comes back.
-/

namespace Stencil

/-! ## The templates of the built-in shapes -/

namespace Template

/-- The names of the built-in files are names, and no two are the same. -/
theorem isName_of_mem_builtinNames : ∀ name ∈ builtinNames, Path.IsName name := by
  have hall : ∀ name ∈ builtinNames, '/' ∉ name.toList ∧ name ≠ "" ∧ name ≠ "." ∧ name ≠ ".." := by
    decide
  intro name hname
  obtain ⟨hslash, hempty, hdot, hdots⟩ := hall name hname
  exact ⟨hslash, hempty, hdot, hdots⟩

theorem isName_fileName : ∀ shape ∈ Shape.builtins, Path.IsName (fileName shape) :=
  fun _ hshape => isName_of_mem_builtinNames _ (List.mem_map_of_mem hshape)

theorem nodup_builtinNames : builtinNames.Nodup := by
  decide

end Template

/-! ## Libraries -/

namespace Library

variable {l l' : Library}

theorem shapes_of_addAll {shapes : List Shape} (h : l.addAll (shapes.map some) = .ok l') :
    l'.shapes = l.shapes ++ shapes := by
  induction shapes generalizing l with
  | nil =>
    cases h
    exact (List.append_nil _).symm
  | cons s rest ih =>
    obtain ⟨m, hm, hrest⟩ := bind_eq_ok_iff.mp h
    rw [add] at hm
    split at hm
    next => cases hm
    next =>
      cases hm
      rw [ih hrest, List.append_assoc, List.singleton_append]

/-- **A library of some shapes** holds them in their order. -/
theorem shapes_of_ofShapes {shapes : List Shape} (h : ofShapes (shapes.map some) = .ok l) :
    l.shapes = shapes :=
  shapes_of_addAll h

end Library

/-- A failure to read a file, told of a template. -/
def Failure.inTemplate : Failure → Failure
  | .notText => .template .notText
  | e => e

namespace Store

variable {s t : Store} {place : Place} {folder name : String} {contents : Contents}

/-! ## The names in a folder -/

theorem lookup_isSome_iff {entries : List (Place × Entry)} :
    (∃ e, lookup entries place = some e) ↔ ∃ x ∈ entries, x.1 = place := by
  induction entries with
  | nil => simp [lookup]
  | cons x rest ih =>
    rw [lookup]
    by_cases hx : x.1 = place <;> simp [hx, ih]

theorem nameIn?_eq_some_iff {q : Place} : nameIn? place q = some name ↔ q = place ++ [name] := by
  rw [nameIn?]
  split
  next last hlast =>
    obtain ⟨before, rfl⟩ := List.getLast?_eq_some_iff.mp hlast
    rw [List.dropLast_concat, List.append_singleton_inj]
    split
    next h => simp [h]
    next h => simp [h]
  next hnone =>
    rw [List.getLast?_eq_none_iff.mp hnone]
    simp

/-- **The names in a folder** are those of what is there. -/
theorem mem_names_iff : name ∈ s.names place ↔ ∃ e, s.get? (place ++ [name]) = some e := by
  rw [names, List.mem_mergeSort, List.mem_filterMap, get?, if_neg (by simp), lookup_isSome_iff]
  simp only [nameIn?_eq_some_iff]

section Child

variable (hlocate : s.locate folder = .ok place) (hplace : s.get? place = some .folder)
  (hname : Path.IsName name)

include hname in
theorem wantsFolder_child : wantsFolder (Path.child folder name) = false := by
  rw [wantsFolder, Path.lastPart_child folder hname, decide_eq_false_iff_not]
  exact hname.ne_empty

include hlocate hplace hname

/-- Where a child of a folder is. -/
theorem locate_child (hpath : IsPath (Path.child folder name)) :
    s.locate (Path.child folder name) = .ok (place ++ [name]) := by
  obtain ⟨-, hwalk, -⟩ := locate_eq_ok_iff.mp hlocate
  have hstart : s.startOf (Path.child folder name) = s.startOf folder := by
    rw [startOf, startOf, Path.isAbsolute_child folder hname]
  rw [locate_eq_ok_iff, hstart, Path.steps_child folder hname,
    Path.endsInDot_of_lastPart (Path.lastPart_child folder hname) hname]
  exact ⟨hpath, walk_concat hname.ne_dots hwalk hplace, fun hdot => absurd hdot Bool.false_ne_true⟩

end Child

/-! ## Files written and read -/

/-- The template of a shape written to a folder. -/
def writeTemplate (folder : String) (s : Store) (shape : Shape) : Except Error Store :=
  s.write (Path.child folder (Template.fileName shape)) (.text shape.toTemplate)

/-- **What a template's file gives**: a file that holds no text is at fault as a template. -/
def template (s : Store) (path : String) : Except Failure Shape :=
  ((s.text path).mapError Failure.inTemplate).bind fun text =>
    (Shape.ofTemplate text).mapError .template

theorem text_eq_ok_iff {path text : String} : s.text path = .ok text ↔
    ∃ contents, s.read path = .ok contents ∧ contents.text? = some text := by
  rw [Store.text, bind_eq_ok_iff]
  simp only [mapError_eq_ok_iff]
  refine exists_congr fun contents => and_congr_right fun _ => ?_
  cases contents.text? <;> simp

theorem template_eq_ok_iff {path : String} {shape : Shape} : s.template path = .ok shape ↔
    ∃ text, s.text path = .ok text ∧ Shape.ofTemplate text = .ok shape := by
  simp only [template, bind_eq_ok_iff, mapError_eq_ok_iff]

section Folder

variable {shapes : List Shape}

/-- **Templates written to a folder** change the files of their names, and nothing else. -/
theorem changes_foldlM_writeTemplate (hlocate : s.locate folder = .ok place)
    (hplace : s.get? place = some .folder)
    (hnames : ∀ shape ∈ shapes, Path.IsName (Template.fileName shape))
    (hnodup : (shapes.map Template.fileName).Nodup)
    (h : shapes.foldlM (writeTemplate folder) s = .ok t) :
    Changes (fun p => ∃ shape ∈ shapes, p = place ++ [Template.fileName shape]) s t ∧
      ∀ shape ∈ shapes,
        t.locate (Path.child folder (Template.fileName shape)) =
          .ok (place ++ [Template.fileName shape]) ∧
        t.get? (place ++ [Template.fileName shape]) = some (.file (.text shape.toTemplate)) := by
  induction shapes generalizing s with
  | nil =>
    cases h
    exact ⟨.refl _ _, fun _ hs => nomatch hs⟩
  | cons shape rest ih =>
    obtain ⟨hname, hnames⟩ := List.forall_mem_cons.mp hnames
    rw [List.map_cons, List.nodup_cons] at hnodup
    rw [List.foldlM_cons] at h
    obtain ⟨u, hwrite, hrest⟩ := bind_eq_ok_iff.mp h
    have hchild := locate_child hlocate hplace hname (IsPath.of_write hwrite)
    obtain ⟨hchanges, hfile⟩ := changes_write hwrite hchild
    obtain ⟨hlater, hfiles⟩ := ih (hchanges.locate hlocate) (hchanges.folder _ hplace) hnames
      hnodup.2 hrest
    have hother : ¬∃ shape' ∈ rest,
        place ++ [Template.fileName shape] = place ++ [Template.fileName shape'] := by
      rintro ⟨shape', hmem, heq⟩
      rw [List.append_cancel_left_eq, List.singleton_inj] at heq
      exact hnodup.1 (heq ▸ List.mem_map_of_mem hmem)
    refine ⟨?_, List.forall_mem_cons.mpr ⟨⟨?_, ?_⟩, hfiles⟩⟩
    · refine (hchanges.mono ?_).trans (hlater.mono ?_)
      · rintro p rfl
        exact ⟨shape, List.mem_cons_self, rfl⟩
      · rintro p ⟨shape', hmem, rfl⟩
        exact ⟨shape', List.mem_cons_of_mem _ hmem, rfl⟩
    · exact hlater.locate (hchanges.locate hchild)
    · exact (hlater.file _ hother _).mpr hfile

theorem template_of_text {path text : String} {shape : Shape} (hlocate : s.locate path = .ok place)
    (hfile : s.get? place = some (.file (.text text))) (hslash : wantsFolder path = false)
    (hshape : Shape.ofTemplate text = .ok shape) : s.template path = .ok shape :=
  template_eq_ok_iff.mpr
    ⟨text, text_eq_ok_iff.mpr ⟨.text text, read_eq_ok hlocate hfile hslash, rfl⟩, hshape⟩

theorem IsNamed.writeTemplates (hs : s.IsNamed)
    (h : shapes.foldlM (writeTemplate folder) s = .ok t) : t.IsNamed :=
  foldlM_keeps (fun _ _ _ _ hs hwrite => hs.write hwrite) hs h

end Folder

end Store

namespace Session

variable {s t : Session} {folder path : String} {library : Library}

/-! ## Loading, told by the files -/

/-- Reading whose failure is caught and told in other words changes nothing. -/
theorem run_tryCatch_readText {handler : Failure → Work String} {f : Failure → Failure}
    (h : ∀ e, handler e = throw (f e)) (path : String) (s : Session) :
    s.run (tryCatch (readText path) handler) = ((s.store.text path).mapError f, s) := by
  rw [run_tryCatch, run_readText]
  cases s.store.text path with
  | error e =>
    dsimp only
    rw [h]
    rfl
  | ok text => rfl

theorem run_readTemplate (path : String) (s : Session) :
    s.run (readTemplate path) = (s.store.template path, s) := by
  unfold readTemplate
  rw [Store.template]
  cases htext : (s.store.text path).mapError Failure.inTemplate with
  | ok text =>
    rw [run_bind_of_ok ((run_tryCatch_readText (fun e => ?_) path s).trans (by rw [htext])),
      run_check]
    · rfl
    · cases e <;> rfl
  | error e =>
    refine run_bind_of_error ((run_tryCatch_readText (fun e => ?_) path s).trans (by rw [htext]))
    cases e <;> rfl

/-- **Reading several templates** changes nothing. -/
theorem run_readTemplates (folder : String) (names : List String) (s : Session) :
    s.run (readTemplates folder names) =
      (names.mapM fun name => s.store.template (Path.child folder name), s) := by
  induction names with
  | nil => rfl
  | cons name rest ih =>
    have hname := run_readTemplate (Path.child folder name) s
    let f := fun name => s.store.template (Path.child folder name)
    change _ = ((name :: rest).mapM f, s)
    change _ = (rest.mapM f, s) at ih
    rw [readTemplates]
    cases hfirst : s.store.template (Path.child folder name) with
    | error e =>
      rw [hfirst] at hname
      rw [run_bind_of_error hname, mapM_cons_of_error (f := f) hfirst]
    | ok shape =>
      rw [hfirst] at hname
      rw [run_bind_of_ok hname, mapM_cons_of_ok (f := f) hfirst]
      cases hrest : rest.mapM f with
      | error e =>
        rw [hrest] at ih
        exact run_bind_of_error ih
      | ok shapes =>
        rw [hrest] at ih
        exact run_bind_of_ok ih

/-- **Writing templates**, told by the files. -/
theorem exists_run_writeTemplates_iff {shapes : List Shape} {store : Store} :
    (∃ t, s.run (writeTemplates folder shapes) = (.ok (), t) ∧ t.store = store) ↔
      shapes.foldlM (Store.writeTemplate folder) s.store = .ok store := by
  induction shapes generalizing s with
  | nil =>
    constructor
    · rintro ⟨_, ⟨⟩, rfl⟩
      rfl
    · rintro ⟨⟩
      exact ⟨s, rfl, rfl⟩
  | cons shape rest ih =>
    rw [List.foldlM_cons]
    change _ ↔ Except.bind _ _ = _
    rw [bind_eq_ok_iff, writeTemplates]
    constructor
    · rintro ⟨t, hrun, rfl⟩
      rw [run_bind_of_ok (run_tell_eq _ _ s)] at hrun
      obtain ⟨_, u, hchange, hrest⟩ := run_bind_eq_ok_iff.mp hrun
      obtain ⟨made, hmade, rfl⟩ := run_change_eq_ok_iff.mp hchange
      rw [store_told] at hmade
      exact ⟨made, hmade, ih.mp ⟨t, hrest, rfl⟩⟩
    · rintro ⟨made, hmade, hrest⟩
      rw [← store_told s templateTopic] at hmade
      obtain ⟨t, ht, rfl⟩ := (ih (s := { s.told templateTopic _ with store := made })).mpr hrest
      refine ⟨t, ?_, rfl⟩
      rw [run_bind_of_ok (run_tell_eq _ _ s), writeTemplate,
        run_bind_of_ok (run_change_of_ok hmade)]
      exact ht

/-- **What loading the library of a folder comes to** is told by the files alone. -/
theorem exists_run_libraryOfFolder_iff {store : Store} :
    (∃ t, s.run (libraryOfFolder path) = (.ok library, t) ∧ t.store = store) ↔
      ∃ made shapes, s.store.makeMissing (Path.simplify path) = .ok made ∧
        Shape.builtins.foldlM (Store.writeTemplate (Path.simplify path)) made = .ok store ∧
        ((templateNames store (Path.simplify path)).mapM fun name =>
          store.template (Path.child (Path.simplify path) name)) = .ok shapes ∧
        Library.ofShapes (shapes.map some) = .ok library := by
  constructor
  · rintro ⟨t, hrun, rfl⟩
    obtain ⟨_, u, hchange, hrun⟩ := run_bind_eq_ok_iff.mp hrun
    obtain ⟨made, hmade, rfl⟩ := run_change_eq_ok_iff.mp hchange
    obtain ⟨_, v, hwritten, hrun⟩ := run_bind_eq_ok_iff.mp hrun
    rw [run_bind_of_ok (run_get v)] at hrun
    obtain ⟨shapes, w, hread, hrun⟩ := run_bind_eq_ok_iff.mp hrun
    rw [run_readTemplates, Prod.mk.injEq] at hread
    obtain ⟨hread, rfl⟩ := hread
    rw [run_bind_of_ok (run_tell_eq _ _ v), run_check, Prod.mk.injEq, mapError_eq_ok_iff] at hrun
    obtain ⟨hlibrary, rfl⟩ := hrun
    have hwritten := exists_run_writeTemplates_iff.mp ⟨v, hwritten, rfl⟩
    rw [store_told]
    exact ⟨made, shapes, hmade, hwritten, hread, hlibrary⟩
  · rintro ⟨made, shapes, hmade, hwritten, hread, hlibrary⟩
    obtain ⟨v, hv, rfl⟩ :=
      (exists_run_writeTemplates_iff (s := { s with store := made })).mpr hwritten
    have hshapes := run_readTemplates (Path.simplify path)
      (templateNames v.store (Path.simplify path)) v
    rw [hread] at hshapes
    have hrun : ∃ message, s.run (libraryOfFolder path) =
        (.ok library, v.told templateTopic message) := by
      rw [libraryOfFolder, run_bind_of_ok (run_change_of_ok hmade), run_bind_of_ok hv,
        run_bind_of_ok (run_get v), run_bind_of_ok hshapes, run_bind_of_ok (run_tell_eq _ _ v),
        run_check, hlibrary]
      exact ⟨_, rfl⟩
    obtain ⟨message, hrun⟩ := hrun
    exact ⟨_, hrun, store_told v templateTopic message⟩

end Session

/-! ## What loading leaves -/

/-- A place of a built-in template in a folder. -/
def Template.IsBuiltinPlace (place p : Place) : Prop :=
  ∃ shape ∈ Shape.builtins, p = place ++ [Template.fileName shape]

/-- **A store in which the built-in templates were restored** in a folder. -/
structure Store.IsRestored (s t : Store) (folder : String) (place : Place) : Prop where
  locate : t.locate folder = .ok place
  get? : t.get? place = some .folder
  changes : Changes (Template.IsBuiltinPlace place) s t
  locate_child : ∀ shape ∈ Shape.builtins,
    t.locate (Path.child folder (Template.fileName shape)) =
      .ok (place ++ [Template.fileName shape])
  get?_child : ∀ shape ∈ Shape.builtins,
    t.get? (place ++ [Template.fileName shape]) = some (.file (.text shape.toTemplate))

namespace Store.IsRestored

variable {s t made : Store} {folder name : String} {place : Place} {shapes : List Shape}

/-- The folder is made, and then the six files are written. -/
theorem of_written (hmade : Changes Nowhere s made) (hlocate : made.locate folder = .ok place)
    (hplace : made.get? place = some .folder)
    (hwritten : Shape.builtins.foldlM (writeTemplate folder) made = .ok t) :
    IsRestored s t folder place := by
  obtain ⟨hwrites, hfiles⟩ := changes_foldlM_writeTemplate hlocate hplace
    Template.isName_fileName Template.nodup_builtinNames hwritten
  exact ⟨hwrites.locate hlocate, hwrites.folder place hplace,
    (hmade.mono fun _ => False.elim).trans hwrites, fun shape hshape => (hfiles shape hshape).1,
    fun shape hshape => (hfiles shape hshape).2⟩

variable (h : IsRestored s t folder place)
include h

/-- The built-in templates are read as the built-in shapes. -/
theorem mapM_template_builtinNames :
    (Template.builtinNames.mapM fun name => t.template (Path.child folder name)) =
      .ok Shape.builtins := by
  rw [mapM_eq_ok_iff, Template.builtinNames, List.forall₂_map_left_iff, List.forall₂_same]
  intro shape hshape
  exact template_of_text (h.locate_child shape hshape) (h.get?_child shape hshape)
    (wantsFolder_child (Template.isName_fileName shape hshape))
    (shape.ofTemplate_toTemplate.trans (by rw [Shape.joined_of_mem_builtins shape hshape]))

/-- **The shapes that are read**: the built-in ones, and one for each other template. -/
theorem mapM_template_eq_ok_iff :
    ((Session.templateNames t folder).mapM fun name => t.template (Path.child folder name)) =
        .ok shapes ↔
      ∃ templates, (((t.names place).filter Template.isExtra).mapM fun name =>
        t.template (Path.child folder name)) = .ok templates ∧
          Shape.builtins ++ templates = shapes := by
  rw [Session.templateNames, h.locate]
  simp only
  rw [List.mapM_append, h.mapM_template_builtinNames]
  exact map_eq_ok_iff

end Store.IsRestored

namespace Session

variable {s : Session} {path : String} {library : Library}

/-- **Loading succeeds** when the built-in templates can be written, the others can be read, and no
two shapes have one name. -/
theorem exists_run_libraryOfFolder {made store : Store} {place : Place} {templates : List Shape}
    (hmade : s.store.makeMissing (Path.simplify path) = .ok made)
    (hwritten : Shape.builtins.foldlM (Store.writeTemplate (Path.simplify path)) made = .ok store)
    (hlocate : made.locate (Path.simplify path) = .ok place)
    (hplace : made.get? place = some .folder)
    (htemplates : (((store.names place).filter Template.isExtra).mapM fun name =>
      store.template (Path.child (Path.simplify path) name)) = .ok templates)
    (hlibrary : Library.ofShapes ((Shape.builtins ++ templates).map some) = .ok library) :
    ∃ t, s.run (libraryOfFolder path) = (.ok library, t) ∧ t.store = store := by
  have hrestored := Store.IsRestored.of_written (.refl _ made) hlocate hplace hwritten
  exact exists_run_libraryOfFolder_iff.mpr ⟨made, _, hmade, hwritten,
    hrestored.mapM_template_eq_ok_iff.mpr ⟨templates, htemplates, rfl⟩, hlibrary⟩

/-- A folder of templates: one of a built-in shape, spoilt, and one of another shape. -/
def sampleFolder : Store :=
  ⟨["w"], [(["w"], .folder), (["w", "t"], .folder), (["w", "t", "star.json"], .file (.text "[]")),
    (["w", "t", "Kite.json"],
      .file (.text "\x7b\"name\": \"Kite\", \"points\": [[0, 1]]\x7d")),
    (["w", "t", "notes"], .file (.text ""))]⟩

/-- The folder is loaded: its own shape comes last. -/
theorem exists_run_libraryOfFolder_sampleFolder :
    ∃ library s' kite, (Session.start sampleFolder).run (libraryOfFolder "t") = (.ok library, s') ∧
      library.shapes = Shape.builtins ++ [kite] ∧ kite.name = .plain "Kite" ∧
      s'.store.locate (Path.simplify "t") = .ok ["w", "t"] := by
  have hfolder : sampleFolder.isFolder (Path.simplify "t") = true := by decide +kernel
  have hlocate : (sampleFolder.locate (Path.simplify "t")).toOption = some ["w", "t"] := by
    decide +kernel
  have hloaded : ((Shape.builtins.foldlM (Store.writeTemplate (Path.simplify "t"))
      sampleFolder).toOption.bind fun store =>
        (store.template (Path.child (Path.simplify "t") "Kite.json")).toOption.bind fun kite =>
          (Library.ofShapes ((Shape.builtins ++ [kite]).map some)).toOption.map fun _ =>
            (kite.name, (store.entries.filterMap fun e => Store.nameIn? ["w", "t"] e.1).filter
              Template.isExtra)) = some (.plain "Kite", ["Kite.json"]) := by
    decide +kernel
  obtain ⟨store, hwritten, hloaded⟩ := Option.bind_eq_some_iff.mp hloaded
  obtain ⟨kite, hkite, hloaded⟩ := Option.bind_eq_some_iff.mp hloaded
  obtain ⟨library, hlibrary, hnames⟩ := Option.map_eq_some_iff.mp hloaded
  obtain ⟨hname, hnames⟩ := Prod.mk.inj hnames
  rw [toOption_eq_some_iff] at hlocate hwritten hkite hlibrary
  have hextra : (store.names ["w", "t"]).filter Template.isExtra = ["Kite.json"] :=
    List.perm_singleton.mp (((List.mergeSort_perm _ _).filter _).trans (.of_eq hnames))
  have htemplates : (((store.names ["w", "t"]).filter Template.isExtra).mapM fun name =>
      store.template (Path.child (Path.simplify "t") name)) = .ok [kite] := by
    rw [hextra, mapM_eq_ok_iff]
    exact .cons hkite .nil
  obtain ⟨s', hrun, rfl⟩ := exists_run_libraryOfFolder (s := Session.start sampleFolder)
    (Store.makeMissing_of_isFolder hfolder) hwritten hlocate rfl htemplates hlibrary
  exact ⟨library, s', kite, hrun, Library.shapes_of_ofShapes hlibrary, hname,
    (Store.IsRestored.of_written (.refl _ _) hlocate rfl hwritten).locate⟩

end Session

/-! ## One template -/

namespace Session

open Json (HasPair not_hasPair_plain)

variable {shape : Shape} {path : String} {s t : Session}

/-- **What is written to a template's file is read from it**: the same points in the same order,
and the same name if no two halves of a pair stand side by side in it. -/
theorem readTemplate_writeTemplate (hwrite : s.run (writeTemplate path shape) = (.ok (), t)) :
    ∃ back, t.run (readTemplate path) = (.ok back, t) ∧ back.points = shape.points ∧
      back.name = Json.joined shape.name ∧ (back = shape ↔ ¬HasPair shape.name.points) ∧
      ((∀ p ∈ shape.points, p.x.isNaN = false ∧ p.y.isNaN = false) →
        ((back == shape) = true ↔ ¬HasPair shape.name.points)) := by
  obtain ⟨store, hstore, rfl⟩ := run_change_eq_ok_iff.mp hwrite
  obtain ⟨place, hlocate, hfile, hslash, -⟩ := Store.wrote_of_write hstore
  have hread := Store.template_of_text hlocate hfile hslash shape.ofTemplate_toTemplate
  refine ⟨shape.joined, (run_readTemplate path _).trans (by rw [hread]), rfl, rfl,
    Shape.joined_eq_self_iff, fun hnumbers => ?_⟩
  rw [← Shape.joined_eq_self_iff]
  constructor
  · intro h
    have hname : shape.joined.name = shape.name := beq_iff_eq.mp (Bool.and_eq_true_iff.mp h).1
    exact Shape.joined_eq_self_iff.mpr (Json.joined_eq_self_iff.mp hname)
  · intro h
    rw [h]
    exact Shape.beq_self_of_numbers hnumbers

/-- A shape with an infinite coordinate and a nought with a minus sign. -/
def sampleShape : Shape :=
  ⟨.plain "\"é\\😀\"\n", ⟨1 / 0, -0⟩, [⟨0.1, -(1 / 0)⟩], by decide⟩

/-- The shape is read from its file as it was. -/
theorem readTemplate_writeTemplate_sampleShape :
    ∃ t, (Session.start sampleFolder).run (writeTemplate "t/new.json" sampleShape) = (.ok (), t) ∧
      ¬HasPair sampleShape.name.points ∧
      (∀ p ∈ sampleShape.points, p.x.isNaN = false ∧ p.y.isNaN = false) ∧
      t.run (readTemplate "t/new.json") = (.ok sampleShape, t) ∧
      (sampleShape == sampleShape) = true := by
  have hstore : (sampleFolder.write "t/new.json" (.text sampleShape.toTemplate)).toOption.isSome :=
    by decide +kernel
  obtain ⟨store, hstore⟩ := Option.isSome_iff_exists.mp hstore
  have hwrite := run_change_of_ok (s := Session.start sampleFolder)
    (f := fun store => store.write "t/new.json" (.text sampleShape.toTemplate))
    (toOption_eq_some_iff.mp hstore)
  have hnumbers : ∀ p ∈ sampleShape.points, p.x.isNaN = false ∧ p.y.isNaN = false := by
    decide +kernel
  have hname := not_hasPair_plain "\"é\\😀\"\n"
  obtain ⟨back, hread, -, -, hback, hbeq⟩ := readTemplate_writeTemplate hwrite
  obtain rfl := hback.mpr hname
  exact ⟨_, hwrite, hname, hnumbers, hread, (hbeq hnumbers).mpr hname⟩

end Session

end Stencil
