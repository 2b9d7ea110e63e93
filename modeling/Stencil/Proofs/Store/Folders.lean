import Stencil.Proofs.Path
import Stencil.Proofs.Sequence
import Stencil.Store

/-!
# Proofs/Store/Folders — the folders of a store

    root ──step──▸ folder ──step──▸ … ──step──▸ folder ──name──▸ place

A store is a tree when its home is a folder and every folder lies in one.  In a tree every place on
the way to another one is a folder (`exists_walk_of_append`), so that a folder that is there need
not be made again (`makeFolders_of_isFolder`).  Making folders leaves a tree
(`IsTree.makeFolders`), and a name in a folder is found there (`locate_join`).
-/

namespace Stencil.Store

variable {s t : Store} {start place : Place} {path folder name : String}

/-- **A tree**: the home is a folder, and every folder lies in one. -/
structure IsTree (s : Store) : Prop where
  home : s.get? s.home = some .folder
  dropLast : ∀ place : Place, s.get? place = some .folder → s.get? place.dropLast = some .folder

theorem lookup_folders (places : List Place) (place : Place) :
    lookup (places.map (·, .folder)) place = some .folder ↔ place ∈ places := by
  induction places with
  | nil => simp [lookup]
  | cons first rest ih =>
    rw [List.map_cons, lookup, List.mem_cons]
    by_cases hfirst : first = place
    · simp [hfirst]
    · rw [if_neg hfirst, ih]
      exact (or_iff_right (Ne.symm hfirst)).symm

/-- The folders of a store with nothing but its home are those above it. -/
theorem get?_ofHome {home : Place} :
    (ofHome home).get? place = some .folder ↔ place <+: home := by
  have hentries : (ofHome home).entries =
      ((List.range home.length).map fun n => home.take (n + 1)).map (·, .folder) := by
    rw [List.map_map]
    rfl
  rw [get?]
  by_cases hroot : place = []
  · simp [hroot]
  · rw [if_neg hroot, hentries, lookup_folders, List.mem_map]
    constructor
    · rintro ⟨n, -, rfl⟩
      exact List.take_prefix (n + 1) home
    · intro habove
      have hpos : 0 < place.length := List.length_pos_iff.mpr hroot
      refine ⟨place.length - 1, List.mem_range.mpr ?_, ?_⟩
      · have := habove.length_le
        omega
      · rw [Nat.sub_add_cancel hpos]
        exact (List.prefix_iff_eq_take.mp habove).symm

theorem isTree_ofHome (home : Place) : (ofHome home).IsTree where
  home := get?_ofHome.mpr List.prefix_rfl
  dropLast place h := get?_ofHome.mpr ((List.dropLast_prefix place).trans (get?_ofHome.mp h))

/-! ## The way to a place -/

/-- **One step of a way** leads up, or to a name; there has to be a folder if the way goes on. -/
theorem walk_cons_eq_ok_iff {step : String} {rest : List String} :
    s.walk start (step :: rest) = .ok place ↔
      if step = ".." then s.walk start.dropLast rest = .ok place
      else (rest ≠ [] → s.get? (start ++ [step]) = some .folder) ∧
        s.walk (start ++ [step]) rest = .ok place := by
  rw [walk]
  split
  · exact Iff.rfl
  · split
    next hrest => simp [hrest, walk]
    next hrest =>
      split
      next hget => simp [hget]
      next hget => simp [hget, hrest]
      next hget => simp [hget, hrest]

/-- A way that has a name behind it leads to a folder without that name, too. -/
theorem exists_walk_of_append (hs : s.IsTree) {steps : List String}
    (hstart : s.get? start = some .folder) (h : s.walk start (steps ++ [name]) = .ok place) :
    ∃ q, s.walk start steps = .ok q ∧ s.get? q = some .folder := by
  induction steps generalizing start with
  | nil => exact ⟨start, rfl, hstart⟩
  | cons step rest ih =>
    rw [List.cons_append, walk_cons_eq_ok_iff] at h
    simp only [walk_cons_eq_ok_iff]
    split at h
    next hdots =>
      simp only [if_pos hdots]
      exact ih (hs.dropLast start hstart) h
    next hdots =>
      have hget := h.1 (List.append_ne_nil_of_right_ne_nil rest (List.cons_ne_nil name []))
      obtain ⟨q, hq, hfolder⟩ := ih hget h.2
      simp only [if_neg hdots]
      exact ⟨q, ⟨fun _ => hget, hq⟩, hfolder⟩

/-- A name may be put behind the way to a folder. -/
theorem walk_concat {steps : List String} (hname : name ≠ "..")
    (h : s.walk start steps = .ok place) (hplace : s.get? place = some .folder) :
    s.walk start (steps ++ [name]) = .ok (place ++ [name]) := by
  induction steps generalizing start with
  | nil =>
    cases h
    rw [List.nil_append, walk, if_neg hname, if_pos rfl]
  | cons step rest ih =>
    rw [walk_cons_eq_ok_iff] at h
    rw [List.cons_append, walk_cons_eq_ok_iff]
    split at h
    next hdots =>
      rw [if_pos hdots]
      exact ih h
    next hdots =>
      rw [if_neg hdots]
      refine ⟨fun _ => ?_, ih h.2⟩
      by_cases hrest : rest = []
      · obtain ⟨-, hwalk⟩ := h
        rw [hrest] at hwalk
        cases hwalk
        exact hplace
      · exact h.1 hrest

/-- A way leads to something in a folder. -/
theorem get?_dropLast_of_walk (hs : s.IsTree) {steps : List String}
    (hstart : s.get? start = some .folder) (h : s.walk start steps = .ok place) :
    s.get? place.dropLast = some .folder := by
  induction steps generalizing start with
  | nil =>
    cases h
    exact hs.dropLast _ hstart
  | cons step rest ih =>
    rw [walk_cons_eq_ok_iff] at h
    split at h
    next => exact ih (hs.dropLast start hstart) h
    next =>
      by_cases hrest : rest = []
      · obtain ⟨-, hwalk⟩ := h
        rw [hrest] at hwalk
        cases hwalk
        rwa [List.dropLast_concat]
      · exact ih (h.1 hrest) h.2

/-! ## Paths -/

/-- **A text that can be a path**: not empty, not too long and without a null character. -/
structure IsPath (path : String) : Prop where
  null : Char.ofNat 0 ∉ path.toList
  ne_empty : path ≠ ""
  size : path.utf8ByteSize ≤ maxPath

/-- Where the steps of a path start. -/
def startOf (s : Store) (path : String) : Place :=
  if Path.isAbsolute path then [] else s.home

theorem IsTree.get?_startOf (hs : s.IsTree) (path : String) :
    s.get? (s.startOf path) = some .folder := by
  rw [startOf]
  split
  · rfl
  · exact hs.home

theorem enter_eq_ok_iff {q : Place} :
    s.enter q = .ok place ↔ q = place ∧ s.get? q = some .folder := by
  rw [enter]
  split
  next hget => simp [hget]
  next hget => simp [hget]
  next hget => simp [hget]

/-- **Where a path leads**: to the end of its steps, which is a folder if the path ends in a dot. -/
theorem locate_eq_ok_iff : s.locate path = .ok place ↔ IsPath path ∧
    s.walk (s.startOf path) (Path.steps path) = .ok place ∧
      (Path.endsInDot path = true → s.get? place = some .folder) := by
  rw [locate]
  split
  next hnull =>
    refine ⟨nofun, fun ⟨hpath, _⟩ => absurd ?_ hpath.null⟩
    simpa using hnull
  next hnull =>
    split
    next hempty => exact ⟨nofun, fun ⟨hpath, _⟩ => absurd hempty hpath.ne_empty⟩
    next hempty =>
      split
      next hsize => exact ⟨nofun, fun ⟨hpath, _⟩ => absurd hsize (Nat.not_lt.mpr hpath.size)⟩
      next hsize =>
        have hpath : IsPath path := ⟨by simpa using hnull, hempty, Nat.not_lt.mp hsize⟩
        rw [bind_eq_ok_iff]
        by_cases hdot : Path.endsInDot path = true
        · simp only [hdot, if_true, enter_eq_ok_iff, hpath, true_and, forall_const]
          constructor
          · rintro ⟨_, hwalk, rfl, hfolder⟩
            exact ⟨hwalk, hfolder⟩
          · rintro ⟨hwalk, hfolder⟩
            exact ⟨place, hwalk, rfl, hfolder⟩
        · simp only [hdot, hpath, true_and, Bool.false_eq_true, if_false, false_implies, and_true,
            Except.ok.injEq, exists_eq_right]
          rfl

theorem absence_ne_notPath (place : Place) : absence place ≠ .notPath := by
  rw [absence]
  split <;> nofun

theorem walk_ne_notPath {steps : List String} : s.walk start steps ≠ .error .notPath := by
  induction steps generalizing start with
  | nil => nofun
  | cons step rest ih =>
    rw [walk]
    split
    · exact ih
    · split
      · nofun
      · split
        · exact ih
        · nofun
        · exact fun h => absence_ne_notPath _ (Except.error.inj h)

theorem enter_ne_notPath : s.enter place ≠ .error .notPath := by
  rw [enter]
  split
  · nofun
  · nofun
  · exact fun h => absence_ne_notPath _ (Except.error.inj h)

/-- **No path** is a text with a null character, and no other one. -/
theorem locate_eq_notPath_iff :
    s.locate path = .error .notPath ↔ Char.ofNat 0 ∈ path.toList := by
  rw [locate]
  split
  next hnull => simpa using hnull
  next hnull =>
    refine iff_of_false ?_ (by simpa using hnull)
    split
    · nofun
    · split
      · nofun
      · rw [bind_eq_error_iff]
        rintro (hwalk | ⟨place, -, henter⟩)
        · exact walk_ne_notPath hwalk
        · split at henter
          · exact enter_ne_notPath henter
          · cases henter

theorem read_eq_notPath_iff {e : Error} (h : s.read path = .error e) :
    e.problem = .notPath ↔ Char.ofNat 0 ∈ path.toList := by
  rw [read] at h
  cases hlocate : s.locate path with
  | error problem =>
    rw [hlocate] at h
    cases h
    rw [← locate_eq_notPath_iff (s := s), hlocate, Except.error.injEq]
  | ok place =>
    have hnull := (locate_eq_ok_iff.mp hlocate).1.null
    rw [hlocate] at h
    refine iff_of_false ?_ hnull
    dsimp only at h
    split at h
    · cases h
      exact absence_ne_notPath place
    · cases h
      nofun
    · split at h
      · cases h
        nofun
      · cases h

/-- What is read lies on a path. -/
theorem IsPath.of_read {contents : Contents} (h : s.read path = .ok contents) : IsPath path := by
  rw [read] at h
  cases hlocate : s.locate path with
  | error problem =>
    rw [hlocate] at h
    cases h
  | ok place => exact (locate_eq_ok_iff.mp hlocate).1

/-- What is written lies on a path. -/
theorem IsPath.of_write {contents : Contents} (h : s.write path contents = .ok t) :
    IsPath path := by
  rw [write] at h
  cases hlocate : s.locate path with
  | error problem =>
    rw [hlocate] at h
    cases h
  | ok place => exact (locate_eq_ok_iff.mp hlocate).1

/-- **A path leads to a folder.** -/
theorem isFolder_iff : s.isFolder path = true ↔
    ∃ place, s.locate path = .ok place ∧ s.get? place = some .folder := by
  rw [isFolder, find?]
  cases hlocate : s.locate path with
  | error problem => simp
  | ok place =>
    cases hget : s.get? place with
    | none => simp [hget]
    | some entry =>
      cases entry with
      | folder => simp [hget]
      | file contents => by_cases hslash : wantsFolder path = true <;> simp [hget, hslash]

theorem contains_of_isFolder (h : s.isFolder path = true) : s.contains path = true := by
  rw [isFolder] at h
  rw [contains]
  split at h
  next hfind => rw [hfind]; rfl
  next => cases h

theorem IsPath.of_isPrefix (h : IsPath path) {path' : String}
    (hbegins : path'.toList <+: path.toList) (hne : path' ≠ "") : IsPath path' := by
  obtain ⟨rest, hrest⟩ := hbegins
  have hpath : path = path' ++ String.ofList rest :=
    String.toList_inj.mp (by rw [String.toList_append, String.toList_ofList, hrest])
  refine ⟨fun hnull => h.null (hrest ▸ List.mem_append_left rest hnull), hne, le_trans ?_ h.size⟩
  rw [hpath, String.utf8ByteSize_append]
  exact Nat.le_add_right _ _

/-! ## Folders made -/

theorem splitName_eq (path : String) : splitName path =
    if (Path.split path).2 = "" then Path.split (Path.split path).1 else Path.split path := rfl

/-- Cutting a path at its name leaves all its steps. -/
theorem steps_splitName (path : String) :
    Path.steps path = Path.steps (splitName path).1 ++ Path.steps (splitName path).2 := by
  rw [splitName_eq]
  by_cases htail : (Path.split path).2 = ""
  · rw [if_pos htail, Path.steps_split path, htail, Path.steps_empty, List.append_nil]
    exact Path.steps_split _
  · rw [if_neg htail]
    exact Path.steps_split path

theorem isPrefix_splitName_fst (path : String) : (splitName path).1.toList <+: path.toList := by
  rw [splitName_eq]
  by_cases htail : (Path.split path).2 = ""
  · rw [if_pos htail]
    exact (Path.isPrefix_split_fst _).trans (Path.isPrefix_split_fst path)
  · rw [if_neg htail]
    exact Path.isPrefix_split_fst path

theorem not_mem_splitName_snd (path : String) : '/' ∉ (splitName path).2.toList := by
  rw [splitName_eq]
  by_cases htail : (Path.split path).2 = ""
  · rw [if_pos htail]
    exact Path.not_mem_split_snd _
  · rw [if_neg htail]
    exact Path.not_mem_split_snd path

/-- The way to a folder leads through the folder that it lies in. -/
theorem isFolder_splitName (hs : s.IsTree) (h : s.isFolder path = true)
    (hne : (splitName path).1 ≠ "") : s.isFolder (splitName path).1 = true := by
  obtain ⟨place, hlocate, hplace⟩ := isFolder_iff.mp h
  obtain ⟨hpath, hwalk, -⟩ := locate_eq_ok_iff.mp hlocate
  have hstart : s.startOf (splitName path).1 = s.startOf path := by
    rw [startOf, startOf, Path.isAbsolute_of_isPrefix (isPrefix_splitName_fst path) hne]
  have hway : ∃ q, s.walk (s.startOf path) (Path.steps (splitName path).1) = .ok q ∧
      s.get? q = some .folder := by
    rw [steps_splitName, Path.steps_of_not_mem (not_mem_splitName_snd path)] at hwalk
    split at hwalk
    next =>
      rw [List.append_nil] at hwalk
      exact ⟨place, hwalk, hplace⟩
    next => exact exists_walk_of_append hs (hs.get?_startOf path) hwalk
  obtain ⟨q, hq, hfolder⟩ := hway
  rw [← hstart] at hq
  have hhead := hpath.of_isPrefix (isPrefix_splitName_fst path) hne
  exact isFolder_iff.mpr ⟨q, locate_eq_ok_iff.mpr ⟨hhead, hq, fun _ => hfolder⟩, hfolder⟩

theorem makeFolder_of_isFolder (h : s.isFolder path = true) :
    s.makeFolder path = .error ⟨.exists, path⟩ := by
  obtain ⟨place, hlocate, hplace⟩ := isFolder_iff.mp h
  rw [makeFolder, hlocate]
  simp only [hplace]

-- Left reducible, the cutting of the path is run on both sides of the equation.
attribute [local irreducible] splitName Store.contains makeFolder Store.isFolder in
theorem makeFoldersWithin_succ (s : Store) (fuel : Nat) (path : String) :
    s.makeFoldersWithin (fuel + 1) path =
      let isNested := (splitName path).1 ≠ "" && (splitName path).2 ≠ "" &&
        !s.contains (splitName path).1
      let made := if isNested then s.makeFoldersWithin fuel (splitName path).1 else (s, none)
      match made.2.filter fun e => e.problem ≠ .exists with
      | some e => (made.1, some e)
      | none =>
        if isNested && (splitName path).2 = "." then (made.1, none)
        else
          match made.1.makeFolder path with
          | .ok s => (s, none)
          | .error e => if made.1.isFolder path then (made.1, none) else (made.1, some e) := rfl

theorem makeFolders_eq_ok_iff :
    s.makeFolders path = .ok t ↔ s.makeFoldersWithin (path.length + 1) path = (t, none) := by
  delta makeFolders
  generalize s.makeFoldersWithin (path.length + 1) path = made
  obtain ⟨made, _ | e⟩ := made <;> simp

/-- **A folder that is there** need not be made. -/
theorem makeFolders_of_isFolder (hs : s.IsTree) (h : s.isFolder path = true) :
    s.makeFolders path = .ok s := by
  have hnested : ((splitName path).1 ≠ "" && (splitName path).2 ≠ "" &&
      !s.contains (splitName path).1) = false := by
    by_cases hne : (splitName path).1 = ""
    · simp [hne]
    · simp [contains_of_isFolder (isFolder_splitName hs h hne)]
  rw [makeFolders_eq_ok_iff, makeFoldersWithin_succ]
  simp only [hnested, makeFolder_of_isFolder h, h, Option.filter_none, Bool.false_eq_true,
    Bool.false_and, if_false, if_true]

theorem IsTree.makeFolder (hs : s.IsTree) (h : s.makeFolder path = .ok t) : t.IsTree := by
  rw [Store.makeFolder] at h
  split at h
  next => cases h
  next place hlocate =>
    split at h
    next => cases h
    next hnone =>
      split at h
      next => cases h
      next =>
        cases h
        obtain ⟨-, hwalk, -⟩ := locate_eq_ok_iff.mp hlocate
        have habove := get?_dropLast_of_walk hs (hs.get?_startOf path) hwalk
        have hkeeps {q : Place} (hq : s.get? q = some .folder) :
            (s.put place .folder).get? q = some .folder := by
          rw [get?_put_of_ne _ _ ?_, hq]
          rintro rfl
          rw [hnone] at hq
          cases hq
        refine ⟨hkeeps hs.home, fun q hq => hkeeps ?_⟩
        by_cases hplace : q = place
        · rwa [hplace]
        · rw [get?_put_of_ne _ _ hplace] at hq
          exact hs.dropLast q hq

/-- **What making one folder keeps** is kept when those above it are made, too. -/
theorem makeFoldersWithin_keeps {R : Store → Prop}
    (hR : ∀ {s t path}, R s → s.makeFolder path = .ok t → R t) (hs : R s) (fuel : Nat)
    (path : String) : R (s.makeFoldersWithin fuel path).1 := by
  induction fuel generalizing path with
  | zero => exact hs
  | succ fuel ih =>
    have habove (isNested : Bool) : R (if isNested = true then
        s.makeFoldersWithin fuel (splitName path).1 else (s, none)).1 := by
      cases isNested with
      | false => exact hs
      | true => exact ih _
    simp only [makeFoldersWithin_succ]
    generalize hnested : ((splitName path).1 ≠ "" && (splitName path).2 ≠ "" &&
      !s.contains (splitName path).1) = isNested
    have hmade := habove isNested
    generalize (if isNested = true then s.makeFoldersWithin fuel (splitName path).1
      else (s, none)) = made at hmade ⊢
    split
    next => exact hmade
    next =>
      split
      next => exact hmade
      next =>
        split
        next hfolder => exact hR hmade hfolder
        next => split <;> exact hmade

/-- What making one folder keeps is kept by making folders. -/
theorem makeFolders_keeps {R : Store → Prop}
    (hR : ∀ {s t path}, R s → s.makeFolder path = .ok t → R t) (hs : R s)
    (h : s.makeFolders path = .ok t) : R t := by
  have hmade := makeFoldersWithin_keeps hR hs (path.length + 1) path
  rwa [makeFolders_eq_ok_iff.mp h] at hmade

/-- **Making folders leaves a tree.** -/
theorem IsTree.makeFolders (hs : s.IsTree) (h : s.makeFolders path = .ok t) : t.IsTree :=
  makeFolders_keeps IsTree.makeFolder hs h

end Stencil.Store
