import Stencil.Proofs.Store.Changes
import Stencil.Proofs.Store.Writing

/-!
# Proofs/Store/Fresh — files in a folder that was not there before

    store ──makeFolders──▸ store ──write──▸ store ──write──▸ …

When folders have been made on the way to a path, the path leads to a folder, or a file stands
against it (`isFolder_or_barred_of_makeFolders`), and then it always will (`Barred.of_changes`).  A
file in a folder can only be written where there is that folder (`isFolder_of_write_join`).  A
folder that was not there before holds what has been written into it, and nothing else
(`Filled.put`).
-/

namespace Stencil.Store

variable {s t u : Store} {start place : Place} {path folder name : String}

/-! ## Files in the way -/

/-- **A way with a file on it**, or at its end. -/
def MeetsFile (s : Store) (start : Place) (steps : List String) : Prop :=
  s.walk start steps = .error .notFolder ∨
    ∃ place contents, s.walk start steps = .ok place ∧ s.get? place = some (.file contents)

theorem absence_ne_notFolder (place : Place) : absence place ≠ .notFolder := by
  rw [absence]
  split <;> decide

/-- A file on the way stays there. -/
theorem walk_eq_notFolder_of_changes (h : Changes Nowhere s t) {steps : List String}
    (hwalk : s.walk start steps = .error .notFolder) :
    t.walk start steps = .error .notFolder := by
  induction steps generalizing start with
  | nil => cases hwalk
  | cons step rest ih =>
    rw [walk] at hwalk ⊢
    split at hwalk
    next hdots =>
      rw [if_pos hdots]
      exact ih hwalk
    next hdots =>
      rw [if_neg hdots]
      split at hwalk
      next => cases hwalk
      next hrest =>
        rw [if_neg hrest]
        split at hwalk
        next hget =>
          rw [h.folder _ hget]
          exact ih hwalk
        next hget => rw [(h.file _ id _).mpr hget]
        next => exact absurd (Except.error.inj hwalk) (absence_ne_notFolder _)

theorem MeetsFile.of_changes (h : Changes Nowhere s t) {steps : List String}
    (hs : s.MeetsFile start steps) : t.MeetsFile start steps := by
  rcases hs with hwalk | ⟨place, contents, hwalk, hget⟩
  · exact .inl (walk_eq_notFolder_of_changes h hwalk)
  · exact .inr ⟨place, contents, h.walk hwalk, (h.file _ id _).mpr hget⟩

/-- **A path that can never lead to a folder**: it is none, or meets a file. -/
def Barred (s : Store) (path : String) : Prop :=
  ¬IsPath path ∨ s.MeetsFile (s.startOf path) (Path.steps path)

theorem Barred.of_changes (h : Changes Nowhere s t) (hs : s.Barred path) : t.Barred path := by
  have hstart : t.startOf path = s.startOf path := by rw [startOf, startOf, h.home]
  rw [Barred, hstart]
  exact hs.imp_right (MeetsFile.of_changes h)

theorem Barred.isFolder_ne_true (h : s.Barred path) : s.isFolder path ≠ true := by
  intro hfolder
  obtain ⟨place, hlocate, hget⟩ := isFolder_iff.mp hfolder
  obtain ⟨hpath, hwalk, -⟩ := locate_eq_ok_iff.mp hlocate
  rcases h with hnone | hwalk' | ⟨place', contents, hwalk', hget'⟩
  · exact hnone hpath
  · cases hwalk.symm.trans hwalk'
  · cases Except.ok.inj (hwalk.symm.trans hwalk')
    cases hget.symm.trans hget'

/-! ## Folders made on the way -/

/-- Nothing on a way is there already. -/
theorem walk_ne_exists {steps : List String} : s.walk start steps ≠ .error .exists := by
  have habsence (place : Place) : absence place ≠ .exists := by
    rw [absence]
    split <;> decide
  induction steps generalizing start with
  | nil => simp [walk]
  | cons step rest ih =>
    rw [walk]
    split
    · exact ih
    · split
      · simp
      · split
        · exact ih
        · simp
        · exact fun h => habsence _ (Except.error.inj h)

theorem locate_ne_exists : s.locate path ≠ .error .exists := by
  rw [locate]
  split
  · simp
  split
  · simp
  split
  · simp
  rw [ne_eq, bind_eq_error_iff]
  rintro (hwalk | ⟨place, -, henter⟩)
  · exact walk_ne_exists hwalk
  · split at henter
    · rw [enter] at henter
      split at henter
      · cases henter
      · cases henter
      · rw [absence] at henter
        split at henter <;> cases henter
    · cases henter

/-- **What stands where a folder is to be made** is the folder, or a file. -/
theorem barred_of_makeFolder {e : Error} (h : s.makeFolder path = .error e)
    (he : e.problem = .exists) (hfolder : s.isFolder path ≠ true) : s.Barred path := by
  rw [makeFolder] at h
  cases hlocate : s.locate path with
  | error problem =>
    rw [hlocate] at h
    cases h
    exact absurd (hlocate.trans (congrArg _ he)) locate_ne_exists
  | ok place =>
    rw [hlocate] at h
    obtain ⟨-, hwalk, -⟩ := locate_eq_ok_iff.mp hlocate
    dsimp only at h
    split at h
    next entry hget =>
      cases entry with
      | folder => exact absurd (isFolder_iff.mpr ⟨place, hlocate, hget⟩) hfolder
      | file contents => exact .inr (.inr ⟨place, contents, hwalk, hget⟩)
    next =>
      split at h
      next =>
        cases h
        cases he
      next => cases h

theorem length_splitName_fst_lt (h : (splitName path).2 ≠ "") :
    (splitName path).1.length < path.length := by
  rw [splitName_eq] at h ⊢
  split at h
  next htail =>
    rw [if_pos htail]
    have hshorter := Path.length_split_fst_lt h
    have hhead := (Path.isPrefix_split_fst path).length_le
    rw [String.length_toList, String.length_toList] at hhead
    omega
  next htail =>
    rw [if_neg htail]
    exact Path.length_split_fst_lt h

/-- A dot behind a path leads where the path leads, or is stopped where the path is. -/
theorem isFolder_or_barred_of_splitName (hdot : (splitName path).2 = ".")
    (hne : (splitName path).1 ≠ "")
    (h : s.isFolder (splitName path).1 = true ∨ s.Barred (splitName path).1) :
    s.isFolder path = true ∨ s.Barred path := by
  have hprefix := isPrefix_splitName_fst path
  have hstart : s.startOf (splitName path).1 = s.startOf path := by
    rw [startOf, startOf, Path.isAbsolute_of_isPrefix hprefix hne]
  have hsteps : Path.steps path = Path.steps (splitName path).1 := by
    have hdots : Path.steps "." = [] := by decide
    rw [steps_splitName path, hdot, hdots, List.append_nil]
  by_cases hpath : IsPath path
  · rcases h with hfolder | hnone | hmeets
    · obtain ⟨place, hlocate, hget⟩ := isFolder_iff.mp hfolder
      obtain ⟨-, hwalk, -⟩ := locate_eq_ok_iff.mp hlocate
      rw [hstart, ← hsteps] at hwalk
      exact .inl (isFolder_iff.mpr
        ⟨place, locate_eq_ok_iff.mpr ⟨hpath, hwalk, fun _ => hget⟩, hget⟩)
    · exact absurd (hpath.of_isPrefix hprefix hne) hnone
    · rw [hstart, ← hsteps] at hmeets
      exact .inr (.inr hmeets)
  · exact .inr (.inl hpath)

/-- The step of the recursion: those above are made first, unless they are there. -/
theorem isFolder_or_barred_of_makeFoldersWithin {fuel : Nat} {problem : Option Error}
    (hfuel : path.length < fuel) (h : s.makeFoldersWithin fuel path = (t, problem))
    (hproblem : ∀ e, problem = some e → e.problem = .exists) :
    t.isFolder path = true ∨ t.Barred path := by
  induction fuel generalizing s path t problem with
  | zero => exact absurd hfuel (Nat.not_lt_zero _)
  | succ fuel ih =>
    simp only [makeFoldersWithin_succ] at h
    generalize hnested : ((splitName path).1 ≠ "" && (splitName path).2 ≠ "" &&
      !s.contains (splitName path).1) = isNested at h
    generalize hmade : (if isNested = true then s.makeFoldersWithin fuel (splitName path).1
      else (s, none)) = made at h
    split at h
    next e hfilter =>
      cases h
      have hexists := hproblem e rfl
      have := (Option.filter_eq_some_iff.mp hfilter).2
      simp [hexists] at this
    next hfilter =>
      split at h
      next hends =>
        cases h
        obtain ⟨rfl, hdot⟩ : isNested = true ∧ (splitName path).2 = "." := by simpa using hends
        simp only [Bool.and_eq_true, decide_eq_true_eq] at hnested
        obtain ⟨⟨hne, htail⟩, -⟩ := hnested
        rw [if_pos rfl] at hmade
        have hshorter := length_splitName_fst_lt htail
        refine isFolder_or_barred_of_splitName hdot hne (ih (by omega) hmade fun e he => ?_)
        simpa [he] using hfilter
      next =>
        split at h
        next hfolder =>
          cases h
          exact .inl (changes_makeFolder hfolder).2
        next e hfolder =>
          split at h
          next hthere =>
            cases h
            exact .inl hthere
          next hthere =>
            cases h
            exact .inr (barred_of_makeFolder hfolder (hproblem e rfl) hthere)

/-- **When folders have been made**, the path leads to a folder, or meets a file. -/
theorem isFolder_or_barred_of_makeFolders (h : s.makeFolders path = .ok t) :
    t.isFolder path = true ∨ t.Barred path :=
  isFolder_or_barred_of_makeFoldersWithin (Nat.lt_succ_self _) (makeFolders_eq_ok_iff.mp h) nofun

/-! ## Names in a folder -/

/-- **A file in a folder** is written where there is that folder. -/
theorem isFolder_of_write_join {contents : Contents} (hs : s.IsTree) (hfolder : folder ≠ "")
    (hname : Path.IsName name) (h : s.write (Path.join folder name) contents = .ok t) :
    s.isFolder folder = true := by
  obtain ⟨place, hlocate, -⟩ := exists_of_write h
  obtain ⟨hpath, hwalk, -⟩ := locate_eq_ok_iff.mp hlocate
  obtain ⟨-, -, -, -, hbegins⟩ := Path.exists_join hfolder hname
  have hstart : s.startOf (Path.join folder name) = s.startOf folder := by
    rw [startOf, startOf, Path.isAbsolute_of_isPrefix hbegins hfolder]
  rw [hstart, Path.steps_join hfolder hname] at hwalk
  obtain ⟨q, hq, hget⟩ := exists_walk_of_append hs (hs.get?_startOf folder) hwalk
  exact isFolder_iff.mpr
    ⟨q, locate_eq_ok_iff.mpr ⟨hpath.of_isPrefix hbegins hfolder, hq, fun _ => hget⟩, hget⟩

/-- A folder that is there need not be made for a file in it. -/
theorem makeParent_join (hs : s.IsTree) (hname : Path.IsName name)
    (h : s.isFolder folder = true) : s.makeParent (Path.join folder name) = .ok s := by
  obtain ⟨place, hlocate, hget⟩ := isFolder_iff.mp h
  obtain ⟨hpath, hwalk, -⟩ := locate_eq_ok_iff.mp hlocate
  have hprefix := Path.isPrefix_parent_join hpath.ne_empty hname
  rw [makeParent]
  split
  next => rfl
  next hne =>
    have hstart : s.startOf (Path.parent (Path.join folder name)) = s.startOf folder := by
      rw [startOf, startOf, Path.isAbsolute_of_isPrefix hprefix hne]
    rw [← hstart, ← Path.steps_parent_join hpath.ne_empty hname] at hwalk
    refine makeFolders_of_isFolder hs (isFolder_iff.mpr ⟨place, ?_, hget⟩)
    exact locate_eq_ok_iff.mpr ⟨hpath.of_isPrefix hprefix hne, hwalk, fun _ => hget⟩

theorem IsTree.makeParent (hs : s.IsTree) (h : s.makeParent path = .ok t) : t.IsTree := by
  rw [Store.makeParent] at h
  split at h
  next =>
    cases h
    exact hs
  next => exact hs.makeFolders h

/-! ## Files in a new folder -/

/-- **A tree of folders and files**: files lie in folders, too. -/
structure IsWhole (s : Store) : Prop extends IsTree s where
  file : ∀ place contents, s.get? place = some (.file contents) →
    s.get? place.dropLast = some .folder

theorem IsWhole.of_entries (hhome : s.get? s.home = some .folder)
    (h : ∀ e ∈ s.entries, s.get? e.1.dropLast = some .folder) : s.IsWhole := by
  have hentry {place : Place} {entry : Entry} (hget : s.get? place = some entry) :
      s.get? place.dropLast = some .folder := by
    rw [get?] at hget
    split at hget
    next hroot =>
      rw [hroot]
      rfl
    next => exact h _ (exists_mem_of_lookup hget)
  exact ⟨⟨hhome, fun _ => hentry⟩, fun _ _ => hentry⟩

/-- What lies below a place lies in a folder there. -/
theorem IsWhole.get?_of_append (hs : s.IsWhole) {names : List String} {entry : Entry}
    (hne : names ≠ []) (h : s.get? (place ++ names) = some entry) :
    s.get? place = some .folder := by
  induction names using List.reverseRecOn generalizing entry with
  | nil => exact absurd rfl hne
  | append_singleton names name ih =>
    have habove : s.get? (place ++ names) = some .folder := by
      rw [← List.append_assoc] at h
      have hdrop : (place ++ names ++ [name]).dropLast = place ++ names := List.dropLast_concat
      cases entry with
      | folder => exact hdrop ▸ hs.dropLast _ h
      | file contents => exact hdrop ▸ hs.file _ _ h
    by_cases hnames : names = []
    · rwa [hnames, List.append_nil] at habove
    · exact ih hnames habove

/-- **A folder and the files that were put into it**; there are no other ones. -/
structure Filled (made : Store) (place : Place) (files : List (String × Contents)) (s : Store) :
    Prop where
  alike : Alike s made
  get?_iff : ∀ names contents, s.get? (place ++ names) = some (.file contents) ↔
    ∃ x ∈ files, names = [x.1] ∧ contents = x.2

variable {made : Store} {files : List (String × Contents)}

/-- **A new folder** holds no files. -/
theorem Filled.nil (hs : s.IsWhole) (hmade : Changes Nowhere s made) (hnew : s.get? place = none) :
    Filled made place [] made where
  alike := .refl made
  get?_iff names contents := by
    rw [hmade.file _ id]
    refine iff_of_false (fun hget => ?_) nofun
    by_cases hnames : names = []
    · rw [hnames, List.append_nil, hnew] at hget
      cases hget
    · cases hnew.symm.trans (hs.get?_of_append hnames hget)

/-- **A file under a new name** is one file more. -/
theorem Filled.put (h : Filled made place files s) (hfree : made.obstacle? (place ++ [name]) = none)
    (hnew : ∀ x ∈ files, x.1 ≠ name) (contents : Contents) :
    Filled made place (files ++ [(name, contents)])
      (s.put (place ++ [name]) (.file contents)) where
  alike := (alike_put (by rw [h.alike.obstacle?, hfree])).trans h.alike
  get?_iff names contents' := by
    have hplace : place ++ [name] ≠ [] :=
      List.append_ne_nil_of_right_ne_nil _ (List.cons_ne_nil _ _)
    by_cases hnames : names = [name]
    · rw [hnames, get?_put_self _ _ hplace]
      constructor
      · rintro ⟨⟩
        exact ⟨_, List.mem_append_right _ (List.mem_singleton_self _), rfl, rfl⟩
      · rintro ⟨x, hx, hname, rfl⟩
        rcases List.mem_append.mp hx with hx | hx
        · exact absurd (List.singleton_inj.mp hname).symm (hnew x hx)
        · rw [List.mem_singleton.mp hx]
    · have hother : place ++ names ≠ place ++ [name] := fun heq =>
        hnames (List.append_cancel_left heq)
      rw [get?_put_of_ne _ _ hother, h.get?_iff]
      simp [hnames]

end Stencil.Store
