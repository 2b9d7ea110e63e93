import Stencil.Proofs.Store.Folders

/-!
# Proofs/Store/Changes — what a store keeps

    store ──makeFolder──▸ store ──write──▸ store ──write──▸ …

A store `Changes` to another one in some places when every folder is still there and every file but
those in these places is the one it was.  Making folders changes no file (`changes_makeFolders`,
`changes_makeMissing`), and writing one changes the place that its path leads to (`changes_write`).
Paths lead where they led before, whatever was changed (`Changes.locate`), for a way only passes
through folders.  Of all that is written under a path the last stays (`Written.exists_locate`).
-/

namespace Stencil.Store

variable {s t u : Store} {start place : Place} {path : String} {P Q : Place → Prop}

/-- **A store after changes of the files in some places.** -/
structure Changes (P : Place → Prop) (s t : Store) : Prop where
  home : t.home = s.home
  folder : ∀ p, s.get? p = some .folder → t.get? p = some .folder
  file : ∀ p, ¬P p → ∀ contents, t.get? p = some (.file contents) ↔ s.get? p = some (.file contents)

/-- No place at all. -/
abbrev Nowhere : Place → Prop := fun _ => False

theorem Changes.refl (P : Place → Prop) (s : Store) : Changes P s s :=
  ⟨rfl, fun _ h => h, fun _ _ _ => Iff.rfl⟩

theorem Changes.trans (h : Changes P s t) (h' : Changes P t u) : Changes P s u where
  home := h'.home.trans h.home
  folder p hp := h'.folder p (h.folder p hp)
  file p hp contents := (h'.file p hp contents).trans (h.file p hp contents)

theorem Changes.mono (h : Changes P s t) (hPQ : ∀ p, P p → Q p) : Changes Q s t :=
  { h with file := fun p hp => h.file p fun hP => hp (hPQ p hP) }

/-! ## Paths -/

namespace Changes

variable (h : Changes P s t)
include h

theorem walk {steps : List String} (hwalk : s.walk start steps = .ok place) :
    t.walk start steps = .ok place := by
  induction steps generalizing start with
  | nil => exact hwalk
  | cons step rest ih =>
    rw [walk_cons_eq_ok_iff] at hwalk ⊢
    split at hwalk
    next hdots =>
      rw [if_pos hdots]
      exact ih hwalk
    next hdots =>
      rw [if_neg hdots]
      exact ⟨fun hrest => h.folder _ (hwalk.1 hrest), ih hwalk.2⟩

/-- **A path leads where it led before.** -/
theorem locate (hlocate : s.locate path = .ok place) : t.locate path = .ok place := by
  obtain ⟨hpath, hwalk, hdot⟩ := locate_eq_ok_iff.mp hlocate
  have hstart : t.startOf path = s.startOf path := by rw [startOf, startOf, h.home]
  exact locate_eq_ok_iff.mpr ⟨hpath, hstart ▸ h.walk hwalk, fun hend => h.folder _ (hdot hend)⟩

/-- A folder is still there. -/
theorem isFolder (hs : s.isFolder path = true) : t.isFolder path = true := by
  obtain ⟨place, hlocate, hplace⟩ := isFolder_iff.mp hs
  exact isFolder_iff.mpr ⟨place, h.locate hlocate, h.folder place hplace⟩

end Changes

/-! ## Files -/

/-- A file put where no folder is. -/
theorem changes_put {contents : Contents} (h : s.get? place ≠ some .folder) :
    Changes (· = place) s (s.put place (.file contents)) where
  home := rfl
  folder p hp := by
    rw [get?_put_of_ne _ _ ?_, hp]
    rintro rfl
    exact h hp
  file p hp contents := by rw [get?_put_of_ne _ _ hp]

/-- **What has been written** lies where the path leads, in place of no folder. -/
theorem exists_of_write {contents : Contents} (h : s.write path contents = .ok t) :
    ∃ place, s.locate path = .ok place ∧ s.get? place ≠ some .folder ∧
      wantsFolder path = false ∧ t = s.put place (.file contents) := by
  rw [write] at h
  split at h
  next => cases h
  next place hlocate =>
    refine ⟨place, hlocate, ?_⟩
    split at h
    next => cases h
    next hget =>
      split at h
      next => cases h
      next hslash => exact ⟨by simp [hget], by simpa using hslash, (Except.ok.inj h).symm⟩
    next hget =>
      split at h
      next => cases h
      next hslash =>
        split at h
        next => cases h
        next => exact ⟨by simp [hget], by simpa using hslash, (Except.ok.inj h).symm⟩

/-- The root is a folder, so that a place without one is elsewhere. -/
theorem ne_nil_of_get? (h : s.get? place ≠ some .folder) : place ≠ [] := by
  rintro rfl
  exact h rfl

/-- **Writing a file** changes the place that its path leads to, and nothing else. -/
theorem changes_write {contents : Contents} (h : s.write path contents = .ok t)
    (hlocate : s.locate path = .ok place) :
    Changes (· = place) s t ∧ t.get? place = some (.file contents) := by
  obtain ⟨q, hq, hget, -, rfl⟩ := exists_of_write h
  obtain rfl := Except.ok.inj (hlocate.symm.trans hq)
  exact ⟨changes_put hget, get?_put_self _ _ (ne_nil_of_get? hget)⟩

/-- What is read lies where the path leads. -/
theorem exists_of_read {contents : Contents} (h : s.read path = .ok contents) :
    ∃ place, s.locate path = .ok place ∧ s.get? place = some (.file contents) ∧
      wantsFolder path = false := by
  rw [read] at h
  split at h
  next => cases h
  next place hlocate =>
    refine ⟨place, hlocate, ?_⟩
    split at h
    next => cases h
    next => cases h
    next contents' hget =>
      split at h
      next => cases h
      next hslash =>
        cases h
        exact ⟨hget, by simpa using hslash⟩

theorem read_eq_ok {contents : Contents} (hlocate : s.locate path = .ok place)
    (h : s.get? place = some (.file contents)) (hslash : wantsFolder path = false) :
    s.read path = .ok contents := by
  rw [read, hlocate]
  simp only [h, hslash, Bool.false_eq_true, if_false]

/-- A path that a file is read from has steps: without any it leads to a folder. -/
theorem steps_ne_nil_of_read {contents : Contents} (h : s.read path = .ok contents) :
    Path.steps path ≠ [] := by
  intro hnil
  obtain ⟨place, hlocate, hget, -⟩ := exists_of_read h
  obtain ⟨hpath, hwalk, hdot⟩ := locate_eq_ok_iff.mp hlocate
  have hfolder : s.get? place = some .folder := by
    rcases Path.isAbsolute_or_endsInDot hnil hpath.ne_empty with habsolute | hend
    · rw [hnil, startOf, if_pos habsolute] at hwalk
      cases hwalk
      rfl
    · exact hdot hend
  rw [hfolder] at hget
  cases hget

/-! ## Folders -/

/-- **A folder made** changes no file, and its path leads to it. -/
theorem changes_makeFolder (h : s.makeFolder path = .ok t) :
    Changes Nowhere s t ∧ t.isFolder path = true := by
  rw [makeFolder] at h
  split at h
  next => cases h
  next place hlocate =>
    split at h
    next => cases h
    next hnone =>
      split at h
      next => cases h
      next =>
        cases h
        have hne : place ≠ [] := ne_nil_of_get? (s := s) (by simp [hnone])
        have hchanges : Changes Nowhere s (s.put place .folder) := by
          refine ⟨rfl, fun p hp => ?_, fun p _ contents => ?_⟩
          · rw [get?_put_of_ne _ _ ?_, hp]
            rintro rfl
            rw [hnone] at hp
            cases hp
          · by_cases hp : p = place
            · simp [hp, get?_put_self _ _ hne, hnone]
            · rw [get?_put_of_ne _ _ hp]
        exact ⟨hchanges, isFolder_iff.mpr
          ⟨place, hchanges.locate hlocate, get?_put_self _ _ hne⟩⟩

theorem Changes.makeFolder (h : Changes P s t) (hmade : t.makeFolder path = .ok u) :
    Changes P s u :=
  h.trans ((changes_makeFolder hmade).1.mono fun _ => False.elim)

/-- **Making folders changes no file.** -/
theorem changes_makeFolders (h : s.makeFolders path = .ok t) : Changes Nowhere s t :=
  makeFolders_keeps Changes.makeFolder (.refl _ s) h

theorem changes_makeParent (h : s.makeParent path = .ok t) : Changes Nowhere s t := by
  rw [makeParent] at h
  split at h
  · cases h
    exact .refl _ _
  · exact changes_makeFolders h

-- Left reducible, the folder above is searched for on both sides of the equation.
attribute [local irreducible] Path.above makeFolder Store.isFolder in
theorem makeMissingWithin_succ (s : Store) (fuel : Nat) (path : String) :
    s.makeMissingWithin (fuel + 1) path =
      let settle (s : Store) (e : Error) : Store × Option Error :=
        if e.problem ≠ .notFound && s.isFolder path then (s, none) else (s, some e)
      match s.makeFolder path with
      | .ok s => (s, none)
      | .error e =>
        if e.problem = .notFound && Path.above path ≠ path then
          match s.makeMissingWithin fuel (Path.above path) with
          | (s, some e) => (s, some e)
          | (s, none) =>
            match s.makeFolder path with
            | .ok s => (s, none)
            | .error e => settle s e
        else settle s e := rfl

theorem makeMissing_eq_ok_iff :
    s.makeMissing path = .ok t ↔ s.makeMissingWithin (path.length + 1) path = (t, none) := by
  delta makeMissing
  generalize s.makeMissingWithin (path.length + 1) path = made
  obtain ⟨made, _ | e⟩ := made <;> simp

/-- A folder that is there is not made. -/
theorem makeMissing_of_isFolder (h : s.isFolder path = true) : s.makeMissing path = .ok s := by
  rw [makeMissing_eq_ok_iff, makeMissingWithin_succ, makeFolder_of_isFolder h]
  simp [h]

/-! ## Files in a row -/

/-- **A file written to a path**; nothing else was changed, but folders may have been made. -/
def Wrote (path : String) (contents : Contents) (s t : Store) : Prop :=
  ∃ place, t.locate path = .ok place ∧ t.get? place = some (.file contents) ∧
    wantsFolder path = false ∧ Changes (· = place) s t

theorem wrote_of_write {contents : Contents} (h : s.write path contents = .ok t) :
    Wrote path contents s t := by
  obtain ⟨place, hlocate, -, hslash, -⟩ := exists_of_write h
  obtain ⟨hchanges, hget⟩ := changes_write h hlocate
  exact ⟨place, hchanges.locate hlocate, hget, hslash, hchanges⟩

/-- Folders may have been made first. -/
theorem Wrote.after {contents : Contents} (h : Wrote path contents t u)
    (hbefore : Changes Nowhere s t) : Wrote path contents s u := by
  obtain ⟨place, hlocate, hget, hslash, hchanges⟩ := h
  exact ⟨place, hlocate, hget, hslash, (hbefore.mono fun _ => False.elim).trans hchanges⟩

/-- **Files written one after another**, each given by its path and what it holds. -/
inductive Written : List (String × Contents) → Store → Store → Prop
  | nil (s : Store) : Written [] s s
  | cons {file : String × Contents} {files : List (String × Contents)} {s t u : Store} :
    Wrote file.1 file.2 s t → Written files t u → Written (file :: files) s u

namespace Written

variable {before after files : List (String × Contents)} {file : String × Contents}

/-- Nothing is changed but what the paths lead to. -/
theorem changes (h : Written files s t) :
    Changes (fun p => ∃ file ∈ files, t.locate file.1 = .ok p) s t := by
  induction h with
  | nil => exact .refl _ _
  | cons hwrote _ ih =>
    obtain ⟨place, hlocate, -, -, hchanges⟩ := hwrote
    refine (hchanges.mono ?_).trans (ih.mono ?_)
    · rintro p rfl
      exact ⟨_, List.mem_cons_self, ih.locate hlocate⟩
    · rintro p ⟨file, hfile, hp⟩
      exact ⟨file, List.mem_cons_of_mem _ hfile, hp⟩

/-- **What is written last under a path stays**: a file holds what was written to it, if no later
path leads to its place. -/
theorem exists_locate (h : Written (before ++ file :: after) s t) :
    ∃ place, t.locate file.1 = .ok place ∧ wantsFolder file.1 = false ∧
      ((∀ later ∈ after, t.locate later.1 ≠ .ok place) →
        t.get? place = some (.file file.2)) := by
  induction before generalizing s with
  | nil =>
    cases h with
    | cons hwrote hafter =>
      obtain ⟨place, hlocate, hget, hslash, -⟩ := hwrote
      refine ⟨place, hafter.changes.locate hlocate, hslash, fun hlast => ?_⟩
      refine (hafter.changes.file place ?_ file.2).mpr hget
      rintro ⟨later, hlater, hp⟩
      exact hlast later hlater hp
  | cons first before ih =>
    cases h with
    | cons _ hrest => exact ih hrest

end Written

/-! ## Names -/

/-- **The names in a store are names**: none holds the slash that stands between them. -/
structure IsNamed (s : Store) : Prop where
  home : ∀ name ∈ s.home, '/' ∉ name.toList
  place : ∀ p e, s.get? p = some e → ∀ name ∈ p, '/' ∉ name.toList

theorem exists_mem_of_lookup {entries : List (Place × Entry)} {e : Entry}
    (h : lookup entries place = some e) : (place, e) ∈ entries := by
  induction entries with
  | nil => cases h
  | cons x rest ih =>
    obtain ⟨p, e'⟩ := x
    rw [lookup] at h
    split at h
    next hp =>
      cases h
      rw [hp]
      exact List.mem_cons_self
    next => exact List.mem_cons_of_mem _ (ih h)

theorem IsNamed.of_entries (hhome : ∀ name ∈ s.home, '/' ∉ name.toList)
    (h : ∀ x ∈ s.entries, ∀ name ∈ x.1, '/' ∉ name.toList) : s.IsNamed := by
  refine ⟨hhome, fun p e hp => ?_⟩
  rw [get?] at hp
  split at hp
  next hroot =>
    rw [hroot]
    exact List.forall_mem_nil _
  next => exact h _ (exists_mem_of_lookup hp)

theorem forall_mem_of_walk {p : String → Prop} {steps : List String}
    (hstart : ∀ name ∈ start, p name) (hsteps : ∀ step ∈ steps, p step)
    (h : s.walk start steps = .ok place) : ∀ name ∈ place, p name := by
  induction steps generalizing start with
  | nil =>
    cases h
    exact hstart
  | cons step rest ih =>
    obtain ⟨hstep, hrest⟩ := List.forall_mem_cons.mp hsteps
    rw [walk_cons_eq_ok_iff] at h
    split at h
    next => exact ih (fun name hname => hstart name (List.dropLast_subset _ hname)) hrest h
    next =>
      refine ih (fun name hname => ?_) hrest h.2
      rcases List.mem_append.mp hname with hname | hname
      · exact hstart name hname
      · rw [List.mem_singleton.mp hname]
        exact hstep

/-- **A path leads to a place with names.** -/
theorem IsNamed.locate (hs : s.IsNamed) (h : s.locate path = .ok place) :
    ∀ name ∈ place, '/' ∉ name.toList := by
  obtain ⟨-, hwalk, -⟩ := locate_eq_ok_iff.mp h
  refine forall_mem_of_walk (fun name hname => ?_) (fun step hstep => (Path.of_mem_steps hstep).1)
    hwalk
  rw [startOf] at hname
  split at hname
  · cases hname
  · exact hs.home name hname

theorem IsNamed.put (hs : s.IsNamed) (hplace : ∀ name ∈ place, '/' ∉ name.toList) (e : Entry) :
    (s.put place e).IsNamed := by
  refine ⟨hs.home, fun p e' hp => ?_⟩
  by_cases hpp : p = place
  · rwa [hpp]
  · rw [get?_put_of_ne _ _ hpp] at hp
    exact hs.place p e' hp

theorem IsNamed.makeFolder (hs : s.IsNamed) (h : s.makeFolder path = .ok t) : t.IsNamed := by
  rw [Store.makeFolder] at h
  split at h
  next => cases h
  next place hlocate =>
    split at h
    next => cases h
    next =>
      split at h
      next => cases h
      next =>
        cases h
        exact hs.put (hs.locate hlocate) .folder

theorem IsNamed.write {contents : Contents} (hs : s.IsNamed)
    (h : s.write path contents = .ok t) : t.IsNamed := by
  obtain ⟨place, hlocate, -, -, rfl⟩ := exists_of_write h
  exact hs.put (hs.locate hlocate) _

end Stencil.Store
