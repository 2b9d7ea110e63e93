import Stencil.Proofs.Store.Folders

/-!
# Proofs/Store/Writing — files written into a folder

Whether a file can be written in a place depends on what stands against it there, and a file that
has been written changes nothing about that, in its own place or in another one (`alike_put`).
Stores in which the same stands against files are `Alike`: paths lead to the same folders in them
(`Alike.isFolder`), and the same names are refused in these (`write_join`).  Of all that is
written into a folder, the last under a name stays (`get?_withImages_of_last`).
-/

namespace Stencil.Store

variable {s t u : Store} {start place : Place} {path folder name : String}

/-! ## What stands against a file -/

/-- Why no file can be written in a place. -/
def obstacle? (s : Store) (place : Place) : Option Problem :=
  match s.get? place with
  | some .folder => some .isFolder
  | some (.file _) => none
  | none => if absence place = .nameTooLong then some .nameTooLong else none

theorem get?_eq_folder_iff : s.get? place = some .folder ↔ s.obstacle? place = some .isFolder := by
  rw [obstacle?]
  split
  next h => simp [h]
  next h => simp [h]
  next h =>
    rw [h]
    split <;> simp

theorem obstacle?_ne_notPath : s.obstacle? place ≠ some .notPath := by
  rw [obstacle?]
  split
  · nofun
  · nofun
  · split <;> nofun

/-- **Stores that take the same files.** -/
structure Alike (s t : Store) : Prop where
  home : s.home = t.home
  obstacle? : ∀ place, s.obstacle? place = t.obstacle? place

theorem Alike.refl (s : Store) : Alike s s :=
  ⟨rfl, fun _ => rfl⟩

theorem Alike.trans (h : Alike s t) (h' : Alike t u) : Alike s u :=
  ⟨h.home.trans h'.home, fun place => (h.obstacle? place).trans (h'.obstacle? place)⟩

/-- **A file that was written** takes nothing away from what can be written. -/
theorem alike_put {contents : Contents} (h : s.obstacle? place = none) :
    Alike (s.put place (.file contents)) s := by
  refine ⟨rfl, fun other => ?_⟩
  by_cases hother : other = place
  · have hplace : place ≠ [] := by
      rintro rfl
      cases h
    rw [hother, h, obstacle?, get?_put_self _ _ hplace]
  · rw [obstacle?, obstacle?, get?_put_of_ne _ _ hother]

namespace Alike

variable (h : Alike s t)
include h

theorem get?_eq_folder_iff : s.get? place = some .folder ↔ t.get? place = some .folder := by
  rw [Store.get?_eq_folder_iff, Store.get?_eq_folder_iff, h.obstacle?]

theorem isTree (ht : t.IsTree) : s.IsTree where
  home := by rw [h.get?_eq_folder_iff, h.home]; exact ht.home
  dropLast place := by
    rw [h.get?_eq_folder_iff, h.get?_eq_folder_iff]
    exact ht.dropLast place

theorem walk_eq_ok_iff {steps : List String} :
    s.walk start steps = .ok place ↔ t.walk start steps = .ok place := by
  induction steps generalizing start with
  | nil => exact Iff.rfl
  | cons step rest ih =>
    rw [walk_cons_eq_ok_iff, walk_cons_eq_ok_iff, ih, ih, h.get?_eq_folder_iff]

theorem locate_eq_ok_iff : s.locate path = .ok place ↔ t.locate path = .ok place := by
  have hstart : s.startOf path = t.startOf path := by
    rw [startOf, startOf, h.home]
  rw [Store.locate_eq_ok_iff, Store.locate_eq_ok_iff, hstart, h.walk_eq_ok_iff,
    h.get?_eq_folder_iff]

/-- The same paths lead to folders. -/
theorem isFolder (ht : t.isFolder path = true) : s.isFolder path = true := by
  obtain ⟨place, hlocate, hplace⟩ := isFolder_iff.mp ht
  exact isFolder_iff.mpr ⟨place, h.locate_eq_ok_iff.mpr hlocate, h.get?_eq_folder_iff.mpr hplace⟩

end Alike

/-! ## Names in a folder -/

theorem wantsFolder_join (hfolder : folder ≠ "") (hname : Path.IsName name) :
    wantsFolder (Path.join folder name) = false := by
  rw [wantsFolder, Path.lastPart_join hfolder hname, decide_eq_false_iff_not]
  exact hname.ne_empty

section Join

variable (hlocate : s.locate folder = .ok place) (hplace : s.get? place = some .folder)
  (hname : Path.IsName name)

include hlocate hplace hname

/-- Where a name in a folder leads. -/
theorem locate_join (hpath : IsPath (Path.join folder name)) :
    s.locate (Path.join folder name) = .ok (place ++ [name]) := by
  obtain ⟨hfolder, hwalk, -⟩ := locate_eq_ok_iff.mp hlocate
  obtain ⟨-, -, -, -, hbegins⟩ := Path.exists_join hfolder.ne_empty hname
  have hstart : s.startOf (Path.join folder name) = s.startOf folder := by
    rw [startOf, startOf, Path.isAbsolute_of_isPrefix hbegins hfolder.ne_empty]
  rw [locate_eq_ok_iff, hstart, Path.steps_join hfolder.ne_empty hname,
    Path.endsInDot_join hfolder.ne_empty hname]
  exact ⟨hpath, walk_concat hname.ne_dots hwalk hplace, fun hdot => absurd hdot Bool.false_ne_true⟩

/-- **Why a name cannot be written in a folder.** -/
theorem write_join (hnull : Char.ofNat 0 ∉ name.toList) (contents : Contents) :
    s.write (Path.join folder name) contents =
      if maxPath < (Path.join folder name).utf8ByteSize then
        .error ⟨.nameTooLong, Path.join folder name⟩
      else
        match s.obstacle? (place ++ [name]) with
        | some problem => .error ⟨problem, Path.join folder name⟩
        | none => .ok (s.put (place ++ [name]) (.file contents)) := by
  obtain ⟨hfolder, -, -⟩ := locate_eq_ok_iff.mp hlocate
  obtain ⟨b, hjoin, hb, -⟩ := Path.exists_join hfolder.ne_empty hname
  have hchars : Char.ofNat 0 ∉ (Path.join folder name).toList := by
    rw [hjoin, List.mem_append, List.mem_cons]
    rintro (h | h | h)
    · exact hfolder.null (hb.subset h)
    · exact absurd h (by decide)
    · exact hnull h
  have hne : Path.join folder name ≠ "" := by
    intro hempty
    rw [hempty] at hjoin
    exact absurd hjoin.symm (List.append_ne_nil_of_right_ne_nil b (List.cons_ne_nil _ _))
  by_cases hsize : maxPath < (Path.join folder name).utf8ByteSize
  · have hlong : s.locate (Path.join folder name) = .error .nameTooLong := by
      rw [locate, if_neg (by simpa using hchars), if_neg hne, if_pos hsize]
    rw [write, hlong, if_pos hsize]
  · have hpath : IsPath (Path.join folder name) := ⟨hchars, hne, Nat.not_lt.mp hsize⟩
    rw [write, locate_join hlocate hplace hname hpath, if_neg hsize, obstacle?]
    simp only [wantsFolder_join hfolder.ne_empty hname]
    cases s.get? (place ++ [name]) with
    | none => by_cases hlong : absence (place ++ [name]) = .nameTooLong <;> simp [hlong]
    | some entry => cases entry <;> rfl

/-- What a name in a folder holds is read there. -/
theorem read_join (hpath : IsPath (Path.join folder name)) {contents : Contents}
    (h : s.get? (place ++ [name]) = some (.file contents)) :
    s.read (Path.join folder name) = .ok contents := by
  obtain ⟨hfolder, -, -⟩ := locate_eq_ok_iff.mp hlocate
  rw [read, locate_join hlocate hplace hname hpath]
  simp only [h, wantsFolder_join hfolder.ne_empty hname, Bool.false_eq_true, if_false]

end Join

/-! ## Pictures -/

/-- The store with pictures put into a folder, each under its name. -/
def withImages (s : Store) (place : Place) (images : List (String × Image)) : Store :=
  images.foldl (fun s x => s.put (place ++ [x.1]) (.file (.image x.2))) s

theorem withImages_append (s : Store) (place : Place) (images images' : List (String × Image)) :
    s.withImages place (images ++ images') = (s.withImages place images).withImages place images' :=
  List.foldl_append

theorem alike_withImages {images : List (String × Image)}
    (h : ∀ x ∈ images, s.obstacle? (place ++ [x.1]) = none) :
    Alike (s.withImages place images) s := by
  induction images generalizing s with
  | nil => exact Alike.refl s
  | cons x rest ih =>
    obtain ⟨hx, hrest⟩ := List.forall_mem_cons.mp h
    have hput : Alike (s.put (place ++ [x.1]) (.file (.image x.2))) s := alike_put hx
    refine (ih fun y hy => ?_).trans hput
    rw [hput.obstacle?]
    exact hrest y hy

/-- **The last picture put under a name** is there. -/
theorem get?_withImages_of_last (s : Store) (place : Place) (before : List (String × Image))
    (x : String × Image) {after : List (String × Image)} (h : ∀ y ∈ after, y.1 ≠ x.1) :
    (s.withImages place (before ++ x :: after)).get? (place ++ [x.1]) =
      some (.file (.image x.2)) := by
  induction after using List.reverseRecOn with
  | nil =>
    rw [withImages_append]
    exact get?_put_self _ _ (List.append_ne_nil_of_right_ne_nil _ (List.cons_ne_nil _ _))
  | append_singleton after last ih =>
    have hlast : last.1 ≠ x.1 := h last List.mem_concat_self
    rw [← List.cons_append, ← List.append_assoc, withImages_append]
    change ((s.withImages place (before ++ x :: after)).put _ _).get? _ = _
    rw [get?_put_of_ne _ _ (by simpa using hlast.symm)]
    exact ih fun y hy => h y (List.mem_append_left _ hy)

end Stencil.Store
