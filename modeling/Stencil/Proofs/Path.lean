import Stencil.Path
import Stencil.Proofs.Text.Seam

/-!
# Proofs/Path — the steps of a path taken apart and put together

    head ++ "/" ++ tail
     │              │
    steps   ++    steps

A slash separates the steps before it from those behind it (`steps_append`), so that cutting a path
at its last slash leaves all its steps (`steps_split`) and a name put behind a folder is one step
more (`steps_join`).  So is a name put behind the steps of a folder, as `child` does it
(`steps_child`).  The stem of a path is a name as well, of characters of the path.
-/

namespace Stencil

namespace Path

/-! ## Steps -/

/-- **A name**: a step of its own, which does not stand for a folder that is there already. -/
structure IsName (name : String) : Prop where
  slash : '/' ∉ name.toList
  ne_empty : name ≠ ""
  ne_dot : name ≠ "."
  ne_dots : name ≠ ".."

/-- A slash separates the steps before it from those behind it. -/
theorem steps_append (a b : List Char) :
    steps (String.ofList (a ++ '/' :: b)) = steps (String.ofList a) ++ steps (String.ofList b) := by
  simp only [steps, String.toList_ofList, Text.pieces_append_cons_sep, List.map_append,
    List.filter_append]

/-- Without a slash there is one step at most. -/
theorem steps_of_not_mem {s : String} (h : '/' ∉ s.toList) :
    steps s = if s = "" ∨ s = "." then [] else [s] := by
  rw [steps, Text.pieces_eq_singleton h, List.map_singleton, String.ofList_toList]
  by_cases hempty : s = ""
  · simp [hempty]
  · by_cases hdot : s = "."
    · simp [hdot]
    · simp [hempty, hdot]

theorem IsName.steps_eq {name : String} (h : IsName name) : steps name = [name] := by
  rw [steps_of_not_mem h.slash, if_neg]
  rintro (hempty | hdot)
  · exact h.ne_empty hempty
  · exact h.ne_dot hdot

@[simp] theorem steps_empty : steps "" = [] := rfl

/-- Slashes at the end lead nowhere. -/
theorem steps_append_replicate (a : List Char) (n : Nat) :
    steps (String.ofList (a ++ List.replicate n '/')) = steps (String.ofList a) := by
  induction n with
  | zero => rw [List.replicate_zero, List.append_nil]
  | succ n ih =>
    rw [List.replicate_succ', ← List.append_assoc, steps_append, ih]
    exact List.append_nil _

/-! ## Slashes at the end -/

/-- What `dropLastSlashes` drops are slashes. -/
theorem exists_eq_dropLastSlashes_append (path : List Char) :
    ∃ n, path = dropLastSlashes path ++ List.replicate n '/' := by
  rw [dropLastSlashes]
  split
  · exact ⟨0, (List.append_nil path).symm⟩
  · have hslash : ∀ c ∈ path.reverse.takeWhile (· == '/'), c = '/' := fun c hc =>
      eq_of_beq (List.mem_takeWhile_imp (p := (· == '/')) hc)
    have hslashes := List.eq_replicate_iff.mpr ⟨rfl, hslash⟩
    refine ⟨(path.reverse.takeWhile (· == '/')).length, ?_⟩
    calc path
      _ = (path.reverse.takeWhile (· == '/') ++ path.reverse.dropWhile (· == '/')).reverse := by
          rw [List.takeWhile_append_dropWhile, List.reverse_reverse]
      _ = (path.reverse.dropWhile (· == '/')).reverse ++
            (path.reverse.takeWhile (· == '/')).reverse := List.reverse_append
      _ = _ := by
          conv_lhs => rw [hslashes, List.reverse_replicate]

theorem isPrefix_dropLastSlashes (path : List Char) : dropLastSlashes path <+: path := by
  obtain ⟨n, hn⟩ := exists_eq_dropLastSlashes_append path
  exact ⟨_, hn.symm⟩

theorem dropLastSlashes_eq_self {path : List Char} (h : path.getLast? ≠ some '/') :
    dropLastSlashes path = path := by
  obtain ⟨n, hn⟩ := exists_eq_dropLastSlashes_append path
  cases n with
  | zero => exact (hn.trans (List.append_nil _)).symm
  | succ n =>
    refine absurd ?_ h
    rw [hn, List.replicate_succ', ← List.append_assoc]
    exact List.getLast?_concat

theorem steps_dropLastSlashes (path : List Char) :
    steps (String.ofList (dropLastSlashes path)) = steps (String.ofList path) := by
  obtain ⟨n, hn⟩ := exists_eq_dropLastSlashes_append path
  conv_rhs => rw [hn, steps_append_replicate]

/-- What is left without the slashes at the end does not end in one. -/
theorem getLast?_dropLastSlashes {path : List Char} (h : ¬path.all (· == '/') = true) :
    ∃ c, (dropLastSlashes path).getLast? = some c ∧ c ≠ '/' := by
  rw [dropLastSlashes, if_neg h, List.getLast?_reverse]
  cases hrest : path.reverse.dropWhile (· == '/') with
  | nil =>
    refine absurd (List.all_eq_true.mpr fun c hc => ?_) h
    exact List.dropWhile_eq_nil_iff.mp hrest c (List.mem_reverse.mpr hc)
  | cons c rest =>
    have hslash := List.head_dropWhile_not (· == '/') (l := path.reverse)
      (by rw [hrest]; exact List.cons_ne_nil c rest)
    simp only [hrest, List.head_cons, beq_eq_false_iff_ne] at hslash
    exact ⟨c, rfl, hslash⟩

/-! ## Cutting at the last slash -/

/-- What stands before the last part of a path is nothing, or something up to a slash. -/
theorem exists_split (path : String) :
    ∃ before tail, split path = (String.ofList (dropLastSlashes before), String.ofList tail) ∧
      path.toList = before ++ tail ∧ '/' ∉ tail ∧ (before = [] ∨ ∃ b, before = b ++ ['/']) := by
  let before := (path.toList.reverse.dropWhile (· != '/')).reverse
  let tail := (path.toList.reverse.takeWhile (· != '/')).reverse
  have hparts : path.toList = before ++ tail := by
    rw [← List.reverse_append, List.takeWhile_append_dropWhile, List.reverse_reverse]
  have hbefore : path.toList.take (path.toList.length - tail.length) = before := by
    rw [hparts, List.length_append, Nat.add_sub_cancel, List.take_left]
  refine ⟨before, tail, ?_, hparts, ?_, ?_⟩
  · rw [← hbefore]
    rfl
  · intro hmem
    have := List.mem_takeWhile_imp (p := (· != '/')) (List.mem_reverse.mp hmem)
    simp at this
  · cases hrest : path.toList.reverse.dropWhile (· != '/') with
    | nil => exact .inl (congrArg List.reverse hrest)
    | cons c rest =>
      have hslash := List.head_dropWhile_not (· != '/') (l := path.toList.reverse)
        (by rw [hrest]; exact List.cons_ne_nil c rest)
      simp only [hrest, List.head_cons, bne_eq_false_iff_eq] at hslash
      refine .inr ⟨rest.reverse, ?_⟩
      rw [← hslash, ← List.reverse_cons]
      exact congrArg List.reverse hrest

/-- **Cutting a path at its last slash** leaves all its steps. -/
theorem steps_split (path : String) :
    steps path = steps (split path).1 ++ steps (split path).2 := by
  obtain ⟨before, tail, hsplit, hpath, -, hbefore⟩ := exists_split path
  have hpath : path = String.ofList (before ++ tail) := by
    rw [← hpath, String.ofList_toList]
  rw [hsplit, steps_dropLastSlashes, hpath]
  rcases hbefore with rfl | ⟨b, rfl⟩
  · rfl
  · rw [List.append_assoc, List.singleton_append, steps_append, steps_append]
    simp

/-- The folder of a path, where one is named, starts like the path. -/
theorem isPrefix_split_fst (path : String) : (split path).1.toList <+: path.toList := by
  obtain ⟨before, tail, hsplit, hpath, -⟩ := exists_split path
  rw [hsplit, hpath, String.toList_ofList]
  exact (isPrefix_dropLastSlashes before).trans (List.prefix_append before tail)

theorem not_mem_split_snd (path : String) : '/' ∉ (split path).2.toList := by
  obtain ⟨before, tail, hsplit, -, htail, -⟩ := exists_split path
  rwa [hsplit, String.toList_ofList]

/-- The folder of a path is shorter than the path, when there is a name behind it. -/
theorem length_split_fst_lt {path : String} (h : (split path).2 ≠ "") :
    (split path).1.length < path.length := by
  obtain ⟨before, tail, hsplit, hpath, -⟩ := exists_split path
  rw [hsplit] at h ⊢
  have htail : 0 < tail.length := by
    rw [List.length_pos_iff]
    rintro rfl
    exact h rfl
  have hbefore := (isPrefix_dropLastSlashes before).length_le
  rw [← String.length_toList, ← String.length_toList, hpath, String.toList_ofList,
    List.length_append]
  omega

theorem lastPart_of_exists_split {path : String} {before tail : List Char}
    (hpath : path.toList = before ++ tail) (htail : '/' ∉ tail)
    (hbefore : before = [] ∨ ∃ b, before = b ++ ['/']) : lastPart path = String.ofList tail := by
  rw [lastPart, hpath]
  rcases hbefore with rfl | ⟨b, rfl⟩
  · rw [List.nil_append, Text.pieces_eq_singleton htail]
    rfl
  · rw [List.append_assoc, List.singleton_append, Text.pieces_append_cons_sep,
      Text.pieces_eq_singleton htail]
    simp

/-- **A path without steps** starts at the root or ends in the dot that stays in place. -/
theorem isAbsolute_or_endsInDot {path : String} (h : steps path = []) (hne : path ≠ "") :
    isAbsolute path = true ∨ endsInDot path = true := by
  by_cases hslashes : path.toList.all (· == '/') = true
  · left
    cases hchars : path.toList with
    | nil => exact absurd (String.toList_eq_nil_iff.mp hchars) hne
    | cons c rest =>
      rw [hchars, List.all_cons, Bool.and_eq_true, beq_iff_eq] at hslashes
      rw [isAbsolute, hchars, hslashes.1]
      rfl
  · right
    obtain ⟨before, tail, hsplit, hparts, htail, hbefore⟩ :=
      exists_split (String.ofList (dropLastSlashes path.toList))
    have hlast := lastPart_of_exists_split hparts htail hbefore
    obtain ⟨c, hc, hslash⟩ := getLast?_dropLastSlashes hslashes
    have hne : String.ofList tail ≠ "" := by
      intro hempty
      rw [String.toList_ofList, String.ofList_eq_empty_iff.mp hempty, List.append_nil] at hparts
      rcases hbefore with rfl | ⟨b, rfl⟩ <;> rw [hparts] at hc
      · cases hc
      · rw [List.getLast?_concat] at hc
        exact hslash (Option.some.inj hc).symm
    have hsteps : steps (String.ofList tail) = [] := by
      have hall := steps_split (String.ofList (dropLastSlashes path.toList))
      rw [steps_dropLastSlashes, String.ofList_toList, h, hsplit] at hall
      exact (List.append_eq_nil_iff.mp hall.symm).2
    rw [steps_of_not_mem (by rwa [String.toList_ofList])] at hsteps
    rw [endsInDot, hlast, beq_iff_eq]
    split at hsteps
    next hdot => exact hdot.resolve_left hne
    next => cases hsteps

/-! ## A name in a folder -/

/-- A path whose last part is a name does not end in a dot that stays in place. -/
theorem endsInDot_of_lastPart {path name : String} (h : lastPart path = name)
    (hname : IsName name) : endsInDot path = false := by
  have hlast : path.toList.getLast? ≠ some '/' := by
    intro hslash
    obtain ⟨b, hb⟩ := List.getLast?_eq_some_iff.mp hslash
    rw [lastPart, hb, Text.pieces_append_cons_sep] at h
    exact hname.ne_empty (by simpa using h.symm)
  rw [endsInDot, dropLastSlashes_eq_self hlast, String.ofList_toList, h, beq_eq_false_iff_ne]
  exact hname.ne_dot

theorem isAbsolute_of_isName {name : String} (hname : IsName name) : isAbsolute name = false := by
  rw [isAbsolute, beq_eq_false_iff_ne]
  intro hhead
  exact hname.slash (List.mem_of_head? hhead)

section Join

variable {folder name : String}

/-- **A name in a folder** stands behind a slash, and the folder's steps are those before it. -/
theorem exists_join (hfolder : folder ≠ "") (hname : IsName name) :
    ∃ b, (join folder name).toList = b ++ '/' :: name.toList ∧ b <+: folder.toList ∧
      steps (String.ofList b) = steps folder ∧ folder.toList <+: (join folder name).toList := by
  rw [join, isAbsolute_of_isName hname, if_neg Bool.false_ne_true]
  by_cases hend : folder.toList.getLast? = some '/'
  · obtain ⟨b, hb⟩ := List.getLast?_eq_some_iff.mp hend
    refine ⟨b, ?_, ⟨['/'], hb.symm⟩, ?_, ?_⟩
    · simp [hb]
    · conv_rhs => rw [← String.ofList_toList (s := folder), hb, steps_append]
      exact (List.append_nil _).symm
    · simp [hend]
  · refine ⟨folder.toList, ?_, List.prefix_rfl, congrArg steps String.ofList_toList, ?_⟩
    · simp [hend, hfolder]
    · simp [hend, hfolder]

/-- A name in a folder is one step more. -/
theorem steps_join (hfolder : folder ≠ "") (hname : IsName name) :
    steps (join folder name) = steps folder ++ [name] := by
  obtain ⟨b, hjoin, -, hsteps, -⟩ := exists_join hfolder hname
  rw [← String.ofList_toList (s := join folder name), hjoin, steps_append, hsteps,
    String.ofList_toList, hname.steps_eq]

theorem lastPart_join (hfolder : folder ≠ "") (hname : IsName name) :
    lastPart (join folder name) = name := by
  obtain ⟨b, hjoin, -⟩ := exists_join hfolder hname
  rw [lastPart, hjoin, Text.pieces_append_cons_sep, Text.pieces_eq_singleton hname.slash]
  simp

/-- A name in a folder does not end in a dot that stays in place. -/
theorem endsInDot_join (hfolder : folder ≠ "") (hname : IsName name) :
    endsInDot (join folder name) = false :=
  endsInDot_of_lastPart (lastPart_join hfolder hname) hname

/-- The folder of a name in a folder is that folder, but for slashes at its end. -/
theorem isPrefix_parent_join (hfolder : folder ≠ "") (hname : IsName name) :
    (parent (join folder name)).toList <+: folder.toList := by
  obtain ⟨before, tail, hsplit, hparts, htail, hbefore⟩ := exists_split (join folder name)
  have hlast := lastPart_of_exists_split hparts htail hbefore
  rw [lastPart_join hfolder hname] at hlast
  obtain rfl : tail = name.toList := by rw [hlast, String.toList_ofList]
  rw [parent, hsplit, String.toList_ofList]
  rw [join, isAbsolute_of_isName hname, if_neg Bool.false_ne_true] at hparts
  by_cases hend : folder.toList.getLast? = some '/'
  · have hfolders : folder.toList = before :=
      (List.append_left_inj name.toList).mp (by simpa [hend] using hparts)
    rw [← hfolders]
    exact isPrefix_dropLastSlashes folder.toList
  · obtain rfl : folder.toList ++ ['/'] = before :=
      (List.append_left_inj name.toList).mp (by simpa [hend, hfolder] using hparts)
    have hslashes : ¬(folder.toList ++ ['/']).all (· == '/') = true := by
      rw [List.all_append, Bool.and_eq_true, List.all_eq_true]
      rintro ⟨hall, -⟩
      have hne := mt String.toList_eq_nil_iff.mp hfolder
      have hc := hall _ (List.getLast_mem hne)
      exact hend (by rw [List.getLast?_eq_getLast_of_ne_nil hne, eq_of_beq hc])
    obtain ⟨c, hc, hslash⟩ := getLast?_dropLastSlashes hslashes
    refine (List.prefix_concat_iff.mp (isPrefix_dropLastSlashes _)).resolve_left fun heq => ?_
    rw [heq, List.getLast?_concat] at hc
    exact hslash (Option.some.inj hc).symm

/-- The folder of a name in a folder has that folder's steps. -/
theorem steps_parent_join (hfolder : folder ≠ "") (hname : IsName name) :
    steps (parent (join folder name)) = steps folder := by
  obtain ⟨before, tail, hsplit, hparts, htail, hbefore⟩ := exists_split (join folder name)
  have hlast := lastPart_of_exists_split hparts htail hbefore
  have hsteps := steps_split (join folder name)
  rw [lastPart_join hfolder hname] at hlast
  rw [hsplit, ← hlast, hname.steps_eq, steps_join hfolder hname, List.append_left_inj] at hsteps
  rw [parent, hsplit, ← hsteps]

theorem isAbsolute_of_isPrefix {path path' : String} (h : path.toList <+: path'.toList)
    (hne : path ≠ "") : isAbsolute path = isAbsolute path' := by
  obtain ⟨rest, hrest⟩ := h
  have hne : path.toList ≠ [] := by simpa using hne
  rw [isAbsolute, isAbsolute, ← hrest, List.head?_append_of_ne_nil _ hne]

end Join

/-! ## A child of a folder -/

section Child

variable {folder name path : String}

/-- The root of a path is made of slashes, and of none when the path is not absolute. -/
theorem exists_root (path : String) : ∃ n, (root path).toList = List.replicate n '/' ∧
    (n = 0 ↔ isAbsolute path = false) := by
  have habsolute : isAbsolute path = false ↔ path.toList.takeWhile (· == '/') = [] := by
    rw [isAbsolute]
    cases path.toList with
    | nil => simp
    | cons c rest => by_cases hc : c = '/' <;> simp [hc]
  rw [root, habsolute]
  split
  next h => exact ⟨0, rfl, iff_of_true rfl h⟩
  next h => exact ⟨2, rfl, iff_of_false (by decide) (by simp [h])⟩
  next hnil _ => exact ⟨1, rfl, iff_of_false Nat.one_ne_zero hnil⟩

theorem pieces_replicate_append (n : Nat) (s : List Char) :
    Text.pieces '/' (List.replicate n '/' ++ s) = List.replicate n [] ++ Text.pieces '/' s := by
  induction n with
  | zero => rfl
  | succ n ih =>
    rw [List.replicate_succ, List.cons_append, Text.pieces, if_pos rfl, ih, List.replicate_succ,
      List.cons_append]

/-- What a step is: it holds no slash, and leads somewhere. -/
theorem of_mem_steps {step : String} (h : step ∈ steps path) :
    '/' ∉ step.toList ∧ (step != "" && step != ".") = true := by
  obtain ⟨hmem, hleads⟩ := List.mem_filter.mp h
  obtain ⟨piece, hpiece, hstep⟩ := List.mem_map.mp hmem
  refine ⟨?_, hleads⟩
  rw [← hstep, String.toList_ofList]
  exact Text.not_mem_of_mem_pieces hpiece

/-- A step of a child's path leads somewhere. -/
theorem leads_of_mem_concat (hname : IsName name) {step : String}
    (h : step ∈ steps folder ++ [name]) :
    '/' ∉ step.toList ∧ (step != "" && step != ".") = true := by
  rcases List.mem_append.mp h with h | h
  · exact of_mem_steps h
  · rw [List.mem_singleton.mp h]
    exact ⟨hname.slash, by simp [hname.ne_empty, hname.ne_dot]⟩

/-- **A child's path** is the root of the folder's, and then its steps between slashes. -/
theorem exists_child (folder : String) (hname : IsName name) :
    ∃ n body, (child folder name).toList = List.replicate n '/' ++ body ∧
      Text.pieces '/' body = (steps folder ++ [name]).map String.toList ∧
      (n = 0 ↔ isAbsolute folder = false) := by
  obtain ⟨n, hroot, hn⟩ := exists_root folder
  refine ⟨n, ['/'].intercalate ((steps folder ++ [name]).map String.toList), ?_, ?_, hn⟩
  · rw [child, ofSteps, if_neg (by simp), String.toList_append, hroot, String.toList_intercalate]
    rfl
  · have hslash : ∀ piece ∈ (steps folder ++ [name]).map String.toList, '/' ∉ piece := by
      intro piece hpiece
      obtain ⟨step, hstep, rfl⟩ := List.mem_map.mp hpiece
      exact (leads_of_mem_concat hname hstep).1
    cases hpieces : (steps folder ++ [name]).map String.toList with
    | nil => simp at hpieces
    | cons first others =>
      rw [hpieces] at hslash
      obtain ⟨hfirst, hothers⟩ := List.forall_mem_cons.mp hslash
      rw [Text.pieces_intercalate List.not_mem_nil hfirst hothers]
      simp

/-- A child of a folder is one step more. -/
theorem steps_child (folder : String) (hname : IsName name) :
    steps (child folder name) = steps folder ++ [name] := by
  obtain ⟨n, body, hchild, hpieces, -⟩ := exists_child folder hname
  have hleads : ∀ step ∈ steps folder ++ [name], (step != "" && step != ".") = true :=
    fun step hstep => (leads_of_mem_concat hname hstep).2
  have hback : ((steps folder ++ [name]).map String.toList).map String.ofList =
      steps folder ++ [name] := by
    rw [List.map_map]
    exact (List.map_congr_left fun _ _ => String.ofList_toList).trans (List.map_id _)
  rw [steps, hchild, pieces_replicate_append, hpieces, List.map_append, hback, List.filter_append,
    List.filter_eq_self.mpr hleads]
  simp

theorem lastPart_child (folder : String) (hname : IsName name) :
    lastPart (child folder name) = name := by
  obtain ⟨n, body, hchild, hpieces, -⟩ := exists_child folder hname
  rw [lastPart, hchild, pieces_replicate_append, hpieces]
  simp

/-- A child's path starts at the root when the folder's does. -/
theorem isAbsolute_child (folder : String) (hname : IsName name) :
    isAbsolute (child folder name) = isAbsolute folder := by
  obtain ⟨n, body, hchild, hpieces, hn⟩ := exists_child folder hname
  rw [isAbsolute, hchild]
  cases n with
  | zero =>
    rw [hn.mp rfl, List.replicate_zero, List.nil_append, beq_eq_false_iff_ne]
    intro hhead
    obtain ⟨rest, rfl⟩ := List.head?_eq_some_iff.mp hhead
    rw [Text.pieces, if_pos rfl] at hpieces
    have hempty : [] ∈ (steps folder ++ [name]).map String.toList := hpieces ▸ List.mem_cons_self
    obtain ⟨step, hstep, hnil⟩ := List.mem_map.mp hempty
    have hleads := (leads_of_mem_concat hname hstep).2
    rw [String.toList_eq_nil_iff.mp hnil] at hleads
    exact absurd hleads (by decide)
  | succ n =>
    rw [(Bool.not_eq_false _).mp (mt hn.mpr (Nat.succ_ne_zero n))]
    rfl

end Child

/-! ## Stems -/

theorem isPrefix_stemOf (name : List Char) : stemOf name <+: name := by
  rw [stemOf]
  split
  · exact List.take_prefix _ _
  · exact List.prefix_refl _

/-- The last step of a path holds no slash and nothing that the path does not hold. -/
theorem name_subset (path : String) :
    '/' ∉ (name path).toList ∧ (name path).toList ⊆ path.toList := by
  rw [name]
  cases hlast : (steps path).getLast? with
  | none => exact ⟨List.not_mem_nil, List.nil_subset _⟩
  | some step =>
    have hmem : step ∈ steps path := List.mem_of_getLast? hlast
    obtain ⟨piece, hpiece, rfl⟩ := List.mem_map.mp (List.mem_filter.mp hmem).1
    rw [Option.getD_some, String.toList_ofList]
    exact ⟨Text.not_mem_of_mem_pieces hpiece, Text.subset_of_mem_pieces hpiece⟩

theorem stem_subset (path : String) :
    '/' ∉ (stem path).toList ∧ (stem path).toList ⊆ path.toList := by
  obtain ⟨hslash, hsub⟩ := name_subset path
  have hstem := (isPrefix_stemOf (name path).toList).subset
  rw [stem, String.toList_ofList]
  exact ⟨fun h => hslash (hstem h), List.Subset.trans hstem hsub⟩

theorem stemOf_ne_nil {name : List Char} (h : name ≠ []) : stemOf name ≠ [] := by
  rw [stemOf]
  split
  next hlong =>
    rw [Bool.and_eq_true, decide_eq_true_eq] at hlong
    rw [← List.length_pos_iff, List.length_take]
    omega
  next => exact h

/-- **A path that has steps has a stem.** -/
theorem stem_ne_empty {path : String} (h : steps path ≠ []) : stem path ≠ "" := by
  rw [stem, ne_eq, String.ofList_eq_empty_iff]
  refine stemOf_ne_nil ?_
  rw [name, List.getLast?_eq_getLast_of_ne_nil h, Option.getD_some, ne_eq, String.toList_eq_nil_iff]
  have hleads := (of_mem_steps (List.getLast_mem h)).2
  rintro hempty
  rw [hempty] at hleads
  exact absurd hleads (by decide)

end Path

end Stencil
