import Stencil.Proofs.Library.Naming

/-!
# Proofs/Library/Catalogue — a library while shapes are added

    list    s₀, s₁, …, sₙ  ──add s──▸  s₀, s₁, …, sₙ, s       names, count, at
    index   name ▸ shape   ──add s──▸  …, s.name ▸ s          lookup, contains

A library may be kept as a list with an index by name beside it (`Catalogue`): some questions are
answered by the one and some by the other, and every shape is put into both.  Whatever is added to
it, also where some of it is refused, the two agree with the library that has its shapes alone
(`Catalogue.Agrees.afterAll`).  That library always finds the first shape that was offered under a
name (`find?_afterAll`).
-/

namespace Stencil

/-! ## Places in a list -/

section ItemAt

variable {α β : Type} {items : List α} {i : Int} {x : α}

/-- An index counts from either end. -/
theorem itemAt_eq_ok_iff :
    itemAt items i = .ok x ↔ (-0x8000000000000000 ≤ i ∧ i < 0x8000000000000000) ∧
      ∃ k : ℕ, items[k]? = some x ∧ (i = k ∨ i = k - items.length) := by
  rw [itemAt]
  split
  next hword =>
    rw [and_iff_right hword]
    dsimp only
    generalize hj : (if i < 0 then i + items.length else i) = j
    -- Both ways of counting lead to the one place that is looked at.
    have hcount (k : ℕ) (hk : k < items.length) : (i = k ∨ i = k - items.length) ↔ j = k := by
      split at hj <;> omega
    split
    next y hy =>
      rw [Except.ok.injEq]
      split at hy
      next => cases hy
      next hnonneg =>
        have hlt := (List.getElem?_eq_some_iff.mp hy).1
        constructor
        · rintro rfl
          exact ⟨j.toNat, hy, (hcount _ hlt).mpr (by omega)⟩
        · rintro ⟨k, hk, hi⟩
          have := (hcount k (List.getElem?_eq_some_iff.mp hk).1).mp hi
          rw [show j.toNat = k by omega, hk] at hy
          exact (Option.some.inj hy).symm
    next hnone =>
      refine iff_of_false nofun ?_
      rintro ⟨k, hk, hi⟩
      have := (hcount k (List.getElem?_eq_some_iff.mp hk).1).mp hi
      rw [if_neg (by omega), show j.toNat = k by omega, hk] at hnone
      cases hnone
  next hword => exact iff_of_false nofun fun h => hword h.1

/-- There is an item at an index that does not pass either end. -/
theorem exists_itemAt_iff :
    (∃ x, itemAt items i = .ok x) ↔ (-0x8000000000000000 ≤ i ∧ i < 0x8000000000000000) ∧
      -(items.length : Int) ≤ i ∧ i < items.length := by
  simp only [itemAt_eq_ok_iff, exists_and_left]
  refine and_congr_right fun _ => ⟨?_, fun ⟨hlow, hhigh⟩ => ?_⟩
  · rintro ⟨x, k, hk, hi⟩
    have := (List.getElem?_eq_some_iff.mp hk).1
    omega
  · obtain ⟨k, hlt, hk⟩ : ∃ k : ℕ, k < items.length ∧ (i = k ∨ i = k - items.length) := by
      refine ⟨(if i < 0 then i + items.length else i).toNat, ?_, ?_⟩ <;> split <;> omega
    exact ⟨_, k, List.getElem?_eq_getElem hlt, hk⟩

theorem map_itemAt (f : α → β) : (itemAt items i).map f = itemAt (items.map f) i := by
  rw [itemAt, itemAt, List.length_map]
  split
  · dsimp only
    generalize (if i < 0 then i + (items.length : Int) else i) = j
    rw [List.getElem?_map]
    by_cases hj : j < 0
    · rw [if_pos hj, if_pos hj]
      rfl
    · rw [if_neg hj, if_neg hj]
      cases items[j.toNat]? <;> rfl
  · rfl

end ItemAt

/-! ## Attempts to add a shape -/

namespace Library

variable {l l' : Library} {a : Option Shape} {attempts : List (Option Shape)} {s : Shape}
  {name : Text.Loose}

/-- **The library after an attempt**: one that is refused leaves it as it was. -/
def after (l : Library) (a : Option Shape) : Library :=
  (l.add a).toOption.getD l

/-- The library after some attempts. -/
def afterAll (l : Library) (attempts : List (Option Shape)) : Library :=
  attempts.foldl after l

/-- **The shapes that are accepted** of some attempts, in their order. -/
def accepted (l : Library) : List (Option Shape) → List Shape
  | [] => []
  | a :: rest =>
    (if (l.add a).toOption.isSome then a.toList else []) ++ (l.after a).accepted rest

/-- **An attempt is accepted or refused**: a shape is refused where it is missing or its name is
taken. -/
theorem add_cases (l : Library) (a : Option Shape) :
    (∃ s l', a = some s ∧ s.name ∉ l.names ∧ l.add a = .ok l' ∧ l'.shapes = l.shapes ++ [s]) ∨
    ((a = none ∧ l.add a = .error .missingShape) ∨
      ∃ s, a = some s ∧ s.name ∈ l.names ∧ l.add a = .error (.duplicate s.name)) := by
  cases a with
  | none => exact .inr (.inl ⟨rfl, rfl⟩)
  | some s =>
    by_cases h : s.name ∈ l.names
    · exact .inr (.inr ⟨s, rfl, h, by rw [add, dif_pos h]⟩)
    · exact .inl ⟨s, _, rfl, h, by rw [add, dif_neg h], rfl⟩

theorem after_of_ok (h : l.add a = .ok l') : l.after a = l' := by
  rw [after, h]
  rfl

theorem after_of_error {e : AddError} (h : l.add a = .error e) : l.after a = l := by
  rw [after, h]
  rfl

theorem accepted_of_ok (h : l.add (some s) = .ok l') (rest : List (Option Shape)) :
    l.accepted (some s :: rest) = s :: l'.accepted rest := by
  rw [accepted, after_of_ok h, h]
  rfl

theorem accepted_of_error {e : AddError} (h : l.add a = .error e) (rest : List (Option Shape)) :
    l.accepted (a :: rest) = l.accepted rest := by
  rw [accepted, after_of_error h, h]
  rfl

/-- The accepted shapes are put behind the others. -/
theorem shapes_afterAll (l : Library) (attempts : List (Option Shape)) :
    (l.afterAll attempts).shapes = l.shapes ++ l.accepted attempts := by
  induction attempts generalizing l with
  | nil => exact (List.append_nil _).symm
  | cons a rest ih =>
    rw [afterAll, List.foldl_cons, ← afterAll, ih]
    obtain ⟨s, l', rfl, -, hadd, hshapes⟩ | ⟨-, hadd⟩ | ⟨s, -, -, hadd⟩ := add_cases l a
    · rw [after_of_ok hadd, accepted_of_ok hadd, hshapes, List.append_assoc, List.singleton_append]
    · rw [after_of_error hadd, accepted_of_error hadd]
    · rw [after_of_error hadd, accepted_of_error hadd]

/-- An attempt adds a name that is not taken, and no other. -/
theorem find?_after (l : Library) (a : Option Shape) (name : Text.Loose) :
    (l.after a).find? name = (l.find? name).or (a.toList.find? fun s => s.name == name) := by
  obtain ⟨s, l', rfl, -, hadd, hshapes⟩ | ⟨rfl, hadd⟩ | ⟨s, rfl, htaken, hadd⟩ := add_cases l a
  · rw [after_of_ok hadd, find?, hshapes, List.find?_append, find?, Option.toList_some]
  · rw [after_of_error hadd, Option.toList_none, List.find?_nil, Option.or_none]
  · rw [after_of_error hadd, Option.toList_some, List.find?_singleton]
    obtain ⟨first, hfirst⟩ := exists_find?_eq_some_iff.mpr htaken
    by_cases hname : s.name = name
    · rw [← hname, hfirst, Option.some_or]
    · rw [if_neg (by simpa using hname), Option.or_none]

/-- **The first shape that was offered under a name is found.** -/
theorem find?_afterAll (l : Library) (attempts : List (Option Shape)) (name : Text.Loose) :
    (l.afterAll attempts).find? name =
      (l.find? name).or (attempts.reduceOption.find? fun s => s.name == name) := by
  induction attempts generalizing l with
  | nil => exact (Option.or_none).symm
  | cons a rest ih =>
    have hoffered : (a :: rest).reduceOption = a.toList ++ rest.reduceOption := by
      cases a <;> rfl
    rw [afterAll, List.foldl_cons, ← afterAll, ih, find?_after, hoffered, List.find?_append,
      Option.or_assoc]

/-- A library that can be built takes all its shapes. -/
theorem eq_afterAll_of_addAll (h : l.addAll attempts = .ok l') :
    l' = l.afterAll attempts ∧ l.accepted attempts = attempts.reduceOption := by
  induction attempts generalizing l with
  | nil => exact ⟨(Except.ok.inj h).symm, rfl⟩
  | cons a rest ih =>
    obtain ⟨m, hadd, hrest⟩ := bind_eq_ok_iff.mp h
    obtain ⟨rfl, haccepted⟩ := ih hrest
    obtain ⟨s, -, rfl, -⟩ | ⟨-, hrefused⟩ | ⟨s, -, -, hrefused⟩ := add_cases l a
    · refine ⟨?_, ?_⟩
      · rw [afterAll, afterAll, List.foldl_cons, after_of_ok hadd]
      · rw [accepted_of_ok hadd, haccepted, List.reduceOption_cons_of_some]
    · rw [hrefused] at hadd
      cases hadd
    · rw [hrefused] at hadd
      cases hadd

theorem afterAll_append (l : Library) (first second : List (Option Shape)) :
    l.afterAll (first ++ second) = (l.afterAll first).afterAll second :=
  List.foldl_append

/-- The item at an index is the shape that its own name finds. -/
theorem find?_of_mem (hs : s ∈ l.shapes) : l.find? s.name = some s := by
  obtain ⟨t, ht⟩ := exists_find?_eq_some_iff.mpr (List.mem_map_of_mem (f := Shape.name) hs)
  have hname := name_of_find? ht
  rw [ht, List.inj_on_of_nodup_map l.nodup (List.mem_of_find?_eq_some ht) hs hname]

end Library

/-! ## A list and an index -/

/-- **A list of shapes with an index by name beside it.** -/
structure Catalogue where
  shapes : List Shape
  index : Text.Loose → Option Shape

namespace Catalogue

/-- The catalogue without shapes. -/
def empty : Catalogue := ⟨[], fun _ => none⟩

/-- **One shape more**: the index tells whether its name is taken; if not, the shape is put into the
list and then into the index. -/
def add : Option Shape → ExceptT Library.AddError (StateM Catalogue) Unit
  | none => throw .missingShape
  | some s => do
    if ((← get).index s.name).isSome then
      throw (.duplicate s.name)
    else
      modify fun c => { c with shapes := c.shapes ++ [s] }
      modify fun c => { c with index := Function.update c.index s.name (some s) }

/-- The catalogue after an attempt to add a shape, accepted or refused. -/
def after (c : Catalogue) (a : Option Shape) : Catalogue :=
  ((add a).run.run c).2

/-- The catalogue after some attempts. -/
def afterAll (c : Catalogue) (attempts : List (Option Shape)) : Catalogue :=
  attempts.foldl after c

/-- **A catalogue agrees with a library**: its list and its index tell the same shapes. -/
structure Agrees (c : Catalogue) (l : Library) : Prop where
  shapes : c.shapes = l.shapes
  index : ∀ name, c.index name = l.find? name

variable {c : Catalogue} {l : Library} {s : Shape}

theorem agrees_empty : empty.Agrees Library.empty :=
  ⟨rfl, fun _ => rfl⟩

theorem run_get (c : Catalogue) :
    (get : ExceptT Library.AddError (StateM Catalogue) Catalogue).run.run c = (.ok c, c) := rfl

theorem run_add_of_taken (h : (c.index s.name).isSome = true) :
    (add (some s)).run.run c = (.error (.duplicate s.name), c) := by
  refine (run_bind_eq_of_ok (run_get c)).trans ?_
  rw [if_pos h]
  rfl

theorem run_add_of_free (h : (c.index s.name).isSome = false) :
    (add (some s)).run.run c =
      (.ok (), ⟨c.shapes ++ [s], Function.update c.index s.name (some s)⟩) := by
  refine (run_bind_eq_of_ok (run_get c)).trans ?_
  rw [if_neg (by rw [h]; exact nofun)]
  rfl

/-- **An attempt keeps a catalogue and a library together**, and a refused one leaves the catalogue
as it was. -/
theorem Agrees.run_add (h : c.Agrees l) (a : Option Shape) :
    ((add a).run.run c).1 = (l.add a).map (fun _ => ()) ∧ (c.after a).Agrees (l.after a) ∧
      ∀ e, l.add a = .error e → c.after a = c := by
  obtain ⟨s, l', rfl, hfree, hadd, hshapes⟩ | ⟨rfl, hadd⟩ | ⟨s, rfl, htaken, hadd⟩ :=
    l.add_cases a
  · have hrun := run_add_of_free (c := c) (s := s) (by
      rw [h.index, Library.find?_eq_none_iff.mpr hfree]; rfl)
    refine ⟨by rw [hrun, hadd]; rfl, ?_, fun e he => absurd (hadd.symm.trans he) nofun⟩
    rw [Library.after_of_ok hadd, after, hrun]
    refine ⟨by rw [hshapes, ← h.shapes], fun name => ?_⟩
    have hfind := l.find?_after (some s) name
    rw [Library.after_of_ok hadd, ← h.index, Option.toList_some, List.find?_singleton] at hfind
    rw [hfind]
    change Function.update c.index s.name (some s) name = _
    by_cases hname : name = s.name
    · subst hname
      have hnone : c.index s.name = none := by rw [h.index, Library.find?_eq_none_iff.mpr hfree]
      rw [hnone]
      simp
    · rw [Function.update_of_ne hname, if_neg (by simpa using Ne.symm hname), Option.or_none]
  · exact ⟨by rw [hadd]; rfl, by rw [Library.after_of_error hadd]; exact h, fun _ _ => rfl⟩
  · have hrun := run_add_of_taken (c := c) (s := s) (by
      rw [h.index, Option.isSome_iff_exists]
      exact Library.exists_find?_eq_some_iff.mpr htaken)
    rw [after, hrun, hadd, Library.after_of_error hadd]
    exact ⟨rfl, h, fun _ _ => rfl⟩

theorem Agrees.afterAll (h : c.Agrees l) (attempts : List (Option Shape)) :
    (c.afterAll attempts).Agrees (l.afterAll attempts) := by
  induction attempts generalizing c l with
  | nil => exact h
  | cons a rest ih => exact ih (h.run_add a).2.1

end Catalogue

/-! ## What a library tells -/

namespace Library

/-- **What a library tells** once some shapes were offered to it. -/
structure IsIndexed (l : Library) (offered : List Shape) : Prop where
  nodup : l.names.Nodup
  /-- The first shape that was offered under a name is found. -/
  find : ∀ name, l.find? name = offered.find? fun s => s.name == name
  find_eq_none_iff : ∀ name, l.find? name = none ↔ ∀ s ∈ offered, s.name ≠ name
  contains_iff : ∀ name, l.contains name = true ↔ ∃ s, l.find? name = some s
  mem_names_iff : ∀ name, name ∈ l.names ↔ ∃ s, l.find? name = some s
  count : l.names.length = l.count ∧ l.shapes.length = l.count
  /-- An index has an item unless it passes one of the ends, or 64 bits. -/
  exists_item_iff : ∀ i, (∃ s, l.item i = .ok s) ↔
    (-0x8000000000000000 ≤ i ∧ i < 0x8000000000000000) ∧ -(l.count : Int) ≤ i ∧ i < l.count
  /-- It counts from the first shape, or from behind the last one when it is negative. -/
  item_eq_ok_iff : ∀ i s, l.item i = .ok s ↔
    (-0x8000000000000000 ≤ i ∧ i < 0x8000000000000000) ∧
      ∃ k : ℕ, l.shapes[k]? = some s ∧ (i = k ∨ i = k - l.count)
  name_item : ∀ i, (l.item i).map Shape.name = itemAt l.names i
  find_item : ∀ i s, l.item i = .ok s → l.find? s.name = some s
  /-- A shape is refused when it is missing or when its name is taken. -/
  refused_iff : ∀ a e, l.add a = .error e ↔ (a = none ∧ e = .missingShape) ∨
    ∃ s, a = some s ∧ l.contains s.name = true ∧ e = .duplicate s.name
  /-- What is refused leaves the library as it was. -/
  after_refused : ∀ a e, l.add a = .error e → l.after a = l

variable {l : Library} {a : Option Shape} {s : Shape}

theorem add_eq_error_iff {e : AddError} :
    l.add a = .error e ↔ (a = none ∧ e = .missingShape) ∨
      ∃ s, a = some s ∧ s.name ∈ l.names ∧ e = .duplicate s.name := by
  constructor
  · intro h
    obtain ⟨s, l', -, -, hadd, -⟩ | ⟨ha, hadd⟩ | ⟨s, ha, htaken, hadd⟩ := add_cases l a
    · rw [hadd] at h
      cases h
    · exact .inl ⟨ha, Except.error.inj (h.symm.trans hadd)⟩
    · exact .inr ⟨s, ha, htaken, Except.error.inj (h.symm.trans hadd)⟩
  · rintro (⟨rfl, rfl⟩ | ⟨s, rfl, htaken, rfl⟩)
    · rfl
    · rw [add, dif_pos htaken]

/-- The first shapes that were offered determine what a library tells. -/
theorem isIndexed_of_find? {offered : List Shape}
    (hfind : ∀ name, l.find? name = offered.find? fun s => s.name == name) :
    l.IsIndexed offered where
  nodup := l.nodup
  find := hfind
  find_eq_none_iff name := by
    rw [hfind, List.find?_eq_none]
    simp
  contains_iff := l.contains_iff
  mem_names_iff _ := exists_find?_eq_some_iff.symm
  count := ⟨List.length_map _, rfl⟩
  exists_item_iff _ := exists_itemAt_iff
  item_eq_ok_iff _ _ := itemAt_eq_ok_iff
  name_item _ := map_itemAt _
  find_item i s h := by
    obtain ⟨-, k, hk, -⟩ := itemAt_eq_ok_iff.mp h
    exact find?_of_mem (List.mem_of_getElem? hk)
  refused_iff a e := by
    simp only [add_eq_error_iff, contains, List.contains_iff_mem]
  after_refused _ _ := after_of_error

/-- **A library while shapes are added** to the ones it is built of, whatever is refused.  It holds
the accepted shapes in their order and finds the first one offered under each name; a list with an
index beside it agrees with it all the time, and takes and refuses the same. -/
theorem isIndexed_afterAll {init : List (Option Shape)} (h : ofShapes init = .ok l)
    (attempts : List (Option Shape)) :
    (l.afterAll attempts).shapes = init.reduceOption ++ l.accepted attempts ∧
      (l.afterAll attempts).names = (init.reduceOption ++ l.accepted attempts).map Shape.name ∧
      (l.afterAll attempts).IsIndexed (init ++ attempts).reduceOption ∧
      (Catalogue.empty.afterAll (init ++ attempts)).Agrees (l.afterAll attempts) ∧
      ∀ a,
        ((Catalogue.add a).run.run (Catalogue.empty.afterAll (init ++ attempts))).1 =
            ((l.afterAll attempts).add a).map (fun _ => ()) ∧
          ∀ e, (l.afterAll attempts).add a = .error e →
            (Catalogue.empty.afterAll (init ++ attempts)).after a =
              Catalogue.empty.afterAll (init ++ attempts) := by
  obtain ⟨rfl, haccepted⟩ := eq_afterAll_of_addAll h
  have hshapes : ((empty.afterAll init).afterAll attempts).shapes =
      init.reduceOption ++ (empty.afterAll init).accepted attempts := by
    rw [shapes_afterAll, shapes_afterAll, haccepted]
    rfl
  have hagrees := Catalogue.agrees_empty.afterAll (init ++ attempts)
  rw [afterAll_append] at hagrees
  refine ⟨hshapes, by rw [names, hshapes], isIndexed_of_find? fun name => ?_, hagrees, fun a => ?_⟩
  · rw [← afterAll_append, find?_afterAll]
    exact Option.none_or
  · obtain ⟨hanswer, -, hrefused⟩ := hagrees.run_add a
    exact ⟨hanswer, hrefused⟩

/-- A second square is refused, and so is a missing shape. -/
theorem isIndexed_afterAll_square :
    ∃ l, ofShapes [some Shape.square, some Shape.star] = .ok l ∧
      (l.afterAll [some Shape.square, none, some Shape.heart]).names =
        ["square", "star", "heart"].map Text.Loose.plain ∧
      (l.afterAll [some Shape.square, none, some Shape.heart]).find? (.plain "square") =
        some Shape.square := by
  have hl : ofShapes [some Shape.square, some Shape.star] =
      .ok ⟨[Shape.square, Shape.star], by decide⟩ := rfl
  obtain ⟨-, hnames, hindexed, -⟩ :=
    isIndexed_afterAll hl [some Shape.square, none, some Shape.heart]
  exact ⟨_, hl, hnames, hindexed.find _⟩

end Library

end Stencil
