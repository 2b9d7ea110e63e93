import Stencil.Proofs.Drawing.Painting

/-!
# Proofs/Drawing/Block — the marks of one stamp

    [placed] ++ [turned, moved] ++ [turned, moved] ++ … ++ [turned]

The marks that a stamp leaves are a `Block`: its outline where it starts, then its copies, each one
made of what the one before has left, and last a turned outline.  The courses of a stamp's outline
leave nothing else (`Course.isBlock`), and the number of marks is that of the outlines put down
(`IsBlock.length_eq`).
-/

namespace Stencil

/-- The outline turned by an angle in degrees about the middle of the stamp's frame. -/
def Stamp.turn (s : Stamp) (degrees : Int) (o : Outline) : Except Number.Error Outline :=
  (Number.double degrees).bind fun angle =>
    o.rotate (s.x.raw + s.scale / 2) (s.y.raw + s.scale / 2) angle

/-- The mark of an outline that a stamp puts down. -/
def Stamp.mark (s : Stamp) (o : Outline) : Mark :=
  .polygon s.style s.color o

/-! ## Copies -/

/-- **One copy**, from the outline that was left before it to the one that is left after it. -/
structure Copy (s : Stamp) (before after : Outline) where
  /-- The outline turned where it is; the outline itself when copies are not turned. -/
  turned : Outline
  /-- The turned outline, moved. -/
  moved : Outline
  /-- How far it is moved on each axis. -/
  offset : Int × Int
  turned_eq : (if 0 < s.repeatRotate then s.turn s.repeatRotate before else .ok before) = .ok turned
  moved_eq : turned.translate offset.1 offset.2 = .ok moved
  after_eq : (if s.hasRandomAxis then moved.translate (-offset.1) (-offset.2) else .ok moved) =
    .ok after

/-- The marks of a copy: that of the turned outline comes right before that of the moved one. -/
def Copy.marks {s : Stamp} {before after : Outline} (c : Copy s before after) : List Mark :=
  if 0 < s.repeatRotate then [s.mark c.turned, s.mark c.moved] else [s.mark c.moved]

/-- **Copies made one after another**, and the marks of each. -/
inductive Copies (s : Stamp) : Outline → List (List Mark) → Outline → Prop
  | nil (o : Outline) : Copies s o [] o
  | cons {o p q : Outline} {blocks : List (List Mark)} (first : Copy s o p)
    (rest : Copies s p blocks q) : Copies s o (first.marks :: blocks) q

/-- **The marks of a stamp** of a shape: the outline where it starts, the copies, and a last turned
outline. -/
def IsBlock (shape : Shape) (s : Stamp) (block : List Mark) : Prop :=
  ∃ start placed copies left last, shape.scaled s.scale = .ok start ∧
    Drawing.placed s start = .ok placed ∧ Copies s placed copies left ∧
    copies.length = s.repeats - 1 ∧
    (if 1 < s.rotate then s.turn s.rotate left else .ok left) = .ok last ∧
    block = s.mark placed :: copies.flatten ++ (if 1 < s.rotate then [s.mark last] else [])

section Courses

variable {s : Stamp} {b : Nat} {o q : Outline} {ps : List Outline}

theorem Stamp.marks_cons {a : Action} (h : a.isShown = true) (as : List Action) (p : Outline) :
    s.marks (a :: as) (p :: ps) = s.mark p :: s.marks as ps := by
  simp [marks, mark, h]

/-- A turn that may be left out, and its mark. -/
theorem Course.of_turn {degrees least : Int}
    (h : Course s b o (if least < degrees then [.turn degrees] else []) ps q) :
    (if least < degrees then s.turn degrees o else .ok o) = .ok q ∧
      s.marks (if least < degrees then [.turn degrees] else []) ps =
        if least < degrees then [s.mark q] else [] := by
  split at h
  next hlt =>
    rw [if_pos hlt, if_pos hlt, if_pos hlt]
    cases h with
    | cons hturn hnil =>
      cases hnil
      exact ⟨hturn.run, rfl⟩
  next hge =>
    rw [if_neg hge, if_neg hge, if_neg hge]
    cases h
    exact ⟨rfl, rfl⟩

/-- A move and, where the place is random, the move back leave one mark. -/
theorem Course.of_move {dx dy : Int}
    (h : Course s b o (.move dx dy :: if s.hasRandomAxis then [.back dx dy] else []) ps q) :
    ∃ moved, o.translate dx dy = .ok moved ∧
      (if s.hasRandomAxis then moved.translate (-dx) (-dy) else .ok moved) = .ok q ∧
      s.marks (.move dx dy :: if s.hasRandomAxis then [.back dx dy] else []) ps =
        [s.mark moved] := by
  cases h with
  | @cons _ _ _ moved _ _ hmove hback =>
    refine ⟨moved, hmove.run, ?_⟩
    rw [Stamp.marks_cons rfl]
    split at hback
    next hrandom =>
      rw [if_pos hrandom, if_pos hrandom]
      cases hback with
      | cons hback hnil =>
        cases hnil
        exact ⟨hback.run, rfl⟩
    next hfixed =>
      rw [if_neg hfixed, if_neg hfixed]
      cases hback
      exact ⟨rfl, rfl⟩

/-- The course of a copy's actions makes one copy. -/
theorem Course.exists_copy {offset : Int × Int} (h : Course s b o (s.copyActions offset) ps q) :
    ∃ c : Copy s o q, s.marks (s.copyActions offset) ps = c.marks := by
  obtain ⟨ts, turned, ms, rfl, hturn, hmove⟩ := h.exists_of_append
  obtain ⟨hturned, htmarks⟩ := hturn.of_turn
  obtain ⟨moved, hmoved, hafter, hmmarks⟩ := hmove.of_move
  refine ⟨⟨turned, moved, offset, hturned, hmoved, hafter⟩, ?_⟩
  rw [Stamp.copyActions, Stamp.marks_append hturn.length_eq, htmarks, hmmarks, Copy.marks]
  split <;> rfl

/-- The course of several copies' actions makes as many copies. -/
theorem Course.exists_copies {offsets : List (Int × Int)}
    (h : Course s b o (offsets.flatMap s.copyActions) ps q) :
    ∃ copies, Copies s o copies q ∧ copies.length = offsets.length ∧
      s.marks (offsets.flatMap s.copyActions) ps = copies.flatten := by
  induction offsets generalizing o ps with
  | nil =>
    cases h
    exact ⟨[], .nil q, rfl, rfl⟩
  | cons offset offsets ih =>
    obtain ⟨before, p, rest, rfl, hfirst, hrest⟩ := h.exists_of_append
    obtain ⟨c, hc⟩ := hfirst.exists_copy
    obtain ⟨copies, hcopies, hlength, hmarks⟩ := ih hrest
    refine ⟨c.marks :: copies, .cons c hcopies, congrArg Nat.succ hlength, ?_⟩
    rw [List.flatMap_cons, Stamp.marks_append hfirst.length_eq, hc, hmarks, List.flatten_cons]

/-- **The course of a stamp's actions leaves a block.** -/
theorem Course.isBlock {shape : Shape} {offsets : List (Int × Int)}
    (hstart : shape.scaled s.scale = .ok o) (hlength : offsets.length = s.repeats - 1)
    (h : Course s b o (s.actions offsets) ps q) :
    IsBlock shape s (s.marks (s.actions offsets) ps) := by
  obtain ⟨before, left, rest, rfl, hbefore, hlast⟩ := h.exists_of_append
  obtain ⟨hturned, hlastMarks⟩ := hlast.of_turn
  rw [Stamp.actions, Stamp.marks_append hbefore.length_eq, hlastMarks]
  cases hbefore with
  | @cons _ _ _ placed _ ps hplace hcopies =>
    obtain ⟨copies, hmade, hcount, hcopyMarks⟩ := hcopies.exists_copies
    rw [Stamp.marks_cons rfl, hcopyMarks]
    exact ⟨o, placed, copies, left, q, hstart, hplace.run, hmade, hcount.trans hlength, hturned,
      rfl⟩

/-! ## How many marks -/

theorem Copies.length_flatten {copies : List (List Mark)} (h : Copies s o copies q) :
    copies.flatten.length = copies.length * (1 + if 0 < s.repeatRotate then 1 else 0) := by
  induction h with
  | nil _ => exact (Nat.zero_mul _).symm
  | cons first _ ih =>
    have hfirst : first.marks.length = 1 + if 0 < s.repeatRotate then 1 else 0 := by
      rw [Copy.marks]
      split <;> rfl
    rw [List.flatten_cons, List.length_append, hfirst, ih, List.length_cons, Nat.succ_mul,
      Nat.add_comm]

/-- **The number of marks of a stamp.** -/
theorem IsBlock.length_eq {shape : Shape} {block : List Mark} (h : IsBlock shape s block) :
    block.length = 1 + (s.repeats - 1) * (1 + if 0 < s.repeatRotate then 1 else 0) +
      if 1 < s.rotate then 1 else 0 := by
  obtain ⟨_, _, copies, _, _, _, _, hcopies, hcount, _, rfl⟩ := h
  have hlast (last : Outline) : (if 1 < s.rotate then [s.mark last] else []).length =
      if 1 < s.rotate then 1 else 0 := by
    split <;> rfl
  rw [List.length_append, List.length_cons, hcopies.length_flatten, hcount, hlast,
    Nat.add_comm 1 (_ * _)]

/-- Every mark of a course is an outline of as many vertices as the first. -/
theorem Course.exists_of_mem_marks {as : List Action} (h : Course s b o as ps q) :
    ∀ mark ∈ s.marks as ps, ∃ p, mark = s.mark p ∧ p.length = o.length := by
  intro mark hmark
  obtain ⟨⟨a, p⟩, hmem, rfl⟩ := List.mem_map.mp hmark
  exact ⟨p, rfl, h.length_of_mem p (List.of_mem_zip (List.mem_of_mem_filter hmem)).2⟩

end Courses

end Stencil
