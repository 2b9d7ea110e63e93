import Stencil.Drawing
import Stencil.Proofs.Number.Magnitude
import Stencil.Proofs.Record.Stamp

/-!
# Proofs/Drawing/Course — what the outline of a stamp goes through

    start ──place──▸ ──turn, move, back──▸ … ──turn──▸ last

A stamp's outline goes through the `actions` of the stamp, one after the other.  A `Course` is such
a sequence of outlines in which no position is farther out than some bound and no sum of positions
needs more than 64 bits.

A turn brings every position back to 32 bits; a copy moves it by 32 bits and less.  A stamp of
numbers of 32 bits makes fewer than `2 ^ 31` copies, so `2 ^ 62` bounds its whole course
(`exists_course_actions`).
-/

namespace Stencil

open Stencil.Record

/-- A number of 64 bits. -/
def Number.IsWord (n : Int) : Prop :=
  -0x8000000000000000 ≤ n ∧ n < 0x8000000000000000

theorem Number.IsWord.word {n : Int} (h : IsWord n) : word n = .ok n :=
  word_eq_ok_iff.mpr ⟨rfl, h⟩

theorem Number.IsWord.wrap {n : Int} (h : IsWord n) : wrap n = n :=
  wrap_eq_self h

theorem Number.isWord_of_natAbs {n : Int} (h : n.natAbs < 2 ^ 63) : IsWord n := by
  simp only [IsWord]
  omega

theorem Number.natAbs_toPixel (x : Float) : (toPixel x).natAbs ≤ 2 ^ 31 := by
  have := toPixel_mem x
  rw [leastPixel, greatestPixel] at this
  omega

/-! ## Outlines within a bound -/

namespace Outline

/-- Every position is at most so far from the origin on each axis. -/
def IsWithin (b : Nat) (o : Outline) : Prop :=
  ∀ v ∈ o, v.x.natAbs ≤ b ∧ v.y.natAbs ≤ b

/-- The outline moved by whole numbers that have no limit. -/
def shifted (o : Outline) (dx dy : Int) : Outline :=
  o.map fun v => ⟨v.x + dx, v.y + dy⟩

variable {o : Outline} {b c : Nat} {dx dy : Int}

theorem IsWithin.mono (h : o.IsWithin b) (hbc : b ≤ c) : o.IsWithin c :=
  fun v hv => ⟨Nat.le_trans (h v hv).1 hbc, Nat.le_trans (h v hv).2 hbc⟩

theorem IsWithin.shifted (h : o.IsWithin b) (hx : dx.natAbs ≤ c) (hy : dy.natAbs ≤ c) :
    (o.shifted dx dy).IsWithin (b + c) := by
  intro w hw
  obtain ⟨v, hv, rfl⟩ := List.mem_map.mp hw
  have := h v hv
  constructor
  · change (v.x + dx).natAbs ≤ b + c
    omega
  · change (v.y + dy).natAbs ≤ b + c
    omega

/-- What is moved and moved back is where it was. -/
theorem shifted_shifted_neg (o : Outline) (dx dy : Int) :
    (o.shifted dx dy).shifted (-dx) (-dy) = o := by
  rw [shifted, shifted, List.map_map]
  refine (List.map_congr_left ?_).trans (List.map_id _)
  intro v _
  simp only [Function.comp, Int.add_neg_cancel_right, id]

/-- A position of 62 bits with one of 32 bits added has 64 bits. -/
theorem IsWithin.isWord_add (h : o.IsWithin b) (hb : b ≤ 2 ^ 62) (hx : dx.natAbs ≤ 2 ^ 32)
    (hy : dy.natAbs ≤ 2 ^ 32) :
    ∀ v ∈ o, Number.IsWord (v.x + dx) ∧ Number.IsWord (v.y + dy) := by
  intro v hv
  have := h v hv
  exact ⟨Number.isWord_of_natAbs (by omega), Number.isWord_of_natAbs (by omega)⟩

/-- Positions of 64 bits are moved as whole numbers are, since no sum needs more. -/
theorem translate_eq (h : o.IsWithin b) (hb : b ≤ 2 ^ 62) (hx : dx.natAbs ≤ 2 ^ 32)
    (hy : dy.natAbs ≤ 2 ^ 32) : o.translate dx dy = .ok (o.shifted dx dy) := by
  have hdx : Number.IsWord dx := Number.isWord_of_natAbs (by omega)
  have hdy : Number.IsWord dy := Number.isWord_of_natAbs (by omega)
  rw [translate, moveX, hdx.word]
  change moveY _ dy = _
  rw [moveY, hdy.word]
  change Except.ok (List.map _ (List.map _ o)) = _
  rw [List.map_map, shifted]
  refine congrArg _ (List.map_congr_left ?_)
  intro v hv
  obtain ⟨hvx, hvy⟩ := h.isWord_add hb hx hy v hv
  simp only [Function.comp, hvx.wrap, hvy.wrap]

theorem isWithin_of_toPixel {α : Type} (xs : List α) (f g : α → Float) :
    IsWithin (2 ^ 31) (xs.map fun a => ⟨Number.toPixel (f a), Number.toPixel (g a)⟩) := by
  intro v hv
  obtain ⟨a, -, rfl⟩ := List.mem_map.mp hv
  exact ⟨Number.natAbs_toPixel (f a), Number.natAbs_toPixel (g a)⟩

/-- **An outline can be turned** about a centre of 64 bits, and stays within 32 bits. -/
theorem exists_rotate (o : Outline) {cx cy : Int} {degrees : Float} (hx : Number.IsWord cx)
    (hy : Number.IsWord cy) (hangle : (degrees * radian).isInf = false) :
    ∃ p, o.rotate cx cy degrees = .ok p ∧ p.IsWithin (2 ^ 31) := by
  rw [rotate, turning, hangle, if_neg Bool.false_ne_true, hx.word, hy.word]
  exact ⟨_, rfl, isWithin_of_toPixel o _ _⟩

/-- A whole number of degrees is no infinite angle. -/
theorem isInf_ofInt_mul_radian {n : Int} (h : InRange n) (hn : 0 ≤ n) :
    Number.double n = .ok (Float.ofInt n) ∧ (Float.ofInt n * radian).isInf = false := by
  have hlt : n.natAbs < 2 ^ 31 := by
    have := h.2
    rw [maxInteger] at this
    omega
  obtain ⟨hdouble, hbelow⟩ := Number.double_eq_ok hn hlt (by decide)
  have hradian : Number.IsBelow 0 radian := by decide +kernel
  exact ⟨hdouble, (hbelow.mul hradian (by decide) (by decide)).isInf⟩

end Outline

/-! ## Shapes of numbers -/

/-- Both coordinates are numbers.  What is not a number has no position in pixels. -/
def Point.IsNumeric (p : Point) : Prop :=
  p.x.isNaN = false ∧ p.y.isNaN = false

/-- **The shapes of a library have numbers for coordinates.** -/
def Library.IsNumeric (l : Library) : Prop :=
  ∀ shape ∈ l.shapes, ∀ p ∈ shape.points, p.IsNumeric

instance (p : Point) : Decidable p.IsNumeric :=
  inferInstanceAs (Decidable (_ ∧ _))

theorem Library.isNumeric_builtin : Library.builtin.IsNumeric := by
  change ∀ shape ∈ Shape.builtins, ∀ p ∈ shape.points, p.IsNumeric
  decide +kernel

/-- **A shape can be scaled** to any size of 32 bits, and stays within 32 bits. -/
theorem Shape.exists_scaled (shape : Shape) {percent : Int} (h : InRange percent)
    (hpos : 0 ≤ percent) :
    ∃ o, shape.scaled percent = .ok o ∧ o.IsWithin (2 ^ 31) := by
  rw [scaled, (Outline.isInf_ofInt_mul_radian h hpos).1]
  exact ⟨_, rfl, Outline.isWithin_of_toPixel shape.points _ _⟩

/-! ## Actions -/

/-- **One thing that happens to the outline of a stamp.** -/
inductive Action where
  /-- It is put where the stamp starts. -/
  | place
  /-- It is turned about the centre of the stamp, by an angle in degrees. -/
  | turn (degrees : Int)
  /-- It is moved. -/
  | move (dx dy : Int)
  /-- It is moved back to where it was. -/
  | back (dx dy : Int)
  deriving Repr, DecidableEq

namespace Action

/-- The outline after an action. -/
def run (s : Stamp) (o : Outline) : Action → Except Number.Error Outline
  | place => Drawing.placed s o
  | turn degrees => (Number.double degrees).bind (o.rotate s.center.x s.center.y)
  | move dx dy => o.translate dx dy
  | back dx dy => o.translate (-dx) (-dy)

/-- Whether the outline is put down after an action. -/
def isShown : Action → Bool
  | back .. => false
  | _ => true

/-- What an action adds to every position, by the arithmetic of 64 bits. -/
def shift (s : Stamp) : Action → Vertex
  | place => if s.x.isRandom && s.y.isRandom then ⟨0, 0⟩ else ⟨s.x.raw, s.y.raw⟩
  | turn _ => ⟨-s.center.x, -s.center.y⟩
  | move dx dy => ⟨dx, dy⟩
  | back dx dy => ⟨-dx, -dy⟩

/-- **An action takes an outline to another**: no sum needs more than 64 bits, and no position is
farther out than the bound. -/
structure Takes (s : Stamp) (b : Nat) (a : Action) (o p : Outline) : Prop where
  isWord : ∀ v ∈ o, Number.IsWord (v.x + (a.shift s).x) ∧ Number.IsWord (v.y + (a.shift s).y)
  run : a.run s o = .ok p
  isWithin : p.IsWithin b

theorem length_of_run {s : Stamp} {a : Action} {o p : Outline} (h : a.run s o = .ok p) :
    p.length = o.length := by
  cases a with
  | place =>
    rw [run, Drawing.placed] at h
    split at h
    · exact (congrArg List.length (Except.ok.inj h)).symm
    · exact Outline.length_translate h
  | turn degrees =>
    obtain ⟨angle, -, hangle⟩ := bind_eq_ok_iff.mp h
    exact Outline.length_rotate hangle
  | move dx dy => exact Outline.length_translate h
  | back dx dy => exact Outline.length_translate h

theorem ne_nil_of_run {s : Stamp} {a : Action} {o p : Outline} (h : a.run s o = .ok p)
    (ho : o ≠ []) : p ≠ [] := by
  rw [← List.length_pos_iff, length_of_run h]
  exact List.length_pos_iff.mpr ho

end Action

/-! ## Courses -/

/-- **The course of a stamp's outline**: the outlines that actions take it to one after the other,
and the last of them. -/
inductive Course (s : Stamp) (b : Nat) :
    Outline → List Action → List Outline → Outline → Prop
  | nil (o : Outline) : Course s b o [] [] o
  | cons {a : Action} {as : List Action} {o p q : Outline} {ps : List Outline}
    (first : a.Takes s b o p) (rest : Course s b p as ps q) : Course s b o (a :: as) (p :: ps) q

namespace Course

variable {s : Stamp} {b c : Nat} {o p q : Outline} {as bs : List Action} {ps qs : List Outline}

theorem single {a : Action} (h : a.Takes s b o p) : Course s b o [a] [p] p :=
  .cons h (.nil p)

theorem mono (h : Course s b o as ps q) (hbc : b ≤ c) : Course s c o as ps q := by
  induction h with
  | nil o => exact .nil o
  | cons first _ ih => exact .cons { first with isWithin := first.isWithin.mono hbc } ih

/-- Courses follow one another. -/
theorem append (h : Course s b o as ps p) (h' : Course s b p bs qs q) :
    Course s b o (as ++ bs) (ps ++ qs) q := by
  induction h with
  | nil _ => exact h'
  | cons first _ ih => exact .cons first (ih h')

/-- A course can be divided where its actions are. -/
theorem exists_of_append (h : Course s b o (as ++ bs) ps q) :
    ∃ ps₁ m ps₂, ps = ps₁ ++ ps₂ ∧ Course s b o as ps₁ m ∧ Course s b m bs ps₂ q := by
  induction as generalizing o ps with
  | nil => exact ⟨[], o, ps, rfl, .nil o, h⟩
  | cons a as ih =>
    cases h with
    | cons first rest =>
      obtain ⟨ps₁, m, ps₂, rfl, hbefore, hafter⟩ := ih rest
      exact ⟨_ :: ps₁, m, ps₂, rfl, .cons first hbefore, hafter⟩

theorem length_eq (h : Course s b o as ps q) : ps.length = as.length := by
  induction h with
  | nil _ => rfl
  | cons _ _ ih => rw [List.length_cons, List.length_cons, ih]

theorem isWithin (h : Course s b o as ps q) : ∀ p ∈ ps, p.IsWithin b := by
  induction h with
  | nil _ => exact fun _ hp => nomatch hp
  | cons first _ ih => exact List.forall_mem_cons.mpr ⟨first.isWithin, ih⟩

/-- No sum of a course wraps around. -/
theorem wrap_eq (h : Course s b o as ps q) : ∀ x ∈ as.zip (o :: ps), ∀ v ∈ x.2,
    Number.wrap (v.x + (x.1.shift s).x) = v.x + (x.1.shift s).x ∧
      Number.wrap (v.y + (x.1.shift s).y) = v.y + (x.1.shift s).y := by
  induction h with
  | nil _ => exact fun _ hx => nomatch hx
  | cons first _ ih =>
    refine List.forall_mem_cons.mpr ⟨?_, ih⟩
    exact fun v hv => ⟨(first.isWord v hv).1.wrap, (first.isWord v hv).2.wrap⟩

theorem isWithin_last (h : Course s b o as ps q) (ho : o.IsWithin b) : q.IsWithin b := by
  induction h with
  | nil _ => exact ho
  | cons first _ ih => exact ih first.isWithin

theorem ne_nil_last (h : Course s b o as ps q) (ho : o ≠ []) : q ≠ [] := by
  induction h with
  | nil _ => exact ho
  | cons first _ ih => exact ih (Action.ne_nil_of_run first.run ho)

/-- Every outline of a course has as many vertices as the first one. -/
theorem length_of_mem (h : Course s b o as ps q) : ∀ p ∈ ps, p.length = o.length := by
  induction h with
  | nil _ => exact fun _ hp => nomatch hp
  | cons first _ ih =>
    have hlen := Action.length_of_run first.run
    refine List.forall_mem_cons.mpr ⟨hlen, ?_⟩
    exact fun p hp => (ih p hp).trans hlen

end Course

/-! ## The actions of a stamp -/

namespace Stamp

/-- The actions that make one copy: it is turned first and then moved, and a copy on a random place
is moved back. -/
def copyActions (s : Stamp) (offset : Int × Int) : List Action :=
  (if 0 < s.repeatRotate then [.turn s.repeatRotate] else []) ++
    .move offset.1 offset.2 :: (if s.hasRandomAxis then [.back offset.1 offset.2] else [])

/-- **The actions of a stamp** whose copies are moved by the given amounts. -/
def actions (s : Stamp) (offsets : List (Int × Int)) : List Action :=
  .place :: offsets.flatMap s.copyActions ++ (if 1 < s.rotate then [.turn s.rotate] else [])

variable {s : Stamp} {o : Outline} {b : Nat}

/-- The numbers of a narrow stamp, as bounds on each. -/
theorem IsNarrow.natAbs_raw (h : s.IsNarrow) :
    s.x.raw.natAbs ≤ 2 ^ 31 ∧ s.y.raw.natAbs ≤ 2 ^ 31 := by
  have hx := h.x.ofRaw_raw.1
  have hy := h.y.ofRaw_raw.1
  simp only [InRange, minInteger, maxInteger] at hx hy
  omega

theorem IsNarrow.natAbs_center (h : s.IsNarrow) :
    s.center.x.natAbs ≤ 2 ^ 32 ∧ s.center.y.natAbs ≤ 2 ^ 32 := by
  have hraw := h.natAbs_raw
  have hscale := h.scale
  simp only [InRange, minInteger, maxInteger] at hscale
  simp only [center]
  omega

/-- **The first action.** -/
theorem exists_takes_place (h : s.IsNarrow) (ho : o.IsWithin (2 ^ 31)) :
    ∃ p, Action.place.Takes s (2 ^ 32) o p := by
  obtain ⟨hx, hy⟩ := h.natAbs_raw
  by_cases hrandom : (s.x.isRandom && s.y.isRandom) = true
  · refine ⟨o, ?_, ?_, ho.mono (by decide)⟩
    · rw [Action.shift, if_pos hrandom]
      exact ho.isWord_add (by decide) (by decide) (by decide)
    · rw [Action.run, Drawing.placed, if_pos hrandom]
  · refine ⟨o.shifted s.x.raw s.y.raw, ?_, ?_, ho.shifted hx hy⟩
    · rw [Action.shift, if_neg hrandom]
      exact ho.isWord_add (by decide) (Nat.le_trans hx (by decide)) (Nat.le_trans hy (by decide))
    · rw [Action.run, Drawing.placed, if_neg hrandom]
      exact Outline.translate_eq ho (by decide) (by omega) (by omega)

/-- **A turn** brings every position back to 32 bits. -/
theorem exists_takes_turn (h : s.IsNarrow) {degrees : Int} (hrange : InRange degrees)
    (hpos : 0 ≤ degrees) (ho : o.IsWithin (2 ^ 62)) :
    ∃ p, (Action.turn degrees).Takes s (2 ^ 31) o p := by
  obtain ⟨hx, hy⟩ := h.natAbs_center
  obtain ⟨hdouble, hangle⟩ := Outline.isInf_ofInt_mul_radian hrange hpos
  have hcx : Number.IsWord s.center.x := Number.isWord_of_natAbs (by omega)
  have hcy : Number.IsWord s.center.y := Number.isWord_of_natAbs (by omega)
  obtain ⟨p, hp, hwithin⟩ := o.exists_rotate hcx hcy hangle
  refine ⟨p, ho.isWord_add (Nat.le_refl _) ?_ ?_, ?_, hwithin⟩
  · exact (Int.natAbs_neg _).trans_le hx
  · exact (Int.natAbs_neg _).trans_le hy
  · rw [Action.run, hdouble]
    exact hp

variable {dx dy : Int}

/-- **A move** adds at most 32 bits. -/
theorem takes_move (hx : dx.natAbs ≤ 2 ^ 31) (hy : dy.natAbs ≤ 2 ^ 31) (ho : o.IsWithin b)
    (hb : b + 2 ^ 31 ≤ 2 ^ 62) :
    (Action.move dx dy).Takes s (b + 2 ^ 31) o (o.shifted dx dy) := by
  have hx' : dx.natAbs ≤ 2 ^ 32 := by omega
  have hy' : dy.natAbs ≤ 2 ^ 32 := by omega
  exact ⟨ho.isWord_add (by omega) hx' hy', Outline.translate_eq ho (by omega) hx' hy',
    ho.shifted hx hy⟩

/-- **A move back** undoes a move exactly. -/
theorem takes_back (hx : dx.natAbs ≤ 2 ^ 31) (hy : dy.natAbs ≤ 2 ^ 31) (ho : o.IsWithin b)
    (hb : b + 2 ^ 31 ≤ 2 ^ 62) : (Action.back dx dy).Takes s b (o.shifted dx dy) o := by
  have hmoved := ho.shifted hx hy
  have hx' : (-dx).natAbs ≤ 2 ^ 32 := by omega
  have hy' : (-dy).natAbs ≤ 2 ^ 32 := by omega
  refine ⟨hmoved.isWord_add hb hx' hy', ?_, ho⟩
  rw [Action.run, Outline.translate_eq hmoved hb hx' hy', Outline.shifted_shifted_neg]

/-- **A turn that is left out** when the angle is not large enough. -/
theorem exists_course_turn (h : s.IsNarrow) {degrees least : Int} (hrange : InRange degrees)
    (hleast : 0 ≤ least) (ho : o.IsWithin b) (hlow : 2 ^ 31 ≤ b) (hhigh : b ≤ 2 ^ 62) :
    ∃ ps p, Course s b o (if least < degrees then [.turn degrees] else []) ps p := by
  split
  next hlt =>
    obtain ⟨p, hp⟩ := exists_takes_turn h hrange (by omega) (ho.mono hhigh)
    exact ⟨[p], p, (Course.single hp).mono hlow⟩
  next => exact ⟨[], o, .nil o⟩

/-- An amount that a copy is moved by fits 32 bits. -/
def IsNear (offset : Int × Int) : Prop :=
  offset.1.natAbs ≤ 2 ^ 31 ∧ offset.2.natAbs ≤ 2 ^ 31

/-- **One copy** adds at most 32 bits. -/
theorem exists_course_copyActions (h : s.IsNarrow) {offset : Int × Int} (hoffset : IsNear offset)
    (ho : o.IsWithin b) (hlow : 2 ^ 31 ≤ b) (hhigh : b + 2 ^ 31 ≤ 2 ^ 62) :
    ∃ ps q, Course s (b + 2 ^ 31) o (s.copyActions offset) ps q := by
  obtain ⟨hx, hy⟩ := hoffset
  obtain ⟨ps, p, hturn⟩ := exists_course_turn h h.repeatRotate (Int.le_refl 0) ho hlow (by omega)
  have hp := hturn.isWithin_last ho
  have hmove := takes_move (s := s) hx hy hp hhigh
  have hback := takes_back (s := s) hx hy hp hhigh
  by_cases hrandom : s.hasRandomAxis = true
  · refine ⟨ps ++ [p.shifted offset.1 offset.2, p], p, ?_⟩
    rw [copyActions, if_pos hrandom]
    exact (hturn.mono (by omega)).append
      (.cons hmove ((Course.single hback).mono (by omega)))
  · refine ⟨ps ++ [p.shifted offset.1 offset.2], p.shifted offset.1 offset.2, ?_⟩
    rw [copyActions, if_neg hrandom]
    exact (hturn.mono (by omega)).append (Course.single hmove)

/-- **So many copies** add at most so many times 32 bits. -/
theorem exists_course_copies (h : s.IsNarrow) {offsets : List (Int × Int)}
    (hoffsets : ∀ offset ∈ offsets, IsNear offset) (ho : o.IsWithin b) (hlow : 2 ^ 31 ≤ b)
    (hhigh : b + offsets.length * 2 ^ 31 ≤ 2 ^ 62) :
    ∃ ps q, Course s (2 ^ 62) o (offsets.flatMap s.copyActions) ps q := by
  induction offsets generalizing o b with
  | nil => exact ⟨[], o, .nil o⟩
  | cons offset offsets ih =>
    rw [List.length_cons] at hhigh
    obtain ⟨hoffset, hoffsets⟩ := List.forall_mem_cons.mp hoffsets
    obtain ⟨ps, p, hfirst⟩ := exists_course_copyActions h hoffset ho hlow (by omega)
    have hp := hfirst.isWithin_last (ho.mono (by omega))
    obtain ⟨qs, q, hrest⟩ := ih hoffsets hp (by omega) (by omega)
    exact ⟨ps ++ qs, q, (hfirst.mono (by omega)).append hrest⟩

/-- **The whole course of a narrow stamp** stays within 62 bits. -/
theorem exists_course_actions (h : s.IsNarrow) {offsets : List (Int × Int)}
    (hoffsets : ∀ offset ∈ offsets, IsNear offset) (hlength : offsets.length = s.repeats - 1)
    (ho : o.IsWithin (2 ^ 31)) :
    ∃ ps q, Course s (2 ^ 62) o (s.actions offsets) ps q := by
  have hrepeats := h.repeats.2
  rw [maxInteger] at hrepeats
  obtain ⟨p, hplace⟩ := exists_takes_place h ho
  obtain ⟨ps, q, hcopies⟩ := exists_course_copies h hoffsets hplace.isWithin (by decide) (by omega)
  have hfirst := ((Course.single hplace).mono (by decide)).append hcopies
  have hq := hfirst.isWithin_last (ho.mono (by decide))
  obtain ⟨qs, r, hlast⟩ :=
    exists_course_turn h h.rotate Int.one_nonneg hq (by decide) (Nat.le_refl _)
  exact ⟨_, r, hfirst.append hlast⟩

end Stamp

end Stencil
