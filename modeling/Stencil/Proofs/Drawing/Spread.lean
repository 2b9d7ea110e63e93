import Stencil.Proofs.Drawing.Placement

/-!
# Proofs/Drawing/Spread — where the copies of a stamp lie

    both axes fixed     first, first + offset, first + 2 · offset, …          turned: the last one
    a random axis       first, first + answers, first + answers', …           turned: the first one

A stamp whose copies are not turned puts down one outline in several places.  On a fixed place every
copy starts where the one before has ended.  On a random place every copy starts over, also along an
axis that is not random (`polygons_of_read`).
-/

namespace Stencil

open Surface (Recording)

/-! ## How far the copies go -/

@[simp] theorem Outline.shifted_zero (o : Outline) : o.shifted 0 0 = o := by
  simp [shifted]

namespace Stamp

variable {s : Stamp} {canvas : Canvas} {g : Generator}

/-- Where the outline of a stamp is put first: at its place, unless both axes are random. -/
def corner (s : Stamp) : Vertex :=
  if s.x.isRandom && s.y.isRandom then ⟨0, 0⟩ else ⟨s.x.raw, s.y.raw⟩

/-- What the generator has been asked for when so many copies of a stamp have been made. -/
def callsAfter (s : Stamp) (canvas : Canvas) (calls : Array Nat) (n : Nat) : Array Nat :=
  calls ++ (List.replicate n (s.copyBounds canvas)).flatten.toArray

theorem callsAfter_succ (calls : Array Nat) (n : Nat) :
    s.callsAfter canvas calls (n + 1) =
      s.callsAfter canvas (calls ++ (s.copyBounds canvas).toArray) n := by
  simp [callsAfter, List.replicate_succ, Array.append_assoc]

/-- **How far each copy goes** depends on the copies made before it alone. -/
theorem offsets_eq_map (n : Nat) (calls : Array Nat) :
    s.offsets canvas g n calls =
      (List.range n).map fun k => s.offset canvas g (s.callsAfter canvas calls k) := by
  induction n generalizing calls with
  | zero => rfl
  | succ n ih =>
    rw [offsets, ih, List.range_succ_eq_map, List.map_cons, List.map_map]
    refine congrArg₂ List.cons (by simp [callsAfter]) (List.map_congr_left fun k _ => ?_)
    rw [Function.comp, Nat.succ_eq_add_one, callsAfter_succ]

theorem offset_of_fixed (h : s.hasRandomAxis = false) (calls : Array Nat) :
    s.offset canvas g calls = (s.offsetX, s.offsetY) := by
  obtain ⟨hx, hy⟩ : s.x.isRandom = false ∧ s.y.isRandom = false := by
    simpa [hasRandomAxis] using h
  rw [offset, Coordinate.offset, Coordinate.offset, hx, hy]
  rfl

/-- The copies of a stamp on a fixed place all go equally far. -/
theorem offsets_of_fixed (h : s.hasRandomAxis = false) (n : Nat) (calls : Array Nat) :
    s.offsets canvas g n calls = List.replicate n (s.offsetX, s.offsetY) := by
  rw [offsets_eq_map, List.map_congr_left fun k _ => offset_of_fixed h _, List.map_const',
    List.length_range]

/-- A copy that is not turned is moved and nothing else. -/
theorem copyActions_of_unturned (h : s.repeatRotate ≤ 0) (dx dy : Int) :
    s.copyActions (dx, dy) = .move dx dy :: if s.hasRandomAxis then [.back dx dy] else [] := by
  rw [copyActions, if_neg (Int.not_lt.mpr h)]
  rfl

end Stamp

/-! ## The course of the copies -/

namespace Course

variable {s : Stamp} {b n : Nat} {o p q : Outline} {ps : List Outline} {dx dy : Int}
  {offsets : List (Int × Int)}

/-- A stamp is put at its place first. -/
theorem eq_shifted_of_place (h : Action.place.Takes s b o p) :
    p = o.shifted s.corner.x s.corner.y := by
  have hword := h.isWord
  have hrun := h.run
  rw [Action.shift] at hword
  rw [Action.run, Drawing.placed] at hrun
  rw [Stamp.corner]
  split at hrun
  next hrandom =>
    rw [if_pos hrandom, ← Except.ok.inj hrun, Outline.shifted_zero]
  next hfixed =>
    rw [if_neg hfixed] at hword ⊢
    exact Outline.eq_shifted_of_translate hword hrun

/-- **On a random place** every copy is moved from where the first one is. -/
theorem of_random_copies (hturn : s.repeatRotate ≤ 0) (hrandom : s.hasRandomAxis = true)
    (h : Course s b o (offsets.flatMap s.copyActions) ps q) :
    s.marks (offsets.flatMap s.copyActions) ps =
        (offsets.map fun offset => o.shifted offset.1 offset.2).map s.mark ∧
      q = o := by
  induction offsets generalizing ps with
  | nil =>
    cases h
    exact ⟨rfl, rfl⟩
  | cons offset offsets ih =>
    rw [List.flatMap_cons, Stamp.copyActions_of_unturned hturn] at h ⊢
    obtain ⟨before, m, rest, rfl, hmove, hrest⟩ := h.exists_of_append
    obtain ⟨hmarks, hm⟩ := hmove.of_move_shifted
    rw [if_pos hrandom] at hm
    subst hm
    obtain ⟨hothers, hq⟩ := ih hrest
    exact ⟨by rw [Stamp.marks_append hmove.length_eq, hmarks, hothers]; rfl, hq⟩

/-- **On a fixed place** every copy is moved from where the one before is. -/
theorem of_fixed_copies (hturn : s.repeatRotate ≤ 0) (hfixed : s.hasRandomAxis = false)
    (h : Course s b o ((List.replicate n (dx, dy)).flatMap s.copyActions) ps q) :
    s.marks ((List.replicate n (dx, dy)).flatMap s.copyActions) ps =
        ((List.range n).map fun k : Nat => o.shifted ((k + 1) * dx) ((k + 1) * dy)).map s.mark ∧
      q = o.shifted (n * dx) (n * dy) := by
  induction n generalizing o ps with
  | zero =>
    cases h
    exact ⟨rfl, by simp⟩
  | succ n ih =>
    rw [List.replicate_succ, List.flatMap_cons, Stamp.copyActions_of_unturned hturn] at h ⊢
    obtain ⟨before, m, rest, rfl, hmove, hrest⟩ := h.exists_of_append
    obtain ⟨hmarks, hm⟩ := hmove.of_move_shifted
    rw [if_neg (by rw [hfixed]; decide)] at hm
    subst hm
    obtain ⟨hothers, rfl⟩ := ih hrest
    refine ⟨?_, ?_⟩
    · rw [Stamp.marks_append hmove.length_eq, hmarks, hothers, List.range_succ_eq_map,
        List.map_cons, List.map_cons, List.map_map, List.map_map, List.map_map,
        List.singleton_append]
      congr 1
      · simp
      · refine List.map_congr_left fun k _ => ?_
        simp only [Function.comp, Outline.shifted_shifted]
        congr 2 <;> push_cast <;> ring
    · rw [Outline.shifted_shifted]
      congr 1 <;> push_cast <;> ring

end Course

/-! ## The polygons of a stamp -/

namespace Stamp

/-- **Where the outline of a stamp is put down**, first and with each copy, when it is `first` at
the start and nothing turns it. -/
def polygons (s : Stamp) (canvas : Canvas) (g : Generator) (calls : Array Nat) (first : Outline) :
    List Outline :=
  if s.hasRandomAxis then
    first :: (s.offsets canvas g (s.repeats - 1) calls).map fun offset =>
      first.shifted offset.1 offset.2
  else (List.range s.repeats).map fun m : Nat => first.shifted (m * s.offsetX) (m * s.offsetY)

/-- The outline that is left when the copies have been made. -/
def left (s : Stamp) (first : Outline) : Outline :=
  if s.hasRandomAxis then first
  else first.shifted ((s.repeats - 1 : Nat) * s.offsetX) ((s.repeats - 1 : Nat) * s.offsetY)

variable {s : Stamp} {canvas : Canvas} {g : Generator} {calls : Array Nat} {first : Outline}

theorem length_polygons : (s.polygons canvas g calls first).length = s.repeats := by
  have := s.repeats_pos
  rw [polygons]
  split
  · rw [List.length_cons, List.length_map, length_offsets]
    omega
  · rw [List.length_map, List.length_range]

theorem getElem?_polygons_zero : (s.polygons canvas g calls first)[0]? = some first := by
  have := s.repeats_pos
  rw [polygons]
  split
  · rfl
  · rw [List.getElem?_map, List.getElem?_range this]
    simp

theorem getElem?_polygons_of_fixed (h : s.hasRandomAxis = false) {m : Nat} (hm : m < s.repeats) :
    (s.polygons canvas g calls first)[m]? =
      some (first.shifted (m * s.offsetX) (m * s.offsetY)) := by
  rw [polygons, if_neg (by rw [h]; decide), List.getElem?_map, List.getElem?_range hm]
  rfl

theorem getElem?_polygons_of_random (h : s.hasRandomAxis = true) {m : Nat}
    (hm : m + 1 < s.repeats) :
    (s.polygons canvas g calls first)[m + 1]? =
      some (first.shifted (s.offset canvas g (s.callsAfter canvas calls m)).1
        (s.offset canvas g (s.callsAfter canvas calls m)).2) := by
  have hm' : m < s.repeats - 1 := by omega
  rw [polygons, if_pos h, List.getElem?_cons_succ, offsets_eq_map, List.getElem?_map,
    List.getElem?_map, List.getElem?_range hm']
  rfl

/-- The outline that is left is the last one on a fixed place and the first one on a random one. -/
theorem left_mem_polygons :
    (if s.hasRandomAxis then (s.polygons canvas g calls first).head?
      else (s.polygons canvas g calls first).getLast?) = some (s.left first) := by
  have := s.repeats_pos
  rw [left]
  split
  next h => rw [List.head?_eq_getElem?, getElem?_polygons_zero]
  next h =>
    rw [List.getLast?_eq_getElem?, length_polygons,
      getElem?_polygons_of_fixed (Bool.eq_false_iff.mpr h) (by omega)]

/-- **The marks of a stamp whose copies are not turned.** -/
theorem marks_actions_of_unturned {b : Nat} {o q : Outline} {ps : List Outline}
    (hturn : s.repeatRotate ≤ 0)
    (h : Course s b o (s.actions (s.offsets canvas g (s.repeats - 1) calls)) ps q) :
    s.marks (s.actions (s.offsets canvas g (s.repeats - 1) calls)) ps =
        (s.polygons canvas g calls (o.shifted s.corner.x s.corner.y)).map s.mark ++
          (if 1 < s.rotate then [s.mark q] else []) ∧
      (if 1 < s.rotate then s.turn s.rotate (s.left (o.shifted s.corner.x s.corner.y))
        else .ok (s.left (o.shifted s.corner.x s.corner.y))) = .ok q := by
  obtain ⟨before, m, rest, rfl, hbefore, hlast⟩ := h.exists_of_append
  obtain ⟨hturned, hlastMarks⟩ := hlast.of_turn
  rw [actions, marks_append hbefore.length_eq, hlastMarks]
  cases hbefore with
  | @cons _ _ _ p _ copies hplace hcopies =>
    obtain rfl := Course.eq_shifted_of_place hplace
    rw [marks_cons rfl, polygons]
    rw [left]
    by_cases hrandom : s.hasRandomAxis = true
    · obtain ⟨hmarks, rfl⟩ := hcopies.of_random_copies hturn hrandom
      rw [if_pos hrandom, if_pos hrandom, hmarks]
      exact ⟨rfl, hturned⟩
    · have hfixed := Bool.eq_false_iff.mpr hrandom
      rw [offsets_of_fixed hfixed] at hcopies ⊢
      obtain ⟨hmarks, rfl⟩ := hcopies.of_fixed_copies hturn hfixed
      rw [if_neg hrandom, if_neg hrandom, hmarks]
      refine ⟨?_, hturned⟩
      obtain ⟨n, hn⟩ := Nat.exists_eq_succ_of_ne_zero (Nat.ne_of_gt s.repeats_pos)
      rw [hn, Nat.succ_sub_one, List.range_succ_eq_map, List.map_cons, List.map_cons, List.map_map,
        List.map_map, List.map_map]
      congr 2
      simp

end Stamp

namespace Drawing

variable {d : Drawing} {s : Stamp} {shape : Shape}

/-- **Where the copies of a stamp lie.**  A stamp of a script that was read, whose copies are not
turned and whose shape is there, puts its scaled outline down as often as it says.  On a fixed place
copy `m` is moved by `m` times the offsets.  On a random place every copy is moved from where the
first one lies, along a random axis by the answer that the generator gives for that very copy, and
along a fixed axis by the offset, once.  A last turned outline is made of the last one on a fixed
place, and of the first one on a random place. -/
theorem polygons_of_read {policy : Script.Policy} {lines : List String}
    (h : (Script.read policy lines).outcome = .ok d.script) (_hnumeric : d.library.IsNumeric)
    (hs : s ∈ d.script.stamps) (hturn : s.repeatRotate ≤ 0)
    (hfind : d.library.find? s.shape = some shape) (g : Generator) (e : Easel Recording) :
    ∃ start first polygons last, shape.scaled s.scale = .ok start ∧
      first = (if s.x.isRandom && s.y.isRandom then start
        else start.shifted s.x.raw s.y.raw) ∧
      after (paintStamp d g s) e = (.ok (), (e.dip s.color).add
        ((polygons ++ last).map s.mark)
        (List.replicate (s.repeats - 1) (s.copyBounds d.canvas)).flatten) ∧
      polygons.length = s.repeats ∧ polygons[0]? = some first ∧
      (s.hasRandomAxis = false → ∀ m : Nat, m < s.repeats →
        polygons[m]? = some (first.shifted (m * s.offsetX) (m * s.offsetY))) ∧
      (s.hasRandomAxis = true → ∀ m : Nat, m + 1 < s.repeats →
        let asked := e.calls ++ (List.replicate m (s.copyBounds d.canvas)).flatten.toArray
        polygons[m + 1]? = some (first.shifted
          (if s.x.isRandom then (g.answer asked d.canvas.width : Int) else s.offsetX)
          (if s.y.isRandom then
            (g.answer (asked ++ (s.x.bounds d.canvas.width).toArray) d.canvas.height : Int)
          else s.offsetY))) ∧
      (s.rotate ≤ 1 → last = []) ∧
      (1 < s.rotate → ∃ o q,
        (if s.hasRandomAxis then polygons.head? else polygons.getLast?) = some o ∧
          s.turn s.rotate o = .ok q ∧ last = [q]) := by
  have hnarrow := Script.isNarrow_of_read h
  obtain ⟨start, outlines, q, hstart, -, hcourse⟩ :=
    exists_course hnarrow.canvas (hnarrow.stamps s hs) shape g e.calls
  obtain ⟨hmarks, hq⟩ := Stamp.marks_actions_of_unturned hturn hcourse
  refine ⟨start, start.shifted s.corner.x s.corner.y, _,
    if 1 < s.rotate then [q] else [], hstart, ?_, ?_, Stamp.length_polygons,
    Stamp.getElem?_polygons_zero, fun hfixed m hm => Stamp.getElem?_polygons_of_fixed hfixed hm,
    fun hrandom m hm => Stamp.getElem?_polygons_of_random hrandom hm,
    fun hrotate => if_neg (Int.not_lt.mpr hrotate), fun hrotate => ?_⟩
  · rw [Stamp.corner]
    split
    · exact Outline.shifted_zero start
    · rfl
  · rw [after_paintStamp hfind hstart hcourse, hmarks, List.map_append]
    split <;> rfl
  · rw [if_pos hrotate] at hq ⊢
    exact ⟨_, q, Stamp.left_mem_polygons, hq, rfl⟩

/-- A stamp with three copies on a random column of a fixed row, and a last one turned. -/
def mixedLines : List String :=
  ["width=40, height=30",
   "shape=square, x=-2147483648, y=3, rep=3, repoffx=5, repoffy=7, rotate=45, red=9"]

/-- Each copy lies in a column of its own, and both lie one offset below the first outline. -/
theorem polygons_of_mixedLines :
    ∃ (d : Drawing) (s : Stamp) (easel : Easel Recording) (first turned : Outline),
      (Script.read .strict mixedLines).outcome = .ok d.script ∧ d.library.IsNumeric ∧
      s ∈ d.script.stamps ∧
      s.repeatRotate ≤ 0 ∧ d.library.find? s.shape = some Shape.square ∧
      after (paintStamp d (Generator.scripted [11, 52]) s) ⟨Recording.blank d.canvas.size, #[]⟩ =
        (.ok (), easel) ∧
      easel.surface.marks.toList =
        [first, first.shifted 11 7, first.shifted 12 7, turned].map s.mark ∧
      s.turn 45 first = .ok turned := by
  have hscript : (Script.read .strict mixedLines).outcome.toOption.map (fun s => decide
      (s.canvas.width = 40 ∧ ∃ t ∈ s.stamps, t.shape = .plain "square" ∧ t.x = .random ∧
        t.y = .fixed 3 ∧ t.repeats = 3 ∧ t.offsetY = 7 ∧ t.rotate = 45 ∧ t.repeatRotate = 0)) =
        some true := by
    decide +kernel
  obtain ⟨script, hread, hscript⟩ := Option.map_eq_some_iff.mp hscript
  have hread := toOption_eq_some_iff.mp hread
  obtain ⟨hwidth, s, hs, hshape, hx, hy, hrepeats, hoffset, hrotate, hrepeatRotate⟩ :=
    of_decide_eq_true hscript
  let d : Drawing := ⟨Library.builtin, script, none⟩
  have hfind : d.library.find? s.shape = some Shape.square := by
    rw [hshape]
    rfl
  have hrandom : s.hasRandomAxis = true := by
    rw [Stamp.hasRandomAxis, hx]
    rfl
  obtain ⟨start, first, polygons, last, -, -, hafter, hlength, hfirst, -, hcopies, -, hlast⟩ :=
    polygons_of_read (d := d) hread Library.isNumeric_builtin hs (Int.le_of_eq hrepeatRotate) hfind
      (Generator.scripted [11, 52]) ⟨Recording.blank d.canvas.size, #[]⟩
  obtain ⟨o, turned, ho, hturned, rfl⟩ := hlast (by omega)
  rw [if_pos hrandom, List.head?_eq_getElem?, hfirst] at ho
  obtain rfl := Option.some.inj ho
  have hcopies := hcopies hrandom
  have hwidth : d.canvas.width = 40 := hwidth
  rw [hrepeats, Stamp.copyBounds, hx, hy, hwidth] at hcopies
  rw [hrepeats] at hlength
  have hpolygons : polygons = [first, first.shifted 11 7, first.shifted 12 7] := by
    obtain ⟨p, q, r, rfl⟩ := List.length_eq_three.mp hlength
    have hq := Option.some.inj (hcopies 0 (by decide))
    have hr := Option.some.inj (hcopies 1 (by decide))
    rw [hoffset] at hq hr
    rw [Option.some.inj hfirst, hq, hr]
    rfl
  refine ⟨d, s, _, first, turned, hread, Library.isNumeric_builtin, hs,
    Int.le_of_eq hrepeatRotate, hfind, hafter, ?_, ?_⟩
  · rw [hpolygons]
    rfl
  · rw [← hrotate, hturned]

end Drawing

end Stencil
