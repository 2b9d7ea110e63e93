import Stencil.Proofs.Drawing.Outcome

/-!
# Proofs/Drawing/Placement — what the generator has a say in

    ground, start, turned, copy, turned, copy, …, turned
                            ↕             ↕
    ground, start, turned, copy, turned, copy, …, turned

Each mark of a drawing has an `Origin`, and the origins are the same whatever the generator answers.
Painted with two generators, a drawing leaves marks that are equal one by one, except that a copy of
a stamp on a random place may lie elsewhere, moved as a whole along the random axes alone
(`marks_agree_of_read`).  A copy on a random place is taken back exactly, so that nothing made after
it knows where it was.
-/

namespace Stencil

open Surface (Recording)

/-! ## Where marks come from -/

/-- **What a mark is of.** -/
inductive Origin where
  | ground
  /-- The outline of a stamp where it starts. -/
  | start (s : Stamp)
  /-- The outline of a stamp turned where it is. -/
  | turned (s : Stamp)
  /-- A copy of a stamp, moved away from the one before. -/
  | copy (s : Stamp)
  deriving Repr, DecidableEq

namespace Stamp

/-- What the marks of one copy are of. -/
def copyOrigins (s : Stamp) : List Origin :=
  (if 0 < s.repeatRotate then [.turned s] else []) ++ [.copy s]

/-- What the marks of a stamp are of. -/
def origins (s : Stamp) : List Origin :=
  .start s :: (List.replicate (s.repeats - 1) s.copyOrigins).flatten ++
    (if 1 < s.rotate then [.turned s] else [])

/-- The bounds that the generator is asked for when a stamp is painted: those of each copy. -/
def bounds (canvas : Canvas) (s : Stamp) : List Nat :=
  (List.replicate (s.repeats - 1) (s.copyBounds canvas)).flatten

end Stamp

/-- **What the marks of a drawing are of**, in their order. -/
def Drawing.origins (d : Drawing) : List Origin :=
  List.replicate (if d.canvas.isGradient then d.canvas.direction.steps else 1) .ground ++
    d.script.stamps.flatMap Stamp.origins

/-! ## Marks that agree -/

/-- How a mark looks, wherever it is: its kind, its colour and its number of vertices. -/
def Mark.look (m : Mark) : String × Color × Nat :=
  (m.kind, m.color, m.outline.length)

/-- **Two marks of a stamp that are one outline in two places**, apart by the same amounts in every
vertex, and only along the axes on which the stamp's place is random. -/
def Mark.IsDisplaced (s : Stamp) (m m' : Mark) : Prop :=
  ∃ o dx dy, m = s.mark o ∧ m' = s.mark (o.shifted dx dy) ∧
    (s.x.isRandom = false → dx = 0) ∧ (s.y.isRandom = false → dy = 0)

/-- What two runs may leave: the same mark, except where it is a copy on a random place. -/
def Origin.Agrees : Origin → Mark → Mark → Prop
  | copy s, m, m' => if s.hasRandomAxis then Mark.IsDisplaced s m m' else m = m'
  | _, m, m' => m = m'

/-- **Marks that agree one by one**, each pair as its origin demands. -/
inductive Agree : List Origin → List Mark → List Mark → Prop
  | nil : Agree [] [] []
  | cons {origin : Origin} {m m' : Mark} {origins : List Origin} {ms ms' : List Mark}
    (first : origin.Agrees m m') (rest : Agree origins ms ms') :
    Agree (origin :: origins) (m :: ms) (m' :: ms')

theorem Origin.Agrees.look_eq {origin : Origin} {m m' : Mark} (h : origin.Agrees m m') :
    m.look = m'.look := by
  cases origin with
  | ground => exact congrArg Mark.look h
  | start s => exact congrArg Mark.look h
  | turned s => exact congrArg Mark.look h
  | copy s =>
    rw [Agrees] at h
    split at h
    · obtain ⟨o, dx, dy, rfl, rfl, -⟩ := h
      simp only [Mark.look, Stamp.mark, Mark.color, Mark.outline, Outline.shifted, List.length_map]
      cases s.style <;> rfl
    · exact congrArg Mark.look h

namespace Agree

variable {origins origins' : List Origin} {ms ms' ns ns' : List Mark}

theorem append (h : Agree origins ms ms') (h' : Agree origins' ns ns') :
    Agree (origins ++ origins') (ms ++ ns) (ms' ++ ns') := by
  induction h with
  | nil => exact h'
  | cons first _ ih => exact .cons first ih

theorem map_look_eq (h : Agree origins ms ms') : ms.map Mark.look = ms'.map Mark.look := by
  induction h with
  | nil => rfl
  | cons first _ ih => rw [List.map_cons, List.map_cons, first.look_eq, ih]

theorem length_eq (h : Agree origins ms ms') : ms.length = origins.length := by
  induction h with
  | nil => rfl
  | cons _ _ ih => rw [List.length_cons, List.length_cons, ih]

/-- The ground is the same in both runs. -/
theorem ground (ms : List Mark) : Agree (List.replicate ms.length .ground) ms ms := by
  induction ms with
  | nil => exact .nil
  | cons _ _ ih => exact .cons rfl ih

/-- So is a turned outline. -/
theorem turned (s : Stamp) (o : Outline) (p : Prop) [Decidable p] :
    Agree (if p then [.turned s] else []) (if p then [s.mark o] else [])
      (if p then [s.mark o] else []) := by
  split
  · exact .cons rfl .nil
  · exact .nil

end Agree

/-! ## Two courses of a stamp -/

/-- Two amounts that are the same along every axis on which the stamp's place is fixed. -/
def Stamp.MovesAlike (s : Stamp) (offset offset' : Int × Int) : Prop :=
  (s.x.isRandom = false → offset.1 = offset'.1) ∧ (s.y.isRandom = false → offset.2 = offset'.2)

theorem Stamp.movesAlike_offsets (s : Stamp) (canvas : Canvas) (g g' : Generator) (n : Nat)
    (calls calls' : Array Nat) :
    List.Forall₂ s.MovesAlike (s.offsets canvas g n calls) (s.offsets canvas g' n calls') := by
  have hfixed {c : Coordinate} (hc : c.isRandom = false) (g g' : Generator) (extent : Nat)
      (own : Int) (calls calls' : Array Nat) :
      c.offset g extent own calls = c.offset g' extent own calls' := by
    rw [Coordinate.offset, Coordinate.offset, hc]
    rfl
  induction n generalizing calls calls' with
  | zero => exact .nil
  | succ n ih => exact .cons ⟨fun hx => hfixed hx .., fun hy => hfixed hy ..⟩ (ih _ _)

theorem Outline.shifted_shifted (o : Outline) (a b c d : Int) :
    (o.shifted a b).shifted c d = o.shifted (a + c) (b + d) := by
  rw [shifted, shifted, shifted, List.map_map]
  refine List.map_congr_left fun v _ => ?_
  simp only [Function.comp, Int.add_assoc]

/-- Positions none of which wraps around are moved as whole numbers are. -/
theorem Outline.eq_shifted_of_translate {o p : Outline} {dx dy : Int}
    (hword : ∀ v ∈ o, Number.IsWord (v.x + dx) ∧ Number.IsWord (v.y + dy))
    (h : o.translate dx dy = .ok p) : p = o.shifted dx dy := by
  obtain ⟨q, hq, hp⟩ := bind_eq_ok_iff.mp h
  obtain ⟨x, hx, rfl⟩ := map_eq_ok_iff.mp hq
  obtain ⟨y, hy, rfl⟩ := map_eq_ok_iff.mp hp
  obtain ⟨rfl, -⟩ := Number.word_eq_ok_iff.mp hx
  obtain ⟨rfl, -⟩ := Number.word_eq_ok_iff.mp hy
  rw [List.map_map, shifted]
  refine List.map_congr_left fun v hv => ?_
  simp only [Function.comp, (hword v hv).1.wrap, (hword v hv).2.wrap]

/-- Two outlines that one outline is moved to, on the axes on which a stamp's place is random. -/
theorem Mark.isDisplaced_shifted {s : Stamp} {offset offset' : Int × Int}
    (h : s.MovesAlike offset offset') (o : Outline) :
    IsDisplaced s (s.mark (o.shifted offset.1 offset.2))
      (s.mark (o.shifted offset'.1 offset'.2)) := by
  refine ⟨_, offset'.1 - offset.1, offset'.2 - offset.2, rfl, ?_, ?_, ?_⟩
  · rw [Outline.shifted_shifted, add_sub_cancel, add_sub_cancel]
  · exact fun hx => Int.sub_eq_zero.mpr (h.1 hx).symm
  · exact fun hy => Int.sub_eq_zero.mpr (h.2 hy).symm

namespace Course

variable {s : Stamp} {b b' : Nat} {o q q' : Outline} {ps ps' : List Outline}
  {offset offset' : Int × Int}

/-- A move goes where whole numbers go, and the move back of a random place ends where it began. -/
theorem of_move_shifted {dx dy : Int}
    (h : Course s b o (.move dx dy :: if s.hasRandomAxis then [.back dx dy] else []) ps q) :
    s.marks (.move dx dy :: if s.hasRandomAxis then [.back dx dy] else []) ps =
        [s.mark (o.shifted dx dy)] ∧
      q = if s.hasRandomAxis then o else o.shifted dx dy := by
  cases h with
  | @cons _ _ _ moved _ rest hmove hback =>
    have hmoved : moved = o.shifted dx dy := Outline.eq_shifted_of_translate hmove.isWord hmove.run
    subst hmoved
    rw [Stamp.marks_cons rfl]
    split at hback
    next hrandom =>
      rw [if_pos hrandom, if_pos hrandom]
      cases hback with
      | cons hback hnil =>
        cases hnil
        have hq : q = (o.shifted dx dy).shifted (-dx) (-dy) :=
          Outline.eq_shifted_of_translate hback.isWord hback.run
        exact ⟨rfl, hq.trans (Outline.shifted_shifted_neg o dx dy)⟩
    next hfixed =>
      rw [if_neg hfixed, if_neg hfixed]
      cases hback
      exact ⟨rfl, rfl⟩

/-- **One copy in two runs**: it is left where the other one is. -/
theorem agree_copyActions (hoffset : s.MovesAlike offset offset')
    (h : Course s b o (s.copyActions offset) ps q)
    (h' : Course s b' o (s.copyActions offset') ps' q') :
    q = q' ∧ Agree s.copyOrigins (s.marks (s.copyActions offset) ps)
      (s.marks (s.copyActions offset') ps') := by
  obtain ⟨ts, turned, ms, rfl, hturn, hmove⟩ := h.exists_of_append
  obtain ⟨ts', turned', ms', rfl, hturn', hmove'⟩ := h'.exists_of_append
  obtain ⟨hturned, htmarks⟩ := hturn.of_turn
  obtain ⟨hturned', htmarks'⟩ := hturn'.of_turn
  obtain rfl : turned = turned' := Except.ok.inj (hturned.symm.trans hturned')
  obtain ⟨hmarks, hq⟩ := hmove.of_move_shifted
  obtain ⟨hmarks', hq'⟩ := hmove'.of_move_shifted
  rw [Stamp.copyActions, Stamp.copyActions, Stamp.marks_append hturn.length_eq,
    Stamp.marks_append hturn'.length_eq, htmarks, htmarks', hmarks, hmarks']
  by_cases hrandom : s.hasRandomAxis = true
  · rw [if_pos hrandom] at hq hq'
    refine ⟨hq.trans hq'.symm, (Agree.turned s turned _).append (.cons ?_ .nil)⟩
    rw [Origin.Agrees, if_pos hrandom]
    exact Mark.isDisplaced_shifted hoffset turned
  · have hfixed : s.x.isRandom = false ∧ s.y.isRandom = false := by
      simpa [Stamp.hasRandomAxis] using hrandom
    rw [if_neg hrandom, ← hoffset.1 hfixed.1, ← hoffset.2 hfixed.2] at hq'
    rw [if_neg hrandom] at hq
    refine ⟨hq.trans hq'.symm, (Agree.turned s turned _).append (.cons ?_ .nil)⟩
    rw [Origin.Agrees, if_neg hrandom, hoffset.1 hfixed.1, hoffset.2 hfixed.2]

/-- **All copies in two runs.** -/
theorem agree_copies {offsets offsets' : List (Int × Int)}
    (hoffsets : List.Forall₂ s.MovesAlike offsets offsets')
    (h : Course s b o (offsets.flatMap s.copyActions) ps q)
    (h' : Course s b' o (offsets'.flatMap s.copyActions) ps' q') :
    q = q' ∧ Agree (List.replicate offsets.length s.copyOrigins).flatten
      (s.marks (offsets.flatMap s.copyActions) ps)
      (s.marks (offsets'.flatMap s.copyActions) ps') := by
  induction hoffsets generalizing o ps ps' with
  | nil =>
    cases h
    cases h'
    exact ⟨rfl, .nil⟩
  | cons hoffset _ ih =>
    obtain ⟨before, m, rest, rfl, hfirst, hrest⟩ := h.exists_of_append
    obtain ⟨before', m', rest', rfl, hfirst', hrest'⟩ := h'.exists_of_append
    obtain ⟨rfl, hcopy⟩ := agree_copyActions hoffset hfirst hfirst'
    obtain ⟨hq, hcopies⟩ := ih hrest hrest'
    refine ⟨hq, ?_⟩
    rw [List.length_cons, List.replicate_succ, List.flatten_cons, List.flatMap_cons,
      List.flatMap_cons, Stamp.marks_append hfirst.length_eq, Stamp.marks_append hfirst'.length_eq]
    exact hcopy.append hcopies

/-- **A stamp in two runs.** -/
theorem agree_actions {offsets offsets' : List (Int × Int)}
    (hoffsets : List.Forall₂ s.MovesAlike offsets offsets')
    (hlength : offsets.length = s.repeats - 1)
    (h : Course s b o (s.actions offsets) ps q) (h' : Course s b' o (s.actions offsets') ps' q') :
    Agree s.origins (s.marks (s.actions offsets) ps) (s.marks (s.actions offsets') ps') := by
  obtain ⟨before, m, last, rfl, hbefore, hlast⟩ := h.exists_of_append
  obtain ⟨before', m', last', rfl, hbefore', hlast'⟩ := h'.exists_of_append
  cases hbefore with
  | @cons _ _ _ p _ copies hplace hcopies =>
  cases hbefore' with
  | @cons _ _ _ p' _ copies' hplace' hcopies' =>
    obtain rfl : p = p' := Except.ok.inj (hplace.run.symm.trans hplace'.run)
    obtain ⟨rfl, hagree⟩ := agree_copies hoffsets hcopies hcopies'
    obtain ⟨hturned, htmarks⟩ := Course.of_turn hlast
    obtain ⟨hturned', htmarks'⟩ := Course.of_turn hlast'
    obtain rfl := Except.ok.inj (hturned.symm.trans hturned')
    have hlen : (p :: copies).length = (.place :: offsets.flatMap s.copyActions).length :=
      congrArg Nat.succ hcopies.length_eq
    have hlen' : (p :: copies').length = (.place :: offsets'.flatMap s.copyActions).length :=
      congrArg Nat.succ hcopies'.length_eq
    rw [Stamp.actions, Stamp.actions, Stamp.marks_append hlen, Stamp.marks_append hlen', htmarks,
      htmarks', Stamp.marks_cons rfl, Stamp.marks_cons rfl, Stamp.origins, ← hlength]
    have hstart : Origin.Agrees (.start s) (s.mark p) (s.mark p) := rfl
    exact (Agree.cons hstart hagree).append (Agree.turned s q _)

end Course

/-! ## Two runs of a drawing -/

namespace Drawing

variable {d : Drawing} {s : Stamp} {shape : Shape}

/-- A stamp painted with two generators. -/
theorem exists_after_paintStamp_agree (hcanvas : d.canvas.IsWritable) (h : s.IsNarrow)
    (hfind : d.library.find? s.shape = some shape) (g g' : Generator) (e e' : Easel Recording) :
    ∃ ms ms',
      after (paintStamp d g s) e = (.ok (), (e.dip s.color).add ms (s.bounds d.canvas)) ∧
      after (paintStamp d g' s) e' = (.ok (), (e'.dip s.color).add ms' (s.bounds d.canvas)) ∧
      Agree s.origins ms ms' := by
  obtain ⟨start, outlines, last, hstart, -, hcourse⟩ := exists_course hcanvas h shape g e.calls
  obtain ⟨start', outlines', last', hstart', -, hcourse'⟩ :=
    exists_course hcanvas h shape g' e'.calls
  obtain rfl : start = start' := Except.ok.inj (hstart.symm.trans hstart')
  exact ⟨_, _, after_paintStamp hfind hstart hcourse, after_paintStamp hfind hstart hcourse',
    Course.agree_actions (s.movesAlike_offsets ..) (Stamp.length_offsets ..) hcourse hcourse'⟩

/-- Several stamps painted with two generators. -/
theorem exists_after_paintStamps_agree (hcanvas : d.canvas.IsWritable) {stamps : List Stamp}
    (h : ∀ s ∈ stamps, s.IsNarrow)
    (hshapes : ∀ s ∈ stamps, ∃ shape, d.library.find? s.shape = some shape) (g g' : Generator)
    (e e' : Easel Recording) :
    ∃ ms ms' color color',
      after (paintStamps d g stamps) e =
        (.ok (), (e.dip color).add ms (stamps.flatMap (Stamp.bounds d.canvas))) ∧
      after (paintStamps d g' stamps) e' =
        (.ok (), (e'.dip color').add ms' (stamps.flatMap (Stamp.bounds d.canvas))) ∧
      Agree (stamps.flatMap Stamp.origins) ms ms' := by
  induction stamps generalizing e e' with
  | nil =>
    exact ⟨[], [], e.surface.color, e'.surface.color, (congrArg _ add_nil).symm,
      (congrArg _ add_nil).symm, .nil⟩
  | cons s rest ih =>
    obtain ⟨hs, hrest⟩ := List.forall_mem_cons.mp h
    obtain ⟨⟨shape, hfind⟩, hshapes⟩ := List.forall_mem_cons.mp hshapes
    obtain ⟨ms, ms', hafter, hafter', hagree⟩ :=
      exists_after_paintStamp_agree hcanvas hs hfind g g' e e'
    obtain ⟨ns, ns', color, color', hlater, hlater', hagree'⟩ := ih hrest hshapes
      ((e.dip s.color).add ms (s.bounds d.canvas)) ((e'.dip s.color).add ms' (s.bounds d.canvas))
    refine ⟨ms ++ ns, ms' ++ ns', color, color', ?_, ?_, ?_⟩
    · rw [paintStamps, after_bind_of_ok hafter, hlater, dip_add, dip_dip, add_add,
        List.flatMap_cons]
    · rw [paintStamps, after_bind_of_ok hafter', hlater', dip_add, dip_dip, add_add,
        List.flatMap_cons]
    · rw [List.flatMap_cons]
      exact hagree.append hagree'

/-- **The generator has a say in where copies are put, and in nothing else.**  Painting a script
that was read, with all its shapes in the library, asks any generator for the same bounds: for every
copy of every stamp, first the width of the canvas if the stamp's place is random on the first axis,
and then the height if it is so on the second.  Two generators lead to marks of the same look, and
to the same marks except for copies on random places, which are the same outlines elsewhere. -/
theorem marks_agree_of_read {policy : Script.Policy} {lines : List String}
    (h : (Script.read policy lines).outcome = .ok d.script)
    (hshapes : ∀ s ∈ d.script.stamps, ∃ shape, d.library.find? s.shape = some shape)
    (g g' : Generator) (calls : Array Nat) :
    ∃ easel easel',
      d.paint g (Recording.blank d.canvas.size) calls = (.ok (), easel) ∧
      d.paint g' (Recording.blank d.canvas.size) calls = (.ok (), easel') ∧
      easel.calls = calls ++ (d.script.stamps.flatMap (Stamp.bounds d.canvas)).toArray ∧
      easel'.calls = easel.calls ∧
      easel.surface.marks.toList.map Mark.look = easel'.surface.marks.toList.map Mark.look ∧
      Agree d.origins easel.surface.marks.toList easel'.surface.marks.toList := by
  have hstamps := (Script.isNarrow_of_read h).stamps
  have hcanvas : d.canvas.IsWritable := (Script.isNarrow_of_read h).canvas
  obtain ⟨ground, color, hground, hisGround⟩ :=
    exists_after_paintGround hcanvas ⟨Recording.blank d.canvas.size, calls⟩
  obtain ⟨ms, ms', _, _, hafter, hafter', hagree⟩ :=
    exists_after_paintStamps_agree hcanvas hstamps hshapes g g' _ _
  have hall : Agree d.origins (ground ++ ms) (ground ++ ms') := by
    rw [origins, ← hisGround.length_eq]
    exact (Agree.ground ground).append hagree
  have hmarks (last : Color) (marks : List Mark) (bounds : List Nat) :
      ((((Easel.dip ⟨Recording.blank d.canvas.size, calls⟩ color).add ground []).dip last).add marks
        bounds).surface.marks.toList = ground ++ marks := by
    simp [Easel.add, Easel.dip, Recording.blank]
  refine ⟨_, _, (after_bind_of_ok hground).trans hafter, (after_bind_of_ok hground).trans hafter',
    ?_, rfl, ?_, ?_⟩
  · simp
  · rw [hmarks, hmarks]
    exact hall.map_look_eq
  · rw [hmarks, hmarks]
    exact hall

/-- The two copies of the first stamp ask for a column each. -/
theorem marks_agree_of_sampleLines :
    ∃ (d : Drawing) (easel easel' : Easel Recording),
      (Script.read .strict sampleLines).outcome = .ok d.script ∧
      (∀ s ∈ d.script.stamps, ∃ shape, d.library.find? s.shape = some shape) ∧
      d.paint Generator.zero (Recording.blank d.canvas.size) #[] = (.ok (), easel) ∧
      d.paint (Generator.scripted [7, 11]) (Recording.blank d.canvas.size) #[] = (.ok (), easel') ∧
      easel.calls = #[40, 40] ∧ easel'.calls = #[40, 40] ∧
      Agree d.origins easel.surface.marks.toList easel'.surface.marks.toList := by
  obtain ⟨d, hread, -, -, -, hshapes⟩ := exists_sampleDrawing
  obtain ⟨easel, easel', hpaint, hpaint', hcalls, hcalls', -, hagree⟩ :=
    marks_agree_of_read hread hshapes Generator.zero (Generator.scripted [7, 11]) #[]
  have hbounds : (Script.read .strict sampleLines).outcome.toOption.map
      (fun s => s.stamps.flatMap (Stamp.bounds s.canvas)) = some [40, 40] := by
    decide +kernel
  rw [hread] at hbounds
  have hasked : d.script.stamps.flatMap (Stamp.bounds d.canvas) = [40, 40] :=
    Option.some.inj hbounds
  rw [hasked] at hcalls
  exact ⟨d, easel, easel', hread, hshapes, hpaint, hpaint', hcalls, hcalls'.trans hcalls, hagree⟩

end Drawing

end Stencil
