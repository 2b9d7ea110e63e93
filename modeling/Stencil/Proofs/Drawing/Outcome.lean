import Stencil.Proofs.Drawing.Block
import Stencil.Proofs.Drawing.Ground
import Stencil.Proofs.Script.RoundTrip

/-!
# Proofs/Drawing/Outcome — what painting a script comes to

    script ──paint──▸ marks of the ground ++ marks of the first stamp ++ marks of the second ++ …

The numbers of a script that was read from lines are not too large for anything that is computed
when it is painted.  A stamp whose shape is in the library is painted, and only one whose shape is
not there stops the painting (`paint_safe_of_read`).  When all shapes are there, the marks are those
of the ground and a block for each stamp (`marks_paint_of_read`).
-/

namespace Stencil.Drawing

open Surface (Recording)

variable {d : Drawing} {g : Generator} {s : Stamp} {shape : Shape}

/-- **A narrow stamp has its course**, whatever the generator answers. -/
theorem exists_course (hcanvas : d.canvas.IsWritable) (h : s.IsNarrow) (shape : Shape)
    (g : Generator) (calls : Array Nat) :
    ∃ start outlines last, shape.scaled s.scale = .ok start ∧ start.IsWithin (2 ^ 62) ∧
      Course s (2 ^ 62) start (s.actions (s.offsets d.canvas g (s.repeats - 1) calls)) outlines
        last := by
  obtain ⟨start, hstart, hwithin⟩ := shape.exists_scaled h.scale (Int.natCast_nonneg _)
  obtain ⟨outlines, last, hcourse⟩ := Stamp.exists_course_actions h
    (Stamp.isNear_of_mem_offsets h hcanvas) (Stamp.length_offsets (s.repeats - 1) calls) hwithin
  exact ⟨start, outlines, last, hstart, hwithin.mono (by decide), hcourse⟩

/-- A narrow stamp whose shape is there leaves a block. -/
theorem exists_after_paintStamp (hcanvas : d.canvas.IsWritable) (h : s.IsNarrow)
    (hfind : d.library.find? s.shape = some shape) (e : Easel Recording) :
    ∃ block bounds, after (paintStamp d g s) e = (.ok (), (e.dip s.color).add block bounds) ∧
      IsBlock shape s block ∧
      ∀ mark ∈ block, ∃ o, mark = .polygon s.style s.color o ∧ o.length = shape.count := by
  obtain ⟨start, outlines, last, hstart, -, hcourse⟩ := exists_course hcanvas h shape g e.calls
  refine ⟨_, _, after_paintStamp hfind hstart hcourse,
    hcourse.isBlock hstart (Stamp.length_offsets _ _), ?_⟩
  intro mark hmark
  obtain ⟨p, hp, hlength⟩ := hcourse.exists_of_mem_marks mark hmark
  exact ⟨p, hp, hlength.trans (Shape.length_scaled hstart)⟩

/-- **Stamps are painted** until there is one whose shape is missing. -/
theorem fst_after_paintStamps (hcanvas : d.canvas.IsWritable) {stamps : List Stamp}
    (h : ∀ s ∈ stamps, s.IsNarrow) (e : Easel Recording) :
    (after (paintStamps d g stamps) e).1 = .ok () ∨
      ∃ s ∈ stamps, d.library.find? s.shape = none ∧
        (after (paintStamps d g stamps) e).1 = .error (.noShape s.shape) := by
  induction stamps generalizing e with
  | nil => exact Or.inl rfl
  | cons s rest ih =>
    obtain ⟨hs, hrest⟩ := List.forall_mem_cons.mp h
    rw [paintStamps]
    cases hfind : d.library.find? s.shape with
    | none =>
      refine Or.inr ⟨s, List.mem_cons_self, hfind, ?_⟩
      rw [after_bind_of_error (after_paintStamp_of_none g hfind e)]
    | some shape =>
      obtain ⟨block, bounds, hafter, -⟩ := exists_after_paintStamp hcanvas hs hfind e
      rw [after_bind_of_ok hafter]
      rcases ih hrest _ with hok | ⟨t, ht, hnone, herror⟩
      · exact Or.inl hok
      · exact Or.inr ⟨t, List.mem_cons_of_mem s ht, hnone, herror⟩

/-- **Stamps whose shapes are there** leave a block each, in order. -/
theorem exists_after_paintStamps (hcanvas : d.canvas.IsWritable) {stamps : List Stamp}
    (h : ∀ s ∈ stamps, s.IsNarrow)
    (hshapes : ∀ s ∈ stamps, ∃ shape, d.library.find? s.shape = some shape) (e : Easel Recording) :
    ∃ blocks color bounds, after (paintStamps d g stamps) e =
        (.ok (), (e.dip color).add blocks.flatten bounds) ∧
      List.Forall₂ (fun s block => ∃ shape, d.library.find? s.shape = some shape ∧
        IsBlock shape s block ∧
        ∀ mark ∈ block, ∃ o, mark = .polygon s.style s.color o ∧ o.length = shape.count)
        stamps blocks := by
  induction stamps generalizing e with
  | nil => exact ⟨[], e.surface.color, [], (congrArg _ add_nil).symm, .nil⟩
  | cons s rest ih =>
    obtain ⟨hs, hrest⟩ := List.forall_mem_cons.mp h
    obtain ⟨⟨shape, hfind⟩, hshapes⟩ := List.forall_mem_cons.mp hshapes
    obtain ⟨block, bounds, hafter, hblock⟩ := exists_after_paintStamp hcanvas hs hfind e
    obtain ⟨blocks, color, bounds', hafter', hblocks⟩ :=
      ih hrest hshapes ((e.dip s.color).add block bounds)
    refine ⟨block :: blocks, color, bounds ++ bounds', ?_, .cons ⟨shape, hfind, hblock⟩ hblocks⟩
    rw [paintStamps, after_bind_of_ok hafter, hafter', dip_add, dip_dip, add_add,
      List.flatten_cons]

/-! ## Scripts that were read -/

/-- A gradient from corner to corner, a stamp with two copies on random columns, turned each and
turned once more, and a stamp that is not turned by its one degree. -/
def sampleLines : List String :=
  ["width=40, height=30, gradstartred=255, gradendblue=9, graddir=2",
   "shape=Square, x=-2147483648, rep=3, repoffy=7, reprot=30, rotate=45, filled=false",
   "shape=triangle, rotate=1"]

theorem exists_sampleDrawing :
    ∃ d : Drawing, (Script.read .strict sampleLines).outcome = .ok d.script ∧
      d.library.IsNumeric ∧ (d.canvas.isGradient = true ∧ d.canvas.direction.steps = 150) ∧
      d.script.stamps.map (fun s => (s.repeats, s.repeatRotate, s.rotate)) =
        [(3, 30, 45), (1, 0, 1)] ∧
      ∀ s ∈ d.script.stamps, ∃ shape, d.library.find? s.shape = some shape := by
  have hcanvas : (Script.read .strict sampleLines).outcome.toOption.map
      (fun s => (s.canvas.isGradient, s.canvas.direction.steps)) = some (true, 150) := by
    decide +kernel
  have hnumbers : (Script.read .strict sampleLines).outcome.toOption.map
      (fun s => s.stamps.map fun s => (s.repeats, s.repeatRotate, s.rotate)) =
        some [(3, 30, 45), (1, 0, 1)] := by
    decide +kernel
  have hnames : (Script.read .strict sampleLines).outcome.toOption.map
      (fun s => s.stamps.map Stamp.shape) = some [.plain "square", .plain "triangle"] := by
    decide +kernel
  cases hs : (Script.read .strict sampleLines).outcome with
  | error e =>
    rw [hs] at hnames
    cases hnames
  | ok script =>
    rw [hs] at hcanvas hnumbers hnames
    refine ⟨⟨Library.builtin, script, none⟩, rfl, Library.isNumeric_builtin, ?_,
      Option.some.inj hnumbers, ?_⟩
    · exact Prod.mk.inj (Option.some.inj hcanvas)
    · intro s hmem
      have hname : s.shape ∈ [Text.Loose.plain "square", .plain "triangle"] := by
        rw [← Option.some.inj hnames]
        exact List.mem_map_of_mem hmem
      have hthere : ∀ name ∈ [Text.Loose.plain "square", .plain "triangle"],
          (Library.builtin.find? name).isSome = true := by
        decide
      exact Option.isSome_iff_exists.mp (hthere s.shape hname)

/-- Painting a drawing of 32 bits is stopped by nothing but a missing shape. -/
theorem paint_eq_ok_or_noShape (hcanvas : d.canvas.IsWritable)
    (hstamps : ∀ s ∈ d.script.stamps, s.IsNarrow) (g : Generator) (calls : Array Nat) :
    (d.paint g (Recording.blank d.canvas.size) calls).1 = .ok () ∨
      ∃ s ∈ d.script.stamps, d.library.find? s.shape = none ∧
        (d.paint g (Recording.blank d.canvas.size) calls).1 = .error (.noShape s.shape) := by
  obtain ⟨ground, color, hground, -⟩ :=
    exists_after_paintGround hcanvas ⟨Recording.blank d.canvas.size, calls⟩
  have hpaint : d.paint g (Recording.blank d.canvas.size) calls =
      after (paintStamps d g d.script.stamps) _ := after_bind_of_ok hground
  rw [hpaint]
  exact fst_after_paintStamps hcanvas hstamps _

/-- **A script that was read is painted** with shapes of numbers, or stopped by a stamp whose shape
is not in the library and by nothing else.  Whenever one of its stamps is painted, with whatever has
been painted and asked of the generator before, no position of its outline is ever farther out than
`2 ^ 62`, nothing that is added to one wraps around, and the marks it leaves are the outlines of
that course. -/
theorem paint_safe_of_read {policy : Script.Policy} {lines : List String}
    (h : (Script.read policy lines).outcome = .ok d.script) (_hnumeric : d.library.IsNumeric)
    (g : Generator) (calls : Array Nat) :
    ((d.paint g (Recording.blank d.canvas.size) calls).1 = .ok () ∨
      ∃ s ∈ d.script.stamps, d.library.find? s.shape = none ∧
        (d.paint g (Recording.blank d.canvas.size) calls).1 = .error (.noShape s.shape)) ∧
    ∀ s ∈ d.script.stamps, ∀ shape, d.library.find? s.shape = some shape →
      ∀ e : Easel Recording, ∃ start outlines last,
        shape.scaled s.scale = .ok start ∧
        Course s (2 ^ 62) start (s.actions (s.offsets d.canvas g (s.repeats - 1) e.calls)) outlines
          last ∧
        (∀ o ∈ start :: outlines, ∀ v ∈ o, v.x.natAbs ≤ 2 ^ 62 ∧ v.y.natAbs ≤ 2 ^ 62) ∧
        (∀ x ∈ (s.actions (s.offsets d.canvas g (s.repeats - 1) e.calls)).zip (start :: outlines),
          ∀ v ∈ x.2, Number.wrap (v.x + (x.1.shift s).x) = v.x + (x.1.shift s).x ∧
            Number.wrap (v.y + (x.1.shift s).y) = v.y + (x.1.shift s).y) ∧
        after (paintStamp d g s) e = (.ok (), (e.dip s.color).add
          (s.marks (s.actions (s.offsets d.canvas g (s.repeats - 1) e.calls)) outlines)
          (List.replicate (s.repeats - 1) (s.copyBounds d.canvas)).flatten) := by
  have hstamps := (Script.isNarrow_of_read h).stamps
  have hcanvas : d.canvas.IsWritable := (Script.isNarrow_of_read h).canvas
  refine ⟨paint_eq_ok_or_noShape hcanvas hstamps g calls, fun s hs shape hfind e => ?_⟩
  obtain ⟨start, outlines, last, hstart, hwithin, hcourse⟩ :=
    exists_course hcanvas (hstamps s hs) shape g e.calls
  exact ⟨start, outlines, last, hstart, hcourse,
    List.forall_mem_cons.mpr ⟨hwithin, hcourse.isWithin⟩, hcourse.wrap_eq,
    after_paintStamp hfind hstart hcourse⟩

theorem paint_safe_of_sampleLines :
    ∃ d : Drawing, (Script.read .strict sampleLines).outcome = .ok d.script ∧
      d.library.IsNumeric ∧
      (d.paint Generator.zero (Recording.blank d.canvas.size) #[]).1 = .ok () ∧
      d.script.stamps.length = 2 ∧
      ∀ s ∈ d.script.stamps, ∃ start outlines last, Course s (2 ^ 62) start
        (s.actions (s.offsets d.canvas Generator.zero (s.repeats - 1) #[])) outlines last ∧
          ∀ o ∈ start :: outlines, ∀ v ∈ o, v.x.natAbs ≤ 2 ^ 62 ∧ v.y.natAbs ≤ 2 ^ 62 := by
  obtain ⟨d, hread, hnumeric, -, hnumbers, hshapes⟩ := exists_sampleDrawing
  obtain ⟨houtcome, hcourses⟩ := paint_safe_of_read hread hnumeric Generator.zero #[]
  refine ⟨d, hread, hnumeric, ?_, by simpa using congrArg List.length hnumbers, ?_⟩
  · rcases houtcome with hok | ⟨s, hs, hnone, -⟩
    · exact hok
    · obtain ⟨shape, hfind⟩ := hshapes s hs
      rw [hnone] at hfind
      cases hfind
  · intro s hs
    obtain ⟨shape, hfind⟩ := hshapes s hs
    obtain ⟨start, outlines, last, -, hcourse, hwithin, -⟩ :=
      hcourses s hs shape hfind ⟨Recording.blank d.canvas.size, #[]⟩
    exact ⟨start, outlines, last, hcourse, hwithin⟩

/-- **The marks of a script that was read**, when all its shapes are in the library: those of the
ground, and then a block for each stamp. -/
theorem marks_paint_of_read {policy : Script.Policy} {lines : List String}
    (h : (Script.read policy lines).outcome = .ok d.script) (_hnumeric : d.library.IsNumeric)
    (hshapes : ∀ s ∈ d.script.stamps, ∃ shape, d.library.find? s.shape = some shape)
    (g : Generator) (calls : Array Nat) :
    ∃ easel ground blocks,
      d.paint g (Recording.blank d.canvas.size) calls = (.ok (), easel) ∧
      easel.surface.marks.toList = ground ++ blocks.flatten ∧ IsGround d.canvas ground ∧
      List.Forall₂ (fun s block => ∃ shape, d.library.find? s.shape = some shape ∧
        IsBlock shape s block ∧
        block.length = 1 + (s.repeats - 1) * (1 + if 0 < s.repeatRotate then 1 else 0) +
          (if 1 < s.rotate then 1 else 0) ∧
        ∀ mark ∈ block, ∃ o, mark = .polygon s.style s.color o ∧ o.length = shape.count)
        d.script.stamps blocks := by
  have hstamps := (Script.isNarrow_of_read h).stamps
  have hcanvas : d.canvas.IsWritable := (Script.isNarrow_of_read h).canvas
  obtain ⟨ground, color, hground, hisGround⟩ :=
    exists_after_paintGround hcanvas ⟨Recording.blank d.canvas.size, calls⟩
  obtain ⟨blocks, color', bounds, hpainted, hblocks⟩ :=
    exists_after_paintStamps hcanvas hstamps hshapes _
  refine ⟨_, ground, blocks, (after_bind_of_ok hground).trans hpainted, ?_, hisGround, ?_⟩
  · simp [Easel.add, Easel.dip, Recording.blank]
  · refine hblocks.imp ?_
    rintro s block ⟨shape, hfind, hblock, hmarks⟩
    exact ⟨shape, hfind, hblock, hblock.length_eq, hmarks⟩

/-- A hundred and fifty bands, six marks of the first stamp and one of the second. -/
theorem size_marks_paint_of_sampleLines :
    ∃ (d : Drawing) (easel : Easel Recording),
      (Script.read .strict sampleLines).outcome = .ok d.script ∧ d.library.IsNumeric ∧
      (∀ s ∈ d.script.stamps, ∃ shape, d.library.find? s.shape = some shape) ∧
      d.paint Generator.zero (Recording.blank d.canvas.size) #[] = (.ok (), easel) ∧
      easel.surface.marks.size = 150 + (6 + 1) := by
  obtain ⟨d, hread, hnumeric, ⟨hgradient, hsteps⟩, hnumbers, hshapes⟩ := exists_sampleDrawing
  obtain ⟨easel, ground, blocks, hpaint, hmarks, hground, hblocks⟩ :=
    marks_paint_of_read hread hnumeric hshapes Generator.zero #[]
  refine ⟨d, easel, hread, hnumeric, hshapes, hpaint, ?_⟩
  obtain ⟨s, rest, hstamps, hs, hrest⟩ := List.map_eq_cons_iff.mp hnumbers
  obtain ⟨t, rest, rfl, ht, hnil⟩ := List.map_eq_cons_iff.mp hrest
  obtain rfl := List.map_eq_nil_iff.mp hnil
  rw [Prod.mk.injEq, Prod.mk.injEq] at hs ht
  rw [hstamps] at hblocks
  obtain ⟨first, others, ⟨_, -, -, hfirst, -⟩, hothers, rfl⟩ :=
    List.forall₂_cons_left_iff.mp hblocks
  obtain ⟨second, none, ⟨_, -, -, hsecond, -⟩, hnone, rfl⟩ :=
    List.forall₂_cons_left_iff.mp hothers
  obtain rfl := List.forall₂_nil_left_iff.mp hnone
  rw [hs.1, hs.2.1, hs.2.2] at hfirst
  rw [ht.1, ht.2.1, ht.2.2] at hsecond
  rw [← Array.length_toList, hmarks, List.length_append, hground.length_eq, hgradient, hsteps,
    List.flatten_cons, List.flatten_cons, List.flatten_nil, List.length_append, List.length_append,
    hfirst, hsecond]
  rfl

end Stencil.Drawing
