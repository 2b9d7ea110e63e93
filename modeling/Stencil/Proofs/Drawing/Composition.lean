import Stencil.Proofs.Drawing.Lockstep
import Stencil.Proofs.Drawing.Outcome

/-!
# Proofs/Drawing/Composition — stamps painted after others

    ground ++ stamps  ──rest──▸  ground ++ stamps ++ rest
                                                    ‖
       nothing        ──rest──▸                    rest

Stamps leave the same marks and ask for the same bounds wherever they are painted: what was painted
before them stays as it is and has no say in what they leave, except through the bounds that the
generator was asked for (`after_paintStamps_onward`).  A stamp whose shape is missing stops the
painting and changes nothing, so that the stamps before it might as well have been the only ones
(`paint_composes_of_read`).

The ground is another matter.  On a canvas of more than 64 bits a gradient is not painted, and no
stamp is reached (`paint_vastCanvas`).
-/

namespace Stencil

open Surface (Recording)

/-! ## Marks on top of others -/

/-- The recording with the marks of the second one on top of some others. -/
def Surface.Recording.IsOver (before : Array Mark) (r r' : Recording) : Prop :=
  r.marks = before ++ r'.marks

/-- What is on top of other marks knows nothing of them. -/
theorem Surface.Recording.simulation_isOver (before : Array Mark) :
    Surface.Simulation (IsOver before) fun r r' => r.color = r'.color ∧ IsOver before r r' where
  loosen h := h.2
  setColor _ h := ⟨rfl, h⟩
  setGround color h := by
    refine ⟨_, _, Drawing.setGround_recording color _, Drawing.setGround_recording color _, ?_⟩
    rw [IsOver, add, add, h, Array.push_append]
  polygon style o ho h := by
    obtain ⟨hcolor, hmarks⟩ := h
    refine ⟨_, _, Drawing.polygon_recording style ho.ne_nil _,
      Drawing.polygon_recording style ho.ne_nil _, hcolor, ?_⟩
    rw [IsOver, add, add, hmarks, hcolor, Array.push_append]

/-- The plain white canvas of a size. -/
def Canvas.ofSize (size : Size) : Canvas :=
  ⟨size.width, size.height, .solid Color.white, .down, size.width_pos, size.height_pos⟩

namespace Drawing

variable {d : Drawing} {g : Generator}

/-- The drawing with other stamps on its canvas. -/
def withStamps (d : Drawing) (stamps : List Stamp) : Drawing :=
  { d with script := { d.script with stamps := stamps } }

/-- **What stamps leave where nothing has been painted**, on a surface of the given size, when the
generator has been asked for some bounds before. -/
def onward (library : Library) (size : Size) (g : Generator) (calls : Array Nat)
    (stamps : List Stamp) : Except Error Unit × Easel Recording :=
  after (paintStamps ⟨library, ⟨Canvas.ofSize size, stamps⟩, none⟩ g stamps)
    ⟨Recording.blank size, calls⟩

/-! ## What a stamp knows of its drawing -/

section Congruence

variable {σ : Type} [Surface σ] {canvas canvas' : Canvas}

theorem paintCopies_congr (h : canvas.size = canvas'.size) (s : Stamp) (n : Nat) (o : Outline) :
    (paintCopies canvas g s n o : Painting σ Outline) = paintCopies canvas' g s n o := by
  have hmoved (o : Outline) :
      (paintMoved canvas g s o : Painting σ Outline) = paintMoved canvas' g s o := by
    have hwidth : canvas.width = canvas'.width := congrArg Size.width h
    have hheight : canvas.height = canvas'.height := congrArg Size.height h
    rw [paintMoved, paintMoved, hwidth, hheight]
  induction n generalizing o with
  | zero => rfl
  | succ n ih =>
    rw [paintCopies_succ, paintCopies_succ]
    refine congrArg _ (funext fun turned => ?_)
    rw [hmoved]
    exact congrArg _ (funext ih)

/-- Of its drawing a stamp needs the library and the size of the canvas. -/
theorem paintStamps_congr (d d' : Drawing) (hlibrary : d.library = d'.library)
    (hsize : d.canvas.size = d'.canvas.size) (stamps : List Stamp) :
    (paintStamps d g stamps : Painting σ Unit) = paintStamps d' g stamps := by
  have hstamp (s : Stamp) : (paintStamp d g s : Painting σ Unit) = paintStamp d' g s := by
    simp only [paintStamp, hlibrary, paintCopies_congr hsize]
  induction stamps with
  | nil => rfl
  | cons s rest ih => rw [paintStamps, paintStamps, hstamp, ih]

end Congruence

/-! ## Some stamps and then others -/

theorem paintStamps_append {σ : Type} [Surface σ] (before rest : List Stamp) :
    (paintStamps d g (before ++ rest) : Painting σ Unit) =
      paintStamps d g before >>= fun _ => paintStamps d g rest := by
  induction before with
  | nil => rfl
  | cons s before ih =>
    rw [List.cons_append, paintStamps, ih, paintStamps, bind_assoc]

theorem painting_withStamps_append {σ : Type} [Surface σ] (before rest : List Stamp) :
    (painting (d.withStamps (before ++ rest)) g : Painting σ Unit) =
      painting (d.withStamps before) g >>= fun _ => paintStamps d g rest := by
  rw [painting, painting, paintStamps_congr (d.withStamps (before ++ rest)) d rfl rfl,
    paintStamps_congr (d.withStamps before) d rfl rfl, bind_assoc]
  exact congrArg _ (funext fun _ => paintStamps_append before rest)

/-- **Stamps paint the same wherever they are painted.** -/
theorem after_paintStamps_onward (d : Drawing) (g : Generator) (stamps : List Stamp)
    (e : Easel Recording) :
    (after (paintStamps d g stamps) e).1 =
        (onward d.library d.canvas.size g e.calls stamps).1 ∧
      (after (paintStamps d g stamps) e).2.surface.marks = e.surface.marks ++
        (onward d.library d.canvas.size g e.calls stamps).2.surface.marks ∧
      (after (paintStamps d g stamps) e).2.calls =
        (onward d.library d.canvas.size g e.calls stamps).2.calls := by
  have hover : Recording.IsOver e.surface.marks e.surface (Recording.blank d.canvas.size) :=
    (Array.append_empty).symm
  obtain ⟨houtcome, hmarks, hcalls, -⟩ :=
    (Recording.simulation_isOver e.surface.marks).lockstep_paintStamps d g stamps e
      ⟨Recording.blank d.canvas.size, e.calls⟩ hover rfl
  rw [onward, paintStamps_congr ⟨d.library, ⟨Canvas.ofSize d.canvas.size, stamps⟩, none⟩ d rfl rfl]
  exact ⟨houtcome, hmarks, hcalls⟩

/-- **A stamp whose shape is missing** stops the painting and changes nothing. -/
theorem paint_withStamps_of_none (before behind : List Stamp) {s : Stamp}
    (h : d.library.find? s.shape = none) (g : Generator) (surface : Recording)
    (calls : Array Nat) :
    (d.withStamps (before ++ s :: behind)).paint g surface calls =
      (((d.withStamps before).paint g surface calls).1.bind fun _ => .error (.noShape s.shape),
        ((d.withStamps before).paint g surface calls).2) := by
  change after (painting (d.withStamps (before ++ s :: behind)) g) ⟨surface, calls⟩ = _
  rw [painting_withStamps_append]
  change _ = (((after (painting (d.withStamps before) g) ⟨surface, calls⟩).1.bind fun _ =>
    .error (.noShape s.shape)), (after (painting (d.withStamps before) g) ⟨surface, calls⟩).2)
  rcases hrun : after (painting (d.withStamps before) g) ⟨surface, calls⟩ with ⟨_ | ⟨⟩, e⟩
  · exact after_bind_of_error hrun
  · rw [after_bind_of_ok hrun, paintStamps]
    exact after_bind_of_error (after_paintStamp_of_none g h e)

/-- Stamps of 32 bits whose shapes are there are painted on every canvas of 32 bits. -/
theorem paint_withStamps_eq_ok (hcanvas : d.canvas.IsWritable) {stamps : List Stamp}
    (h : ∀ s ∈ stamps, s.IsNarrow)
    (hshapes : ∀ s ∈ stamps, ∃ shape, d.library.find? s.shape = some shape) (g : Generator)
    (calls : Array Nat) :
    ((d.withStamps stamps).paint g (Recording.blank d.canvas.size) calls).1 = .ok () := by
  obtain ⟨ground, color, hground, -⟩ :=
    exists_after_paintGround hcanvas ⟨Recording.blank d.canvas.size, calls⟩
  have hpaint : (d.withStamps stamps).paint g (Recording.blank d.canvas.size) calls =
      after (paintStamps (d.withStamps stamps) g stamps) _ := after_bind_of_ok hground
  obtain ⟨blocks, color', bounds, hpainted, -⟩ :=
    exists_after_paintStamps (d := d.withStamps stamps) (g := g) hcanvas h hshapes _
  rw [hpaint, hpainted]

/-- **Painting is made up of the painting of its parts**, on any canvas.  When some stamps have been
painted, further ones add to their marks what they leave on a surface of that size by themselves,
and ask the generator what they ask it there.  When a shape is missing, the surface and the
generator are left as by the stamps before the first one that misses its shape.  The error names
that shape, unless the stamps before were not painted either; they are painted on every canvas of 32
bits. -/
theorem paint_composes_of_read {policy : Script.Policy} {lines : List String} {script : Script}
    (h : (Script.read policy lines).outcome = .ok script) (d : Drawing) (g : Generator)
    (calls : Array Nat) :
    (∀ rest easel,
      (d.withStamps script.stamps).paint g (Recording.blank d.canvas.size) calls = (.ok (), easel) →
      ∃ whole,
        (d.withStamps (script.stamps ++ rest)).paint g (Recording.blank d.canvas.size) calls =
          ((onward d.library d.canvas.size g easel.calls rest).1, whole) ∧
        whole.surface.marks = easel.surface.marks ++
          (onward d.library d.canvas.size g easel.calls rest).2.surface.marks ∧
        whole.calls = (onward d.library d.canvas.size g easel.calls rest).2.calls) ∧
    ∀ before s behind, script.stamps = before ++ s :: behind →
      (∀ t ∈ before, ∃ shape, d.library.find? t.shape = some shape) →
      d.library.find? s.shape = none →
      ((d.withStamps script.stamps).paint g (Recording.blank d.canvas.size) calls).2 =
          ((d.withStamps before).paint g (Recording.blank d.canvas.size) calls).2 ∧
        (((d.withStamps before).paint g (Recording.blank d.canvas.size) calls).1 = .ok () →
          ((d.withStamps script.stamps).paint g (Recording.blank d.canvas.size) calls).1 =
            .error (.noShape s.shape)) ∧
        (∀ e, ((d.withStamps before).paint g (Recording.blank d.canvas.size) calls).1 = .error e →
          ((d.withStamps script.stamps).paint g (Recording.blank d.canvas.size) calls).1 =
            .error e) ∧
        (d.canvas.IsWritable →
          ((d.withStamps before).paint g (Recording.blank d.canvas.size) calls).1 = .ok ()) := by
  have hnarrow := (Script.isNarrow_of_read h).stamps
  refine ⟨?_, ?_⟩
  · intro rest easel hpaint
    obtain ⟨houtcome, hmarks, hcalls⟩ := after_paintStamps_onward d g rest easel
    refine ⟨_, ?_, hmarks, hcalls⟩
    rw [← houtcome]
    change after (painting (d.withStamps _) g) _ = _
    rw [painting_withStamps_append]
    exact after_bind_of_ok hpaint
  · intro before s behind hstamps hshapes hnone
    rw [hstamps, paint_withStamps_of_none before behind hnone]
    refine ⟨rfl, ?_, ?_, ?_⟩
    · intro hok
      rw [hok]
      rfl
    · intro e herror
      rw [herror]
      rfl
    · intro hcanvas
      refine paint_withStamps_eq_ok hcanvas (fun s hs => hnarrow s ?_) hshapes g calls
      rw [hstamps]
      exact List.mem_append_left _ hs

/-- A stamp with a copy on a random column, and one whose shape no library has from the start. -/
def brokenLines : List String :=
  ["width=40, height=30", "shape=square, rep=2, x=-2147483648", "shape=hexagon"]

theorem paint_composes_of_brokenLines :
    ∃ (d : Drawing) (s t : Stamp), (Script.read .strict brokenLines).outcome = .ok d.script ∧
      d.script.stamps = [s, t] ∧
      (d.withStamps d.script.stamps).paint Generator.zero (Recording.blank d.canvas.size) #[] =
        (.error (.noShape t.shape),
          ((d.withStamps [s]).paint Generator.zero (Recording.blank d.canvas.size) #[]).2) := by
  have hnames : (Script.read .strict brokenLines).outcome.toOption.map
      (fun s => s.stamps.map Stamp.shape) = some [.plain "square", .plain "hexagon"] := by
    decide +kernel
  obtain ⟨script, hscript, hnames⟩ := Option.map_eq_some_iff.mp hnames
  obtain ⟨s, rest, hstamps, hs, hrest⟩ := List.map_eq_cons_iff.mp hnames
  obtain ⟨t, rest, rfl, ht, hrest⟩ := List.map_eq_cons_iff.mp hrest
  obtain rfl := List.map_eq_nil_iff.mp hrest
  have hread := toOption_eq_some_iff.mp hscript
  have hthere : ∃ shape, Library.builtin.find? s.shape = some shape := by
    rw [hs]
    exact Option.isSome_iff_exists.mp (by decide)
  have hmissing : Library.builtin.find? t.shape = none := by
    rw [ht]
    decide
  obtain ⟨-, hfails⟩ :=
    paint_composes_of_read hread ⟨Library.builtin, script, none⟩ Generator.zero #[]
  obtain ⟨heasel, herror, -, hpainted⟩ :=
    hfails [s] t [] hstamps (List.forall_mem_singleton.mpr hthere) hmissing
  have hcanvas := (Script.isNarrow_of_read hread).canvas
  exact ⟨⟨Library.builtin, script, none⟩, s, t, hread, hstamps,
    Prod.ext (herror (hpainted hcanvas)) heasel⟩

/-- A canvas whose width needs more than 64 bits, with a gradient. -/
def vastCanvas : Canvas :=
  Canvas.make 9223372036854775808 1 none (some Color.black) (some Color.white) 0

/-- **On a canvas of more than 64 bits a gradient is not painted**, so that a missing shape is not
found missing. -/
theorem paint_vastCanvas :
    ∃ script : Script, (Script.read .strict ["width=10", "shape=hexagon"]).outcome = .ok script ∧
      ∃ s, script.stamps = [s] ∧ Library.builtin.find? s.shape = none ∧
        (Drawing.paint ⟨Library.builtin, ⟨vastCanvas, script.stamps⟩, none⟩ Generator.zero
          (Recording.blank vastCanvas.size) #[]).1 = .error (.number .tooLarge) := by
  have hnames : (Script.read .strict ["width=10", "shape=hexagon"]).outcome.toOption.map
      (fun s => s.stamps.map Stamp.shape) = some [.plain "hexagon"] := by
    decide +kernel
  obtain ⟨script, hscript, hnames⟩ := Option.map_eq_some_iff.mp hnames
  obtain ⟨s, rest, hstamps, hname, hrest⟩ := List.map_eq_cons_iff.mp hnames
  obtain rfl := List.map_eq_nil_iff.mp hrest
  refine ⟨script, toOption_eq_some_iff.mp hscript, s, hstamps, ?_, ?_⟩
  · rw [hname]
    decide
  · have hband : vastCanvas.coloredBand Color.black Color.white 0 = .error .tooLarge := rfl
    have hground (e : Easel Recording) :
        after (paintGround vastCanvas) e = (.error (.number .tooLarge), e) := by
      refine after_bind_of_error (p := compute (vastCanvas.coloredBand _ _ 0)) ?_
      rw [hband]
      rfl
    exact congrArg Prod.fst (after_bind_of_error (hground _))

end Drawing

end Stencil
