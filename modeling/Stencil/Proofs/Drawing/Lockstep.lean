import Stencil.Proofs.Drawing.Painting

/-!
# Proofs/Drawing/Lockstep — one drawing on two surfaces

    easel  ──step──▸ easel  ──step──▸ …
      R                R
    easel' ──step──▸ easel' ──step──▸ …

A drawing reads nothing of the surface that it is painted on, so whatever relates two surfaces and
is kept by the three kinds of calls is kept by painting, which comes to the same outcome on both
and asks the generator for the same bounds (`Simulation.painting`).  A `Simulation` has two
relations, since the colours of the two surfaces need not be the same until one is set.

The polygons put down are `IsStored`: they have vertices, and all positions have 64 bits.
-/

namespace Stencil

/-! ## Outlines that are put down -/

theorem Number.isWord_wrap (n : Int) : IsWord (wrap n) := by
  have hlow := Int.le_bmod (x := n) (m := 0x10000000000000000) (by decide)
  have hhigh := Int.bmod_lt (x := n) (m := 0x10000000000000000) (by decide)
  simp only [IsWord, wrap]
  omega

namespace Outline

/-- **An outline that can be kept**: it has vertices, at positions of 64 bits. -/
structure IsStored (o : Outline) : Prop where
  ne_nil : o ≠ []
  isWord : ∀ v ∈ o, Number.IsWord v.x ∧ Number.IsWord v.y

variable {o p : Outline}

theorem IsWithin.isStored {b : Nat} (h : o.IsWithin b) (hb : b < 2 ^ 63) (hne : o ≠ []) :
    o.IsStored where
  ne_nil := hne
  isWord v hv := ⟨Number.isWord_of_natAbs (Nat.lt_of_le_of_lt (h v hv).1 hb),
    Number.isWord_of_natAbs (Nat.lt_of_le_of_lt (h v hv).2 hb)⟩

theorem ne_nil_of_length_eq (h : p.length = o.length) (ho : o ≠ []) : p ≠ [] := by
  rw [← List.length_pos_iff, h]
  exact List.length_pos_iff.mpr ho

theorem isStored_of_translate {dx dy : Int} (ho : o ≠ []) (h : o.translate dx dy = .ok p) :
    p.IsStored := by
  refine ⟨ne_nil_of_length_eq (length_translate h) ho, ?_⟩
  obtain ⟨q, hq, hp⟩ := bind_eq_ok_iff.mp h
  obtain ⟨x, -, rfl⟩ := map_eq_ok_iff.mp hq
  obtain ⟨y, -, rfl⟩ := map_eq_ok_iff.mp hp
  intro v hv
  obtain ⟨w, hw, rfl⟩ := List.mem_map.mp hv
  obtain ⟨u, -, rfl⟩ := List.mem_map.mp hw
  exact ⟨Number.isWord_wrap _, Number.isWord_wrap _⟩

theorem isStored_of_rotate {cx cy : Int} {degrees : Float} (ho : o ≠ [])
    (h : o.rotate cx cy degrees = .ok p) : p.IsStored := by
  have hne := ne_nil_of_length_eq (length_rotate h) ho
  obtain ⟨turn, hturn, rfl⟩ := map_eq_ok_iff.mp h
  rw [turning] at hturn
  split at hturn
  · cases hturn
  · obtain ⟨wx, -, hturn⟩ := bind_eq_ok_iff.mp hturn
    obtain ⟨wy, -, rfl⟩ := map_eq_ok_iff.mp hturn
    exact (isWithin_of_toPixel o _ _).isStored (by decide) hne

end Outline

theorem Shape.isStored_of_scaled {shape : Shape} {percent : Int} {o : Outline}
    (h : shape.scaled percent = .ok o) : o.IsStored := by
  have hne : o ≠ [] := by
    rw [← List.length_pos_iff, shape.length_scaled h]
    exact List.length_pos_iff.mpr shape.points_ne_nil
  obtain ⟨factor, -, rfl⟩ := map_eq_ok_iff.mp h
  exact (Outline.isWithin_of_toPixel shape.points _ _).isStored (by decide) hne

theorem Drawing.isStored_of_placed {s : Stamp} {o p : Outline} (ho : o.IsStored)
    (h : placed s o = .ok p) : p.IsStored := by
  rw [placed] at h
  split at h
  · exact Except.ok.inj h ▸ ho
  · exact Outline.isStored_of_translate ho.ne_nil h

namespace Canvas

variable {c : Canvas} {o : Outline}

theorem isStored_of_ring {vertices : List (Int × Int)} (hne : vertices ≠ [])
    (h : ring vertices = .ok o) : o.IsStored := by
  have hrelated := mapM_eq_ok_iff.mp h
  refine ⟨Outline.ne_nil_of_length_eq (o := vertices.map fun p => ⟨p.1, p.2⟩) ?_ ?_, ?_⟩
  · rw [List.length_map]
    exact hrelated.length_eq.symm
  · exact fun h => hne (List.map_eq_nil_iff.mp h)
  · intro v hv
    obtain ⟨⟨x, y⟩, -, hxy⟩ := exists_of_mem_right hrelated hv
    obtain ⟨x', hx, hxy⟩ := bind_eq_ok_iff.mp hxy
    obtain ⟨y', hy, hxy⟩ := bind_eq_ok_iff.mp hxy
    cases hxy
    obtain ⟨rfl, hxword⟩ := Number.word_eq_ok_iff.mp hx
    obtain ⟨rfl, hyword⟩ := Number.word_eq_ok_iff.mp hy
    exact ⟨hxword, hyword⟩

theorem isStored_of_slanted {share : Int} {degrees : Float} (h : c.slanted share degrees = .ok o) :
    o.IsStored := by
  obtain ⟨length, -, h⟩ := bind_eq_ok_iff.mp h
  obtain ⟨band, hband, h⟩ := bind_eq_ok_iff.mp h
  exact Outline.isStored_of_rotate (isStored_of_ring (List.cons_ne_nil _ _) hband).ne_nil h

theorem isStored_of_band {i : Int} (h : c.band i = .ok o) : o.IsStored := by
  rw [band] at h
  simp only at h
  split at h
  · exact isStored_of_ring (List.cons_ne_nil _ _) h
  · exact isStored_of_ring (List.cons_ne_nil _ _) h
  · exact isStored_of_slanted h
  · exact isStored_of_slanted h

theorem isStored_of_coloredBand {start finish color : Color} {i : Int}
    (h : c.coloredBand start finish i = .ok (color, o)) : o.IsStored := by
  obtain ⟨band, hband, h⟩ := bind_eq_ok_iff.mp h
  obtain ⟨step, -, h⟩ := bind_eq_ok_iff.mp h
  cases h
  exact isStored_of_band hband

end Canvas

/-! ## Steps in lockstep -/

/-- **A relation between two surfaces that painting keeps.**  The loose one is that of surfaces
whose colours may differ, the tight one that of surfaces which a polygon is put down on. -/
structure Surface.Simulation {σ τ : Type} [Surface σ] [Surface τ] (loose tight : σ → τ → Prop) :
    Prop where
  loosen : ∀ {s t}, tight s t → loose s t
  setColor : ∀ {s t} (color : Color), loose s t →
    tight (Surface.setColor color s) (Surface.setColor color t)
  setGround : ∀ {s t} (color : Color), loose s t →
    ∃ s' t', Surface.setGround color s = .ok s' ∧ Surface.setGround color t = .ok t' ∧ loose s' t'
  polygon : ∀ {s t} (style : Style) {o : Outline}, o.IsStored → tight s t →
    ∃ s' t', Surface.polygon style o.xs o.ys o.length s = .ok s' ∧
      Surface.polygon style o.xs o.ys o.length t = .ok t' ∧ tight s' t'

namespace Drawing

section Steps

variable {σ τ α β : Type}

/-- **Two steps of painting that run in lockstep**: on surfaces that are related before, and after
the same answers of the generator, they come to the same outcome, ask for the same bounds and leave
surfaces that are related.  Their result, when there is one, has a property `V`. -/
def Lockstep (before after' : σ → τ → Prop) (V : α → Prop) (p : Painting σ α) (p' : Painting τ α) :
    Prop :=
  ∀ (e : Easel σ) (e' : Easel τ), before e.surface e'.surface → e.calls = e'.calls →
    (after p e).1 = (after p' e').1 ∧ after' (after p e).2.surface (after p' e').2.surface ∧
      (after p e).2.calls = (after p' e').2.calls ∧ ∀ a, (after p e).1 = .ok a → V a

variable {P Q S : σ → τ → Prop} {V : α → Prop} {W : β → Prop} {p : Painting σ α}
  {p' : Painting τ α} {f : α → Painting σ β} {f' : α → Painting τ β}

namespace Lockstep

theorem pure {a : α} (ha : V a) : Lockstep P P V (pure a) (pure a) :=
  fun _ _ hP hcalls => ⟨rfl, hP, hcalls, fun _ h => Except.ok.inj h ▸ ha⟩

theorem throw (error : Error) : Lockstep P P V (throw error) (throw error) :=
  fun _ _ hP hcalls => ⟨rfl, hP, hcalls, nofun⟩

/-- Steps one after the other.  What relates the surfaces between them relates them in the end as
well, should the first step fail. -/
theorem bind (hp : Lockstep P Q V p p') (hQ : ∀ s t, Q s t → S s t)
    (hf : ∀ a, V a → Lockstep Q S W (f a) (f' a)) : Lockstep P S W (p >>= f) (p' >>= f') := by
  intro e e' hP hcalls
  obtain ⟨houtcome, hsurface, hcalls, hV⟩ := hp e e' hP hcalls
  rcases hrun : after p e with ⟨_ | a, e₁⟩ <;> rcases hrun' : after p' e' with ⟨_ | a', e₁'⟩ <;>
    rw [hrun, hrun'] at houtcome hsurface hcalls <;> cases houtcome
  · rw [after_bind_of_error hrun, after_bind_of_error hrun']
    exact ⟨rfl, hQ _ _ hsurface, hcalls, nofun⟩
  · rw [after_bind_of_ok hrun, after_bind_of_ok hrun']
    exact hf a (hV a (congrArg Prod.fst hrun)) e₁ e₁' hsurface hcalls

/-- Steps one after the other that keep one relation. -/
theorem andThen (hp : Lockstep P P V p p') (hf : ∀ a, V a → Lockstep P P W (f a) (f' a)) :
    Lockstep P P W (p >>= f) (p' >>= f') :=
  hp.bind (fun _ _ => id) hf

theorem ite {c : Prop} [Decidable c] {q : Painting σ α} {q' : Painting τ α}
    (hp : Lockstep P Q V p p') (hq : Lockstep P Q V q q') :
    Lockstep P Q V (if c then p else q) (if c then p' else q') := by
  split
  · exact hp
  · exact hq

theorem loosen (hp : Lockstep P Q V p p') (hQ : ∀ s t, Q s t → S s t) : Lockstep P S V p p' :=
  fun e e' hP hcalls =>
    let ⟨houtcome, hsurface, hcalls, hV⟩ := hp e e' hP hcalls
    ⟨houtcome, hQ _ _ hsurface, hcalls, hV⟩

theorem compute (x : Except Number.Error α) :
    Lockstep P P (fun a => x = .ok a) (compute x) (Drawing.compute x) := by
  intro e e' hP hcalls
  cases x with
  | error error => exact ⟨rfl, hP, hcalls, nofun⟩
  | ok a => exact ⟨rfl, hP, hcalls, fun _ h => congrArg Except.ok (Except.ok.inj h)⟩

theorem ask (g : Generator) (bound : Nat) :
    Lockstep P P (fun _ => True) (ask g bound) (Drawing.ask g bound) := by
  intro e e' hP hcalls
  refine ⟨?_, hP, ?_, fun _ _ => trivial⟩
  · change Except.ok (g.answer e.calls bound : Int) = .ok (g.answer e'.calls bound : Int)
    rw [hcalls]
  · change e.calls.push bound = e'.calls.push bound
    rw [hcalls]

theorem copyOffset (g : Generator) (c : Coordinate) (extent : Nat) (own : Int) :
    Lockstep P P (fun _ => True) (copyOffset g c extent own) (Drawing.copyOffset g c extent own) :=
  ite (ask g extent) (pure trivial)

/-- A call that both surfaces take. -/
theorem call {action : Surface.Action σ Unit} {action' : Surface.Action τ Unit}
    (h : ∀ s t, P s t →
      ∃ s' t', Surface.result action s = .ok s' ∧ Surface.result action' t = .ok t' ∧ Q s' t') :
    Lockstep P Q (fun _ => True) (call action) (Drawing.call action') := by
  intro e e' hP hcalls
  obtain ⟨s', t', hs, ht, hQ⟩ := h _ _ hP
  rw [after_call hs, after_call ht]
  exact ⟨rfl, hQ, hcalls, fun _ _ => trivial⟩

end Lockstep

end Steps

end Drawing

/-! ## Painting in lockstep -/

namespace Surface.Simulation

open Drawing

variable {σ τ : Type} [Surface σ] [Surface τ] {loose tight : σ → τ → Prop}
  (h : Simulation loose tight) {o : Outline} {canvas : Canvas} {s : Stamp} {g : Generator}

include h

theorem lockstep_setColor (color : Color) :
    Lockstep loose tight (fun _ => True) (Drawing.setColor color) (Drawing.setColor color) :=
  fun _ _ hloose hcalls => ⟨rfl, h.setColor color hloose, hcalls, fun _ _ => trivial⟩

theorem lockstep_putDown (style : Style) (ho : o.IsStored) :
    Lockstep tight tight (fun _ => True) (putDown style o) (putDown style o) :=
  Lockstep.call fun _ _ htight => h.polygon style ho htight

theorem lockstep_paintBands (start finish : Color) (is : List Int) :
    Lockstep loose loose (fun _ => True) (paintBands canvas start finish is)
      (paintBands canvas start finish is) := by
  induction is with
  | nil => exact Lockstep.pure trivial
  | cons i rest ih =>
    refine (Lockstep.compute _).andThen ?_
    rintro ⟨color, o⟩ hband
    refine (h.lockstep_setColor color).bind (fun _ _ => h.loosen) fun _ _ => ?_
    refine (h.lockstep_putDown .filled (Canvas.isStored_of_coloredBand hband)).bind
      (fun _ _ => h.loosen) fun _ _ => ?_
    exact fun e e' htight hcalls => ih e e' (h.loosen htight) hcalls

theorem lockstep_paintGround (canvas : Canvas) :
    Lockstep loose loose (fun _ => True) (Drawing.paintGround canvas)
      (Drawing.paintGround canvas) := by
  unfold Drawing.paintGround
  cases canvas.ground with
  | solid color => exact Lockstep.call fun _ _ hloose => h.setGround color hloose
  | gradient start finish _ _ => exact h.lockstep_paintBands start finish canvas.bandIndices

theorem lockstep_paintTurned (degrees : Int) (ho : o.IsStored) :
    Lockstep tight tight Outline.IsStored (paintTurned s degrees o) (paintTurned s degrees o) := by
  refine (Lockstep.compute _).andThen fun angle _ => ?_
  refine (Lockstep.compute _).andThen fun turned hturned => ?_
  have hstored := Outline.isStored_of_rotate ho.ne_nil hturned
  exact (h.lockstep_putDown s.style hstored).andThen fun _ _ => Lockstep.pure hstored

theorem lockstep_paintMoved (ho : o.IsStored) :
    Lockstep tight tight Outline.IsStored (paintMoved canvas g s o) (paintMoved canvas g s o) := by
  refine (Lockstep.copyOffset g s.x canvas.width s.offsetX).andThen fun dx _ => ?_
  refine (Lockstep.copyOffset g s.y canvas.height s.offsetY).andThen fun dy _ => ?_
  refine (Lockstep.compute _).andThen fun moved hmoved => ?_
  have hstored := Outline.isStored_of_translate ho.ne_nil hmoved
  refine (h.lockstep_putDown s.style hstored).andThen fun _ _ => Lockstep.ite ?_ ?_
  · intro e e' htight hcalls
    obtain ⟨houtcome, hsurface, hcalls, hback⟩ :=
      Lockstep.compute (P := tight) (moved.translate (-dx) (-dy)) e e' htight hcalls
    exact ⟨houtcome, hsurface, hcalls, fun p hp =>
      Outline.isStored_of_translate hstored.ne_nil (hback p hp)⟩
  · exact Lockstep.pure hstored

theorem lockstep_paintCopies (n : Nat) (ho : o.IsStored) :
    Lockstep tight tight Outline.IsStored (paintCopies canvas g s n o)
      (paintCopies canvas g s n o) := by
  induction n generalizing o with
  | zero => exact Lockstep.pure ho
  | succ n ih =>
    rw [paintCopies_succ, paintCopies_succ]
    refine Lockstep.andThen (Lockstep.ite (h.lockstep_paintTurned s.repeatRotate ho)
      (Lockstep.pure ho)) fun turned hturned => ?_
    exact (h.lockstep_paintMoved hturned).andThen fun _ hmoved => ih hmoved

theorem lockstep_paintStamp (d : Drawing) (g : Generator) (s : Stamp) :
    Lockstep loose loose (fun _ => True) (paintStamp d g s) (paintStamp d g s) := by
  unfold paintStamp
  cases d.library.find? s.shape with
  | none => exact Lockstep.throw _
  | some shape =>
    refine (Lockstep.compute _).andThen fun start hstart => ?_
    refine (h.lockstep_setColor s.color).bind (fun _ _ => h.loosen) fun _ _ => ?_
    refine Lockstep.loosen ?_ fun _ _ => h.loosen
    refine (Lockstep.compute _).andThen fun placed hplaced => ?_
    have hstored := isStored_of_placed (Shape.isStored_of_scaled hstart) hplaced
    refine (h.lockstep_putDown s.style hstored).andThen fun _ _ => ?_
    refine (h.lockstep_paintCopies (s.repeats - 1) hstored).andThen fun left hleft => ?_
    exact Lockstep.ite ((h.lockstep_paintTurned s.rotate hleft).andThen fun _ _ =>
      Lockstep.pure trivial) (Lockstep.pure trivial)

theorem lockstep_paintStamps (d : Drawing) (g : Generator) (stamps : List Stamp) :
    Lockstep loose loose (fun _ => True) (paintStamps d g stamps) (paintStamps d g stamps) := by
  induction stamps with
  | nil => exact Lockstep.pure trivial
  | cons s rest ih => exact (h.lockstep_paintStamp d g s).andThen fun _ _ => ih

/-- **A drawing is painted in lockstep** on all surfaces that its calls keep related. -/
theorem lockstep_painting (d : Drawing) (g : Generator) :
    Lockstep loose loose (fun _ => True) (painting d g) (painting d g) :=
  (h.lockstep_paintGround d.canvas).andThen fun _ _ => h.lockstep_paintStamps d g d.script.stamps

end Surface.Simulation

end Stencil
