import Mathlib

/-!
# Proofs/Sequence — steps taken one after another

What a step gives when another is put behind it is said for success and error apart
(`bind_eq_ok_iff`, `map_eq_error_iff`).  A list of steps that may fail succeeds when each of them
does (`mapM_eq_ok_iff`) and fails with the error of the first that fails (`mapM_eq_error_iff`).
Steps that pass a state on keep what each of them keeps (`foldlM_keeps`), and where the state has no
say in whether a step fails, they fail like steps without one (`foldlM_map_const`).  A step that
leaves its state when it fails is run up to there (`run_bind_eq_of_ok`, `run_bind_eq_of_error`).
-/

namespace Stencil

variable {ε α β σ : Type}

/-! ## One step -/

section Step

variable {x : Except ε α} {e : ε}

theorem bind_eq_ok_iff {f : α → Except ε β} {b : β} :
    x.bind f = .ok b ↔ ∃ a, x = .ok a ∧ f a = .ok b := by
  cases x <;> simp [Except.bind]

theorem bind_eq_error_iff {f : α → Except ε β} :
    x.bind f = .error e ↔ x = .error e ∨ ∃ a, x = .ok a ∧ f a = .error e := by
  cases x <;> simp [Except.bind]

theorem map_eq_ok_iff {f : α → β} {b : β} : x.map f = .ok b ↔ ∃ a, x = .ok a ∧ f a = b := by
  cases x <;> simp [Except.map]

theorem map_eq_error_iff {f : α → β} : x.map f = .error e ↔ x = .error e := by
  cases x <;> simp [Except.map]

theorem toOption_eq_some_iff {a : α} : x.toOption = some a ↔ x = .ok a := by
  cases x <;> simp [Except.toOption]

theorem mapError_eq_ok_iff {ε' : Type} {f : ε → ε'} {a : α} :
    x.mapError f = .ok a ↔ x = .ok a := by
  cases x <;> simp [Except.mapError]

end Step

/-! ## Related lists -/

section Related

variable {R : α → β → Prop} {xs : List α} {ys : List β}

theorem exists_of_mem_left (h : List.Forall₂ R xs ys) {x : α} (hx : x ∈ xs) : ∃ y ∈ ys, R x y := by
  induction h with
  | nil => cases hx
  | cons hR _ ih =>
    rcases List.mem_cons.mp hx with rfl | hx
    · exact ⟨_, List.mem_cons_self, hR⟩
    · obtain ⟨y, hy, hxy⟩ := ih hx
      exact ⟨y, List.mem_cons_of_mem _ hy, hxy⟩

theorem exists_of_mem_right (h : List.Forall₂ R xs ys) {y : β} (hy : y ∈ ys) : ∃ x ∈ xs, R x y :=
  exists_of_mem_left h.flip hy

/-- Related lists fall apart at the same place. -/
theorem exists_split_of_forall₂ {before after : List α} {x : α}
    (h : List.Forall₂ R (before ++ x :: after) ys) :
    ∃ before' y after', ys = before' ++ y :: after' ∧ before'.length = before.length ∧ R x y ∧
      List.Forall₂ R after after' := by
  induction before generalizing ys with
  | nil =>
    cases h with
    | cons hx hafter => exact ⟨[], _, _, rfl, rfl, hx, hafter⟩
  | cons first before ih =>
    cases h with
    | cons _ hrest =>
      obtain ⟨before', y, after', rfl, hlength, hx, hafter⟩ := ih hrest
      exact ⟨_ :: before', y, after', rfl, congrArg Nat.succ hlength, hx, hafter⟩

/-- Lists with equal images are related where equal images are. -/
theorem forall₂_of_map_eq_map {γ : Type} {f : α → γ} {g : β → γ} (h : xs.map f = ys.map g)
    (hR : ∀ x, ∀ y ∈ ys, f x = g y → R x y) : List.Forall₂ R xs ys := by
  induction ys generalizing xs with
  | nil =>
    rw [List.map_eq_nil_iff.mp h]
    exact .nil
  | cons y ys ih =>
    obtain ⟨x, rest, rfl, hx, hrest⟩ := List.map_eq_cons_iff.mp h
    exact .cons (hR x y List.mem_cons_self hx)
      (ih hrest fun z w hw => hR z w (List.mem_cons_of_mem y hw))

end Related

/-! ## Steps of their own -/

section MapM

variable {f : α → Except ε β}

theorem mapM_cons_of_error {x : α} {e : ε} (h : f x = .error e) (xs : List α) :
    (x :: xs).mapM f = .error e := by
  rw [List.mapM_cons, h]
  rfl

theorem mapM_cons_of_ok {x : α} {y : β} (h : f x = .ok y) (xs : List α) :
    (x :: xs).mapM f = (xs.mapM f).map (y :: ·) := by
  rw [List.mapM_cons, h]
  cases hxs : xs.mapM f with
  | error e => simp [bind, Except.bind, Except.map]
  | ok ys => simp [bind, Except.bind, Except.map, pure, Except.pure]

/-- **All steps succeed** exactly when each does, with its own result. -/
theorem mapM_eq_ok_iff {xs : List α} {ys : List β} :
    xs.mapM f = .ok ys ↔ List.Forall₂ (fun x y => f x = .ok y) xs ys := by
  induction xs generalizing ys with
  | nil =>
    rw [List.forall₂_nil_left_iff]
    exact ⟨fun h => (Except.ok.inj h).symm, fun h => h ▸ rfl⟩
  | cons x xs ih =>
    rw [List.forall₂_cons_left_iff]
    cases hx : f x with
    | error e =>
      rw [mapM_cons_of_error hx]
      exact ⟨nofun, fun ⟨y, _, h, _⟩ => by cases h⟩
    | ok y =>
      rw [mapM_cons_of_ok hx]
      cases hxs : xs.mapM f with
      | error e =>
        refine ⟨nofun, fun ⟨_, zs, _, h, _⟩ => ?_⟩
        rw [← ih, hxs] at h
        cases h
      | ok zs =>
        refine ⟨fun h => ⟨y, zs, rfl, ih.mp hxs, (Except.ok.inj h).symm⟩, ?_⟩
        rintro ⟨y', zs', ⟨⟩, h, rfl⟩
        rw [← ih, hxs] at h
        cases h
        rfl

/-- **Some step fails** exactly when there is a first one that does, and its error is the one that
is left. -/
theorem mapM_eq_error_iff {xs : List α} {e : ε} :
    xs.mapM f = .error e ↔ ∃ before x after, xs = before ++ x :: after ∧
      (∀ b ∈ before, ∃ y, f b = .ok y) ∧ f x = .error e := by
  induction xs with
  | nil =>
    refine ⟨nofun, fun ⟨before, x, after, h, _⟩ => ?_⟩
    exact absurd h.symm (List.append_ne_nil_of_right_ne_nil before (List.cons_ne_nil x after))
  | cons x xs ih =>
    cases hx : f x with
    | error d =>
      rw [mapM_cons_of_error hx]
      refine ⟨fun h => ⟨[], x, xs, rfl, nofun, hx.trans (congrArg _ (Except.error.inj h))⟩, ?_⟩
      rintro ⟨before, z, after, h, hbefore, hz⟩
      cases before with
      | nil =>
        cases h
        exact congrArg Except.error (Except.error.inj (hx.symm.trans hz))
      | cons b before =>
        cases h
        obtain ⟨y, hy⟩ := hbefore x List.mem_cons_self
        rw [hx] at hy
        cases hy
    | ok y =>
      have hstep : (x :: xs).mapM f = .error e ↔ xs.mapM f = .error e := by
        rw [mapM_cons_of_ok hx]
        cases xs.mapM f <;> simp [Except.map]
      rw [hstep, ih]
      constructor
      · rintro ⟨before, z, after, rfl, hbefore, hz⟩
        refine ⟨x :: before, z, after, rfl, fun b hb => ?_, hz⟩
        rcases List.mem_cons.mp hb with rfl | hb
        · exact ⟨y, hx⟩
        · exact hbefore b hb
      · rintro ⟨before, z, after, h, hbefore, hz⟩
        cases before with
        | nil =>
          cases h
          rw [hx] at hz
          cases hz
        | cons b before =>
          cases h
          exact ⟨before, z, after, rfl, fun b hb => hbefore b (List.mem_cons_of_mem x hb), hz⟩

/-- The steps succeed together exactly when each can. -/
theorem exists_mapM_eq_ok_iff {xs : List α} :
    (∃ ys, xs.mapM f = .ok ys) ↔ ∀ x ∈ xs, ∃ y, f x = .ok y := by
  constructor
  · rintro ⟨ys, h⟩ x hx
    obtain ⟨y, -, hy⟩ := exists_of_mem_left (mapM_eq_ok_iff.mp h) hx
    exact ⟨y, hy⟩
  · intro h
    cases hm : xs.mapM f with
    | ok ys => exact ⟨ys, rfl⟩
    | error e =>
      obtain ⟨before, x, after, rfl, -, hx⟩ := mapM_eq_error_iff.mp hm
      obtain ⟨y, hy⟩ := h x (by simp)
      rw [hx] at hy
      cases hy

/-- Steps that all succeed hand their results on as single ones do. -/
theorem mapM_bind_of_mapM {γ : Type} {xs : List α} {ys : List β} (h : xs.mapM f = .ok ys)
    (g : β → Except ε γ) : xs.mapM (fun x => (f x).bind g) = ys.mapM g := by
  rw [mapM_eq_ok_iff] at h
  induction h with
  | nil => rfl
  | @cons x y xs ys hx _ ih =>
    rw [List.mapM_cons, List.mapM_cons, ih, hx]
    rfl

/-- **Two rounds of steps succeed** exactly when the steps do that take both at once. -/
theorem mapM_bind_mapM_eq_ok_iff {γ : Type} {xs : List α} {g : β → Except ε γ} {zs : List γ} :
    (xs.mapM f).bind (fun ys => ys.mapM g) = .ok zs ↔
      xs.mapM (fun x => (f x).bind g) = .ok zs := by
  cases hxs : xs.mapM f with
  | ok ys => rw [mapM_bind_of_mapM hxs, Except.bind]
  | error e =>
    refine iff_of_false nofun ?_
    intro h
    obtain ⟨before, x, after, rfl, -, hx⟩ := mapM_eq_error_iff.mp hxs
    obtain ⟨z, hz⟩ := exists_mapM_eq_ok_iff.mp ⟨zs, h⟩ x (by simp)
    rw [hx] at hz
    cases hz

end MapM

/-! ## Steps that pass a state on -/

section FoldlM

variable {step : σ → α → Except ε σ}

/-- **What every step keeps is kept by all of them together.** -/
theorem foldlM_keeps {P : σ → Prop} {xs : List α}
    (hstep : ∀ s t, ∀ x ∈ xs, P s → step s x = .ok t → P t) {s t : σ} (hs : P s)
    (h : xs.foldlM step s = .ok t) : P t := by
  induction xs generalizing s with
  | nil => exact Except.ok.inj h ▸ hs
  | cons x xs ih =>
    rw [List.foldlM_cons] at h
    cases hx : step s x with
    | error e =>
      rw [hx] at h
      cases h
    | ok r =>
      rw [hx] at h
      exact ih (fun s t y hy => hstep s t y (List.mem_cons_of_mem x hy))
        (hstep s r x List.mem_cons_self hs hx) h

/-- **Steps whose success does not depend on the state** succeed and fail as they would without. -/
theorem foldlM_map_const {check : α → Except ε Unit}
    (hstep : ∀ s x, (step s x).map (fun _ => ()) = check x) (xs : List α) (s : σ) :
    (xs.foldlM step s).map (fun _ => ()) = (xs.mapM check).map (fun _ => ()) := by
  induction xs generalizing s with
  | nil => rfl
  | cons x xs ih =>
    rw [List.foldlM_cons]
    cases hx : step s x with
    | error e =>
      have hc : check x = .error e := by rw [← hstep s x, hx]; rfl
      rw [mapM_cons_of_error hc]
      rfl
    | ok r =>
      have hc : check x = .ok () := by rw [← hstep s x, hx]; rfl
      rw [mapM_cons_of_ok hc]
      refine (ih r).trans ?_
      cases xs.mapM check <;> rfl

end FoldlM

/-! ## Steps that leave a state -/

section ExceptT

variable {step : ExceptT ε (StateM σ) α} {next : α → ExceptT ε (StateM σ) β} {s t : σ}

/-- After a step that succeeds the next one is run. -/
theorem run_bind_eq_of_ok {a : α} (h : step.run.run s = (.ok a, t)) :
    (step >>= next).run.run s = (next a).run.run t := by
  rw [ExceptT.run_bind, StateT.run_bind, h]
  rfl

/-- After a step that fails nothing is run. -/
theorem run_bind_eq_of_error {e : ε} (h : step.run.run s = (.error e, t)) :
    (step >>= next).run.run s = (.error e, t) := by
  rw [ExceptT.run_bind, StateT.run_bind, h]
  rfl

end ExceptT

end Stencil
