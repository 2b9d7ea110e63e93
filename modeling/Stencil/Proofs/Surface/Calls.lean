import Stencil.Proofs.Image.Layers

/-!
# Proofs/Surface/Calls — surfaces while they are called

    calls     put a   setColor c   polygon a b n   put a   setGround d   polygon a b n   …
                          │             │             ╳           │            │
    marks                 └── colour ─▸ mark          │         mark         mark        …
                                          └─ first n of a, b as they are here

A program calls a surface with arrays of positions that it may change between two calls (`Call`,
`Desk`).  A polygon call is refused where its arrays do not fit, for their lengths or for the count
(`Call.refusal?`).  A call may change a surface and be refused all the same; on an `IsAtomic`
surface it does not, so that a refused call leaves everything as it was
(`Desk.snd_attempt_eq_self`), and both the surface that keeps its marks and the one of pixels are of
that kind.

What was recorded is told by the calls alone: each mark has the colour that the latest call before
it set and the vertices that its arrays began with at that moment (`Call.marksOf`), so a surface
that keeps its marks has exactly those of the calls that were not refused, in their order
(`surface_recorded`).  The surface of pixels refuses the same calls for the same reasons, and those
with positions that are too far away (`fst_attempt_raster`); its picture is what its marks cover.
`calls_agree` says all of it.
-/

namespace Stencil.Surface

/-! ## Calls -/

/-- **One step of a program** that works with a surface and arrays, which go by numbers. -/
inductive Call where
  /-- An array gets these positions. -/
  | put (array : ℕ) (positions : List Int)
  | setColor (color : Color)
  | setGround (color : Color)
  /-- A polygon of the first `count` vertices of two arrays. -/
  | polygon (style : Style) (xs ys : ℕ) (count : Int)

/-- **What a program works with**: arrays and a surface. -/
structure Desk (σ : Type) where
  arrays : ℕ → List Int
  surface : σ

namespace Desk

variable {σ : Type}

/-- What the surface does when it is called: why it refused the call, if it did, and what is left,
with the surface as the call left it. -/
def perform (desk : Desk σ) (action : Action σ Unit) : Option Refusal × Desk σ :=
  match (ExceptT.run action).run desk.surface with
  | (.ok (), surface) => (none, { desk with surface })
  | (.error e, surface) => (some e, { desk with surface })

/-- **A call is made**: why it was refused, if it was, and what is left. -/
def attempt [Surface σ] (desk : Desk σ) : Call → Option Refusal × Desk σ
  | .put array positions =>
    (none, { desk with arrays := Function.update desk.arrays array positions })
  | .setColor color => (none, { desk with surface := setColor color desk.surface })
  | .setGround color => desk.perform (paintGround color)
  | .polygon style xs ys count =>
    desk.perform (paintPolygon style (desk.arrays xs) (desk.arrays ys) count)

/-- What is left after several calls, refused ones among them. -/
def afterAll [Surface σ] (desk : Desk σ) (calls : List Call) : Desk σ :=
  calls.foldl (fun desk call => (desk.attempt call).2) desk

@[simp] theorem afterAll_append_singleton [Surface σ] (desk : Desk σ) (calls : List Call)
    (call : Call) :
    desk.afterAll (calls ++ [call]) = ((desk.afterAll calls).attempt call).2 := by
  rw [afterAll, List.foldl_append, List.foldl_cons, List.foldl_nil, afterAll]

/-- What a call comes to that checks something first. -/
theorem perform_checked {α : Type} (desk : Desk σ) (check : Except Refusal α) (change : α → σ → σ) :
    desk.perform (checked check change) =
      match check with
      | .ok a => (none, { desk with surface := change a desk.surface })
      | .error e => (some e, desk) := by
  rw [perform, run_checked]
  cases check <;> rfl

@[simp] theorem arrays_perform (desk : Desk σ) (action : Action σ Unit) :
    (desk.perform action).2.arrays = desk.arrays := by
  rw [perform]
  split <;> rfl

end Desk

/-! ## Refused calls -/

/-- **A call that changes nothing when it is refused.** -/
def Action.IsAtomic {σ : Type} (action : Action σ Unit) : Prop :=
  ∀ (s t : σ) (e : Refusal), (ExceptT.run action).run s = (.error e, t) → t = s

/-- **A surface whose calls change nothing when they are refused.** -/
structure IsAtomic (σ : Type) [Surface σ] : Prop where
  paintGround : ∀ color, Action.IsAtomic (paintGround color : Action σ Unit)
  paintPolygon : ∀ style xs ys count,
    Action.IsAtomic (paintPolygon style xs ys count : Action σ Unit)

theorem Desk.snd_perform_eq_self {σ : Type} {desk : Desk σ} {action : Action σ Unit}
    (h : Action.IsAtomic action) (hrefused : (desk.perform action).1.isSome = true) :
    (desk.perform action).2 = desk := by
  rw [perform] at hrefused ⊢
  split at hrefused
  next => cases hrefused
  next e surface hrun => rw [h _ _ _ hrun]

/-- **A refused call leaves everything as it was.** -/
theorem Desk.snd_attempt_eq_self {σ : Type} [Surface σ] (h : IsAtomic σ) {desk : Desk σ}
    {call : Call} (hrefused : (desk.attempt call).1.isSome = true) :
    (desk.attempt call).2 = desk := by
  cases call with
  | put array positions => cases hrefused
  | setColor color => cases hrefused
  | setGround color => exact snd_perform_eq_self (h.paintGround color) hrefused
  | polygon style xs ys count =>
    exact snd_perform_eq_self (h.paintPolygon style _ _ count) hrefused

/-- A call that is checked before it changes a surface changes nothing when it is refused. -/
theorem Action.isAtomic_checked {σ α : Type} (check : Except Refusal α) (change : α → σ → σ) :
    Action.IsAtomic (checked check change) := by
  intro s t e hrun
  rw [run_checked] at hrun
  cases check with
  | ok a => cases hrun
  | error refusal => exact (Prod.mk.inj hrun).2.symm

theorem Recording.isAtomic : IsAtomic Recording where
  paintGround color s t e h := by cases h
  paintPolygon _ _ _ _ := Action.isAtomic_checked _ _

theorem Raster.isAtomic : IsAtomic Raster where
  paintGround color s t e h := by cases h
  paintPolygon _ _ _ _ := Action.isAtomic_checked _ _

/-! ## What the calls tell -/

namespace Call

variable {arrays : ℕ → List Int} {before calls : List Call} {call : Call}

/-- The colour that a call sets. -/
def color? : Call → Option Color
  | setColor color => some color
  | _ => none

/-- The positions that a call gives to an array. -/
def positions? (array : ℕ) : Call → Option (List Int)
  | put a positions => if a = array then some positions else none
  | _ => none

/-- **The colour after some calls**: the one set last, or black. -/
def colorAfter (calls : List Call) : Color :=
  (calls.reverse.findSome? color?).getD Color.black

/-- **The arrays after some calls**: each has the positions given to it last, if any were. -/
def arraysAfter (arrays : ℕ → List Int) (calls : List Call) (array : ℕ) : List Int :=
  (calls.reverse.findSome? (positions? array)).getD (arrays array)

/-- **Whether the arrays of a call do not fit**: they differ in length, or there are not as many
vertices as are asked for, or none is asked for. -/
def IsUnfit (arrays : ℕ → List Int) : Call → Prop
  | polygon _ xs ys count =>
    (arrays xs).length ≠ (arrays ys).length ∨ count < 1 ∨ (arrays xs).length < count
  | _ => False

instance : (call : Call) → Decidable (call.IsUnfit arrays)
  | polygon .. => inferInstanceAs (Decidable (_ ∨ _))
  | put .. | setColor _ | setGround _ => inferInstanceAs (Decidable False)

/-- **Why a call is refused** whose arrays do not fit: both lengths if they differ, and otherwise
the count and how many vertices there are. -/
def refusal? (arrays : ℕ → List Int) : Call → Option Refusal
  | polygon _ xs ys count =>
    if (arrays xs).length ≠ (arrays ys).length then
      some (.lengths (arrays xs).length (arrays ys).length)
    else if 1 ≤ count ∧ count ≤ (arrays xs).length then none
    else some (.count count (arrays xs).length)
  | _ => none

/-- The vertices of a call: the first ones of its arrays, as many as it asks for. -/
def outline (arrays : ℕ → List Int) : Call → Outline
  | polygon _ xs ys count =>
    List.zipWith Vertex.mk ((arrays xs).take count.toNat) ((arrays ys).take count.toNat)
  | _ => []

/-- Whether doubles can hold the positions that a call uses. -/
def IsNear (arrays : ℕ → List Int) (call : Call) : Prop :=
  (call.outline arrays).all Vertex.isNear = true

instance : Decidable (call.IsNear arrays) :=
  inferInstanceAs (Decidable (_ = true))

/-- **The mark that a call makes**, if it makes one: a polygon has the current colour and the
vertices that the arrays begin with. -/
def mark? (color : Color) (arrays : ℕ → List Int) (call : Call) : Option Mark :=
  match call with
  | setGround color => some (.ground color)
  | polygon style .. =>
    if call.IsUnfit arrays then none else some (.polygon style color (call.outline arrays))
  | _ => none

/-- **The marks of some calls**, each in the colour and with the arrays after the calls before. -/
def marksOf (arrays : ℕ → List Int) (calls : List Call) : List Mark :=
  (List.range calls.length).filterMap fun k => calls[k]?.bind
    (mark? (colorAfter (calls.take k)) (arraysAfter arrays (calls.take k)))

/-! ### One call more -/

theorem colorAfter_append_singleton :
    colorAfter (calls ++ [call]) = call.color?.getD (colorAfter calls) := by
  rw [colorAfter, List.reverse_append, List.reverse_singleton, List.singleton_append,
    List.findSome?_cons]
  cases call.color? <;> rfl

theorem arraysAfter_append_singleton (array : ℕ) :
    arraysAfter arrays (calls ++ [call]) array =
      (call.positions? array).getD (arraysAfter arrays calls array) := by
  rw [arraysAfter, List.reverse_append, List.reverse_singleton, List.singleton_append,
    List.findSome?_cons]
  cases call.positions? array <;> rfl

theorem marksOf_append_singleton :
    marksOf arrays (calls ++ [call]) =
      marksOf arrays calls ++
        (call.mark? (colorAfter calls) (arraysAfter arrays calls)).toList := by
  have hbefore : ∀ k ∈ List.range calls.length,
      (calls ++ [call])[k]?.bind (mark? (colorAfter ((calls ++ [call]).take k))
          (arraysAfter arrays ((calls ++ [call]).take k))) =
        calls[k]?.bind (mark? (colorAfter (calls.take k)) (arraysAfter arrays (calls.take k))) := by
    intro k hk
    have hk := List.mem_range.mp hk
    rw [List.getElem?_append_left hk, List.take_append_of_le_length hk.le]
  rw [marksOf, List.length_append, List.length_singleton, List.range_succ, List.filterMap_append,
    List.filterMap_congr hbefore, List.filterMap_cons, List.getElem?_concat_length, List.take_left,
    Option.bind_some]
  cases call.mark? (colorAfter calls) (arraysAfter arrays calls) <;> rfl

/-! ### Vertices -/

/-- A call has something against it where its arrays do not fit. -/
theorem isSome_refusal? : (call.refusal? arrays).isSome = true ↔ call.IsUnfit arrays := by
  cases call with
  | put array positions => exact iff_of_false Bool.false_ne_true id
  | setColor color => exact iff_of_false Bool.false_ne_true id
  | setGround color => exact iff_of_false Bool.false_ne_true id
  | polygon style xs ys count =>
    rw [refusal?, IsUnfit]
    split
    next hlength => exact iff_of_true rfl (.inl hlength)
    next hlength =>
      split
      next hcount => exact iff_of_false Bool.false_ne_true (by omega)
      next hcount => exact iff_of_true rfl (.inr (by omega))

/-- **The vertices of a call**, unless there is something against it. -/
theorem vertices_arrays (style : Style) (xs ys : ℕ) (count : Int) :
    vertices (arrays xs) (arrays ys) count =
      match (polygon style xs ys count).refusal? arrays with
      | none => .ok ((polygon style xs ys count).outline arrays)
      | some e => .error e := by
  rw [vertices, refusal?]
  by_cases hlength : (arrays xs).length = (arrays ys).length
  · rw [if_neg (not_not.mpr hlength), if_neg (not_not.mpr hlength)]
    by_cases hcount : 1 ≤ count ∧ count ≤ (arrays xs).length
    · rw [if_pos hcount, if_neg (by omega), List.take_zipWith]
      rfl
    · rw [if_neg hcount, if_pos (by omega)]
  · rw [if_pos hlength, if_pos hlength]

/-- The same if they have to be near enough. -/
theorem nearVertices_arrays (refusal : Refusal) (style : Style) (xs ys : ℕ) (count : Int) :
    nearVertices refusal (arrays xs) (arrays ys) count =
      match (polygon style xs ys count).refusal? arrays with
      | none =>
        if (polygon style xs ys count).IsNear arrays then
          .ok ((polygon style xs ys count).outline arrays)
        else .error refusal
      | some e => .error e := by
  rw [nearVertices, vertices_arrays style]
  cases (polygon style xs ys count).refusal? arrays <;> rfl

/-- A call makes a mark if nothing is against it. -/
theorem mark?_polygon {style : Style} {xs ys : ℕ} {count : Int} {color : Color} :
    (polygon style xs ys count).mark? color arrays =
      match (polygon style xs ys count).refusal? arrays with
      | none => some (.polygon style color ((polygon style xs ys count).outline arrays))
      | some _ => none := by
  have hunfit : ((polygon style xs ys count).refusal? arrays).isSome = true ↔
      (polygon style xs ys count).IsUnfit arrays := isSome_refusal?
  rw [mark?]
  cases hrefusal : (polygon style xs ys count).refusal? arrays with
  | none =>
    rw [hrefusal] at hunfit
    exact if_neg (hunfit.not.mp Bool.false_ne_true)
  | some e =>
    rw [hrefusal] at hunfit
    exact if_pos (hunfit.mp rfl)

end Call

/-! ## Surfaces after calls -/

section Surfaces

open Call

variable {σ : Type} [Surface σ] {arrays : ℕ → List Int} {calls : List Call} {call : Call}
  {size : Size}

theorem arrays_attempt (desk : Desk σ) (call : Call) (array : ℕ) :
    (desk.attempt call).2.arrays array = (call.positions? array).getD (desk.arrays array) := by
  cases call with
  | put a positions =>
    rw [positions?]
    split
    next h =>
      subst h
      exact Function.update_self a positions desk.arrays
    next h => exact Function.update_of_ne (Ne.symm h) positions desk.arrays
  | setColor color => rfl
  | setGround color => exact congrFun (Desk.arrays_perform desk _) array
  | polygon style xs ys count => exact congrFun (Desk.arrays_perform desk _) array

/-- The arrays are as the calls left them. -/
theorem arrays_afterAll (desk : Desk σ) (calls : List Call) :
    (desk.afterAll calls).arrays = arraysAfter desk.arrays calls := by
  funext array
  induction calls using List.reverseRecOn with
  | nil => rfl
  | append_singleton calls call ih =>
    rw [Desk.afterAll_append_singleton, arrays_attempt, ih, arraysAfter_append_singleton]

/-! ### A surface that keeps its marks -/

/-- A desk with a surface that keeps its marks, after some calls. -/
def recorded (size : Size) (arrays : ℕ → List Int) (calls : List Call) : Desk Recording :=
  Desk.afterAll ⟨arrays, Recording.blank size⟩ calls

/-- What a polygon call comes to on a surface that keeps its marks. -/
theorem attempt_polygon_recording (desk : Desk Recording) (style : Style) (xs ys : ℕ)
    (count : Int) :
    desk.attempt (.polygon style xs ys count) =
      match (Call.polygon style xs ys count).refusal? desk.arrays with
      | none => (none, { desk with surface := desk.surface.add (.polygon style desk.surface.color
          ((Call.polygon style xs ys count).outline desk.arrays)) })
      | some e => (some e, desk) := by
  refine (Desk.perform_checked desk _ _).trans ?_
  rw [vertices_arrays style]
  cases (Call.polygon style xs ys count).refusal? desk.arrays <;> rfl

/-- **A polygon call is refused where its arrays do not fit**, and other calls never. -/
theorem fst_attempt_recording (desk : Desk Recording) (call : Call) :
    (desk.attempt call).1 = call.refusal? desk.arrays := by
  cases call with
  | put array positions => rfl
  | setColor color => rfl
  | setGround color => rfl
  | polygon style xs ys count =>
    rw [attempt_polygon_recording]
    cases (Call.polygon style xs ys count).refusal? desk.arrays <;> rfl

/-- **One call more** sets the colour or adds a mark. -/
theorem surface_attempt_recording (desk : Desk Recording) (call : Call) :
    (desk.attempt call).2.surface = ⟨desk.surface.size, call.color?.getD desk.surface.color,
      (desk.surface.marks.toList ++
        (call.mark? desk.surface.color desk.arrays).toList).toArray⟩ := by
  have hnone (color : Color) (size : Size) (marks : Array Mark) :
      (⟨size, color, marks⟩ : Recording) = ⟨size, color, (marks.toList ++ []).toArray⟩ := by
    rw [List.append_nil, Array.toArray_toList]
  cases call with
  | put array positions => exact hnone _ _ _
  | setColor color => exact hnone _ _ _
  | setGround color =>
    rw [mark?, Option.toList_some, ← Array.toList_push, Array.toArray_toList]
    rfl
  | polygon style xs ys count =>
    rw [attempt_polygon_recording, mark?_polygon]
    cases (Call.polygon style xs ys count).refusal? desk.arrays with
    | none =>
      rw [Option.toList_some, ← Array.toList_push, Array.toArray_toList]
      rfl
    | some e => exact hnone _ _ _

/-- **What is recorded is told by the calls**: the colour set last and the marks of the calls. -/
theorem surface_recorded (size : Size) (arrays : ℕ → List Int) (calls : List Call) :
    (recorded size arrays calls).surface =
      ⟨size, colorAfter calls, (marksOf arrays calls).toArray⟩ := by
  induction calls using List.reverseRecOn with
  | nil => rfl
  | append_singleton calls call ih =>
    have harrays : (recorded size arrays calls).arrays = arraysAfter arrays calls :=
      arrays_afterAll _ calls
    rw [recorded] at ih harrays ⊢
    rw [Desk.afterAll_append_singleton, surface_attempt_recording, ih, harrays,
      colorAfter_append_singleton, marksOf_append_singleton]

/-! ### A surface of pixels -/

/-- Whether pixels take a mark: doubles have to hold its positions. -/
def Raster.takes (mark : Mark) : Bool :=
  mark.outline.all Vertex.isNear

/-- A desk with a surface of pixels, after some calls. -/
def painted (size : Size) (arrays : ℕ → List Int) (calls : List Call) : Desk Raster :=
  Desk.afterAll ⟨arrays, Raster.blank size⟩ calls

/-- What a polygon call comes to on a surface of pixels. -/
theorem attempt_polygon_raster (desk : Desk Raster) (style : Style) (xs ys : ℕ) (count : Int) :
    desk.attempt (.polygon style xs ys count) =
      match (Call.polygon style xs ys count).refusal? desk.arrays with
      | none =>
        if (Call.polygon style xs ys count).IsNear desk.arrays then
          (none, { desk with surface := desk.surface.add (.polygon style desk.surface.color
            ((Call.polygon style xs ys count).outline desk.arrays)) })
        else (some .rejected, desk)
      | some e => (some e, desk) := by
  refine (Desk.perform_checked desk _ _).trans ?_
  rw [nearVertices_arrays .rejected style]
  cases (Call.polygon style xs ys count).refusal? desk.arrays with
  | none =>
    by_cases hnear : (Call.polygon style xs ys count).IsNear desk.arrays
    · simp only [if_pos hnear]
    · simp only [if_neg hnear]
  | some e => rfl

/-- **Pixels refuse what other surfaces refuse**, and positions that are too far away. -/
theorem fst_attempt_raster (desk : Desk Raster) (call : Call) :
    (desk.attempt call).1 = (call.refusal? desk.arrays).or
      (if call.IsNear desk.arrays then none else some .rejected) := by
  cases call with
  | put array positions => rfl
  | setColor color => rfl
  | setGround color => rfl
  | polygon style xs ys count =>
    rw [attempt_polygon_raster]
    cases (Call.polygon style xs ys count).refusal? desk.arrays with
    | none => exact apply_ite Prod.fst _ _ _
    | some e => rfl

/-- **One call more** sets the colour or covers pixels with its mark. -/
theorem surface_attempt_raster (desk : Desk Raster) (call : Call) :
    (desk.attempt call).2.surface =
      ⟨desk.surface.image.covered
        ((call.mark? desk.surface.color desk.arrays).toList.filter Raster.takes),
        call.color?.getD desk.surface.color⟩ := by
  cases call with
  | put array positions => rfl
  | setColor color => rfl
  | setGround color => rfl
  | polygon style xs ys count =>
    rw [attempt_polygon_raster, mark?_polygon]
    cases (Call.polygon style xs ys count).refusal? desk.arrays with
    | none =>
      simp only [Option.toList_some, List.filter_singleton, Raster.takes, Mark.outline]
      by_cases hnear : (Call.polygon style xs ys count).IsNear desk.arrays
      · rw [if_pos hnear, show List.all _ _ = true from hnear]
        rfl
      · rw [if_neg hnear, show List.all _ _ = false from Bool.eq_false_iff.mpr hnear]
        rfl
    | some e => rfl

/-- **The picture is what the marks cover** that are near enough, in the order of the calls. -/
theorem surface_painted (size : Size) (arrays : ℕ → List Int) (calls : List Call) :
    (painted size arrays calls).surface =
      ⟨(Image.blank size).covered ((marksOf arrays calls).filter Raster.takes),
        colorAfter calls⟩ := by
  induction calls using List.reverseRecOn with
  | nil => rfl
  | append_singleton calls call ih =>
    have harrays : (painted size arrays calls).arrays = arraysAfter arrays calls :=
      arrays_afterAll _ calls
    rw [painted] at ih harrays ⊢
    rw [Desk.afterAll_append_singleton, surface_attempt_raster, ih, harrays,
      colorAfter_append_singleton, marksOf_append_singleton, List.filter_append,
      Image.covered_append]

/-- **Surfaces while they are called**: whatever the calls before, a surface that keeps its marks
refuses a call exactly where its arrays do not fit, for their lengths or for the count; a refused
call changes nothing, and what was kept are the marks of the calls before.  Pixels refuse the same
calls for the same reasons if the positions are near enough, they are as they were after a refused
call too, and they show the same marks. -/
theorem calls_agree (size : Size) (arrays : ℕ → List Int) (calls : List Call) (call : Call) :
    ((recorded size arrays calls).attempt call).1 = call.refusal? (arraysAfter arrays calls) ∧
      ((call.refusal? (arraysAfter arrays calls)).isSome = true ↔
        call.IsUnfit (arraysAfter arrays calls)) ∧
      (((recorded size arrays calls).attempt call).1.isSome = true →
        ((recorded size arrays calls).attempt call).2 = recorded size arrays calls) ∧
      (recorded size arrays calls).surface =
        ⟨size, colorAfter calls, (marksOf arrays calls).toArray⟩ ∧
      (call.IsNear (arraysAfter arrays calls) →
        ((painted size arrays calls).attempt call).1 =
          call.refusal? (arraysAfter arrays calls)) ∧
      (((painted size arrays calls).attempt call).1.isSome = true →
        ((painted size arrays calls).attempt call).2 = painted size arrays calls) ∧
      (painted size arrays calls).surface =
        ⟨(Image.blank size).covered ((marksOf arrays calls).filter Raster.takes),
          colorAfter calls⟩ := by
  have hrecorded : (recorded size arrays calls).arrays = arraysAfter arrays calls :=
    arrays_afterAll _ calls
  have hpainted : (painted size arrays calls).arrays = arraysAfter arrays calls :=
    arrays_afterAll _ calls
  refine ⟨?_, isSome_refusal?, Desk.snd_attempt_eq_self Recording.isAtomic,
    surface_recorded size arrays calls, fun hnear => ?_,
    Desk.snd_attempt_eq_self Raster.isAtomic, surface_painted size arrays calls⟩
  · rw [fst_attempt_recording, hrecorded]
  · rw [fst_attempt_raster, hpainted, if_pos hnear, Option.or_none]

/-- A surface of six by six. -/
def smallSize : Size :=
  ⟨6, 6, by decide, by decide⟩

/-- Arrays of three positions. -/
def threePositions (_ : ℕ) : List Int :=
  [0, 4, 4]

/-- A polygon, and another colour. -/
def twoCalls : List Call :=
  [.polygon .filled 0 1 3, .setColor Color.white]

/-- A call that asks for one vertex more than there are. -/
def longCall : Call :=
  .polygon .outlined 0 1 4

/-- Both surfaces refuse the call for its count, and are as they were. -/
theorem calls_agree_longCall :
    longCall.IsUnfit (arraysAfter threePositions twoCalls) ∧
      longCall.IsNear (arraysAfter threePositions twoCalls) ∧
      ((recorded smallSize threePositions twoCalls).attempt longCall).1 = some (.count 4 3) ∧
      ((recorded smallSize threePositions twoCalls).attempt longCall).2 =
        recorded smallSize threePositions twoCalls ∧
      ((painted smallSize threePositions twoCalls).attempt longCall).1 = some (.count 4 3) ∧
      ((painted smallSize threePositions twoCalls).attempt longCall).2 =
        painted smallSize threePositions twoCalls := by
  have hrefusal : longCall.refusal? (arraysAfter threePositions twoCalls) = some (.count 4 3) := by
    decide
  have hnear : longCall.IsNear (arraysAfter threePositions twoCalls) := by decide
  obtain ⟨hrefused, hunfit, hkept, -, hsame, hkept', -⟩ :=
    calls_agree smallSize threePositions twoCalls longCall
  have hrefused := hrefused.trans hrefusal
  have hrefused' := (hsame hnear).trans hrefusal
  refine ⟨hunfit.mp ?_, hnear, hrefused, hkept ?_, hrefused', hkept' ?_⟩
  · rw [hrefusal]
    rfl
  · rw [hrefused]
    rfl
  · rw [hrefused']
    rfl

end Surfaces

end Stencil.Surface
