import Stencil.Proofs.Record.Grammar
import Stencil.Proofs.Record.Parts

/-!
# Proofs/Record/Vocabulary — what the fields of a record do

A field changes what is read, whatever that is so far, or is refused (`Vocabulary.effect`).  A
record does what its parts do one after another (`toOption_read`), and two laws of a vocabulary say
how they interact: fields of different keys commute (`act_comm`), and a field absorbs an earlier one
of its own key (`act_absorb`).  Hence parts of different keys may change places
(`partsEffect_comm`), and parts that are accepted may stand in front of later ones of the same key
(`absorb_recordEffect`).

Canvas and stamp are two vocabularies, `Canvas.vocabulary` and `Stamp.vocabulary`.
-/

namespace Stencil.Record

open Stencil.Text

/-! ## Effects one after another -/

section Effect

variable {σ : Type}

/-- One effect and then another, when there are both. -/
def andThen (first second : Option (σ → σ)) : Option (σ → σ) :=
  first.bind fun f => second.map (· ∘ f)

@[simp] theorem id_andThen (e : Option (σ → σ)) : andThen (some id) e = e := by
  cases e <;> rfl

@[simp] theorem none_andThen (e : Option (σ → σ)) : andThen none e = none := rfl

@[simp] theorem andThen_none (e : Option (σ → σ)) : andThen e none = none := by
  cases e <;> rfl

theorem andThen_id (e : Option (σ → σ)) : andThen e (some id) = e := by
  cases e <;> rfl

theorem andThen_assoc (e e' e'' : Option (σ → σ)) :
    andThen (andThen e e') e'' = andThen e (andThen e' e'') := by
  cases e <;> cases e' <;> cases e'' <;> rfl

end Effect

/-! ## Vocabularies -/

/-- **A vocabulary**: the keys of a kind of record, and what their fields do to what is read so far.
-/
structure Vocabulary (κ σ : Type) where
  /-- The keys and how they are spelled. -/
  table : List (String × κ)
  /-- The keys that take an integer, as they are spelled. -/
  integerKeys : List String
  /-- What is read from a record without fields. -/
  start : σ
  /-- One field more. -/
  add : σ → Field → Except Error σ
  /-- What a field of a key does, unless it is refused. -/
  act : κ → Field → Option (σ → σ)
  spelled_once : ∀ p ∈ table, ∀ q ∈ table, p.2 = q.2 → p.1 = q.1
  empty_not_mem : "" ∉ table.map Prod.fst
  add_check : ∀ s f, (add s f).map (fun _ => ()) = check integerKeys f
  add_of_none : ∀ s {f}, table.lookup f.key = none → add s f = .ok s
  toOption_add : ∀ s {f key}, table.lookup f.key = some key →
    (add s f).toOption = (act key f).map fun g => g s
  act_comm : ∀ {key key' f f' g g'}, key ≠ key' → act key f = some g → act key' f' = some g' →
    g' ∘ g = g ∘ g'
  act_absorb : ∀ {key f f' g g'}, act key f = some g → act key f' = some g' → g' ∘ g = g'

namespace Vocabulary

variable {κ σ : Type} (v : Vocabulary κ σ)

/-- The keys whose fields do something. -/
def keys : List String :=
  v.table.map Prod.fst

/-- **What is read from a record.** -/
def read (record : String) : Except Error σ :=
  (Field.read record).bind fun fields => fields.foldlM v.add v.start

/-- **What a field does**, unless it is refused: nothing where its key is none of the table. -/
def effect (f : Field) : Option (σ → σ) :=
  match v.table.lookup f.key with
  | none => some id
  | some key => v.act key f

theorem effect_of_lookup {f : Field} {key : κ} (h : v.table.lookup f.key = some key) :
    v.effect f = v.act key f := by
  rw [effect, h]

theorem effect_of_none {f : Field} (h : v.table.lookup f.key = none) : v.effect f = some id := by
  rw [effect, h]

theorem lookup_eq_none_iff {s : String} : v.table.lookup s = none ↔ s ∉ v.keys := by
  simp only [List.lookup_eq_none_iff, keys, List.mem_map, bne_iff_ne]
  exact ⟨fun h ⟨p, hp, hs⟩ => h p hp hs.symm, fun h p hp hs => h ⟨p, hp, hs.symm⟩⟩

/-- The table tells the spelling of a key. -/
theorem eq_of_lookup {s t : String} {key : κ} (hs : v.table.lookup s = some key)
    (ht : v.table.lookup t = some key) : s = t := by
  have hmem : ∀ {s}, v.table.lookup s = some key → (s, key) ∈ v.table := by
    intro s hs
    obtain ⟨before, after, htable, -⟩ := List.lookup_eq_some_iff.mp hs
    exact htable ▸ List.mem_append_right _ List.mem_cons_self
  exact v.spelled_once _ (hmem hs) _ (hmem ht) rfl

theorem toOption_add_eq_effect (s : σ) (f : Field) :
    (v.add s f).toOption = (v.effect f).map fun g => g s := by
  cases h : v.table.lookup f.key with
  | none => rw [v.add_of_none s h, v.effect_of_none h]; rfl
  | some key => rw [v.toOption_add s h, v.effect_of_lookup h]

/-- **Fields of different keys commute.** -/
theorem effect_comm {f f' : Field} {g g' : σ → σ} (hne : f.key ≠ f'.key) (hg : v.effect f = some g)
    (hg' : v.effect f' = some g') : g' ∘ g = g ∘ g' := by
  cases hkey : v.table.lookup f.key with
  | none =>
    obtain rfl : id = g := Option.some.inj ((v.effect_of_none hkey).symm.trans hg)
    rfl
  | some key =>
    cases hkey' : v.table.lookup f'.key with
    | none =>
      obtain rfl : id = g' := Option.some.inj ((v.effect_of_none hkey').symm.trans hg')
      rfl
    | some key' =>
      rw [v.effect_of_lookup hkey] at hg
      rw [v.effect_of_lookup hkey'] at hg'
      refine v.act_comm ?_ hg hg'
      rintro rfl
      exact hne (v.eq_of_lookup hkey hkey')

/-- **A field absorbs an earlier one** of its key. -/
theorem effect_absorb {f f' : Field} {g g' : σ → σ} (heq : f.key = f'.key)
    (hg : v.effect f = some g) (hg' : v.effect f' = some g') : g' ∘ g = g' := by
  cases hkey : v.table.lookup f.key with
  | none =>
    obtain rfl : id = g := Option.some.inj ((v.effect_of_none hkey).symm.trans hg)
    rfl
  | some key =>
    rw [v.effect_of_lookup hkey] at hg
    rw [v.effect_of_lookup (heq ▸ hkey)] at hg'
    exact v.act_absorb hg hg'

/-- A field that is accepted does something. -/
theorem exists_effect {f : Field} (h : check v.integerKeys f = .ok ()) :
    ∃ g, v.effect f = some g := by
  obtain ⟨s, hs, -⟩ := map_eq_ok_iff.mp ((v.add_check v.start f).trans h)
  have hadd := v.toOption_add_eq_effect v.start f
  rw [hs] at hadd
  obtain ⟨g, hg, -⟩ := Option.map_eq_some_iff.mp hadd.symm
  exact ⟨g, hg⟩

/-- What the parts of a text do: nothing where it is blank, else what its field does. -/
def partsEffect (ps : List (List Char)) : Option (σ → σ) :=
  if ps = [[]] then some id else (Field.ofParts? ps).bind v.effect

/-- **What a record does**: what its parts do, one after another. -/
def recordEffect (texts : List (List (List Char))) : Option (σ → σ) :=
  (texts.map v.partsEffect).foldr andThen (some id)

@[simp] theorem recordEffect_nil : v.recordEffect [] = some id := rfl

@[simp] theorem recordEffect_cons (ps : List (List Char)) (texts : List (List (List Char))) :
    v.recordEffect (ps :: texts) = andThen (v.partsEffect ps) (v.recordEffect texts) := rfl

theorem recordEffect_append (before after : List (List (List Char))) :
    v.recordEffect (before ++ after) =
      andThen (v.recordEffect before) (v.recordEffect after) := by
  induction before with
  | nil => rw [List.nil_append, recordEffect_nil, id_andThen]
  | cons ps before ih => rw [List.cons_append, recordEffect_cons, recordEffect_cons, ih,
      andThen_assoc]

/-- A field that cannot be read ends it, wherever the texts stand that can. -/
theorem toOption_ofTexts (record : String) (texts : List (List Char)) (s : σ) :
    ((Field.ofTexts record texts).bind fun fields => fields.foldlM v.add s).toOption =
      (v.recordEffect (texts.map parts)).map fun g => g s := by
  induction texts generalizing s with
  | nil => rfl
  | cons text rest ih =>
    rw [Field.ofTexts, List.map_cons, recordEffect_cons, partsEffect]
    by_cases hblank : isBlankText text = true
    · rw [if_pos hblank, if_pos (isBlankText_iff_parts.mp hblank), id_andThen, ih]
    · rw [if_neg hblank, if_neg fun h => hblank (isBlankText_iff_parts.mpr h),
        ← ofText?_eq_ofParts?]
      cases Field.ofText? text with
      | none => rfl
      | some f =>
        have hadd := v.toOption_add_eq_effect s f
        cases hstep : v.add s f with
        | error e =>
          rw [hstep] at hadd
          have heffect : v.effect f = none := Option.map_eq_none_iff.mp hadd.symm
          rw [Option.bind_some, heffect, none_andThen]
          cases Field.ofTexts record rest with
          | error _ => rfl
          | ok fields =>
            change ((f :: fields).foldlM v.add s).toOption = _
            rw [List.foldlM_cons, hstep]
            rfl
        | ok t =>
          rw [hstep] at hadd
          obtain ⟨g, hg, rfl⟩ := Option.map_eq_some_iff.mp hadd.symm
          have hrest := ih (g s)
          rw [Option.bind_some, hg]
          change _ = ((v.recordEffect (rest.map parts)).map (· ∘ g)).map _
          rw [Option.map_map]
          refine Eq.trans ?_ hrest
          cases Field.ofTexts record rest with
          | error _ => rfl
          | ok fields =>
            change ((f :: fields).foldlM v.add s).toOption = _
            rw [List.foldlM_cons, hstep]
            rfl

/-- **A record is read by doing what its parts do.** -/
theorem toOption_read (record : String) :
    (v.read record).toOption =
      (v.recordEffect (recordParts record.toList)).map fun g => g v.start :=
  v.toOption_ofTexts record _ v.start

/-! ## Parts of different keys, and of the same -/

variable {ps qs : List (List Char)}

/-- The key of a field is its first part. -/
theorem key_of_ofParts? {f : Field} (h : Field.ofParts? ps = some f) :
    f.key = String.ofList (ps.headD []) := by
  unfold Field.ofParts? at h
  split at h
  next key value more =>
    split at h
    · cases h
    · cases h
      rfl
  next => cases h

theorem key_eq_iff {f f' : Field} (h : Field.ofParts? ps = some f)
    (h' : Field.ofParts? qs = some f') : f.key = f'.key ↔ ps.headD [] = qs.headD [] := by
  rw [key_of_ofParts? h, key_of_ofParts? h', String.ofList_inj]

/-- **Parts of different keys may change places.** -/
theorem partsEffect_comm (h : ps.headD [] ≠ qs.headD []) :
    andThen (v.partsEffect ps) (v.partsEffect qs) =
      andThen (v.partsEffect qs) (v.partsEffect ps) := by
  unfold partsEffect
  split
  · rw [id_andThen, andThen_id]
  · split
    · rw [id_andThen, andThen_id]
    · cases hf : Field.ofParts? ps with
      | none => rw [Option.bind_none, none_andThen, andThen_none]
      | some f =>
        cases hf' : Field.ofParts? qs with
        | none => rw [Option.bind_none, none_andThen, andThen_none]
        | some f' =>
          rw [Option.bind_some, Option.bind_some]
          cases hg : v.effect f with
          | none => rw [none_andThen, andThen_none]
          | some g =>
            cases hg' : v.effect f' with
            | none => rw [none_andThen, andThen_none]
            | some g' =>
              have hkey : f.key ≠ f'.key := fun e => h ((key_eq_iff hf hf').mp e)
              exact congrArg some (v.effect_comm hkey hg hg')

/-- Parts with a key are those of no blank text. -/
theorem partsEffect_of_key (h : ps.headD [] ≠ []) :
    v.partsEffect ps = (Field.ofParts? ps).bind v.effect := by
  rw [partsEffect, if_neg]
  rintro rfl
  exact h rfl

/-- Parts of a key without effect do nothing. -/
theorem partsEffect_of_not_mem {f : Field} (hf : Field.ofParts? ps = some f)
    (h : f.key ∉ v.keys) : v.partsEffect ps = some id := by
  rw [partsEffect]
  split
  · rfl
  · rw [hf, Option.bind_some, v.effect_of_none (v.lookup_eq_none_iff.mpr h)]

/-- **Parts that are accepted** are absorbed by the next of their key. -/
theorem absorb_partsEffect {f : Field} {g : σ → σ} (hf : Field.ofParts? ps = some f)
    (hkeys : f.key ∈ v.keys) (hg : v.effect f = some g) (h : qs.headD [] = ps.headD []) :
    andThen (v.partsEffect ps) (v.partsEffect qs) = v.partsEffect qs := by
  have hne : ps.headD [] ≠ [] := by
    intro hnil
    rw [key_of_ofParts? hf, hnil] at hkeys
    exact v.empty_not_mem hkeys
  rw [v.partsEffect_of_key hne, v.partsEffect_of_key (h ▸ hne), hf, Option.bind_some, hg]
  cases hf' : Field.ofParts? qs with
  | none => rfl
  | some f' =>
    rw [Option.bind_some]
    cases hg' : v.effect f' with
    | none => rfl
    | some g' => exact congrArg some (v.effect_absorb ((key_eq_iff hf hf').mpr h.symm) hg hg')

/-- **Parts that are accepted do nothing** in front of texts one of which has their key. -/
theorem absorb_recordEffect {f : Field} {g : σ → σ} (hf : Field.ofParts? ps = some f)
    (hkeys : f.key ∈ v.keys) (hg : v.effect f = some g) {texts : List (List (List Char))}
    (h : ∃ qs ∈ texts, qs.headD [] = ps.headD []) :
    andThen (v.partsEffect ps) (v.recordEffect texts) = v.recordEffect texts := by
  -- on the way to the text of its key a field changes places with all others
  induction texts with
  | nil => simp at h
  | cons qs rest ih =>
    rw [recordEffect_cons, ← andThen_assoc]
    by_cases hkey : qs.headD [] = ps.headD []
    · rw [v.absorb_partsEffect hf hkeys hg hkey]
    · obtain ⟨rs, hrs, hrskey⟩ := h
      have hrest : rs ∈ rest := by
        refine List.mem_of_ne_of_mem ?_ hrs
        rintro rfl
        exact hkey hrskey
      rw [v.partsEffect_comm (Ne.symm hkey), andThen_assoc, ih ⟨rs, hrest, hrskey⟩]

end Vocabulary

end Stencil.Record

namespace Stencil

open Stencil.Record

/-! ## Channels -/

/-- Two channels of a colour are set in either order. -/
theorem Color.withChannel_comm {name name' : Canvas.ChannelName} (h : name ≠ name') (c : Color)
    (n n' : Int) :
    (c.withChannel name n).withChannel name' n' = (c.withChannel name' n').withChannel name n := by
  cases name <;> cases name' <;> first | rfl | exact absurd rfl h

/-- A channel of a colour is set for the last time. -/
theorem Color.withChannel_withChannel (name : Canvas.ChannelName) (c : Color) (n n' : Int) :
    (c.withChannel name n).withChannel name n' = c.withChannel name n' := by
  cases name <;> rfl

/-! ## The vocabulary of canvases -/

namespace Canvas

/-- Numbers of different keys are set in either order. -/
theorem Request.set_comm {key key' : Key} (h : key ≠ key') (r : Request) (n n' : Int) :
    (r.set n key).set n' key' = (r.set n' key').set n key := by
  cases key with
  | channel role name =>
    cases key' with
    | channel role' name' =>
      by_cases hrole : role = role'
      · subst hrole
        have hname : name ≠ name' := fun hname => h (hname ▸ rfl)
        cases role <;> simp only [set, Option.getD_some, Color.withChannel_comm hname]
      · cases role <;> cases role' <;> first | rfl | exact absurd rfl hrole
    | _ => cases role <;> rfl
  | _ =>
    cases key' with
    | channel role' name' => cases role' <;> rfl
    | _ => first | rfl | exact absurd rfl h

/-- A number is set for the last time. -/
theorem Request.set_set (key : Key) (r : Request) (n n' : Int) :
    (r.set n key).set n' key = r.set n' key := by
  cases key with
  | channel role name =>
    cases role <;> simp only [set, Option.getD_some, Color.withChannel_withChannel]
  | _ => rfl

/-- **The vocabulary of canvas records.** -/
def vocabulary : Vocabulary Key Request where
  table := Key.table
  integerKeys := integerKeys
  start := {}
  add := Request.add
  act key f := (integer f.key f.value).toOption.map fun n r => r.set n key
  spelled_once := by decide
  empty_not_mem := by decide
  add_check := Request.add_map_const
  add_of_none := by
    intro r f h
    rw [Request.add, show Key.ofText? f.key = none from h]
  toOption_add := by
    intro r f key h
    rw [Request.add, show Key.ofText? f.key = some key from h]
    cases integer f.key f.value <;> rfl
  act_comm := by
    intro key key' f f' g g' hne hg hg'
    obtain ⟨n, -, rfl⟩ := Option.map_eq_some_iff.mp hg
    obtain ⟨n', -, rfl⟩ := Option.map_eq_some_iff.mp hg'
    exact funext fun r => Request.set_comm hne r n n'
  act_absorb := by
    intro key f f' g g' hg hg'
    obtain ⟨n, -, rfl⟩ := Option.map_eq_some_iff.mp hg
    obtain ⟨n', -, rfl⟩ := Option.map_eq_some_iff.mp hg'
    exact funext fun r => Request.set_set key r n n'

/-- **The canvas of a record** is the one nearest to what its vocabulary reads. -/
theorem ofRecord_eq_read (record : String) :
    ofRecord record = (vocabulary.read record).map Request.canvas := by
  rw [ofRecord, Vocabulary.read]
  cases Field.read record with
  | error e => rfl
  | ok fields => exact congrArg (Except.map _) (Request.addAll_eq_foldlM {} fields)

end Canvas

/-! ## The vocabulary of stamps -/

namespace Stamp

/-- Numbers of different keys are set in either order. -/
theorem setNumber_comm {key key' : NumberKey} (h : key ≠ key') (s : Stamp) (n n' : Int) :
    (s.setNumber n key).setNumber n' key' = (s.setNumber n' key').setNumber n key := by
  cases key with
  | channel name =>
    cases key' with
    | channel name' =>
      have hname : name ≠ name' := fun hname => h (hname ▸ rfl)
      simp only [setNumber, Color.withChannel_comm hname]
    | _ => rfl
  | _ => cases key' <;> first | rfl | exact absurd rfl h

/-- A number is set for the last time. -/
theorem setNumber_setNumber (key : NumberKey) (s : Stamp) (n n' : Int) :
    (s.setNumber n key).setNumber n' key = s.setNumber n' key := by
  cases key with
  | channel name => simp only [setNumber, Color.withChannel_withChannel]
  | _ => rfl

/-- What a field of a stamp record does, given its key. -/
def act (key : Key) (f : Field) : Option (Stamp → Stamp) :=
  match key with
  | .shape => some fun s => s.withShape f.value f.plain_value_ne
  | .filled => some fun s => { s with filled := f.value != "false" }
  | .number key => (integer f.key f.value).toOption.map fun n s => s.setNumber n key

theorem act_number_eq_some_iff {key : NumberKey} {f : Field} {g : Stamp → Stamp} :
    act (.number key) f = some g ↔
      ∃ n, integer f.key f.value = .ok n ∧ g = fun s => s.setNumber n key := by
  rw [act]
  cases integer f.key f.value <;> simp [Except.toOption, eq_comm]

/-- The shape and the filling are set beside a number. -/
theorem setNumber_withShape (key : NumberKey) (s : Stamp) (n : Int) (shape : Text.Loose)
    (h : shape ≠ .plain "") :
    (s.withShape shape h).setNumber n key = (s.setNumber n key).withShape shape h := by
  cases key <;> rfl

theorem setNumber_filled (key : NumberKey) (s : Stamp) (n : Int) (filled : Bool) :
    ({ s with filled := filled } : Stamp).setNumber n key =
      { s.setNumber n key with filled := filled } := by
  cases key <;> rfl

/-- **The vocabulary of stamp records.** -/
def vocabulary : Vocabulary Key Stamp where
  table := Key.table
  integerKeys := integerKeys
  start := plain
  add := add
  act := act
  spelled_once := by decide
  empty_not_mem := by decide
  add_check := add_map_const
  add_of_none := by
    intro s f h
    rw [add, show Key.ofText? f.key = none from h]
  toOption_add := by
    intro s f key h
    rw [add, show Key.ofText? f.key = some key from h]
    cases key with
    | shape => rfl
    | filled => rfl
    | number key =>
      rw [act]
      cases integer f.key f.value <;> rfl
  act_comm := by
    intro key key' f f' g g' hne hg hg'
    funext s
    cases key with
    | number key =>
      obtain ⟨n, -, rfl⟩ := act_number_eq_some_iff.mp hg
      cases key' with
      | number key' =>
        obtain ⟨n', -, rfl⟩ := act_number_eq_some_iff.mp hg'
        exact setNumber_comm (fun h => hne (congrArg Key.number h)) s n n'
      | shape => cases hg'; exact (setNumber_withShape key s n _ _).symm
      | filled => cases hg'; exact (setNumber_filled key s n _).symm
    | shape =>
      cases hg
      cases key' with
      | number key' =>
        obtain ⟨n', -, rfl⟩ := act_number_eq_some_iff.mp hg'
        exact setNumber_withShape key' s n' _ _
      | shape => exact absurd rfl hne
      | filled => cases hg'; rfl
    | filled =>
      cases hg
      cases key' with
      | number key' =>
        obtain ⟨n', -, rfl⟩ := act_number_eq_some_iff.mp hg'
        exact setNumber_filled key' s n' _
      | shape => cases hg'; rfl
      | filled => exact absurd rfl hne
  act_absorb := by
    intro key f f' g g' hg hg'
    funext s
    cases key with
    | number key =>
      obtain ⟨n, -, rfl⟩ := act_number_eq_some_iff.mp hg
      obtain ⟨n', -, rfl⟩ := act_number_eq_some_iff.mp hg'
      exact setNumber_setNumber key s n n'
    | shape => cases hg; cases hg'; rfl
    | filled => cases hg; cases hg'; rfl

/-- **The stamp of a record** is what its vocabulary reads. -/
theorem ofRecord_eq_read (record : String) : ofRecord record = vocabulary.read record :=
  ofRecord_eq_foldlM record

end Stamp

end Stencil
