import Stencil.Proofs.Record.Vocabulary

/-!
# Proofs/Record/Request — what a canvas record asks for, and the canvas it gets

    fields ──last number of each key──▸ sizes, direction, three colours ──▸ Canvas.make ──▸ canvas

Of all fields with one key the last one counts (`lastNumber?`), and a colour is asked for as soon as
one of its keys occurs; its other channels are full (`color?`).  `asked` is the request of a whole
list of fields, and one field more sets what its key stands for (`asked_concat`).

What becomes of a request is `Canvas.IsNormal`: sizes from one up, a direction that there is, and a
ground that is either a gradient between two different colours or plain, never neither.
-/

namespace Stencil

open Stencil.Record

/-! ## The last number of a key -/

namespace Record

/-- **The number that counts for a key**: that of its last field. -/
def lastNumber? (fields : List Field) (key : String) : Option Int :=
  (fields.reverse.find? fun f => f.key == key).bind fun f => (integer f.key f.value).toOption

section LastNumber

variable {fields : List Field} {f : Field} {key : String} {n : Int}

theorem lastNumber?_concat_of_ne (h : f.key ≠ key) :
    lastNumber? (fields ++ [f]) key = lastNumber? fields key := by
  simp [lastNumber?, h]

theorem lastNumber?_concat (hn : integer f.key f.value = .ok n) :
    lastNumber? (fields ++ [f]) f.key = some n := by
  simp [lastNumber?, hn, Except.toOption]

theorem lastNumber?_of_not_mem (h : ∀ f ∈ fields, f.key ≠ key) : lastNumber? fields key = none := by
  have hnone : (fields.reverse.find? fun f => f.key == key) = none := by simpa using h
  rw [lastNumber?, hnone]
  rfl

end LastNumber

end Record

namespace Canvas

/-- The keys of a colour. -/
def Role.key : Role → ChannelName → String
  | .solid, .red => "red"
  | .solid, .green => "green"
  | .solid, .blue => "blue"
  | .start, .red => "gradstartred"
  | .start, .green => "gradstartgreen"
  | .start, .blue => "gradstartblue"
  | .finish, .red => "gradendred"
  | .finish, .green => "gradendgreen"
  | .finish, .blue => "gradendblue"

theorem Role.ofText?_key (role : Role) (name : ChannelName) :
    Key.ofText? (role.key name) = some (.channel role name) := by
  cases role <;> cases name <;> rfl

/-- Only its own spelling gives a key. -/
theorem Key.eq_of_ofText? {s t : String} {key : Key} (hs : Key.ofText? s = some key)
    (ht : Key.ofText? t = some key) : s = t :=
  vocabulary.eq_of_lookup hs ht

theorem Key.ne_of_ofText? {s t : String} {key : Key} (hs : Key.ofText? s ≠ some key)
    (ht : Key.ofText? t = some key) : s ≠ t :=
  fun h => hs (h ▸ ht)

/-! ## The colours that are asked for -/

/-- **The colour that some fields ask for** under three keys, if one of these occurs: each channel
is the last number of its key, brought into range, or full. -/
def color? (fields : List Field) (key : ChannelName → String) : Option Color :=
  if ∃ f ∈ fields, f.key = key .red ∨ f.key = key .green ∨ f.key = key .blue then
    some (Color.ofInts ((lastNumber? fields (key .red)).getD 255)
      ((lastNumber? fields (key .green)).getD 255) ((lastNumber? fields (key .blue)).getD 255))
  else none

section Colors

variable {fields : List Field} {f : Field} {key : ChannelName → String} {n : Int}

theorem color?_concat_of_ne (h : ∀ name, f.key ≠ key name) :
    color? (fields ++ [f]) key = color? fields key := by
  simp only [color?, lastNumber?_concat_of_ne (h _)]
  refine if_congr ?_ rfl rfl
  simp [h]

/-- The channels of a colour that is not asked for are full. -/
theorem getD_color? (fields : List Field) (key : ChannelName → String) :
    (color? fields key).getD Color.white =
      Color.ofInts ((lastNumber? fields (key .red)).getD 255)
        ((lastNumber? fields (key .green)).getD 255)
        ((lastNumber? fields (key .blue)).getD 255) := by
  rw [color?]
  split
  next => rfl
  next h =>
    have hnone (name : ChannelName) : lastNumber? fields (key name) = none :=
      lastNumber?_of_not_mem fun f hf heq => h ⟨f, hf, by cases name <;> simp [heq]⟩
    rw [hnone, hnone, hnone]
    rfl

/-- A field sets one channel of the colour. -/
theorem color?_concat (fields : List Field) (hkey : Function.Injective key) {name : ChannelName}
    (hf : f.key = key name) (hn : integer f.key f.value = .ok n) :
    color? (fields ++ [f]) key =
      some (((color? fields key).getD Color.white).withChannel name n) := by
  have hlast : lastNumber? (fields ++ [f]) (key name) = some n := hf ▸ lastNumber?_concat hn
  have hother (other : ChannelName) (h : other ≠ name) :
      lastNumber? (fields ++ [f]) (key other) = lastNumber? fields (key other) :=
    lastNumber?_concat_of_ne fun heq => h (hkey (heq.symm.trans hf))
  rw [color?, if_pos ⟨f, by simp, by cases name <;> simp [hf]⟩, getD_color?]
  cases name <;> simp [hlast, hother, Color.withChannel, Color.ofInts]

end Colors

/-! ## The request of some fields -/

/-- **What some fields ask for.** -/
def asked (fields : List Field) : Request where
  width := (lastNumber? fields "width").getD 100
  height := (lastNumber? fields "height").getD 100
  direction := (lastNumber? fields "graddir").getD 0
  solid := color? fields (Role.key .solid)
  start := color? fields (Role.key .start)
  finish := color? fields (Role.key .finish)

section Asked

variable {fields : List Field} {f : Field} {r : Request} {t : String} {key key' : Key} {role : Role}
  {n : Int}

/-- A field with a key sets the number of that key. -/
theorem lastNumber?_concat_of_key (fields : List Field) (hf : Key.ofText? f.key = some key)
    (hn : integer f.key f.value = .ok n) (ht : Key.ofText? t = some key') :
    lastNumber? (fields ++ [f]) t = if key = key' then some n else lastNumber? fields t := by
  split
  next h =>
    obtain rfl : f.key = t := Key.eq_of_ofText? hf (h ▸ ht)
    exact lastNumber?_concat hn
  next h =>
    have hne : Key.ofText? f.key ≠ some key' := fun h' => h (Option.some.inj (hf.symm.trans h'))
    exact lastNumber?_concat_of_ne (Key.ne_of_ofText? hne ht)

theorem color?_concat_of_key (hne : ∀ name, Key.ofText? f.key ≠ some (.channel role name)) :
    color? (fields ++ [f]) role.key = color? fields role.key :=
  color?_concat_of_ne fun name => Key.ne_of_ofText? (hne name) (role.ofText?_key name)

theorem Role.key_injective (role : Role) : Function.Injective role.key := by
  intro name name' h
  have hkey := role.ofText?_key name
  rw [h, role.ofText?_key name', Option.some.injEq, Key.channel.injEq] at hkey
  exact hkey.2.symm

/-- A field of an unknown key asks for nothing. -/
theorem asked_concat_of_none (hf : Key.ofText? f.key = none) :
    asked (fields ++ [f]) = asked fields := by
  have hne (key : Key) : Key.ofText? f.key ≠ some key := by rw [hf]; exact nofun
  have hnumber {t : String} {key : Key} (ht : Key.ofText? t = some key) :
      lastNumber? (fields ++ [f]) t = lastNumber? fields t :=
    lastNumber?_concat_of_ne (Key.ne_of_ofText? (hne key) ht)
  rw [asked, hnumber (t := "width") rfl, hnumber (t := "height") rfl, hnumber (t := "graddir") rfl,
    color?_concat_of_key fun _ => hne _, color?_concat_of_key fun _ => hne _,
    color?_concat_of_key fun _ => hne _, asked]

/-- **A field sets what its key stands for.** -/
theorem asked_concat (hf : Key.ofText? f.key = some key) (hn : integer f.key f.value = .ok n) :
    asked (fields ++ [f]) = (asked fields).set n key := by
  have hcolor {role : Role} (hne : ∀ name, key ≠ .channel role name) :
      color? (fields ++ [f]) role.key = color? fields role.key :=
    color?_concat_of_key fun name h => hne name (Option.some.inj (hf.symm.trans h))
  have hwidth := lastNumber?_concat_of_key fields (t := "width") hf hn rfl
  have hheight := lastNumber?_concat_of_key fields (t := "height") hf hn rfl
  have hdirection := lastNumber?_concat_of_key fields (t := "graddir") hf hn rfl
  cases key with
  | channel role name =>
    have hset := color?_concat fields role.key_injective
      (Key.eq_of_ofText? hf (role.ofText?_key name)) hn
    cases role <;> simp [asked, Request.set, hwidth, hheight, hdirection, hcolor, hset]
  | _ => simp [asked, Request.set, hwidth, hheight, hdirection, hcolor]

/-- **The fields of a record are read as what they ask for**, from any of them on. -/
theorem eq_asked_of_addAll (before : List Field) {rest : List Field}
    (h : (asked before).addAll rest = .ok r) :
    r = asked (before ++ rest) ∧ ∀ f ∈ rest, Key.ofText? f.key ≠ none →
      ∃ n, integer f.key f.value = .ok n := by
  -- On the fields that are left: what is read so far is always what those before ask for.
  induction rest generalizing before with
  | nil => exact ⟨by rw [List.append_nil]; exact (Except.ok.inj h).symm, nofun⟩
  | cons f rest ih =>
    rw [Request.addAll] at h
    obtain ⟨r', hadd, hrest⟩ := bind_eq_ok_iff.mp h
    have hstep : r' = asked (before ++ [f]) ∧
        (Key.ofText? f.key ≠ none → ∃ n, integer f.key f.value = .ok n) := by
      rw [Request.add] at hadd
      split at hadd
      next hf => exact ⟨(Except.ok.inj hadd).symm.trans (asked_concat_of_none hf).symm, absurd hf⟩
      next key hf =>
        obtain ⟨n, hn, rfl⟩ := map_eq_ok_iff.mp hadd
        exact ⟨(asked_concat hf hn).symm, fun _ => ⟨n, hn⟩⟩
    obtain ⟨rfl, hf⟩ := hstep
    obtain ⟨hr, hall⟩ := ih _ hrest
    exact ⟨by rw [hr, List.append_assoc]; rfl, List.forall_mem_cons.mpr ⟨hf, hall⟩⟩

end Asked

/-! ## Normal canvases -/

/-- The colour of three numbers, each brought into range. -/
def clamped (t : Int × Int × Int) : Color :=
  Color.ofInts t.1 t.2.1 t.2.2

/-- **The canvas that is made of any numbers and colours.** -/
structure IsNormal (c : Canvas) (width height direction : Int) (solid start finish : Option Color) :
    Prop where
  /-- A size below one is lifted to one. -/
  width : (c.width : Int) = max 1 width
  height : (c.height : Int) = max 1 height
  /-- A direction that is none is the first one. -/
  direction : (c.direction.code : Int) = if 0 ≤ direction ∧ direction ≤ 3 then direction else 0
  /-- A gradient has both its ends, and a plain canvas has none. -/
  ends : c.start?.isSome = c.isGradient ∧ c.finish?.isSome = c.isGradient
  isGradient_iff : c.isGradient = true ↔ ∃ s f, start = some s ∧ finish = some f ∧ s ≠ f
  /-- A gradient has the colours that were asked for. -/
  gradient : c.isGradient = true → c.start? = start ∧ c.finish? = finish ∧ c.solid? = solid
  /-- Without a gradient a lone end, or a common one, goes before the plain colour, and that before
  white. -/
  plain : c.isGradient = false → c.solid? = some (((start.or finish).or solid).getD Color.white)
  /-- Made of its own parts it is the same canvas. -/
  rebuilt : make c.width c.height c.solid? c.start? c.finish? c.direction.code = c

theorem code_ofInt (n : Int) :
    ((Direction.ofInt n).code : Int) = if 0 ≤ n ∧ n ≤ 3 then n else 0 := by
  unfold Direction.ofInt
  split_ifs <;> simp only [Direction.code] <;> omega

section Ground

variable (solid start finish : Option Color)

/-- A ground is a gradient between two ends that differ, or the first colour there is. -/
theorem choose_cases :
    (∃ s f, ∃ h : s ≠ f, start = some s ∧ finish = some f ∧
      Ground.choose solid start finish = .gradient s f solid h) ∨
    (¬∃ s f, start = some s ∧ finish = some f ∧ s ≠ f) ∧
      Ground.choose solid start finish =
        .solid (((start.or finish).or solid).getD Color.white) := by
  cases start with
  | none => cases finish <;> exact .inr ⟨by simp, rfl⟩
  | some s =>
    cases finish with
    | none => exact .inr ⟨by simp, rfl⟩
    | some f =>
      by_cases h : s = f
      · exact .inr ⟨by simp [h], by simp [Ground.choose, h]⟩
      · exact .inl ⟨s, f, h, rfl, rfl, by simp [Ground.choose, h]⟩

theorem isSome_start?_choose_iff :
    (Ground.choose solid start finish).start?.isSome = true ↔
      ∃ s f, start = some s ∧ finish = some f ∧ s ≠ f := by
  obtain ⟨s, f, hdiffer, rfl, rfl, hchoose⟩ | ⟨hnone, hchoose⟩ := choose_cases solid start finish
  · simp [hchoose, Ground.start?, hdiffer]
  · simpa [hchoose, Ground.start?] using hnone

theorem parts_choose_of_isSome (h : (Ground.choose solid start finish).start?.isSome = true) :
    (Ground.choose solid start finish).start? = start ∧
      (Ground.choose solid start finish).finish? = finish ∧
      (Ground.choose solid start finish).solid? = solid := by
  obtain ⟨s, f, hdiffer, rfl, rfl, hchoose⟩ | ⟨-, hchoose⟩ := choose_cases solid start finish
  · rw [hchoose]
    exact ⟨rfl, rfl, rfl⟩
  · rw [hchoose] at h
    cases h

theorem solid?_choose_of_not_isSome (h : (Ground.choose solid start finish).start?.isSome = false) :
    (Ground.choose solid start finish).solid? =
      some (((start.or finish).or solid).getD Color.white) := by
  obtain ⟨s, f, hdiffer, rfl, rfl, hchoose⟩ | ⟨-, hchoose⟩ := choose_cases solid start finish
  · rw [hchoose] at h
    cases h
  · rw [hchoose]
    rfl

end Ground

/-- A ground has both ends of a gradient or none. -/
theorem isSome_finish? (c : Canvas) : c.finish?.isSome = c.isGradient := by
  rw [isGradient, finish?, start?]
  cases c.ground <;> rfl

/-- **Whatever a canvas is made of**, it is normal. -/
theorem isNormal_make (width height direction : Int) (solid start finish : Option Color) :
    (make width height solid start finish direction).IsNormal width height direction solid start
      finish where
  width := Int.toNat_of_nonneg (by omega)
  height := Int.toNat_of_nonneg (by omega)
  direction := code_ofInt direction
  ends := ⟨rfl, isSome_finish? _⟩
  isGradient_iff := isSome_start?_choose_iff solid start finish
  gradient := parts_choose_of_isSome solid start finish
  plain := solid?_choose_of_not_isSome solid start finish
  rebuilt := make_self _

/-- The number of a key that occurs is that of one of its fields. -/
theorem exists_lastNumber? {fields : List Field} {f : Field} (hf : f ∈ fields)
    (hall : ∀ g ∈ fields, g.key = f.key → ∃ n, integer g.key g.value = .ok n) :
    ∃ n, lastNumber? fields f.key = some n := by
  have hfind : (fields.reverse.find? fun g => g.key == f.key).isSome := by
    rw [List.find?_isSome]
    exact ⟨f, List.mem_reverse.mpr hf, beq_self_eq_true _⟩
  obtain ⟨g, hg⟩ := Option.isSome_iff_exists.mp hfind
  obtain ⟨n, hn⟩ := hall g (List.mem_reverse.mp (List.mem_of_find?_eq_some hg))
    (by simpa using List.find?_some hg)
  exact ⟨n, by rw [lastNumber?, hg]; simp [hn, Except.toOption]⟩

/-- **A canvas is made in its normal form**, from any numbers and from any colours, whose channels
are clamped first.  So is the canvas of every record that is read: the last number of each key
counts, and a colour is asked for when one of its keys occurs. -/
theorem isNormal_make_ofRecord :
    (∀ (width height direction : Int) (solid start finish : Option (Int × Int × Int)),
      (make width height (solid.map clamped) (start.map clamped)
        (finish.map clamped) direction).IsNormal width height direction
          (solid.map clamped) (start.map clamped) (finish.map clamped)) ∧
    ∀ (record : String) (c : Canvas), ofRecord record = .ok c →
      ∃ fields, Field.read record = .ok fields ∧
        (∀ f ∈ fields, f.key ∈ integerKeys → ∃ n, lastNumber? fields f.key = some n) ∧
        c.IsNormal ((lastNumber? fields "width").getD 100) ((lastNumber? fields "height").getD 100)
          ((lastNumber? fields "graddir").getD 0) (color? fields (Role.key .solid))
          (color? fields (Role.key .start)) (color? fields (Role.key .finish)) := by
  refine ⟨fun _ _ _ _ _ _ => isNormal_make _ _ _ _ _ _, fun record c h => ?_⟩
  obtain ⟨fields, hread, hcanvas⟩ := bind_eq_ok_iff.mp h
  obtain ⟨r, hadd, rfl⟩ := map_eq_ok_iff.mp hcanvas
  obtain ⟨rfl, hall⟩ := eq_asked_of_addAll [] hadd
  refine ⟨fields, hread, fun f hf hkey => exists_lastNumber? hf fun g hg heq => hall g hg ?_,
    isNormal_make _ _ _ _ _ _⟩
  exact fun hnone => Key.ofText?_eq_none_iff.mp hnone (heq ▸ hkey)

/-- The ends of a gradient that are the same once they are clamped, before a plain colour. -/
theorem isNormal_make_ofRecord_sameEnds :
    ∃ c, ofRecord "red=7, gradStartRed=300, gradEndRed=5, gradEndRed=255, gradDir=9" = .ok c ∧
      c.solid? = some Color.white ∧ c.direction.code = 0 := by
  have hread : (ofRecord
      "red=7, gradStartRed=300, gradEndRed=5, gradEndRed=255, gradDir=9").toOption.isSome := by
    decide +kernel
  have hasked : ((Field.read
      "red=7, gradStartRed=300, gradEndRed=5, gradEndRed=255, gradDir=9").toOption.map
        fun fields => (lastNumber? fields "graddir", color? fields (Role.key .start),
          color? fields (Role.key .finish))) =
      some (some 9, some Color.white, some Color.white) := by
    decide +kernel
  obtain ⟨c, hc⟩ := Option.isSome_iff_exists.mp hread
  have hc := toOption_eq_some_iff.mp hc
  obtain ⟨fields, hfields, -, hnormal⟩ := isNormal_make_ofRecord.2 _ c hc
  rw [hfields] at hasked
  simp only [Except.toOption, Option.map_some, Option.some.injEq, Prod.mk.injEq] at hasked
  obtain ⟨hdirection, hstart, hfinish⟩ := hasked
  rw [hdirection, hstart, hfinish] at hnormal
  have hplain : c.isGradient = false := by
    rw [← Bool.not_eq_true, hnormal.isGradient_iff]
    rintro ⟨s, f, hs, hf, hne⟩
    exact hne (Option.some.inj (hs.symm.trans hf))
  exact ⟨c, hc, hnormal.plain hplain, by simpa using hnormal.direction⟩

end Canvas

end Stencil
