import Stencil.Proofs.Record.Written

/-!
# Proofs/Record/Canvas — the record of a canvas

A canvas `IsWritable` when its sizes fit 32 bits.  Then it is read back from its record
(`ofRecord_toRecord`), whichever of its three colours it has; and whatever record a canvas is read
from, it is writable (`isWritable_of_ofRecord`).
-/

namespace Stencil.Canvas

open Stencil.Text Stencil.Record

/-- **A canvas that can be written and read back.** -/
def IsWritable (c : Canvas) : Prop :=
  (c.width : Int) ≤ maxInteger ∧ (c.height : Int) ≤ maxInteger

instance (c : Canvas) : Decidable c.IsWritable :=
  inferInstanceAs (Decidable (_ ∧ _))

/-- The fields that the record of a canvas writes. -/
def fields (c : Canvas) : List Field :=
  [.number "width" c.width, .number "height" c.height] ++
    (c.solid?.toList.flatMap (Field.channels "red" "green" "blue")) ++
    (c.start?.toList.flatMap (Field.channels "gradstartred" "gradstartgreen" "gradstartblue")) ++
    (c.finish?.toList.flatMap (Field.channels "gradendred" "gradendgreen" "gradendblue")) ++
    [.number "graddir" c.direction.code]

/-- So are those of a colour that may be absent. -/
theorem forall₂_writes_channels? {red green blue red' green' blue' : String}
    (hred : Spells red red') (hgreen : Spells green green') (hblue : Spells blue blue')
    (color : Option Color) :
    List.Forall₂ Writes (color.toList.flatMap (colorFields red green blue))
      (color.toList.flatMap (Field.channels red' green' blue')) := by
  cases color with
  | none => exact .nil
  | some c => simpa using forall₂_writes_channels hred hgreen hblue c

theorem forall₂_writes_fields (c : Canvas) : List.Forall₂ Writes c.recordFields c.fields := by
  refine List.rel_append (List.rel_append (List.rel_append (List.rel_append ?_ ?_) ?_) ?_) ?_
  · exact .cons (writes_number (by decide) _) (.cons (writes_number (by decide) _) .nil)
  · exact forall₂_writes_channels? (by decide) (by decide) (by decide) _
  · exact forall₂_writes_channels? (by decide) (by decide) (by decide) _
  · exact forall₂_writes_channels? (by decide) (by decide) (by decide) _
  · exact .cons (writes_number (by decide) _) .nil

/-- A field that gives a number of 32 bits sets it. -/
theorem Request.addAll_number {r : Request} {name : String} {key : Key} {n : Int}
    (hkey : Key.ofText? name = some key) (hn : InRange n) (rest : List Field) :
    r.addAll (.number name n :: rest) = (r.set n key).addAll rest := by
  have hadd : r.add (.number name n) = .ok (r.set n key) := by
    unfold Request.add
    rw [show Key.ofText? (Field.number name n).key = some key from hkey]
    change (integer name (Decimal.intText n)).map _ = _
    rw [integer_intText hn]
    rfl
  rw [Request.addAll, hadd]
  rfl

/-- The request with all channels of a colour set, where there is one. -/
def Request.paint (r : Request) (role : Role) : Option Color → Request
  | none => r
  | some c =>
    ((r.set c.red.val (.channel role .red)).set c.green.val (.channel role .green)).set c.blue.val
      (.channel role .blue)

/-- The fields of a colour set all its channels. -/
theorem Request.addAll_channels {r : Request} {role : Role} {red green blue : String}
    (hred : Key.ofText? red = some (.channel role .red))
    (hgreen : Key.ofText? green = some (.channel role .green))
    (hblue : Key.ofText? blue = some (.channel role .blue)) (color : Option Color)
    (rest : List Field) :
    r.addAll (color.toList.flatMap (Field.channels red green blue) ++ rest) =
      (r.paint role color).addAll rest := by
  cases color with
  | none => rfl
  | some c =>
    change r.addAll (.number red _ :: .number green _ :: .number blue _ :: rest) = _
    rw [addAll_number hred (inRange_channel c.red), addAll_number hgreen (inRange_channel c.green),
      addAll_number hblue (inRange_channel c.blue), paint]

/-- **The fields of a canvas ask for its own parts.** -/
theorem addAll_fields {c : Canvas} (h : c.IsWritable) :
    ({} : Request).addAll c.fields =
      .ok ⟨c.width, c.height, c.direction.code, c.solid?, c.start?, c.finish?⟩ := by
  have hwidth : InRange c.width := ⟨by simp only [minInteger]; omega, h.1⟩
  have hheight : InRange c.height := ⟨by simp only [minInteger]; omega, h.2⟩
  have hcode : InRange c.direction.code := by cases c.direction <;> decide
  simp only [fields, List.append_assoc, List.cons_append, List.nil_append]
  rw [Request.addAll_number rfl hwidth, Request.addAll_number rfl hheight,
    Request.addAll_channels rfl rfl rfl, Request.addAll_channels rfl rfl rfl,
    Request.addAll_channels rfl rfl rfl, Request.addAll_number rfl hcode, Request.addAll]
  simp only [solid?, start?, finish?]
  cases c.ground with
  | solid color =>
    simp [Request.paint, Request.set, Color.withChannel, Ground.solid?, Ground.start?,
      Ground.finish?]
  | gradient start finish beneath differ =>
    cases beneath <;>
      simp [Request.paint, Request.set, Color.withChannel, Ground.solid?, Ground.start?,
        Ground.finish?]

/-- **A writable canvas is read back from its record.** -/
theorem ofRecord_toRecord {c : Canvas} (h : c.IsWritable) : ofRecord c.toRecord = .ok c := by
  rw [ofRecord, toRecord, read_ofFields c.forall₂_writes_fields (by simp [recordFields])]
  change (({} : Request).addAll c.fields).map _ = _
  rw [addAll_fields h]
  exact congrArg Except.ok c.make_self

/-- The record of a canvas is a trimmed text of one line. -/
theorem isLine_toRecord (c : Canvas) : IsLine c.toRecord.toList := by
  refine isLine_ofFields c.forall₂_writes_fields ?_
  intro f hf
  simp only [fields, List.mem_append, List.mem_flatMap, List.mem_cons, List.not_mem_nil,
    or_false] at hf
  rcases hf with
    ((((rfl | rfl) | ⟨color, -, hf⟩) | ⟨color, -, hf⟩) | ⟨color, -, hf⟩) | rfl
  · exact isLine_number _ _
  · exact isLine_number _ _
  · exact isLine_of_mem_channels hf
  · exact isLine_of_mem_channels hf
  · exact isLine_of_mem_channels hf
  · exact isLine_number _ _

theorem isTrimmed_toRecord (c : Canvas) : IsTrimmed c.toRecord.toList ∧ c.toRecord ≠ "" :=
  isTrimmed_ofFields c.forall₂_writes_fields (by simp [recordFields])

/-- A field leaves the request as it is or sets one number of 32 bits. -/
theorem Request.add_cases {r r' : Request} {f : Field} (h : r.add f = .ok r') :
    r' = r ∨ ∃ key n, InRange n ∧ r' = r.set n key := by
  unfold add at h
  split at h
  next => exact Or.inl (Except.ok.inj h).symm
  next key _ =>
    obtain ⟨n, hn, hset⟩ := map_eq_ok_iff.mp h
    exact Or.inr ⟨key, n, integer_mem_range hn, hset.symm⟩

/-- **A record asks for sizes of 32 bits.** -/
theorem inRange_of_addAll {r : Request} {fields : List Field}
    (h : ({} : Request).addAll fields = .ok r) : InRange r.width ∧ InRange r.height := by
  rw [Request.addAll_eq_foldlM] at h
  refine foldlM_keeps (P := fun r => InRange r.width ∧ InRange r.height) ?_ (by decide) h
  intro r r' f _ hr hadd
  obtain rfl | ⟨key, n, hn, rfl⟩ := Request.add_cases hadd
  · exact hr
  · match key with
    | .width => exact ⟨hn, hr.2⟩
    | .height => exact ⟨hr.1, hn⟩
    | .direction => exact hr
    | .channel .solid _ => exact hr
    | .channel .start _ => exact hr
    | .channel .finish _ => exact hr

/-- A size of 32 bits stays one when it is lifted. -/
theorem lift_le {n : Int} (hn : InRange n) : ((max 1 n).toNat : Int) ≤ maxInteger := by
  obtain ⟨-, hle⟩ := hn
  simp only [maxInteger] at *
  omega

/-- **Every record is read as a writable canvas.** -/
theorem isWritable_of_ofRecord {record : String} {c : Canvas} (h : ofRecord record = .ok c) :
    c.IsWritable := by
  obtain ⟨fields, -, hcanvas⟩ := bind_eq_ok_iff.mp h
  obtain ⟨r, hadd, rfl⟩ := map_eq_ok_iff.mp hcanvas
  obtain ⟨hwidth, hheight⟩ := inRange_of_addAll hadd
  exact ⟨lift_le hwidth, lift_le hheight⟩

end Stencil.Canvas
