import Stencil.Proofs.Record.Name
import Stencil.Proofs.Record.Written
import Stencil.Record.Stamp

/-!
# Proofs/Record/Stamp — the record of a stamp

A stamp `IsWritable` when its numbers fit 32 bits, no fixed coordinate is the number that stands for
a random one, and its shape has a name that is its own normal form and holds neither separator nor
line end.  If the name is a plain text as well, so is the record (`record_eq`), and the stamp is
read back from it (`ofRecord_toRecord`); and whatever record of one line a stamp is read from, it is
writable and has a plain name (`isWritable_of_ofRecord`).  Its numbers fit 32 bits whatever the
record is (`isNarrow_of_ofRecord`).
-/

namespace Stencil

open Stencil.Text Stencil.Record

/-- **A coordinate that can be written and read back**: no fixed one is taken for a random one. -/
def Coordinate.IsWritable : Coordinate → Prop
  | fixed n => minInteger < n ∧ n ≤ maxInteger
  | random => True

instance : (c : Coordinate) → Decidable c.IsWritable
  | .fixed _ => inferInstanceAs (Decidable (_ ∧ _))
  | .random => inferInstanceAs (Decidable True)

/-- A writable coordinate is given by its number, which has 32 bits. -/
theorem Coordinate.IsWritable.ofRaw_raw {c : Coordinate} (h : c.IsWritable) :
    InRange c.raw ∧ Coordinate.ofRaw c.raw = c := by
  rw [Coordinate.ofRaw_raw]
  cases c with
  | fixed n =>
    obtain ⟨hlow, hhigh⟩ : minInteger < n ∧ n ≤ maxInteger := h
    refine ⟨⟨Int.le_of_lt hlow, hhigh⟩, ?_⟩
    intro hn
    obtain rfl := Coordinate.fixed.inj hn
    exact absurd hlow (by decide)
  | random => exact ⟨by decide, nofun⟩

/-- Every number of 32 bits gives a writable coordinate. -/
theorem Coordinate.isWritable_ofRaw {n : Int} (hn : InRange n) :
    (Coordinate.ofRaw n).IsWritable := by
  rw [Coordinate.ofRaw]
  split
  next => trivial
  next hne => exact ⟨Int.lt_iff_le_and_ne.mpr ⟨hn.1, Ne.symm hne⟩, hn.2⟩

namespace Stamp

/-- **A stamp that can be written and read back.** -/
structure IsWritable (s : Stamp) : Prop where
  /-- The name is its own normal form, without commas and equals signs. -/
  shape_clean : s.shape.IsClean
  /-- It has no line end. -/
  shape_line : s.shape.IsLine
  scale : InRange s.scale
  repeats : InRange s.repeats
  offsetX : InRange s.offsetX
  offsetY : InRange s.offsetY
  rotate : InRange s.rotate
  repeatRotate : InRange s.repeatRotate
  x : s.x.IsWritable
  y : s.y.IsWritable

variable {s : Stamp} {name : String}

/-! ## Writing -/

/-- The numbers of a writable stamp have 32 bits. -/
theorem IsWritable.inRange (h : s.IsWritable) {n : Int} (hn : n ∈ s.numbers) : InRange n := by
  rw [numbers] at hn
  simp only [List.mem_cons, List.not_mem_nil, or_false] at hn
  rcases hn with rfl | rfl | rfl | rfl | rfl | rfl | rfl | rfl
  · exact h.scale
  · exact h.x.ofRaw_raw.1
  · exact h.y.ofRaw_raw.1
  · exact h.repeats
  · exact h.offsetX
  · exact h.offsetY
  · exact h.rotate
  · exact h.repeatRotate

theorem name_ne (hname : s.shape = .plain name) : name ≠ "" := by
  rintro rfl
  exact s.shape_ne hname

/-- The fields that the record of a stamp writes behind the name of the shape. -/
def laterWritten (s : Stamp) : List Field :=
  [.number "scale" s.scale, .number "x" s.x.raw, .number "y" s.y.raw, .number "rep" s.repeats,
   .number "repoffx" s.offsetX, .number "repoffy" s.offsetY,
   ⟨"filled", if s.filled then "true" else "false", by cases s.filled <;> decide⟩,
   .number "rotate" s.rotate, .number "reprot" s.repeatRotate] ++
    Field.channels "red" "green" "blue" s.color

/-- The fields that the record of a stamp with a plain name writes. -/
def written (s : Stamp) (name : String) (hne : name ≠ "") : List Field :=
  ⟨"shape", name, hne⟩ :: s.laterWritten

/-- **The record of a stamp with a plain name** is a plain text. -/
theorem record_eq (hname : s.shape = .plain name) :
    s.record = .plain (ofFields (("shape=" ++ name) :: s.laterFields)) := by
  rw [record, hname, Loose.plain_append, ← List.map_cons, Loose.intercalate_plain, ofFields]

theorem toRecord_eq (hname : s.shape = .plain name) :
    s.toRecord = ofFields (("shape=" ++ name) :: s.laterFields) := by
  rw [toRecord, record_eq hname, Loose.shown_plain]

theorem writes_filled (filled : Bool) (hne : (if filled then "true" else "false") ≠ "") :
    Writes ("filled=" ++ if filled then "true" else "false")
      ⟨"filled", if filled then "true" else "false", hne⟩ := by
  have hkey : Spells "filled" "filled" := by decide
  have hclean : IsClean (if filled then "true" else "false").toList := by
    cases filled <;> decide
  exact ⟨"filled", rfl, hkey, hclean⟩

theorem forall₂_writes_laterWritten (s : Stamp) :
    List.Forall₂ Writes s.laterFields s.laterWritten := by
  refine List.rel_append ?_ (forall₂_writes_channels (by decide) (by decide) (by decide) s.color)
  exact .cons (writes_number (by decide) _) (.cons (writes_number (by decide) _)
    (.cons (writes_number (by decide) _) (.cons (writes_number (by decide) _)
    (.cons (writes_number (by decide) _) (.cons (writes_number (by decide) _)
    (.cons (writes_filled _ _) (.cons (writes_number (by decide) _)
    (.cons (writes_number (by decide) _) .nil))))))))

theorem forall₂_writes_written (h : s.IsWritable) (hname : s.shape = .plain name) :
    List.Forall₂ Writes (("shape=" ++ name) :: s.laterFields) (s.written name (name_ne hname)) := by
  have hkey : Spells "shape" "shape" := by decide
  have hclean := h.shape_clean
  rw [hname, Loose.isClean_plain_iff] at hclean
  exact .cons ⟨"shape", rfl, hkey, hclean⟩ s.forall₂_writes_laterWritten

/-- A field that gives a number of 32 bits sets it. -/
theorem addAll_number {s : Stamp} {name : String} {key : NumberKey} {n : Int}
    (hkey : Key.ofText? name = some (.number key)) (hn : InRange n) (rest : List Field) :
    s.addAll (.number name n :: rest) = (s.setNumber n key).addAll rest := by
  have hadd : s.add (.number name n) = .ok (s.setNumber n key) := by
    unfold add
    rw [show Key.ofText? (Field.number name n).key = some (.number key) from hkey]
    change (integer name (Decimal.intText n)).map _ = _
    rw [integer_intText hn]
    rfl
  rw [addAll, hadd]
  rfl

/-- The field that says whether the shape is filled says it. -/
theorem addAll_filled (s : Stamp) (filled : Bool) {hne : (if filled then "true" else "false") ≠ ""}
    (rest : List Field) :
    s.addAll (⟨"filled", if filled then "true" else "false", hne⟩ :: rest) =
      ({ s with filled := filled } : Stamp).addAll rest := by
  cases filled <;> rfl

/-- **The fields of a stamp ask for its own parts.** -/
theorem addAll_written (h : s.IsWritable) (hname : s.shape = .plain name) :
    plain.addAll (s.written name (name_ne hname)) = .ok s := by
  simp only [written, laterWritten, Field.channels, List.cons_append, List.nil_append]
  change (plain.withShape name (Loose.plain_ne (name_ne hname))).addAll _ = _
  rw [addAll_number rfl h.scale, addAll_number rfl h.x.ofRaw_raw.1,
    addAll_number rfl h.y.ofRaw_raw.1, addAll_number rfl h.repeats, addAll_number rfl h.offsetX,
    addAll_number rfl h.offsetY, addAll_filled, addAll_number rfl h.rotate,
    addAll_number rfl h.repeatRotate, addAll_number rfl (inRange_channel s.color.red),
    addAll_number rfl (inRange_channel s.color.green),
    addAll_number rfl (inRange_channel s.color.blue), addAll, Except.ok.injEq]
  obtain ⟨shape, scale, x, y, repeats, offsetX, offsetY, filled, color, rotate, repeatRotate, hs,
    hc, hr⟩ := s
  obtain rfl : shape = .plain name := hname
  simp only [setNumber, withShape, withScale, withRepeats, Color.withChannel, Channel.clamp_channel,
    h.x.ofRaw_raw.2, h.y.ofRaw_raw.2, Stamp.mk.injEq, and_true, true_and]
  omega

/-- **A writable stamp with a plain name is read back from its record.** -/
theorem ofRecord_toRecord (h : s.IsWritable) (hname : s.shape = .plain name) :
    ofRecord s.toRecord = .ok s := by
  rw [ofRecord, toRecord_eq hname,
    read_ofFields (forall₂_writes_written h hname) (List.cons_ne_nil _ _)]
  exact addAll_written h hname

/-- The record of such a stamp is a trimmed text of one line. -/
theorem isLine_toRecord (h : s.IsWritable) (hname : s.shape = .plain name) :
    IsLine s.toRecord.toList := by
  rw [toRecord_eq hname]
  refine isLine_ofFields (forall₂_writes_written h hname) ?_
  intro f hf
  obtain rfl | hf := List.mem_cons.mp hf
  · have hline := h.shape_line
    rwa [hname, Loose.isLine_plain_iff] at hline
  rcases List.mem_append.mp hf with hf | hf
  · have hfilled : IsLine (if s.filled then "true" else "false").toList := by
      cases s.filled <;> decide
    simp only [List.mem_cons, List.not_mem_nil, or_false] at hf
    rcases hf with rfl | rfl | rfl | rfl | rfl | rfl | rfl | rfl | rfl
    case inr.inr.inr.inr.inr.inr.inl => exact hfilled
    all_goals exact isLine_number _ _
  · exact isLine_of_mem_channels hf

theorem isTrimmed_toRecord (h : s.IsWritable) (hname : s.shape = .plain name) :
    IsTrimmed s.toRecord.toList ∧ s.toRecord ≠ "" := by
  rw [toRecord_eq hname]
  exact isTrimmed_ofFields (forall₂_writes_written h hname) (List.cons_ne_nil _ _)

/-! ## Reading -/

/-- A field leaves the stamp as it is but for the shape, the filling or one number of 32 bits. -/
theorem add_cases {s s' : Stamp} {f : Field} (h : s.add f = .ok s') :
    s' = s ∨ s' = s.withShape f.value f.plain_value_ne ∨
      (∃ filled, s' = { s with filled := filled }) ∨
      ∃ key n, InRange n ∧ s' = s.setNumber n key := by
  unfold add at h
  split at h
  next => exact Or.inl (Except.ok.inj h).symm
  next => exact Or.inr (Or.inl (Except.ok.inj h).symm)
  next => exact Or.inr (Or.inr (Or.inl ⟨_, (Except.ok.inj h).symm⟩))
  next key _ =>
    obtain ⟨n, hn, hset⟩ := map_eq_ok_iff.mp h
    exact Or.inr (Or.inr (Or.inr ⟨key, n, integer_mem_range hn, hset.symm⟩))

/-- A number of 32 bits stays one when it is lifted. -/
theorem inRange_lift {n : Int} (hn : InRange n) : InRange (max 1 n).toNat := by
  obtain ⟨-, hhigh⟩ := hn
  simp only [InRange, minInteger, maxInteger] at *
  omega

/-- **A stamp whose numbers fit 32 bits.** -/
structure IsNarrow (s : Stamp) : Prop where
  scale : InRange s.scale
  repeats : InRange s.repeats
  offsetX : InRange s.offsetX
  offsetY : InRange s.offsetY
  rotate : InRange s.rotate
  repeatRotate : InRange s.repeatRotate
  x : s.x.IsWritable
  y : s.y.IsWritable

theorem IsNarrow.setNumber {s : Stamp} (h : s.IsNarrow) {n : Int} (hn : InRange n)
    (key : NumberKey) : (s.setNumber n key).IsNarrow := by
  cases key with
  | scale => exact { h with scale := inRange_lift hn }
  | x => exact { h with x := Coordinate.isWritable_ofRaw hn }
  | y => exact { h with y := Coordinate.isWritable_ofRaw hn }
  | repeats => exact { h with repeats := inRange_lift hn }
  | offsetX => exact { h with offsetX := hn }
  | offsetY => exact { h with offsetY := hn }
  | rotate => exact { h with rotate := hn }
  | repeatRotate => exact { h with repeatRotate := hn }
  | channel name => exact { h with }

theorem isNarrow_plain : plain.IsNarrow where
  scale := by decide
  repeats := by decide
  offsetX := by decide
  offsetY := by decide
  rotate := by decide
  repeatRotate := by decide
  x := by decide
  y := by decide

/-- **Every record is read as a narrow stamp.** -/
theorem isNarrow_of_ofRecord {record : String} {s : Stamp} (h : ofRecord record = .ok s) :
    s.IsNarrow := by
  rw [ofRecord_eq_foldlM] at h
  obtain ⟨fields, -, hadds⟩ := bind_eq_ok_iff.mp h
  refine foldlM_keeps ?_ isNarrow_plain hadds
  intro s s' f _ hs hadd
  obtain rfl | rfl | ⟨filled, rfl⟩ | ⟨key, n, hn, rfl⟩ := add_cases hadd
  · exact hs
  · exact { hs with }
  · exact { hs with }
  · exact hs.setNumber hn key

@[simp] theorem shape_setNumber (s : Stamp) (n : Int) (key : NumberKey) :
    (s.setNumber n key).shape = s.shape := by
  cases key <;> rfl

/-- **Every record of one line is read as a writable stamp** with a plain name. -/
theorem isWritable_of_ofRecord {record : String} {s : Stamp} (hline : IsLine record.toList)
    (h : ofRecord record = .ok s) : s.IsWritable ∧ ∃ name, s.shape = .plain name := by
  have hnarrow := isNarrow_of_ofRecord h
  suffices hshape : s.shape.IsClean ∧ s.shape.IsLine ∧ ∃ name, s.shape = .plain name from
    ⟨{ hnarrow with shape_clean := hshape.1, shape_line := hshape.2.1 }, hshape.2.2⟩
  rw [ofRecord_eq_foldlM] at h
  obtain ⟨fields, hread, hadds⟩ := bind_eq_ok_iff.mp h
  refine foldlM_keeps
    (P := fun s => s.shape.IsClean ∧ s.shape.IsLine ∧ ∃ name, s.shape = .plain name) ?_
    ⟨by decide, by decide, "none", rfl⟩ hadds
  intro s s' f hf hs hadd
  obtain rfl | rfl | ⟨filled, rfl⟩ | ⟨key, n, hn, rfl⟩ := add_cases hadd
  · exact hs
  · obtain ⟨hclean, hmem⟩ := isClean_of_mem_read hread hf
    exact ⟨Loose.isClean_plain_iff.mpr hclean, Loose.isLine_plain_iff.mpr
      ⟨fun hc => hline.1 (hmem _ hc (by decide)), fun hc => hline.2 (hmem _ hc (by decide))⟩,
      f.value, rfl⟩
  · exact hs
  · rwa [shape_setNumber]

end Stamp

end Stencil
