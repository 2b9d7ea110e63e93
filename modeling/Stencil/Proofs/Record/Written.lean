import Stencil.Proofs.Record.Grammar

/-!
# Proofs/Record/Written — the records that are read back

    fields ──Writes──▸ texts ──ofFields──▸ record ──Field.read──▸ fields

A text that `Writes` a field is read as this field, also behind the blank that separates it from the
one before, so a record of such texts is read as their fields (`read_ofFields`).  Such a record is a
trimmed text of one line (`isTrimmed_ofFields`, `isLine_ofFields`): nothing is lost when it becomes
a line of a file.
-/

namespace Stencil.Record

open Stencil.Text Stencil.Decimal

/-! ## Texts that write a field -/

/-- **How a key may be spelled**: in letters of ASCII of which the key is the normal form. -/
def Spells (spelling key : String) : Prop :=
  normal spelling.toList = key.toList ∧ spelling.toList ≠ [] ∧
    spelling.toList.all Char.isAlpha = true

instance (spelling key : String) : Decidable (Spells spelling key) :=
  inferInstanceAs (Decidable (_ ∧ _))

theorem Spells.isAlpha {spelling key : String} (h : Spells spelling key) :
    ∀ c ∈ spelling.toList, c.isAlpha = true :=
  List.all_eq_true.mp h.2.2

/-- **A text writes a field** when it spells the field's key and says its value as it is. -/
def Writes (text : String) (f : Field) : Prop :=
  ∃ spelling, text = spelling ++ "=" ++ f.value ∧ Spells spelling f.key ∧ IsClean f.value.toList

/-- The field that gives a number. -/
def Field.number (key : String) (n : Int) : Field where
  key := key
  value := intText n
  value_ne := by
    obtain ⟨_, _, hnumeral, -⟩ := isNumeral_intChars n
    rw [ne_eq, intText.eq_1, String.ofList_eq_empty_iff]
    exact hnumeral.ne_nil

theorem writes_number {spelling key : String} (h : Spells spelling key) (n : Int) :
    Writes (numberField spelling n) (.number key n) := by
  refine ⟨spelling, rfl, h, ?_⟩
  change IsClean (intText n).toList
  rw [intText, String.toList_ofList]
  exact isClean_intChars n

/-- A letter of ASCII is not a blank. -/
theorem not_isBlank_of_isAlpha {c : Char} (h : c.isAlpha = true) : isBlank c = false := by
  have hranges : ∀ r ∈ blankRanges, r.2 < 0x41 ∨ 0x7a < r.1 := by decide
  have hc : 0x41 ≤ c.toNat ∧ c.toNat ≤ 0x7a := by
    simp only [Char.isAlpha, Char.isUpper, Char.isLower, Bool.or_eq_true, Bool.and_eq_true,
      decide_eq_true_eq, ge_iff_le, UInt32.le_iff_toNat_le] at h
    change 0x41 ≤ c.val.toNat ∧ c.val.toNat ≤ 0x7a
    have : 'A'.val.toNat = 65 ∧ 'Z'.val.toNat = 90 ∧ 'a'.val.toNat = 97 ∧ 'z'.val.toNat = 122 := by
      decide
    omega
  rw [Bool.eq_false_iff, ne_eq, isBlank, CodeRanges.holds_iff]
  rintro ⟨r, hr, hlow, hhigh⟩
  have := hranges r hr
  omega

/-- A number is one line. -/
theorem isLine_number (key : String) (n : Int) : IsLine (Field.number key n).value.toList := by
  change IsLine (intText n).toList
  rw [intText, String.toList_ofList]
  exact isLine_intChars n

/-- A number of 32 bits is short enough to be written. -/
theorem InRange.isShort {n : Int} (h : InRange n) : isShort n = true := by
  obtain ⟨digits, hdigits, -, -, hlength⟩ := areDigits_digitsOf n.natAbs
  have hlt : n.natAbs < 10 ^ 10 := by
    rw [InRange, minInteger, maxInteger] at h
    omega
  refine decide_eq_true ?_
  calc (digitsOf n.natAbs).length = digits.length := hdigits.length_eq
    _ ≤ 9 + 1 := hlength 9 hlt
    _ ≤ maxDigits := by decide

namespace Writes

variable {text : String} {f : Field}

theorem toList_eq (h : Writes text f) : ∃ spelling, Spells spelling f.key ∧
    IsClean f.value.toList ∧ text.toList = spelling.toList ++ '=' :: f.value.toList := by
  obtain ⟨spelling, rfl, hkey, hvalue⟩ := h
  refine ⟨spelling, hkey, hvalue, ?_⟩
  rw [String.toList_append, String.toList_append, List.append_assoc]
  rfl

theorem comma_not_mem (h : Writes text f) : ',' ∉ text.toList := by
  obtain ⟨spelling, hkey, hvalue, htext⟩ := h.toList_eq
  rw [htext, List.mem_append, not_or, List.mem_cons, not_or]
  exact ⟨fun h => absurd (hkey.isAlpha _ h) (by decide), by decide, hvalue.2.1⟩

/-- The text starts with a letter and ends as the field's value does. -/
theorem isTrimmed (h : Writes text f) : IsTrimmed text.toList ∧ text.toList ≠ [] := by
  obtain ⟨spelling, hkey, hvalue, htext⟩ := h.toList_eq
  have hspelling : IsTrimmed spelling.toList :=
    isTrimmed_of_forall fun c hc => not_isBlank_of_isAlpha (hkey.isAlpha c hc)
  have hne : f.value.toList ≠ [] := by
    rw [ne_eq, String.toList_eq_nil_iff]
    exact f.value_ne
  rw [htext]
  refine ⟨?_, by simp⟩
  have := hspelling.append (normal_eq_self_iff.mp hvalue.1).1 hkey.2.1 hne ['=']
  rwa [List.append_assoc] at this

theorem isLine (h : Writes text f) (hf : IsLine f.value.toList) : IsLine text.toList := by
  obtain ⟨spelling, hkey, -, htext⟩ := h.toList_eq
  rw [htext, isLine_append_iff]
  refine ⟨⟨fun h => absurd (hkey.isAlpha _ h) (by decide),
    fun h => absurd (hkey.isAlpha _ h) (by decide)⟩, ?_⟩
  exact isLine_append_iff (s := ['=']).mpr ⟨by decide, hf⟩

/-- The text is read as the field, with a blank in front or without. -/
theorem ofText?_append (h : Writes text f) {gap : List Char} (hgap : gap = [] ∨ gap = [' ']) :
    Field.ofText? (gap ++ text.toList) = some f := by
  obtain ⟨spelling, hkey, hvalue, htext⟩ := h.toList_eq
  have hcut : '=' ∉ spelling.toList := fun h => absurd (hkey.isAlpha _ h) (by decide)
  have hne : trim f.value.toList ≠ [] := by
    rw [← normal_ne_nil_iff, hvalue.1, ne_eq, String.toList_eq_nil_iff]
    exact f.value_ne
  refine ofText?_eq_some_iff.mpr ⟨gap ++ spelling.toList, f.value.toList,
    ⟨?_, hvalue.2.2, [], ?_, nofun⟩, hne, ?_, hvalue.1.symm⟩
  · rcases hgap with rfl | rfl <;> simpa using hcut
  · rw [htext, List.append_nil, List.append_assoc]
  · rcases hgap with rfl | rfl
    · exact hkey.1.symm
    · exact hkey.1.symm.trans (normal_cons_of_isBlank spelling.toList (by decide)).symm

/-- A text with an equals sign is not blank. -/
theorem not_isBlankText (h : Writes text f) (gap : List Char) :
    isBlankText (gap ++ text.toList) = false := by
  obtain ⟨spelling, -, -, htext⟩ := h.toList_eq
  rw [isBlankText, Bool.eq_false_iff, ne_eq, List.all_eq_true]
  intro hall
  have hequals : isBlank '=' = true := hall '=' (by simp [htext])
  exact absurd hequals (by decide)

end Writes

/-- **A record of texts that write fields is read as these fields.** -/
theorem read_ofFields {texts : List String} {fields : List Field}
    (h : List.Forall₂ Writes texts fields) (hne : texts ≠ []) :
    Field.read (ofFields texts) = .ok fields := by
  cases h with
  | nil => exact absurd rfl hne
  | @cons text f texts fields hfirst hothers =>
    have hcomma : ∀ s ∈ texts.map String.toList, ',' ∉ s := by
      intro s hs
      obtain ⟨text, htext, rfl⟩ := List.mem_map.mp hs
      obtain ⟨f, -, hwrites⟩ := exists_of_mem_left hothers htext
      exact hwrites.comma_not_mem
    have hpieces : pieces ',' (ofFields (text :: texts)).toList =
        text.toList :: texts.map fun s => [' '] ++ s.toList := by
      rw [ofFields, String.toList_intercalate, List.map_cons]
      refine (pieces_intercalate (by decide) hfirst.comma_not_mem hcomma).trans ?_
      rw [List.map_map]
      rfl
    have hblank : ∀ s ∈ texts, isBlankText ([' '] ++ s.toList) = false := by
      intro s hs
      obtain ⟨f, -, hwrites⟩ := exists_of_mem_left hothers hs
      exact hwrites.not_isBlankText [' ']
    have htexts : fieldTexts (ofFields (text :: texts)) =
        text.toList :: texts.map fun s => [' '] ++ s.toList := by
      rw [fieldTexts, hpieces, List.filter_eq_self]
      intro s hs
      rcases List.mem_cons.mp hs with rfl | hs
      · exact congrArg not (hfirst.not_isBlankText [])
      · obtain ⟨text, htext, rfl⟩ := List.mem_map.mp hs
        exact congrArg not (hblank text htext)
    rw [read_eq_ok_iff, htexts]
    refine .cons (hfirst.ofText?_append (Or.inl rfl)) (List.forall₂_map_left_iff.mpr ?_)
    exact hothers.imp fun _ _ h => h.ofText?_append (Or.inr rfl)

/-- A record of such texts is not empty, and it is trimmed. -/
theorem isTrimmed_ofFields {texts : List String} {fields : List Field}
    (h : List.Forall₂ Writes texts fields) (hne : texts ≠ []) :
    IsTrimmed (ofFields texts).toList ∧ ofFields texts ≠ "" := by
  constructor
  · rw [ofFields, String.toList_intercalate]
    refine isTrimmed_intercalate _ ?_
    intro s hs
    obtain ⟨text, htext, rfl⟩ := List.mem_map.mp hs
    obtain ⟨f, -, hwrites⟩ := exists_of_mem_left h htext
    exact hwrites.isTrimmed
  · intro hempty
    have hread := read_ofFields h hne
    rw [hempty] at hread
    obtain rfl : [] = fields := Except.ok.inj hread
    exact hne (List.forall₂_nil_right_iff.mp h)

/-- A record of such texts is one line when all its values are. -/
theorem isLine_ofFields {texts : List String} {fields : List Field}
    (h : List.Forall₂ Writes texts fields) (hlines : ∀ f ∈ fields, IsLine f.value.toList) :
    IsLine (ofFields texts).toList := by
  rw [ofFields, String.toList_intercalate]
  refine isLine_intercalate (by decide) ?_
  intro s hs
  obtain ⟨text, htext, rfl⟩ := List.mem_map.mp hs
  obtain ⟨f, hf, hwrites⟩ := exists_of_mem_left h htext
  exact hwrites.isLine (hlines f hf)

/-- The fields of a colour, under three keys. -/
def Field.channels (red green blue : String) (c : Color) : List Field :=
  [.number red c.red.val, .number green c.green.val, .number blue c.blue.val]

/-- The fields of a colour are written under spellings of their keys. -/
theorem forall₂_writes_channels {red green blue red' green' blue' : String}
    (hred : Spells red red') (hgreen : Spells green green') (hblue : Spells blue blue')
    (c : Color) :
    List.Forall₂ Writes (colorFields red green blue c) (Field.channels red' green' blue' c) :=
  .cons (writes_number hred _)
    (.cons (writes_number hgreen _) (.cons (writes_number hblue _) .nil))

theorem isLine_of_mem_channels {red green blue : String} {c : Color} {f : Field}
    (h : f ∈ Field.channels red green blue c) : IsLine f.value.toList := by
  simp only [Field.channels, List.mem_cons, List.not_mem_nil, or_false] at h
  rcases h with rfl | rfl | rfl <;> exact isLine_number _ _

/-- A channel is a number of 32 bits. -/
theorem inRange_channel (c : Channel) : InRange c.val := by
  have := c.isLt
  simp only [InRange, minInteger, maxInteger]
  omega

end Stencil.Record

