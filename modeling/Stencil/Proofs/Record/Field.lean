import Stencil.Proofs.Decimal.Numeral
import Stencil.Proofs.Sequence
import Stencil.Proofs.Text.Joined
import Stencil.Proofs.Text.LowerCase
import Stencil.Record.Field

/-!
# Proofs/Record/Field — what a field says, and when it says nothing

The text between two commas `IsCut` into a key and a value at its first two equals signs; it is a
field exactly when that value is not blank (`ofText?_eq_some_iff`).  A record is read by reading
these texts one after another, the blank ones left out (`read_eq_mapM`).

Key and value count in their *normal form*, trimmed and in lower case.  A normal form is its own
normal form (`normal_normal`), and a value of a field is one that holds neither comma nor equals
sign (`IsClean`).
-/

namespace Stencil.Record

open Stencil.Text Stencil.Decimal

/-! ## Normal forms -/

/-- **A text is its own normal form** exactly when it is trimmed and each character is settled. -/
theorem normal_eq_self_iff {s : List Char} :
    normal s = s ↔ IsTrimmed s ∧ ∀ c ∈ s, IsSettled c := by
  refine ⟨fun h => ?_, fun ⟨htrim, hlower⟩ => ?_⟩
  · have htrim : IsTrimmed (normal s) := isTrimmed_lower (isTrimmed_trim s)
    have hlower : ∀ c ∈ normal s, IsSettled c := fun _ => isSettled_of_mem_lower
    rw [h] at htrim hlower
    exact ⟨htrim, hlower⟩
  · rw [normal, trim_eq_self_iff.mpr htrim, lower_eq_self hlower]

theorem isTrimmed_normal (s : List Char) : IsTrimmed (normal s) :=
  isTrimmed_lower (isTrimmed_trim s)

/-- **A normal form is its own normal form.** -/
@[simp] theorem normal_normal (s : List Char) : normal (normal s) = normal s :=
  normal_eq_self_iff.mpr ⟨isTrimmed_normal s, fun _ => isSettled_of_mem_lower⟩

/-- Below the small letters of ASCII a normal form holds what the text holds. -/
theorem mem_of_mem_normal {s : List Char} {c : Char} (h : c ∈ normal s) (hlt : c.toNat < 0x61) :
    c ∈ s :=
  trim_subset s (mem_of_mem_lower h hlt)

theorem normal_ne_nil_iff {s : List Char} : normal s ≠ [] ↔ trim s ≠ [] := by
  rw [normal, ne_eq, lower_eq_nil_iff]

/-- A blank at the start of a text is not part of its normal form. -/
theorem normal_cons_of_isBlank {c : Char} (s : List Char) (h : isBlank c = true) :
    normal (c :: s) = normal s := by
  rw [normal, trim_cons_of_isBlank s h, normal]

/-! ## Key and value -/

/-- **How a field falls into key and value**: the key stands before its first equals sign, the value
between that and the second one or the end. -/
def IsCut (field key value : List Char) : Prop :=
  '=' ∉ key ∧ '=' ∉ value ∧
    ∃ rest, field = key ++ '=' :: (value ++ rest) ∧ ∀ c ∈ rest.head?, c = '='

/-- No character of a text without equals signs stops the search for one. -/
theorem ne_equals_of_mem {s : List Char} (hs : '=' ∉ s) : ∀ c ∈ s, decide (c ≠ '=') = true :=
  fun _ hc => decide_eq_true fun h => hs (h ▸ hc)

/-- The part of a text before an equals sign, cut off by `takeWhile`. -/
theorem takeWhile_append_of_head? {s rest : List Char} (hs : '=' ∉ s)
    (hrest : ∀ c ∈ rest.head?, c = '=') : (s ++ rest).takeWhile (· ≠ '=') = s := by
  rw [List.takeWhile_append_of_pos (ne_equals_of_mem hs)]
  cases rest with
  | nil => simp
  | cons c rest => simp [hrest c rfl]

/-- The parts of a field are the only cut of it. -/
theorem isCut_iff {field key value : List Char} :
    IsCut field key value ↔ '=' ∈ field ∧ key = keyPart field ∧ value = valuePart field := by
  constructor
  · rintro ⟨hkey, hvalue, rest, rfl, hrest⟩
    have hafter : (key ++ '=' :: (value ++ rest)).dropWhile (· ≠ '=') = '=' :: (value ++ rest) := by
      rw [List.dropWhile_append_of_pos (ne_equals_of_mem hkey)]
      simp
    have hhead : ∀ c ∈ ('=' :: (value ++ rest)).head?, c = '=' := by simp
    refine ⟨by simp, (takeWhile_append_of_head? hkey hhead).symm, ?_⟩
    · rw [valuePart, hafter, List.drop_one, List.tail_cons, takeWhile_append_of_head? hvalue hrest]
  · rintro ⟨hmem, rfl, rfl⟩
    have hnot : ∀ s : List Char, '=' ∉ s.takeWhile (· ≠ '=') := fun s h => by
      simpa using List.mem_takeWhile_imp h
    obtain ⟨rest, hrest⟩ : ∃ rest, field.dropWhile (· ≠ '=') = '=' :: rest := by
      cases h : field.dropWhile (· ≠ '=') with
      | nil =>
        have := List.dropWhile_eq_nil_iff.mp h '=' hmem
        simp at this
      | cons c rest =>
        have hc := List.head?_dropWhile_not (· ≠ '=') field
        rw [h] at hc
        obtain rfl : c = '=' := by simpa using hc
        exact ⟨rest, rfl⟩
    refine ⟨hnot field, hnot _, rest.dropWhile (· ≠ '='), ?_, fun c hc => ?_⟩
    · rw [valuePart, hrest, List.drop_one, List.tail_cons, List.takeWhile_append_dropWhile, keyPart,
        ← hrest, List.takeWhile_append_dropWhile]
    · have := List.head?_dropWhile_not (· ≠ '=') rest
      rw [hc] at this
      simpa using this

/-- **A text between two commas is a field** exactly when it falls into a key and a value that is
not blank; both then count in their normal forms. -/
theorem ofText?_eq_some_iff {text : List Char} {f : Field} :
    Field.ofText? text = some f ↔ ∃ key value, IsCut text key value ∧ trim value ≠ [] ∧
      f.key.toList = normal key ∧ f.value.toList = normal value := by
  unfold Field.ofText?
  split
  next h =>
    refine ⟨nofun, ?_⟩
    rintro ⟨key, value, hcut, hvalue, -⟩
    rw [(isCut_iff.mp hcut).2.2] at hvalue
    exact absurd h hvalue
  next h =>
    have hmem : '=' ∈ text := by
      by_contra hno
      have hdrop : text.dropWhile (· ≠ '=') = [] :=
        List.dropWhile_eq_nil_iff.mpr (ne_equals_of_mem hno)
      rw [valuePart, hdrop] at h
      exact h rfl
    constructor
    · rintro ⟨⟩
      exact ⟨_, _, isCut_iff.mpr ⟨hmem, rfl, rfl⟩, h, String.toList_ofList, String.toList_ofList⟩
    · rintro ⟨key, value, hcut, -, hkey, hvalue⟩
      obtain ⟨-, rfl, rfl⟩ := isCut_iff.mp hcut
      rw [Option.some.injEq, Field.mk.injEq, ← hkey, ← hvalue, String.ofList_toList,
        String.ofList_toList]
      exact ⟨rfl, rfl⟩

/-- The field of a text that falls into a key and a value. -/
theorem ofText?_of_isCut {text key value : List Char} (hcut : IsCut text key value)
    (hvalue : trim value ≠ []) :
    ∃ hne, Field.ofText? text =
      some ⟨String.ofList (normal key), String.ofList (normal value), hne⟩ := by
  have hne : String.ofList (normal value) ≠ "" := by
    rw [ne_eq, String.ofList_eq_empty_iff]
    exact normal_ne_nil_iff.mpr hvalue
  refine ⟨hne, ofText?_eq_some_iff.mpr ⟨key, value, hcut, hvalue, ?_, ?_⟩⟩
  · exact String.toList_ofList
  · exact String.toList_ofList

/-! ## The fields of a record -/

/-- The texts between the commas of a record that are not blank. -/
def fieldTexts (record : String) : List (List Char) :=
  (pieces ',' record.toList).filter fun text => !isBlankText text

/-- The field of a text between two commas of a record. -/
def fieldOf (record : String) (text : List Char) : Except Error Field :=
  match Field.ofText? text with
  | some f => .ok f
  | none => .error (.fault (.noValue (String.ofList (trim text))) none (some record))

theorem fieldOf_eq_ok_iff {record : String} {text : List Char} {f : Field} :
    fieldOf record text = .ok f ↔ Field.ofText? text = some f := by
  unfold fieldOf
  split
  next g h => rw [Except.ok.injEq, h, Option.some.injEq]
  next h => exact ⟨nofun, fun hf => absurd (h.symm.trans hf) nofun⟩

theorem exists_fieldOf_eq_ok_iff {record : String} {text : List Char} :
    (∃ f, fieldOf record text = .ok f) ↔ ∃ key value, IsCut text key value ∧ trim value ≠ [] := by
  simp only [fieldOf_eq_ok_iff]
  constructor
  · rintro ⟨f, hf⟩
    obtain ⟨key, value, hcut, hvalue, -⟩ := ofText?_eq_some_iff.mp hf
    exact ⟨key, value, hcut, hvalue⟩
  · rintro ⟨key, value, hcut, hvalue⟩
    obtain ⟨_, hf⟩ := ofText?_of_isCut hcut hvalue
    exact ⟨_, hf⟩

theorem ofTexts_eq_mapM (record : String) (texts : List (List Char)) :
    Field.ofTexts record texts =
      (texts.filter fun text => !isBlankText text).mapM (fieldOf record) := by
  induction texts with
  | nil => rfl
  | cons text rest ih =>
    rw [Field.ofTexts]
    split
    next h => rw [ih, List.filter_cons_of_neg (by simpa using h)]
    next h =>
      rw [List.filter_cons_of_pos (by simpa using h)]
      split
      next hnone => rw [mapM_cons_of_error (by rw [fieldOf, hnone])]
      next f hf => rw [mapM_cons_of_ok (fieldOf_eq_ok_iff.mpr hf), ih]

/-- **A record is read text by text**, the blank ones left out. -/
theorem read_eq_mapM (record : String) :
    Field.read record = (fieldTexts record).mapM (fieldOf record) :=
  ofTexts_eq_mapM record _

theorem read_eq_ok_iff {record : String} {fields : List Field} :
    Field.read record = .ok fields ↔
      List.Forall₂ (fun text f => Field.ofText? text = some f) (fieldTexts record) fields := by
  rw [read_eq_mapM, mapM_eq_ok_iff]
  simp only [fieldOf_eq_ok_iff]

/-- Cutting a record into fields fails with faults only. -/
theorem isFault_of_read_eq_error {record : String} {e : Error} (h : Field.read record = .error e) :
    e.isFault = true := by
  rw [read_eq_mapM, mapM_eq_error_iff] at h
  obtain ⟨-, text, -, -, -, h⟩ := h
  unfold fieldOf at h
  split at h
  · cases h
  · cases h
    rfl

/-- **A clean value** is a normal form that no separator of records can cut. -/
def IsClean (value : List Char) : Prop :=
  normal value = value ∧ ',' ∉ value ∧ '=' ∉ value

instance (value : List Char) : Decidable (IsClean value) :=
  inferInstanceAs (Decidable (_ ∧ _))

/-- **The values of a record are clean**, and below the small letters of ASCII they hold nothing
that the record does not hold. -/
theorem isClean_of_mem_read {record : String} {fields : List Field}
    (h : Field.read record = .ok fields) {f : Field} (hf : f ∈ fields) :
    IsClean f.value.toList ∧ ∀ c ∈ f.value.toList, c.toNat < 0x61 → c ∈ record.toList := by
  obtain ⟨text, htext, hfield⟩ := exists_of_mem_right (read_eq_ok_iff.mp h) hf
  have hpiece := List.mem_of_mem_filter htext
  obtain ⟨key, value, ⟨-, hno, rest, rfl, -⟩, -, -, hvalue⟩ := ofText?_eq_some_iff.mp hfield
  have hsub : value ⊆ key ++ '=' :: (value ++ rest) := fun c hc => by simp [hc]
  have hcomma : ',' ∉ value := fun hc => not_mem_of_mem_pieces hpiece (hsub hc)
  rw [hvalue]
  refine ⟨⟨normal_normal value, fun hc => hcomma (mem_of_mem_normal hc (by decide)),
    fun hc => hno (mem_of_mem_normal hc (by decide))⟩, fun c hc hlt => ?_⟩
  exact subset_of_mem_pieces hpiece (hsub (mem_of_mem_normal hc hlt))

end Stencil.Record
