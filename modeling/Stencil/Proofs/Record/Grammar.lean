import Stencil.Proofs.Record.Integer
import Stencil.Record.Stamp

/-!
# Proofs/Record/Grammar — the records that are accepted

Canvas and stamp records have one grammar but for their integer keys: every text between two commas
that is not blank `IsField`, a key and a value of which an integer key takes only the text of an
integer.  The readers of both accept exactly the records of their grammar
(`Canvas.exists_ofRecord_eq_ok_iff`, `Stamp.exists_ofRecord_eq_ok_iff`), and refuse a record without
a fault exactly when it `HasLongNumber`.

Both go through `check`, what a reader asks of a field whatever it has read before: a field is
refused for its own sake, so one that a later field overrides is refused as well.
-/

namespace Stencil.Record

open Stencil.Text Stencil.Decimal

/-! ## The grammar -/

/-- **A field of the grammar**: a key and a value that is not blank, and the text of an integer for
a value where the key is one of `keys`. -/
def IsField (keys : List String) (text : List Char) : Prop :=
  ∃ key value, IsCut text key value ∧ trim value ≠ [] ∧
    (String.ofList (normal key) ∈ keys → IsIntegerText (trim value))

/-- **A record of the grammar**: all its texts between commas are fields, but for the blank ones. -/
def IsRecord (keys : List String) (record : List Char) : Prop :=
  ∀ text ∈ pieces ',' record, isBlankText text = false → IsField keys text

/-- A field with an integer key and a numeral of too many digits, `count`, for a value. -/
def IsLongNumber (keys : List String) (count : Nat) (text : List Char) : Prop :=
  ∃ key value, IsCut text key value ∧ String.ofList (normal key) ∈ keys ∧
    ∃ negative digits, IsNumeral (trim value) negative digits ∧ maxDigits < digits.length ∧
      digits.length = count

/-- **A record with a number of too many digits**, `count`, before anything else is wrong with a
value.  Values that are missing count first, wherever they are. -/
def HasLongNumber (keys : List String) (count : Nat) (record : String) : Prop :=
  (∀ text ∈ fieldTexts record, ∃ key value, IsCut text key value ∧ trim value ≠ []) ∧
    ∃ before text after, fieldTexts record = before ++ text :: after ∧
      (∀ b ∈ before, IsField keys b) ∧ IsLongNumber keys count text

theorem isRecord_iff {keys : List String} {record : String} :
    IsRecord keys record.toList ↔ ∀ text ∈ fieldTexts record, IsField keys text := by
  simp only [IsRecord, fieldTexts, List.mem_filter, Bool.not_eq_true', and_imp]

/-! ## Checking a field -/

/-- **What a reader asks of a field**, whatever the fields before it say. -/
def check (keys : List String) (f : Field) : Except Error Unit :=
  if f.key ∈ keys then (integer f.key f.value).map fun _ => () else .ok ()

/-- What a reader asks of a text between two commas. -/
def checkText (keys : List String) (record : String) (text : List Char) : Except Error Unit :=
  (fieldOf record text).bind (check keys)

section Check

variable {keys : List String} {record : String} {text : List Char}

/-- A step that hands nothing on succeeds when the step it is made of does. -/
theorem map_const_eq_ok_iff {ε α : Type} {x : Except ε α} :
    x.map (fun _ => ()) = .ok () ↔ ∃ a, x = .ok a := by
  simp only [map_eq_ok_iff, and_true]

/-- A text that falls into a key and a value is checked by these. -/
theorem checkText_of_isCut {key value : List Char} (hcut : IsCut text key value)
    (hvalue : trim value ≠ []) :
    checkText keys record text =
      if String.ofList (normal key) ∈ keys then
        (integer (String.ofList (normal key)) (String.ofList (normal value))).map fun _ => ()
      else .ok () := by
  obtain ⟨hne, hfield⟩ := ofText?_of_isCut hcut hvalue
  rw [checkText, fieldOf_eq_ok_iff.mpr hfield]
  rfl

/-- Every other text is refused with a fault. -/
theorem exists_isCut_or (keys : List String) (record : String) (text : List Char) :
    (∃ key value, IsCut text key value ∧ trim value ≠ []) ∨
      ∃ f, checkText keys record text = .error (.fault f none (some record)) := by
  cases hf : Field.ofText? text with
  | some f =>
    obtain ⟨key, value, hcut, hvalue, -⟩ := ofText?_eq_some_iff.mp hf
    exact Or.inl ⟨key, value, hcut, hvalue⟩
  | none =>
    refine Or.inr ⟨.noValue (String.ofList (trim text)), ?_⟩
    rw [checkText, fieldOf, hf]
    rfl

theorem exists_integer_normal_eq_ok_iff {key : String} {value : List Char} :
    (∃ n, integer key (String.ofList (normal value)) = .ok n) ↔ IsIntegerText (trim value) := by
  rw [exists_integer_eq_ok_iff, String.toList_ofList, isIntegerText_normal_iff]
  rw [String.toList_ofList]
  exact isTrimmed_normal value

theorem integer_normal_eq_tooManyDigits_iff {key : String} {value : List Char} {count : Nat} :
    integer key (String.ofList (normal value)) = .error (.tooManyDigits count) ↔
      ∃ negative digits, IsNumeral (trim value) negative digits ∧ maxDigits < digits.length ∧
        digits.length = count := by
  rw [integer_eq_tooManyDigits_iff, String.toList_ofList]
  · simp only [isNumeral_normal_iff]
  · rw [String.toList_ofList]
    exact isTrimmed_normal value

/-- **A text is accepted** exactly when it is a field of the grammar. -/
theorem checkText_eq_ok_iff : checkText keys record text = .ok () ↔ IsField keys text := by
  constructor
  · intro h
    obtain ⟨key, value, hcut, hvalue⟩ | ⟨f, hf⟩ := exists_isCut_or keys record text
    · refine ⟨key, value, hcut, hvalue, ?_⟩
      intro hkey
      rw [checkText_of_isCut hcut hvalue, if_pos hkey, map_const_eq_ok_iff] at h
      exact exists_integer_normal_eq_ok_iff.mp h
    · rw [hf] at h
      cases h
  · rintro ⟨key, value, hcut, hvalue, h⟩
    rw [checkText_of_isCut hcut hvalue]
    split
    next hkey => exact map_const_eq_ok_iff.mpr (exists_integer_normal_eq_ok_iff.mpr (h hkey))
    next => rfl

/-- A text is refused without a fault exactly when it is a number of too many digits. -/
theorem checkText_eq_tooManyDigits_iff {count : Nat} :
    checkText keys record text = .error (.tooManyDigits count) ↔ IsLongNumber keys count text := by
  constructor
  · intro h
    obtain ⟨key, value, hcut, hvalue⟩ | ⟨f, hf⟩ := exists_isCut_or keys record text
    · rw [checkText_of_isCut hcut hvalue] at h
      split at h
      next hkey =>
        rw [map_eq_error_iff, integer_normal_eq_tooManyDigits_iff] at h
        exact ⟨key, value, hcut, hkey, h⟩
      next => cases h
    · rw [hf] at h
      cases h
  · rintro ⟨key, value, hcut, hkey, hlong⟩
    have hvalue : trim value ≠ [] := by
      obtain ⟨negative, digits, hnumeral, -⟩ := hlong
      exact hnumeral.ne_nil
    rw [checkText_of_isCut hcut hvalue, if_pos hkey, map_eq_error_iff,
      integer_normal_eq_tooManyDigits_iff]
    exact hlong

end Check

/-! ## Reading the fields of a record -/

section Read

variable {σ : Type} {add : σ → Field → Except Error σ} {keys : List String} {record : String}

/-- What the fields give to hand on has no say in whether they are accepted. -/
theorem read_bind_map_const (hadd : ∀ s f, (add s f).map (fun _ => ()) = check keys f) (s : σ) :
    ((Field.read record).bind fun fields => fields.foldlM add s).map (fun _ => ()) =
      ((Field.read record).bind fun fields => fields.mapM (check keys)).map (fun _ => ()) := by
  cases Field.read record with
  | error e => rfl
  | ok fields => exact foldlM_map_const hadd fields s

/-- **A record is accepted** exactly when it is one of the grammar, by every reader that asks of
its fields what `check` asks. -/
theorem exists_read_bind_eq_ok_iff (hadd : ∀ s f, (add s f).map (fun _ => ()) = check keys f)
    (s : σ) :
    (∃ t, (Field.read record).bind (fun fields => fields.foldlM add s) = .ok t) ↔
      IsRecord keys record.toList := by
  rw [← map_const_eq_ok_iff, read_bind_map_const hadd, map_const_eq_ok_iff, read_eq_mapM]
  simp only [mapM_bind_mapM_eq_ok_iff]
  rw [exists_mapM_eq_ok_iff, isRecord_iff]
  refine forall₂_congr ?_
  intro text _
  rw [← checkText_eq_ok_iff]
  exact ⟨fun ⟨_, h⟩ => h, fun h => ⟨(), h⟩⟩

/-- **A record is refused without a fault** exactly when it has a number of too many digits. -/
theorem read_bind_eq_tooManyDigits_iff
    (hadd : ∀ s f, (add s f).map (fun _ => ()) = check keys f) (s : σ) {count : Nat} :
    (Field.read record).bind (fun fields => fields.foldlM add s) = .error (.tooManyDigits count) ↔
      HasLongNumber keys count record := by
  rw [← map_eq_error_iff, read_bind_map_const hadd, map_eq_error_iff]
  have hvalues : (∃ fields, Field.read record = .ok fields) ↔
      ∀ text ∈ fieldTexts record, ∃ key value, IsCut text key value ∧ trim value ≠ [] := by
    rw [read_eq_mapM, exists_mapM_eq_ok_iff]
    exact forall₂_congr fun text _ => exists_fieldOf_eq_ok_iff
  rw [HasLongNumber, ← hvalues]
  cases hread : Field.read record with
  | error e =>
    refine iff_of_false (fun h => ?_) fun ⟨⟨_, h⟩, _⟩ => by cases h
    have hfault := isFault_of_read_eq_error hread
    rw [Except.error.inj h] at hfault
    cases hfault
  | ok fields =>
    have hround := mapM_bind_of_mapM (read_eq_mapM record ▸ hread) (check keys)
    change fields.mapM (check keys) = _ ↔ _
    rw [← hround, mapM_eq_error_iff, and_iff_right ⟨fields, rfl⟩]
    have hbefore : ∀ b, IsField keys b ↔ ∃ u, (fieldOf record b).bind (check keys) = .ok u :=
      fun b => checkText_eq_ok_iff.symm.trans ⟨fun h => ⟨(), h⟩, fun ⟨_, h⟩ => h⟩
    simp only [hbefore, ← @checkText_eq_tooManyDigits_iff keys record]
    rfl

end Read

/-! ## Canvas and stamp -/

end Stencil.Record

namespace Stencil.Canvas

open Stencil.Record

/-- The keys of a canvas record that take an integer: all of them. -/
def integerKeys : List String :=
  ["width", "height", "graddir", "red", "green", "blue", "gradstartred", "gradstartgreen",
    "gradstartblue", "gradendred", "gradendgreen", "gradendblue"]

theorem Key.ofText?_eq_none_iff {s : String} : Key.ofText? s = none ↔ s ∉ integerKeys := by
  simp [Key.ofText?, Key.table, integerKeys, List.lookup_eq_none_iff]

theorem Request.add_map_const (r : Request) (f : Field) :
    (r.add f).map (fun _ => ()) = check integerKeys f := by
  rw [check, Request.add]
  split
  next h => rw [if_neg (Key.ofText?_eq_none_iff.mp h)]; rfl
  next key h =>
    rw [if_pos]
    · cases integer f.key f.value <;> rfl
    · by_contra hno
      rw [Key.ofText?_eq_none_iff.mpr hno] at h
      cases h

theorem Request.addAll_eq_foldlM (r : Request) (fields : List Field) :
    r.addAll fields = fields.foldlM Request.add r := by
  induction fields generalizing r with
  | nil => rfl
  | cons f fields ih =>
    rw [Request.addAll, List.foldlM_cons]
    exact congrArg _ (funext ih)

theorem ofRecord_eq_foldlM (record : String) :
    (ofRecord record).map (fun _ => ()) =
      ((Field.read record).bind fun fields => fields.foldlM Request.add {}).map fun _ => () := by
  rw [ofRecord]
  cases Field.read record with
  | error e => rfl
  | ok fields =>
    change ((Request.addAll {} fields).map _).map _ = (fields.foldlM Request.add {}).map _
    rw [Request.addAll_eq_foldlM]
    cases fields.foldlM Request.add {} <;> rfl

/-- **A record is read as a canvas** exactly when it is one of the grammar. -/
theorem exists_ofRecord_eq_ok_iff {record : String} :
    (∃ c, ofRecord record = .ok c) ↔ IsRecord integerKeys record.toList := by
  rw [← map_const_eq_ok_iff, ofRecord_eq_foldlM, map_const_eq_ok_iff]
  exact exists_read_bind_eq_ok_iff Request.add_map_const {}

end Stencil.Canvas

namespace Stencil.Stamp

open Stencil.Record

/-- The keys of a stamp record that take an integer. -/
def integerKeys : List String :=
  ["scale", "rep", "repoffx", "repoffy", "rotate", "reprot", "x", "y", "red", "green", "blue"]

theorem Key.exists_ofText?_eq_number_iff {s : String} :
    (∃ key, Key.ofText? s = some (.number key)) ↔ s ∈ integerKeys := by
  constructor
  · rintro ⟨key, h⟩
    obtain ⟨before, after, htable, -⟩ := List.lookup_eq_some_iff.mp h
    have hmem : (s, Key.number key) ∈ Key.table := by simp [htable]
    have hnumber : ∀ p ∈ Key.table, p.1 ∈ integerKeys ∨ p.2 = .shape ∨ p.2 = .filled := by decide
    simpa using hnumber _ hmem
  · intro h
    have hall : ∀ s ∈ integerKeys, ∃ key ∈ Key.table.map Prod.snd, Key.ofText? s = some key ∧
        key ≠ .shape ∧ key ≠ .filled := by decide
    obtain ⟨key, -, hkey, hshape, hfilled⟩ := hall s h
    cases key with
    | shape => exact absurd rfl hshape
    | filled => exact absurd rfl hfilled
    | number key => exact ⟨key, hkey⟩

theorem add_map_const (s : Stamp) (f : Field) :
    (s.add f).map (fun _ => ()) = check integerKeys f := by
  have hother (h : ∀ key, Key.ofText? f.key ≠ some (.number key)) :
      check integerKeys f = .ok () := by
    rw [check, if_neg]
    exact fun hkey => (Key.exists_ofText?_eq_number_iff.mpr hkey).elim h
  rw [add]
  split
  next h => rw [hother (by simp [h])]; rfl
  next h => rw [hother (by simp [h])]; rfl
  next h => rw [hother (by simp [h])]; rfl
  next key h =>
    rw [check, if_pos (Key.exists_ofText?_eq_number_iff.mp ⟨key, h⟩)]
    cases integer f.key f.value <;> rfl

theorem addAll_eq_foldlM (s : Stamp) (fields : List Field) :
    s.addAll fields = fields.foldlM add s := by
  induction fields generalizing s with
  | nil => rfl
  | cons f fields ih =>
    rw [addAll, List.foldlM_cons]
    exact congrArg _ (funext ih)

theorem ofRecord_eq_foldlM (record : String) :
    ofRecord record = (Field.read record).bind fun fields => fields.foldlM add plain :=
  congrArg _ (funext (addAll_eq_foldlM plain))

/-- **A record is read as a stamp** exactly when it is one of the grammar. -/
theorem exists_ofRecord_eq_ok_iff {record : String} :
    (∃ s, ofRecord record = .ok s) ↔ IsRecord integerKeys record.toList := by
  rw [ofRecord_eq_foldlM]
  exact exists_read_bind_eq_ok_iff add_map_const plain

/-- **A stamp record is refused without a fault** exactly when it has a number of too many
digits. -/
theorem ofRecord_eq_tooManyDigits_iff {record : String} {count : Nat} :
    ofRecord record = .error (.tooManyDigits count) ↔ HasLongNumber integerKeys count record := by
  rw [ofRecord_eq_foldlM]
  exact read_bind_eq_tooManyDigits_iff add_map_const plain

end Stencil.Stamp
