import Stencil.Proofs.Record.Vocabulary

/-!
# Proofs/Record/Edit — edits of a record that do not matter

    Width=10,x=1  ──▸  width = 10, x=1  ──▸  width = 10,, x=1  ──▸  x=1, width = 10,,  ──▸  ⋯

An `Edit` of a record changes its blanks beside separators, the case of its letters, its empty
fields, its fields of unknown keys, the order of two fields of different keys, or it gives a field
whose key is given again later.  A record reads the same after an edit, be it accepted or refused
(`toOption_read_of_edit`), and is blank after it only if it was before (`isBlankText_of_edit`).
-/

namespace Stencil.Record

open Stencil.Text

/-- The key of a text between two commas, as it counts. -/
def keyOf (text : List Char) : List Char :=
  normal (keyPart text)

/-- **An edit of a record**, given the keys it can have and those that take an integer. -/
inductive Edit (keys integerKeys : List String) : List Char → List Char → Prop
  /-- A blank is put beside a separator or at an end of the record. -/
  | blank {c : Char} {s t : List Char} (hblank : isBlank c = true) (hseam : IsSeam [',', '='] s t) :
    Edit keys integerKeys (s ++ t) (s ++ c :: t)
  /-- Letters change their case. -/
  | letters {s t : List Char} (h : SameLetters s t) : Edit keys integerKeys s t
  /-- A comma is put beside another one or at an end of the record. -/
  | comma {s t : List Char} (hrecord : isBlankText (s ++ t) = false) (hseam : IsSeam [','] s t) :
    Edit keys integerKeys (s ++ t) (s ++ ',' :: t)
  /-- A field of an unknown key is put among the others. -/
  | unknown {s t text : List Char} {before after : List (List Char)}
    (hrecord : isBlankText s = false) (hkey : String.ofList (keyOf text) ∉ keys)
    (hfield : ∃ key value, IsCut text key value ∧ isBlankText value = false)
    (hs : pieces ',' s = before ++ after) (ht : pieces ',' t = before ++ text :: after) :
    Edit keys integerKeys s t
  /-- Two neighbours of different keys change places. -/
  | swap {s t text text' : List Char} {before after : List (List Char)}
    (hkeys : keyOf text ≠ keyOf text') (hs : pieces ',' s = before ++ text :: text' :: after)
    (ht : pieces ',' t = before ++ text' :: text :: after) : Edit keys integerKeys s t
  /-- A field is put somewhere before one of its key. -/
  | earlier {s t text : List Char} {before after : List (List Char)}
    (hkey : String.ofList (keyOf text) ∈ keys) (hfield : IsField integerKeys text)
    (hlater : ∃ later ∈ after, keyOf later = keyOf text)
    (hs : pieces ',' s = before ++ after) (ht : pieces ',' t = before ++ text :: after) :
    Edit keys integerKeys s t

/-! ## Blank records -/

theorem isBlankText_of_mem {s : List Char} {c : Char} (hc : c ∈ s) (hblank : isBlank c = false) :
    isBlankText s = false := by
  rw [Bool.eq_false_iff]
  intro h
  rw [List.all_eq_true.mp h c hc] at hblank
  cases hblank

/-- A record with two texts between commas has a comma. -/
theorem isBlankText_of_pieces {s text text' : List Char} {before after : List (List Char)}
    (h : pieces ',' s = before ++ text :: text' :: after) : isBlankText s = false := by
  refine isBlankText_of_mem (c := ',') ?_ (by decide)
  have hlength := length_pieces ',' s
  rw [h] at hlength
  simp only [List.length_append, List.length_cons] at hlength
  exact List.count_pos_iff.mp (by omega)

/-- A record with a field in it has an equals sign. -/
theorem isBlankText_of_isCut {s text key value : List Char} {before after : List (List Char)}
    (hs : pieces ',' s = before ++ text :: after) (hcut : IsCut text key value) :
    isBlankText s = false := by
  have hpiece : text ∈ pieces ',' s := by simp [hs]
  exact isBlankText_of_mem (subset_of_mem_pieces hpiece (isCut_iff.mp hcut).1) (by decide)

/-- The key of a text that is part of a blank record is empty. -/
theorem keyOf_of_isBlankText {s text : List Char} (hs : isBlankText s = true)
    (htext : text ∈ pieces ',' s) : keyOf text = [] := by
  have hblank : isBlankText text = true := by
    rw [isBlankText, List.all_eq_true] at hs ⊢
    exact fun c hc => hs c (subset_of_mem_pieces htext hc)
  rw [keyOf, ← head_parts, isBlankText_iff_parts.mp hblank]
  rfl

namespace Vocabulary

variable {κ σ : Type} (v : Vocabulary κ σ) {s t : List Char}

/-- **A record is blank after an edit** exactly when it was before. -/
theorem isBlankText_of_edit (h : Edit v.keys v.integerKeys s t) :
    isBlankText s = isBlankText t := by
  cases h with
  | blank hblank _ =>
    rw [isBlankText_append, isBlankText_append, isBlankText_cons, hblank, Bool.true_and]
  | letters h => rw [← isBlankText_map_toLower s, h, isBlankText_map_toLower]
  | comma hrecord _ => rw [hrecord, isBlankText_of_mem (c := ',') (by simp) (by decide)]
  | unknown hrecord _ hfield _ ht =>
    obtain ⟨key, value, hcut, -⟩ := hfield
    rw [hrecord, isBlankText_of_isCut ht hcut]
  | swap _ hs ht => rw [isBlankText_of_pieces hs, isBlankText_of_pieces ht]
  | earlier hkey hfield hlater hs ht =>
    obtain ⟨key, value, hcut, -⟩ := hfield
    rw [isBlankText_of_isCut ht hcut, Bool.eq_false_iff]
    intro hblank
    obtain ⟨later, hmem, hsame⟩ := hlater
    rw [← hsame, keyOf_of_isBlankText hblank (by simp [hs, hmem])] at hkey
    exact v.empty_not_mem hkey

/-! ## Reading -/

/-- The parts of a field that is accepted. -/
theorem exists_effect_of_isField {text : List Char} (h : IsField v.integerKeys text) :
    ∃ f g, Field.ofParts? (parts text) = some f ∧ f.key = String.ofList (keyOf text) ∧
      v.effect f = some g := by
  obtain ⟨f, hf, hcheck⟩ := bind_eq_ok_iff.mp ((@checkText_eq_ok_iff _ "" _).mpr h)
  rw [fieldOf_eq_ok_iff, ofText?_eq_ofParts?] at hf
  obtain ⟨g, hg⟩ := v.exists_effect hcheck
  refine ⟨f, g, hf, ?_, hg⟩
  rw [key_of_ofParts? hf, head_parts, keyOf]

/-- A record does what its texts do up to a place, and then what those behind it do. -/
theorem recordEffect_of_pieces {before after : List (List Char)}
    (h : pieces ',' s = before ++ after) :
    v.recordEffect (recordParts s) =
      andThen (v.recordEffect (before.map parts)) (v.recordEffect (after.map parts)) := by
  rw [recordParts, h, List.map_append, recordEffect_append]

/-- **A record does after an edit what it did before**, or is refused as it was. -/
theorem recordEffect_of_edit (h : Edit v.keys v.integerKeys s t) :
    v.recordEffect (recordParts s) = v.recordEffect (recordParts t) := by
  cases h with
  | @blank c s t hblank hseam =>
    have hc : isBlankText [c] = true := (isBlankText_singleton c).trans hblank
    exact congrArg v.recordEffect (recordParts_seam hc hseam).symm
  | letters h => rw [recordParts_congr h]
  | comma _ hseam =>
    obtain ⟨before, after, hs, ht⟩ := exists_pieces_sep_seam hseam
    rw [v.recordEffect_of_pieces hs, v.recordEffect_of_pieces ht, List.map_cons, recordEffect_cons]
    exact congrArg _ (id_andThen _).symm
  | @unknown s t text before after _ hkey hfield hs ht =>
    obtain ⟨key, value, hcut, hvalue⟩ := hfield
    rw [← Bool.not_eq_true, ← trim_eq_nil_iff] at hvalue
    obtain ⟨hne, hf⟩ := ofText?_of_isCut hcut hvalue
    rw [ofText?_eq_ofParts?] at hf
    rw [keyOf, ← (isCut_iff.mp hcut).2.1] at hkey
    rw [v.recordEffect_of_pieces hs, v.recordEffect_of_pieces ht, List.map_cons, recordEffect_cons,
      v.partsEffect_of_not_mem hf hkey, id_andThen]
  | @swap s t text text' before after hkeys hs ht =>
    have hheads : (parts text).headD [] ≠ (parts text').headD [] := by
      rwa [head_parts, head_parts]
    rw [v.recordEffect_of_pieces hs, v.recordEffect_of_pieces ht]
    simp only [List.map_cons, recordEffect_cons]
    rw [← andThen_assoc (v.partsEffect (parts text)), v.partsEffect_comm hheads, andThen_assoc]
  | @earlier s t text before after hkey hfield hlater hs ht =>
    obtain ⟨f, g, hf, hfkey, hg⟩ := v.exists_effect_of_isField hfield
    obtain ⟨later, hmem, hsame⟩ := hlater
    have hparts : ∃ qs ∈ after.map parts, qs.headD [] = (parts text).headD [] := by
      refine ⟨parts later, List.mem_map_of_mem hmem, ?_⟩
      rw [head_parts, head_parts]
      exact hsame
    rw [v.recordEffect_of_pieces hs, v.recordEffect_of_pieces ht, List.map_cons, recordEffect_cons,
      v.absorb_recordEffect hf (hfkey ▸ hkey) hg hparts]

/-- **A record reads the same after an edit**, without its outer blanks as with them. -/
theorem toOption_read_of_edit (h : Edit v.keys v.integerKeys s t) :
    (v.read (String.ofList (trim s))).toOption = (v.read (String.ofList (trim t))).toOption := by
  rw [toOption_read, toOption_read, String.toList_ofList, String.toList_ofList, recordParts_trim,
    recordParts_trim, v.recordEffect_of_edit h]

end Vocabulary

end Stencil.Record
