import Stencil.Proofs.Record.Margin
import Stencil.Proofs.Text.LetterCase
import Stencil.Proofs.Text.Seam

/-!
# Proofs/Record/Parts — what counts of a record

    width = 10 , Shape=STAR ,  ──▸  [[width, 10], [shape, star], [[]]]

A record counts by the parts of its texts between commas: what stands between the equals signs of
each, in normal form.  Blanks beside a separator or at an end of the record are not among the parts
(`recordParts_seam`), nor is the case of a letter (`recordParts_congr`), while whether a text is
blank (`isBlankText_iff_parts`) and which field it holds (`ofText?_eq_ofParts?`) can be told from
them.
-/

namespace Stencil.Record

open Stencil.Text

/-- **The parts of a text between two commas**: what stands between its equals signs, in normal
form. -/
def parts (text : List Char) : List (List Char) :=
  (pieces '=' text).map normal

/-- **What counts of a record**: the parts of its texts between commas. -/
def recordParts (record : List Char) : List (List (List Char)) :=
  (pieces ',' record).map parts

/-! ## Key and value -/

theorem exists_pieces_eq_takeWhile (sep : Char) (s : List Char) :
    ∃ more, pieces sep s = s.takeWhile (· ≠ sep) :: more := by
  obtain ⟨first, more, hs⟩ := List.exists_cons_of_ne_nil (pieces_ne_nil sep s)
  by_cases h : sep ∈ s
  · obtain ⟨front, rest, rfl, hfront⟩ := List.eq_append_cons_of_mem h
    have hne : ∀ c ∈ front, decide (c ≠ sep) = true := fun c hc =>
      decide_eq_true fun hsep => hfront (hsep ▸ hc)
    refine ⟨pieces sep rest, ?_⟩
    rw [pieces_append_cons hfront, List.takeWhile_append_of_pos hne]
    simp
  · have hne : ∀ c ∈ s, decide (c ≠ sep) = true := fun c hc =>
      decide_eq_true fun hsep => h (hsep ▸ hc)
    exact ⟨[], by rw [pieces_eq_singleton h, List.takeWhile_eq_self_iff.mpr hne]⟩

/-- **The first two parts of a text** are its key and its value. -/
theorem exists_parts_eq {text : List Char} (h : '=' ∈ text) :
    ∃ more, parts text = normal (keyPart text) :: normal (valuePart text) :: more := by
  obtain ⟨key, rest, rfl, hkey⟩ := List.eq_append_cons_of_mem h
  obtain ⟨more, hrest⟩ := exists_pieces_eq_takeWhile '=' rest
  have hcut : IsCut (key ++ '=' :: rest) key (rest.takeWhile (· ≠ '=')) := by
    refine ⟨hkey, fun h => ?_, rest.dropWhile (· ≠ '='), ?_, fun c hc => ?_⟩
    · simpa using List.mem_takeWhile_imp h
    · rw [List.takeWhile_append_dropWhile]
    · have := List.head?_dropWhile_not (· ≠ '=') rest
      rw [hc] at this
      simpa using this
  obtain ⟨-, hkeyPart, hvaluePart⟩ := isCut_iff.mp hcut
  refine ⟨more.map normal, ?_⟩
  rw [parts, pieces_append_cons hkey, hrest, ← hkeyPart, ← hvaluePart]
  rfl

theorem parts_of_not_mem {text : List Char} (h : '=' ∉ text) : parts text = [normal text] := by
  rw [parts, pieces_eq_singleton h, List.map_singleton]

/-- The key of a text, whether it has an equals sign or not, is its first part. -/
theorem head_parts (text : List Char) : (parts text).headD [] = normal (keyPart text) := by
  by_cases h : '=' ∈ text
  · obtain ⟨more, hparts⟩ := exists_parts_eq h
    rw [hparts, List.headD_cons]
  · have hkey : keyPart text = text := List.takeWhile_eq_self_iff.mpr (ne_equals_of_mem h)
    rw [parts_of_not_mem h, hkey, List.headD_cons]

/-- **A text is blank** exactly when its one part is empty. -/
theorem isBlankText_iff_parts {text : List Char} : isBlankText text = true ↔ parts text = [[]] := by
  by_cases h : '=' ∈ text
  · obtain ⟨more, hparts⟩ := exists_parts_eq h
    refine iff_of_false (fun hblank => ?_) fun hnil => ?_
    · exact absurd (List.all_eq_true.mp hblank '=' h) (by decide)
    · rw [hparts] at hnil
      exact List.cons_ne_nil _ _ (List.cons.inj hnil).2
  · rw [parts_of_not_mem h, ← trim_eq_nil_iff, List.cons.injEq, and_iff_left rfl, normal,
      lower_eq_nil_iff]

/-- The field of a list of parts. -/
def Field.ofParts? : List (List Char) → Option Field
  | key :: value :: _ =>
    if h : value = [] then none
    else some ⟨String.ofList key, String.ofList value, by rwa [ne_eq, String.ofList_eq_empty_iff]⟩
  | _ => none

/-- **The field of a text** is the field of its parts. -/
theorem ofText?_eq_ofParts? (text : List Char) :
    Field.ofText? text = Field.ofParts? (parts text) := by
  by_cases h : '=' ∈ text
  · obtain ⟨more, hparts⟩ := exists_parts_eq h
    rw [hparts, Field.ofText?, Field.ofParts?]
    by_cases hvalue : trim (valuePart text) = []
    · rw [dif_pos hvalue, dif_pos (by rw [normal, hvalue, lower_nil])]
    · rw [dif_neg hvalue, dif_neg (normal_ne_nil_iff.mpr hvalue)]
  · rw [parts_of_not_mem h, Field.ofParts?]
    · have hvalue : valuePart text = [] := by
        rw [valuePart, List.dropWhile_eq_nil_iff.mpr (ne_equals_of_mem h)]
        rfl
      rw [Field.ofText?, dif_pos (by rw [hvalue, trim_nil])]
    · intro key value more h
      exact List.cons_ne_nil value more (List.cons.inj h).2.symm

/-! ## Blanks at a seam -/

/-- A blank text holds no separator. -/
theorem not_mem_of_isBlankText {m : List Char} (hm : isBlankText m = true) :
    ',' ∉ m ∧ '=' ∉ m := by
  rw [isBlankText, List.all_eq_true] at hm
  exact ⟨fun h => (ne_of_isBlank (hm _ h)).1 rfl, fun h => (ne_of_isBlank (hm _ h)).2 rfl⟩

theorem parts_seam {m p q : List Char} (hm : isBlankText m = true) (h : IsSeam ['='] p q) :
    parts (p ++ (m ++ q)) = parts (p ++ q) := by
  obtain ⟨before, p', q', after, hends, hpieces⟩ := exists_pieces_seam h
  have hnormal : normal (p' ++ (m ++ q')) = normal (p' ++ q') := by
    rw [normal, normal]
    rcases isSeam_nil_iff.mp hends with rfl | rfl
    · rw [List.nil_append, List.nil_append, trim_append_left hm]
    · rw [List.append_nil, List.append_nil, trim_append_right hm]
  have hplain := hpieces [] List.not_mem_nil
  rw [List.nil_append, List.nil_append] at hplain
  rw [parts, parts, hpieces m (not_mem_of_isBlankText hm).2, hplain, List.map_append,
    List.map_cons, hnormal, List.map_append, List.map_cons]

/-- **Blanks beside a separator**, or at an end of a record, do not count. -/
theorem recordParts_seam {m s t : List Char} (hm : isBlankText m = true)
    (h : IsSeam [',', '='] s t) : recordParts (s ++ (m ++ t)) = recordParts (s ++ t) := by
  obtain ⟨before, p, q, after, hseam, hpieces⟩ := exists_pieces_seam h
  have hplain := hpieces [] List.not_mem_nil
  rw [List.nil_append, List.nil_append] at hplain
  rw [recordParts, recordParts, hpieces m (not_mem_of_isBlankText hm).1, hplain, List.map_append,
    List.map_cons, parts_seam hm hseam, List.map_append, List.map_cons]

/-- What trimming takes away. -/
theorem exists_append_trim (s : List Char) :
    ∃ left right, isBlankText left = true ∧ isBlankText right = true ∧
      s = left ++ (trim s ++ right) := by
  refine ⟨s.takeWhile isBlank, (trimLeft s).rtakeWhile isBlank, ?_, ?_, ?_⟩
  · exact List.all_eq_true.mpr fun c hc => List.mem_takeWhile_imp hc
  · exact List.all_eq_true.mpr fun c hc => List.mem_rtakeWhile_imp hc
  · rw [trim, trimRight_eq_rdropWhile, List.rdropWhile_append_rtakeWhile, trimLeft,
      List.takeWhile_append_dropWhile]

/-- **A record counts as it does without its outer blanks.** -/
theorem recordParts_trim (s : List Char) : recordParts (trim s) = recordParts s := by
  obtain ⟨left, right, hleft, hright, hs⟩ := exists_append_trim s
  have hends : recordParts (trim s ++ right) = recordParts (trim s) := by
    have := recordParts_seam hright (s := trim s) (t := []) (Or.inr nofun)
    rwa [List.append_nil, List.append_nil] at this
  calc recordParts (trim s)
      = recordParts (trim s ++ right) := hends.symm
    _ = recordParts (left ++ (trim s ++ right)) :=
        (recordParts_seam hleft (s := []) (Or.inl nofun)).symm
    _ = recordParts s := by rw [← hs]

/-! ## The case of letters -/

theorem normal_map_toLower (s : List Char) : normal (s.map Char.toLower) = normal s := by
  rw [normal, trim_map_toLower, lower_map_toLower, normal]

theorem recordParts_map_toLower (s : List Char) :
    recordParts (s.map Char.toLower) = recordParts s := by
  have hcomma : ∀ c : Char, c.toLower = ',' ↔ c = ',' := toLower_eq_iff (by decide) (by decide)
  have hequals : ∀ c : Char, c.toLower = '=' ↔ c = '=' := toLower_eq_iff (by decide) (by decide)
  have hparts : ∀ text : List Char, parts (text.map Char.toLower) = parts text := by
    intro text
    rw [parts, pieces_map_toLower hequals, List.map_map, parts]
    exact List.map_congr_left fun piece _ => normal_map_toLower piece
  rw [recordParts, pieces_map_toLower hcomma, List.map_map, recordParts]
  exact List.map_congr_left fun text _ => hparts text

/-- **The case of ASCII letters** does not count. -/
theorem recordParts_congr {s t : List Char} (h : SameLetters s t) :
    recordParts s = recordParts t := by
  rw [← recordParts_map_toLower s, h, recordParts_map_toLower]

end Stencil.Record
