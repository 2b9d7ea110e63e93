import Stencil.Text.CodeRange

/-!
# Text/Blank — white space and trimming

A blank is a character that Unicode 14 counts as white space, or one of the four separator controls
`U+001C` to `U+001F`. `trim` drops the blanks at both ends of a text; `trim_trim` says that once is
enough, and `isBlank_of_isWhitespace` that every ASCII blank is among them.
-/

namespace Stencil.Text

/-- The code points of the blanks. -/
def blankRanges : CodeRanges :=
  [(0x9, 0xd), (0x1c, 0x20), (0x85, 0x85), (0xa0, 0xa0), (0x1680, 0x1680), (0x2000, 0x200a),
  (0x2028, 0x2029), (0x202f, 0x202f), (0x205f, 0x205f), (0x3000, 0x3000)]

/-- Whether a character counts as white space. -/
def isBlank (c : Char) : Bool :=
  blankRanges.holds c

/-- The text without the blanks at its start. -/
def trimLeft (s : List Char) : List Char :=
  s.dropWhile isBlank

/-- The text without the blanks at its end. -/
def trimRight (s : List Char) : List Char :=
  (s.reverse.dropWhile isBlank).reverse

/-- The text without the blanks at either end. -/
def trim (s : List Char) : List Char :=
  trimRight (trimLeft s)

/-- Whether a text holds nothing but blanks. -/
def isBlankText (s : List Char) : Bool :=
  s.all isBlank

theorem isBlank_of_isWhitespace {c : Char} (h : c.isWhitespace = true) : isBlank c = true := by
  simp only [Char.isWhitespace, Bool.or_eq_true, decide_eq_true_eq] at h
  rcases h with ((rfl | rfl) | rfl) | rfl <;> decide

@[simp] theorem trim_nil : trim [] = [] := rfl

/-- The last character that `trimRight` keeps is not a blank. -/
theorem trimRight_append_of_not_isBlank (s : List Char) {c : Char} (h : isBlank c = false) :
    trimRight (s ++ [c]) = s ++ [c] := by
  simp [trimRight, h]

theorem trimRight_append_of_isBlank (s : List Char) {c : Char} (h : isBlank c = true) :
    trimRight (s ++ [c]) = trimRight s := by
  simp [trimRight, h]

/-- A character that is not a blank stays at the start. -/
theorem trimRight_cons_of_not_isBlank {c : Char} (s : List Char) (h : isBlank c = false) :
    trimRight (c :: s) = c :: trimRight s := by
  simp only [trimRight, List.reverse_cons, List.dropWhile_append]
  cases hs : s.reverse.dropWhile isBlank with
  | nil => simp [h]
  | cons d r => simp

theorem trimLeft_cons_of_not_isBlank {c : Char} (s : List Char) (h : isBlank c = false) :
    trimLeft (c :: s) = c :: s := by
  simp [trimLeft, h]

theorem trimRight_trimRight (s : List Char) : trimRight (trimRight s) = trimRight s := by
  have h : ∀ r : List Char, (r.dropWhile isBlank).dropWhile isBlank = r.dropWhile isBlank := by
    intro r
    induction r with
    | nil => rfl
    | cons c r ih => by_cases hc : isBlank c <;> simp [hc, ih]
  simp [trimRight, h]

/-- **Trimming a second time changes nothing.** -/
@[simp] theorem trim_trim (s : List Char) : trim (trim s) = trim s := by
  unfold trim
  have h : ∀ r : List Char, trimLeft r = [] ∨ ∃ c t, trimLeft r = c :: t ∧ isBlank c = false := by
    intro r
    induction r with
    | nil => exact .inl rfl
    | cons c r ih =>
      by_cases hc : isBlank c = true
      · simpa [trimLeft, hc] using ih
      · exact .inr ⟨c, r, by simp [trimLeft, hc], by simpa using hc⟩
  rcases h s with hs | ⟨c, t, hs, hc⟩
  · rw [hs]
    rfl
  · rw [hs, trimRight_cons_of_not_isBlank t hc, trimLeft_cons_of_not_isBlank _ hc,
      trimRight_cons_of_not_isBlank _ hc, trimRight_trimRight]

end Stencil.Text
