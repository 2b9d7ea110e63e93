import Stencil.Text.Case.Table

/-!
# Text/Case — lower-casing

`lower` is the full Unicode 14 lower-casing of a text. Each character has its own lower-case form
(`lowerChar`), which is one character except for `U+0130`, whose form is `i` with a dot above. The
one rule that looks at the neighbours is the capital sigma's: it becomes the final sigma when a
cased letter comes before it and none comes after it, case-ignorable characters being skipped on
both sides.
-/

namespace Stencil.Text

/-- The lower-case form of a single character, whatever stands beside it. -/
def lowerChar (c : Char) : List Char :=
  if c.toNat = 0x130 then [Char.ofNat 0x69, Char.ofNat 0x307]
  else if c.toNat < 0x80 then [c.toLower]
  else
    match lowerRuns.find? fun r => r.covers c.toNat with
    | some r => [Char.ofNat (c.toNat + r.shift).toNat]
    | none => [c]

/-- Whether the sigma rule skips the character. -/
def isCaseIgnorable (c : Char) : Bool :=
  caseIgnorableRanges.holds c

/-- Whether the character counts as a cased letter for the sigma rule. -/
def isCased (c : Char) : Bool :=
  casedRanges.holds c

/-- Whether the first character that is not case-ignorable is cased. -/
def startsCased (s : List Char) : Bool :=
  match s.find? fun c => !isCaseIgnorable c with
  | some c => isCased c
  | none => false

/-- The capital sigma. -/
def capitalSigma : Char := Char.ofNat 0x3a3

/-- The small sigma that ends a word. -/
def finalSigma : Char := Char.ofNat 0x3c2

/-- The small sigma of all other places. -/
def smallSigma : Char := Char.ofNat 0x3c3

/-- Lower-casing of the rest of a text, given whether the last character before it that is not
case-ignorable is cased. -/
def lowerAfter (afterCased : Bool) : List Char → List Char
  | [] => []
  | c :: rest =>
    (if c = capitalSigma then
        [if afterCased && !startsCased rest then finalSigma else smallSigma]
      else lowerChar c) ++
      lowerAfter (if isCaseIgnorable c then afterCased else isCased c) rest

/-- **The lower-case form of a text.** -/
def lower (s : List Char) : List Char :=
  lowerAfter false s

@[simp] theorem lower_nil : lower [] = [] := rfl

/-- Every character has a lower-case form. -/
theorem lowerChar_ne_nil (c : Char) : lowerChar c ≠ [] := by
  unfold lowerChar
  split
  · simp
  · split
    · simp
    · split <;> simp

theorem lowerAfter_eq_nil_iff {afterCased : Bool} {s : List Char} :
    lowerAfter afterCased s = [] ↔ s = [] := by
  cases s with
  | nil => simp [lowerAfter]
  | cons c rest =>
    by_cases h : c = capitalSigma <;> simp [lowerAfter, h, lowerChar_ne_nil]

/-- Lower-casing empties no text. -/
@[simp] theorem lower_eq_nil_iff {s : List Char} : lower s = [] ↔ s = [] :=
  lowerAfter_eq_nil_iff

end Stencil.Text
