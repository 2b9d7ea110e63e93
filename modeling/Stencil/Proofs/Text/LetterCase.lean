import Mathlib
import Stencil.Text.Blank
import Stencil.Text.Case
import Stencil.Text.Pieces

/-!
# Proofs/Text/LetterCase — capital and small letters of ASCII

A text with other ASCII case has the same blanks, the same separators and the same lower-case form
(`lower_map_toLower`).  The last holds for the rule of the final sigma too: a letter stays a cased
letter whatever its case.
-/

namespace Stencil.Text

/-! ## One letter -/

/-- **What does not tell the capital letters from the small ones** does not tell a character from
its ASCII lower case. -/
theorem apply_toLower {α : Type} {f : Char → α}
    (h : ∀ k < 26, f (Char.ofNat (0x61 + k)) = f (Char.ofNat (0x41 + k))) (c : Char) :
    f c.toLower = f c := by
  by_cases hc : c.val ≥ 'A'.val ∧ c.val ≤ 'Z'.val
  · have hlo : 0x41 ≤ c.toNat := UInt32.le_iff_toNat_le.mp hc.1
    have hhi : c.toNat ≤ 0x5a := UInt32.le_iff_toNat_le.mp hc.2
    obtain ⟨k, hk⟩ := Nat.exists_eq_add_of_le hlo
    have hlower : c.toLower = Char.ofNat (0x61 + k) := by
      have hall : ∀ k < 26, (Char.ofNat (0x41 + k)).toLower = Char.ofNat (0x61 + k) := by decide
      rw [← hall k (by omega), ← hk, Char.ofNat_toNat]
    rw [hlower, h k (by omega), ← hk, Char.ofNat_toNat]
  · rw [Char.toLower, dif_neg hc]

@[simp] theorem isBlank_toLower (c : Char) : isBlank c.toLower = isBlank c :=
  apply_toLower (by decide) c

theorem isCaseIgnorable_toLower (c : Char) : isCaseIgnorable c.toLower = isCaseIgnorable c :=
  apply_toLower (by decide +kernel) c

theorem isCased_toLower (c : Char) : isCased c.toLower = isCased c :=
  apply_toLower (by decide +kernel) c

theorem lowerChar_toLower (c : Char) : lowerChar c.toLower = lowerChar c :=
  apply_toLower (by decide +kernel) c

/-- Lower-casing a letter makes no character that is none. -/
theorem toLower_eq_iff {d : Char} (hd : ∀ k < 26, Char.ofNat (0x61 + k) ≠ d)
    (hd' : ∀ k < 26, Char.ofNat (0x41 + k) ≠ d) (c : Char) : c.toLower = d ↔ c = d := by
  refine iff_of_eq (apply_toLower (f := (· = d)) (fun k hk => ?_) c)
  rw [eq_false (hd k hk), eq_false (hd' k hk)]

/-! ## Texts -/

/-- **Texts that differ in ASCII case alone.** -/
def SameLetters (s t : List Char) : Prop :=
  s.map Char.toLower = t.map Char.toLower

instance (s t : List Char) : Decidable (SameLetters s t) :=
  inferInstanceAs (Decidable (_ = _))

theorem isBlankText_map_toLower (s : List Char) :
    isBlankText (s.map Char.toLower) = isBlankText s := by
  rw [isBlankText, List.all_map, isBlankText]
  exact congrArg s.all (funext isBlank_toLower)

theorem trimLeft_map_toLower (s : List Char) :
    trimLeft (s.map Char.toLower) = (trimLeft s).map Char.toLower := by
  rw [trimLeft, List.dropWhile_map, trimLeft]
  exact congrArg (fun p => (s.dropWhile p).map _) (funext isBlank_toLower)

theorem trim_map_toLower (s : List Char) :
    trim (s.map Char.toLower) = (trim s).map Char.toLower := by
  rw [trim, trimLeft_map_toLower, trimRight, ← List.map_reverse]
  change (trimLeft ((trimLeft s).reverse.map Char.toLower)).reverse = _
  rw [trimLeft_map_toLower, ← List.map_reverse]
  rfl

theorem startsCased_map_toLower (s : List Char) :
    startsCased (s.map Char.toLower) = startsCased s := by
  have hfind : (s.map Char.toLower).find? (fun c => !isCaseIgnorable c) =
      (s.find? fun c => !isCaseIgnorable c).map Char.toLower := by
    rw [List.find?_map]
    exact congrArg (fun p => (s.find? p).map _) (funext fun c => by
      rw [Function.comp_apply, isCaseIgnorable_toLower])
  rw [startsCased, hfind, startsCased]
  cases s.find? fun c => !isCaseIgnorable c with
  | none => rfl
  | some c => exact isCased_toLower c

theorem lowerAfter_map_toLower (s : List Char) :
    ∀ afterCased, lowerAfter afterCased (s.map Char.toLower) = lowerAfter afterCased s := by
  induction s with
  | nil => exact fun _ => rfl
  | cons c rest ih =>
    intro afterCased
    have hsigma : c.toLower = capitalSigma ↔ c = capitalSigma :=
      toLower_eq_iff (by decide) (by decide) c
    simp only [List.map_cons, lowerAfter, hsigma, startsCased_map_toLower, lowerChar_toLower,
      isCaseIgnorable_toLower, isCased_toLower, ih]

/-- **The lower-case form does not depend on ASCII case.** -/
@[simp] theorem lower_map_toLower (s : List Char) : lower (s.map Char.toLower) = lower s :=
  lowerAfter_map_toLower s false

/-- **The separators of a text stand where they stand** in a text with other ASCII case. -/
theorem pieces_map_toLower {sep : Char} (hsep : ∀ c : Char, c.toLower = sep ↔ c = sep)
    (s : List Char) :
    pieces sep (s.map Char.toLower) = (pieces sep s).map fun piece => piece.map Char.toLower := by
  induction s with
  | nil => rfl
  | cons c rest ih =>
    rw [List.map_cons, pieces, pieces, ih]
    by_cases hc : c = sep
    · rw [if_pos ((hsep c).mpr hc), if_pos hc]
      rfl
    · rw [if_neg fun h => hc ((hsep c).mp h), if_neg hc]
      cases pieces sep rest <;> rfl

end Stencil.Text
