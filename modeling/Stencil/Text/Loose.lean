import Stencil.Text.Quoted

/-!
# Text/Loose — texts in which halves of pairs stand alone

A character beyond `U+FFFF` takes two units of UTF-16, and a text that is written in such units may
hold one half of a pair without the other. A `CodePoint` is a character or such a half, and a
`Loose` text is made of them: a plain one of characters only, a broken one with a half at least.
`ofPoints_points` says that the code points of a text determine it, and `points_ofPoints` that every
list of code points is that of a text.
-/

namespace Stencil.Text

/-- **Half of a pair** of UTF-16 units. -/
structure Half where
  unit : Nat
  mem_range : 0xd800 ≤ unit ∧ unit ≤ 0xdfff
  deriving Repr, DecidableEq

/-- **A code point**: a character, or half of a pair that stands alone. -/
inductive CodePoint where
  | char (c : Char)
  | half (h : Half)
  deriving Repr, DecidableEq

namespace CodePoint

/-- Whether a code point is half of a pair. -/
def isHalf : CodePoint → Bool
  | char _ => false
  | half _ => true

/-- The character that a code point is shown as: the replacement character stands for a half. -/
def shown : CodePoint → Char
  | char c => c
  | half _ => Char.ofNat 0xfffd

end CodePoint

/-- **A text** of characters, or one in which halves of pairs stand alone as well. -/
inductive Loose where
  | plain (s : String)
  | broken (points : List CodePoint) (any_half : points.any CodePoint.isHalf = true)
  deriving Repr, DecidableEq

namespace Loose

instance : Coe String Loose := ⟨plain⟩

instance : Coe (Option String) (Option Loose) := ⟨Option.map plain⟩

instance : Inhabited Loose := ⟨plain ""⟩

theorem plain_ne {s : String} (h : s ≠ "") : plain s ≠ plain "" :=
  mt plain.inj h

/-- Whether a text is one of characters only. -/
def isPlain : Loose → Bool
  | plain _ => true
  | broken .. => false

theorem isPlain_iff {t : Loose} : t.isPlain = true ↔ ∃ s, t = plain s := by
  cases t with
  | plain s => exact ⟨fun _ => ⟨s, rfl⟩, fun _ => rfl⟩
  | broken points h => exact ⟨nofun, nofun⟩

/-- The code points of a text. -/
def points : Loose → List CodePoint
  | plain s => s.toList.map .char
  | broken points _ => points

/-- The text of some code points. -/
def ofPoints (points : List CodePoint) : Loose :=
  if h : points.any CodePoint.isHalf = true then broken points h
  else plain (String.ofList (points.map CodePoint.shown))

/-- The text as it is shown, with the replacement character for a half. -/
def shown : Loose → String
  | plain s => s
  | broken points _ => String.ofList (points.map CodePoint.shown)

@[simp] theorem shown_plain (s : String) : (plain s).shown = s := rfl

@[simp] theorem ofPoints_points (t : Loose) : ofPoints t.points = t := by
  cases t with
  | plain s =>
    have h : (s.toList.map CodePoint.char).any CodePoint.isHalf = false := by
      rw [List.any_map, List.any_eq_false]
      exact fun _ _ => Bool.false_ne_true
    have hs : CodePoint.shown ∘ CodePoint.char = id := rfl
    rw [points, ofPoints, dif_neg (by rw [h]; exact Bool.false_ne_true), List.map_map, hs,
      List.map_id, String.ofList_toList]
  | broken points h => exact dif_pos h

/-- The code points of a text made of them. -/
@[simp] theorem points_ofPoints (points : List CodePoint) : (ofPoints points).points = points := by
  rw [ofPoints]
  split
  next => rfl
  next hhalf =>
    have hchar : ∀ point ∈ points, CodePoint.char point.shown = point := by
      intro point hpoint
      cases point with
      | char c => rfl
      | half h => exact absurd (List.any_eq_true.mpr ⟨_, hpoint, rfl⟩) hhalf
    rw [Loose.points, String.toList_ofList, List.map_map]
    exact (List.map_congr_left hchar).trans (List.map_id points)

/-- A text is plain when its code points are characters. -/
theorem ofPoints_map_char (s : List Char) :
    ofPoints (s.map CodePoint.char) = plain (String.ofList s) := by
  rw [← ofPoints_points (plain (String.ofList s)), points, String.toList_ofList]

/-! ## Putting texts together -/

instance : Append Loose := ⟨fun s t => ofPoints (s.points ++ t.points)⟩

/-- Texts one after the other, with another one between any two of them. -/
def intercalate (separator : Loose) (texts : List Loose) : Loose :=
  ofPoints (separator.points.intercalate (texts.map points))

theorem points_append (s t : Loose) : (s ++ t).points = s.points ++ t.points :=
  points_ofPoints _

/-- Plain texts make a plain one. -/
@[simp] theorem plain_append (s t : String) : plain s ++ plain t = plain (s ++ t) := by
  rw [← ofPoints_points (plain s ++ plain t), points_append, points, points, ← List.map_append,
    ← String.toList_append, ofPoints_map_char, String.ofList_toList]

theorem points_intercalate_plain (separator : String) (texts : List String) :
    (intercalate (plain separator) (texts.map plain)).points =
      (separator.toList.intercalate (texts.map String.toList)).map .char := by
  rw [intercalate, points_ofPoints]
  induction texts with
  | nil => rfl
  | cons first texts ih =>
    cases texts with
    | nil => simp [points]
    | cons second texts =>
      simp only [List.map_cons, List.intercalate_cons_cons, List.map_append] at ih ⊢
      rw [ih]
      rfl

/-- Plain texts are joined to a plain one. -/
@[simp] theorem intercalate_plain (separator : String) (texts : List String) :
    intercalate (plain separator) (texts.map plain) =
      plain (String.intercalate separator texts) := by
  rw [← ofPoints_points (intercalate _ _), points_intercalate_plain, ofPoints_map_char,
    ← String.toList_intercalate, String.ofList_toList]

/-! ## Quoting -/

/-- A code point of a quoted text, between quotes of the given kind. -/
def quotedPoint (quote : Char) : CodePoint → List Char
  | .char c => quotedChar quote c
  | .half h => backslash :: 'u' :: hexDigits 4 h.unit

/-- **A text shown between quotes**, with its halves escaped. -/
def quotedPoints (points : List CodePoint) : List Char :=
  let quote := enclosingQuote (points.map CodePoint.shown)
  quote :: points.flatMap (quotedPoint quote) ++ [quote]

/-- A text shown between quotes. -/
def quoted (t : Loose) : String :=
  String.ofList (quotedPoints t.points)

/-- A plain text is quoted like any other. -/
@[simp] theorem quoted_plain (s : String) : (plain s).quoted = Text.quoted s := by
  have hs : CodePoint.shown ∘ CodePoint.char = id := rfl
  have hq : ∀ q : Char, (fun c => quotedPoint q (CodePoint.char c)) = quotedChar q := fun _ => rfl
  simp only [quoted, quotedPoints, points, List.map_map, hs, List.map_id, List.flatMap_map, hq,
    Text.quoted, quotedChars]

end Loose

end Stencil.Text
