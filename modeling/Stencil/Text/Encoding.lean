import Stencil.Text.Loose

/-!
# Text/Encoding — the texts that a file can hold

A file holds characters only, and half of a pair is none. `Loose.encode` gives the characters of a
text, or the halves that come first in it: all that stand together there. A text is encoded exactly
when it is plain (`encode_eq_ok_iff`).
-/

namespace Stencil.Text

/-- **Why a file cannot hold a text**: halves of pairs stand in it. -/
structure EncodingError where
  /-- The first half. -/
  half : Half
  /-- How many code points come before it. -/
  position : Nat
  /-- How many more halves follow it at once. -/
  more : Nat
  deriving Repr, DecidableEq

/-- The message of a text that a file cannot hold. -/
def EncodingError.message (e : EncodingError) : String :=
  let subject :=
    if e.more = 0 then
      "character " ++ (Loose.ofPoints [.half e.half]).quoted ++ s!" in position {e.position}"
    else s!"characters in position {e.position}-{e.position + e.more}"
  "'utf-8' codec can't encode " ++ subject ++ ": surrogates not allowed"

namespace Loose

/-- The characters of code points, before which there are `position` others. -/
def encodeFrom : (position : Nat) → List CodePoint → Except EncodingError (List Char)
  | _, [] => .ok []
  | position, .char c :: rest => (encodeFrom (position + 1) rest).map (c :: ·)
  | position, .half h :: rest => .error ⟨h, position, (rest.takeWhile CodePoint.isHalf).length⟩

/-- **The characters of a text**, if it has nothing else. -/
def encode (t : Loose) : Except EncodingError String :=
  (encodeFrom 0 t.points).map String.ofList

theorem encodeFrom_map_char (position : Nat) (s : List Char) :
    encodeFrom position (s.map .char) = .ok s := by
  induction s generalizing position with
  | nil => rfl
  | cons c s ih => rw [List.map_cons, encodeFrom, ih]; rfl

/-- A text of characters is encoded as it is. -/
@[simp] theorem encode_plain (s : String) : (plain s).encode = .ok s := by
  rw [encode, points, encodeFrom_map_char, Except.map, String.ofList_toList]

/-- Code points that are encoded are those of characters. -/
theorem eq_map_char_of_encodeFrom {position : Nat} {points : List CodePoint} {s : List Char}
    (h : encodeFrom position points = .ok s) : points = s.map .char := by
  induction points generalizing position s with
  | nil => cases h; rfl
  | cons point points ih =>
    cases point with
    | half half => cases h
    | char c =>
      rw [encodeFrom] at h
      cases hrest : encodeFrom (position + 1) points with
      | error e => rw [hrest] at h; cases h
      | ok rest =>
        rw [hrest] at h
        obtain rfl : c :: rest = s := Except.ok.inj h
        rw [ih hrest, List.map_cons]

/-- **The texts that a file can hold** are the plain ones. -/
theorem encode_eq_ok_iff {t : Loose} {s : String} : t.encode = .ok s ↔ t = plain s := by
  refine ⟨fun h => ?_, fun h => h ▸ encode_plain s⟩
  rw [encode] at h
  cases hchars : encodeFrom 0 t.points with
  | error e => rw [hchars] at h; cases h
  | ok chars =>
    rw [hchars] at h
    obtain rfl : String.ofList chars = s := Except.ok.inj h
    rw [← ofPoints_points t, eq_map_char_of_encodeFrom hchars, ofPoints_map_char]

end Loose

end Stencil.Text
