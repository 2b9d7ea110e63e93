import Stencil.Decimal.Binary
import Stencil.Text.Blank
import Stencil.Text.Digit

/-!
# Decimal/Reading — reading numbers

`numberFromText?` reads a number the way a person may type one: blanks around it, a sign, digits of
any script, single underscores between digits, a fraction, an exponent, or the words for infinity
and not-a-number. `ofDecimal` rounds a decimal to the nearest double, ties to the even mantissa, and
is what every reader of numbers ends in.
-/

namespace Stencil.Decimal

/-- The most digits a whole number may have. -/
def maxDigits : Nat := 4300

/-- The message for a whole number of too many digits. -/
def tooManyDigitsMessage (count : Nat) : String :=
  s!"Exceeds the limit ({maxDigits} digits) for integer string conversion: value has {count} " ++
    "digits; use sys.set_int_max_str_digits() to increase the limit"

/-- The message for a whole number that is too long to be written. -/
def tooLongMessage : String :=
  s!"Exceeds the limit ({maxDigits} digits) for integer string conversion; use " ++
    "sys.set_int_max_str_digits() to increase the limit"

/-- The number written by a list of digit values, most significant first. -/
def ofDigits (digits : List Nat) : Nat :=
  digits.foldl (fun n d => 10 * n + d) 0

/-- The double nearest to `± digits * 10 ^ place`. Beyond a few hundred places either way only the
number of digits matters: the result is an infinity or a zero. -/
def ofDecimal (negative : Bool) (digits : List Nat) (place : Int) : Float :=
  let digits := digits.dropWhile (· == 0)
  let x : Float :=
    if digits.isEmpty || place + digits.length < -400 then 0
    else if 400 < place + digits.length then 1 / 0
    else Float.ofScientific (ofDigits digits) (place < 0) place.natAbs
  if negative then -x else x

/-- A sign and what follows it. -/
def takeSign : List Char → Bool × List Char
  | '-' :: rest => (true, rest)
  | '+' :: rest => (false, rest)
  | s => (false, s)

/-- The leading ASCII digits and what follows them. -/
def takeDigits : List Char → List Nat × List Char
  | [] => ([], [])
  | c :: rest =>
    match Text.asciiDigit? c with
    | some d => (d :: (takeDigits rest).1, (takeDigits rest).2)
    | none => ([], c :: rest)

/-- A whole number with an optional sign that fills the text. -/
def wholeNumber? (s : List Char) : Option Int :=
  let (negative, rest) := takeSign s
  match takeDigits rest with
  | ([], _) => none
  | (digits, []) => some (Binary.signed negative (ofDigits digits))
  | _ => none

/-- An exponent that fills the text: the mark, an optional sign and digits; or nothing at all. -/
def exponent? : List Char → Option Int
  | [] => some 0
  | c :: rest => if c = 'e' || c = 'E' then wholeNumber? rest else none

/-- A fraction and what follows it. -/
def takeFraction : List Char → List Nat × List Char
  | '.' :: rest => takeDigits rest
  | s => ([], s)

/-- An unsigned number in ASCII without blanks or underscores. -/
def unsigned? (negative : Bool) (s : List Char) : Option Float :=
  let (whole, afterWhole) := takeDigits s
  let (fraction, afterFraction) := takeFraction afterWhole
  if whole.isEmpty && fraction.isEmpty then none
  else
    (exponent? afterFraction).map fun power =>
      ofDecimal negative (whole ++ fraction) (power - fraction.length)

/-- The words that name an infinity or not-a-number, in lower case. -/
def named? (negative : Bool) (s : List Char) : Option Float :=
  let word := String.ofList (s.map Char.toLower)
  if word = "inf" || word = "infinity" then some (if negative then -(1 / 0) else 1 / 0)
  else if word = "nan" then some (0 / 0)
  else none

/-- A text without its underscores, each of which must stand between two ASCII digits;
`afterDigit` says whether a digit comes just before. -/
def dropUnderscores? (afterDigit : Bool) : List Char → Option (List Char)
  | [] => some []
  | '_' :: c :: rest =>
    if afterDigit && c.isDigit then (dropUnderscores? true rest).map (c :: ·) else none
  | c :: rest =>
    if c = '_' then none else (dropUnderscores? c.isDigit rest).map (c :: ·)

/-- The ASCII blanks that may surround a number. -/
def isAsciiBlank (c : Char) : Bool :=
  c = ' ' || (0x9 ≤ c.toNat && c.toNat ≤ 0xd)

/-- A text with the digits of every script in ASCII and every blank beyond ASCII as a space. Any
other character beyond ASCII is kept; no number holds one. -/
def toAscii (s : List Char) : List Char :=
  s.map fun c =>
    if c.toNat < 0x7f then c
    else if Text.isBlank c then ' '
    else
      match Text.decimalDigit? c with
      | some d => Char.ofNat (0x30 + d)
      | none => c

/-- A text of a number without the blanks around it and the underscores in it. -/
def bareNumber? (s : List Char) : Option (List Char) :=
  let s := (toAscii s).dropWhile isAsciiBlank
  dropUnderscores? false (s.reverse.dropWhile isAsciiBlank).reverse

/-- **The whole number a text stands for**, if it has no more digits than are allowed. -/
def wholeFromText? (s : List Char) : Option Int :=
  (bareNumber? s).bind fun s =>
    if maxDigits < (takeDigits (takeSign s).2).1.length then none else wholeNumber? s

/-- **The number a text stands for.** -/
def numberFromText? (s : List Char) : Option Float :=
  (bareNumber? s).bind fun s =>
    let (negative, rest) := takeSign s
    match named? negative rest with
    | some x => some x
    | none => unsigned? negative rest

end Stencil.Decimal
