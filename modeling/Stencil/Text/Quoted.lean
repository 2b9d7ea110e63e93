import Stencil.Text.Printable

/-!
# Text/Quoted — a text shown between quotes

`quoted` shows a text the way messages quote it: between apostrophes, or between double quotes when
the text holds an apostrophe and no double quote. The enclosing quote and the backslash are escaped
by a backslash, tab and the two line ends have letters of their own, and every other character that
is not printable is written by its code point in two, four or eight hexadecimal digits.
-/

namespace Stencil.Text

/-- The apostrophe. -/
def apostrophe : Char := Char.ofNat 0x27

/-- The double quote. -/
def doubleQuote : Char := Char.ofNat 0x22

/-- The backslash. -/
def backslash : Char := Char.ofNat 0x5c

/-- The lower-case hexadecimal digit of a number below sixteen. -/
def hexDigit (n : Nat) : Char :=
  if n < 10 then Char.ofNat (0x30 + n) else Char.ofNat (0x57 + n)

/-- The last `width` hexadecimal digits of a number, most significant first. -/
def hexDigits : (width n : Nat) → List Char
  | 0, _ => []
  | width + 1, n => hexDigits width (n / 16) ++ [hexDigit (n % 16)]

/-- The number of digits is the number asked for. -/
@[simp] theorem length_hexDigits (width n : Nat) : (hexDigits width n).length = width := by
  induction width generalizing n with
  | zero => rfl
  | succ width ih => simp [hexDigits, ih]

/-- A character written by its code point, in the shortest of the three forms that holds it. -/
def codePointEscape (c : Char) : List Char :=
  let n := c.toNat
  if n ≤ 0xff then backslash :: 'x' :: hexDigits 2 n
  else if n ≤ 0xffff then backslash :: 'u' :: hexDigits 4 n
  else backslash :: 'U' :: hexDigits 8 n

/-- One character of a quoted text, between quotes of the given kind. -/
def quotedChar (quote c : Char) : List Char :=
  if c = quote || c = backslash then [backslash, c]
  else if c = '\t' then [backslash, 't']
  else if c = '\n' then [backslash, 'n']
  else if c = '\r' then [backslash, 'r']
  else if isPrintable c then [c]
  else codePointEscape c

/-- The quotes a text is shown between. -/
def enclosingQuote (s : List Char) : Char :=
  if s.contains apostrophe && !s.contains doubleQuote then doubleQuote else apostrophe

/-- **A text shown between quotes.** -/
def quotedChars (s : List Char) : List Char :=
  let quote := enclosingQuote s
  quote :: s.flatMap (quotedChar quote) ++ [quote]

/-- A string shown between quotes. -/
def quoted (s : String) : String :=
  String.ofList (quotedChars s.toList)

end Stencil.Text
