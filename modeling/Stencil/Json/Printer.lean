import Stencil.Decimal.Notation
import Stencil.Json.Value

/-!
# Json/Printer — writing JSON in ASCII

`Value.write` writes a value in one of two layouts: on one line, or with every item of a list and
every member of an object on a line of its own. Strings are written in ASCII: a character beyond it
is escaped by its one or two UTF-16 units, and half of a pair by its one. Floating-point numbers
have their shortest digits, and infinities and not-a-number have words of their own.
-/

namespace Stencil.Json

open Stencil.Text Stencil.Decimal

/-- How the items of a list and the members of an object are spread. -/
inductive Layout where
  | oneLine
  /-- One item a line, each level indented by `step` more blanks. -/
  | indented (step : Nat)
  deriving Repr, DecidableEq

/-- Floating-point numbers in JSON: as in messages, with longer words for the non-finite ones. -/
def numberFormat : Notation :=
  { Notation.plain with nan := "NaN", infinity := "Infinity" }

/-- A UTF-16 unit as an escape. -/
def unitEscape (unit : Nat) : List Char :=
  backslash :: 'u' :: hexDigits 4 unit

/-- The characters that stand for one character of a string. -/
def writeChar (c : Char) : List Char :=
  if c = doubleQuote then [backslash, doubleQuote]
  else if c = backslash then [backslash, backslash]
  else if c = '\n' then [backslash, 'n']
  else if c = '\r' then [backslash, 'r']
  else if c = '\t' then [backslash, 't']
  else if c.toNat = 0x8 then [backslash, 'b']
  else if c.toNat = 0xc then [backslash, 'f']
  else if 0x20 ≤ c.toNat && c.toNat < 0x7f then [c]
  else if c.toNat < 0x10000 then unitEscape c.toNat
  else
    let n := c.toNat - 0x10000
    unitEscape (0xd800 + n / 0x400) ++ unitEscape (0xdc00 + n % 0x400)

/-- The characters that stand for one code point of a string. -/
def writePoint : CodePoint → List Char
  | .char c => writeChar c
  | .half h => unitEscape h.unit

/-- A string literal. -/
def writeString (s : Loose) : List Char :=
  doubleQuote :: s.points.flatMap writePoint ++ [doubleQuote]

/-- What stands before an item at the given depth: nothing, or the start of its line. -/
def Layout.lead : Layout → Nat → List Char
  | oneLine, _ => []
  | indented step, depth => '\n' :: List.replicate (step * depth) ' '

/-- What stands between two items at the given depth. -/
def Layout.separator : Layout → Nat → List Char
  | oneLine, _ => [',', ' ']
  | indented step, depth => ',' :: (indented step).lead depth

mutual

/-- The characters of a value whose own brackets stand at the given depth. -/
def Value.write (layout : Layout) (depth : Nat) : Value → List Char
  | .null => "null".toList
  | .bool b => if b then "true".toList else "false".toList
  | .int n => intChars n
  | .float x => numberFormat.writeChars x
  | .text s => writeString s
  | .list [] => ['[', ']']
  | .list (item :: rest) =>
    '[' :: layout.lead (depth + 1) ++ item.write layout (depth + 1) ++
      writeItems layout (depth + 1) rest ++ layout.lead depth ++ [']']
  | .object [] => [openBrace, closeBrace]
  | .object ((name, value) :: rest) =>
    openBrace :: layout.lead (depth + 1) ++ writeString name ++ [':', ' '] ++
      value.write layout (depth + 1) ++ writeMembers layout (depth + 1) rest ++
      layout.lead depth ++ [closeBrace]

/-- The items after the first, each with its separator. -/
def writeItems (layout : Layout) (depth : Nat) : List Value → List Char
  | [] => []
  | item :: rest =>
    layout.separator depth ++ item.write layout depth ++ writeItems layout depth rest

/-- The members after the first, each with its separator. -/
def writeMembers (layout : Layout) (depth : Nat) : List (Loose × Value) → List Char
  | [] => []
  | (name, value) :: rest =>
    layout.separator depth ++ writeString name ++ [':', ' '] ++
      value.write layout depth ++ writeMembers layout depth rest

end

/-- **The text of a value.** -/
def Value.print (layout : Layout) (value : Value) : String :=
  String.ofList (value.write layout 0)

end Stencil.Json
