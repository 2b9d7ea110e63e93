import Stencil.Decimal.Reading
import Stencil.Json.Value

/-!
# Json/Reader — reading JSON

`Value.read` reads the one JSON value of a text. Beyond the standard it takes the words `NaN`,
`Infinity` and `-Infinity` for numbers; when a member name is repeated the last value counts. An
escape may write half of a UTF-16 pair without the other. A whole number of more than `maxDigits`
digits and a nest of more than `maxDepth` lists and objects are refused by causes of their own.

Every reading function returns what it read and the rest of the text. The nesting of values is
followed with `fuel`: one more than the length of the text is always enough, since each step that
uses some has read a character.
-/

namespace Stencil.Json

open Stencil.Text Stencil.Decimal

/-- What holds other values. -/
inductive Nest where
  | list
  | object
  deriving Repr, DecidableEq

/-- The word for what holds other values. -/
def Nest.word : Nest → String
  | list => "array"
  | object => "object"

/-- Why a text is not read. -/
inductive ReadError where
  /-- The text is not a JSON value. -/
  | malformed
  /-- A whole number has this many digits, which is more than `maxDigits`. -/
  | tooManyDigits (count : Nat)
  /-- There is such a value within `maxDepth` lists and objects. -/
  | tooDeep (nest : Nest)
  deriving Repr, DecidableEq

/-- The most lists and objects that may lie within each other. -/
def maxDepth : Nat := 990

/-- Blanks that may stand between the parts of a text. -/
def isGap (c : Char) : Bool :=
  c = ' ' || c = '\t' || c = '\n' || c = '\r'

/-- The text after the blanks at its start. -/
def skipGap (s : List Char) : List Char :=
  s.dropWhile isGap

/-- The rest of a text that starts with the given characters. -/
def after? : (start text : List Char) → Option (List Char)
  | [], s => some s
  | c :: cs, d :: ds => if c = d then after? cs ds else none
  | _ :: _, [] => none

/-- The value of a hexadecimal digit. -/
def hexValue? (c : Char) : Option Nat :=
  let n := c.toNat
  if 0x30 ≤ n && n ≤ 0x39 then some (n - 0x30)
  else if 0x41 ≤ n && n ≤ 0x46 then some (n - 0x37)
  else if 0x61 ≤ n && n ≤ 0x66 then some (n - 0x57)
  else none

/-- A number of exactly four hexadecimal digits, and the rest. -/
def readUnit? : List Char → Option (Nat × List Char)
  | a :: b :: c :: d :: rest => do
    let a ← hexValue? a
    let b ← hexValue? b
    let c ← hexValue? c
    let d ← hexValue? d
    return (((a * 16 + b) * 16 + c) * 16 + d, rest)
  | _ => none

/-- Whether a UTF-16 unit opens a pair. -/
def isHighUnit (n : Nat) : Bool :=
  0xd800 ≤ n && n ≤ 0xdbff

/-- Whether a UTF-16 unit closes a pair. -/
def isLowUnit (n : Nat) : Bool :=
  0xdc00 ≤ n && n ≤ 0xdfff

/-- The code point of a unit that has no partner. -/
def ofUnit (n : Nat) : CodePoint :=
  if h : 0xd800 ≤ n ∧ n ≤ 0xdfff then .half ⟨n, h⟩ else .char (Char.ofNat n)

/-- The second half of a pair, when the text goes on with one. -/
def readLowUnit? : List Char → Option (Nat × List Char)
  | '\\' :: 'u' :: rest => (readUnit? rest).filter fun r => isLowUnit r.1
  | _ => none

/-- The code point that an escape stands for, read from behind its backslash. -/
def readEscape : List Char → Except ReadError (CodePoint × List Char)
  | '"' :: rest => .ok (.char (Char.ofNat 0x22), rest)
  | '\\' :: rest => .ok (.char (Char.ofNat 0x5c), rest)
  | '/' :: rest => .ok (.char '/', rest)
  | 'b' :: rest => .ok (.char (Char.ofNat 0x8), rest)
  | 'f' :: rest => .ok (.char (Char.ofNat 0xc), rest)
  | 'n' :: rest => .ok (.char '\n', rest)
  | 'r' :: rest => .ok (.char '\r', rest)
  | 't' :: rest => .ok (.char '\t', rest)
  | 'u' :: rest =>
    match readUnit? rest with
    | none => .error .malformed
    | some (high, rest) =>
      if isHighUnit high then
        match readLowUnit? rest with
        | some (low, rest) =>
          .ok (.char (Char.ofNat (0x10000 + (high - 0xd800) * 0x400 + (low - 0xdc00))), rest)
        | none => .ok (ofUnit high, rest)
      else .ok (ofUnit high, rest)
  | _ => .error .malformed

/-- The code points of a string up to its closing quote, read from behind the opening one. -/
def readPoints : (fuel : Nat) → List Char → Except ReadError (List CodePoint × List Char)
  | 0, _ => .error .malformed
  | _ + 1, [] => .error .malformed
  | _ + 1, '"' :: rest => .ok ([], rest)
  | fuel + 1, '\\' :: rest => do
    let (point, rest) ← readEscape rest
    let (points, rest) ← readPoints fuel rest
    return (point :: points, rest)
  | fuel + 1, c :: rest =>
    if c.toNat < 0x20 then .error .malformed
    else do
      let (points, rest) ← readPoints fuel rest
      return (.char c :: points, rest)

/-- A string, read from behind its opening quote. -/
def readString (s : List Char) : Except ReadError (Loose × List Char) := do
  let (points, rest) ← readPoints (s.length + 1) s
  return (Loose.ofPoints points, rest)

/-- The whole part of a number: a zero alone or digits that start with another. -/
def readWhole? : List Char → Option (List Nat × List Char)
  | '0' :: rest => some ([0], rest)
  | s =>
    match takeDigits s with
    | ([], _) => none
    | r => some r

/-- A fraction, when the text goes on with one that has a digit. -/
def readFraction : List Char → List Nat × List Char
  | '.' :: rest =>
    match takeDigits rest with
    | ([], _) => ([], '.' :: rest)
    | r => r
  | s => ([], s)

/-- An exponent, when the text goes on with one that has a digit. -/
def readExponent? : List Char → Option (Int × List Char)
  | c :: rest =>
    if c = 'e' || c = 'E' then
      let (negative, rest) := takeSign rest
      match takeDigits rest with
      | ([], _) => none
      | (digits, rest) => some (Binary.signed negative (ofDigits digits), rest)
    else none
  | [] => none

/-- A number whose sign has been read. -/
def readNumber (negative : Bool) (s : List Char) : Except ReadError (Value × List Char) :=
  match readWhole? s with
  | none => .error .malformed
  | some (whole, afterWhole) =>
    let (fraction, afterFraction) := readFraction afterWhole
    match readExponent? afterFraction with
    | some (power, rest) =>
      .ok (.float (ofDecimal negative (whole ++ fraction) (power - fraction.length)), rest)
    | none =>
      if fraction.isEmpty then
        if maxDigits < whole.length then .error (.tooManyDigits whole.length)
        else .ok (.int (Binary.signed negative (ofDigits whole)), afterFraction)
      else .ok (.float (ofDecimal negative (whole ++ fraction) (-fraction.length)), afterFraction)

/-- The words that are values, with those values. -/
def words : List (List Char × Value) :=
  [("null".toList, .null), ("true".toList, .bool true), ("false".toList, .bool false),
   ("NaN".toList, .float (0 / 0)), ("Infinity".toList, .float (1 / 0)),
   ("-Infinity".toList, .float (-(1 / 0)))]

/-- A value that is one word, and the rest. -/
def readWord? (s : List Char) : Option (Value × List Char) :=
  words.findSome? fun (word, value) => (after? word s).map fun rest => (value, rest)

/-- A value that has no parts: a word or a number. -/
def readAtom (s : List Char) : Except ReadError (Value × List Char) :=
  match readWord? s with
  | some r => .ok r
  | none =>
    match s with
    | '-' :: rest => readNumber true rest
    | _ => readNumber false s

mutual

/-- A value at the start of a text, in which `room` lists and objects may lie within each other. -/
def readValue : (fuel room : Nat) → List Char → Except ReadError (Value × List Char)
  | 0, _, _ => .error .malformed
  | _ + 1, _, [] => .error .malformed
  | fuel + 1, room, c :: rest =>
    if c = '"' then do
      let (s, rest) ← readString rest
      return (.text s, rest)
    else if c = '[' then
      match room, skipGap rest with
      | 0, _ => .error (.tooDeep .list)
      | _ + 1, ']' :: rest => .ok (.list [], rest)
      | room + 1, rest => do
        let (items, rest) ← readItems fuel room rest
        return (.list items, rest)
    else if c = openBrace then
      match room, skipGap rest with
      | 0, _ => .error (.tooDeep .object)
      | _ + 1, [] => .error .malformed
      | room + 1, d :: rest =>
        if d = closeBrace then .ok (.object [], rest)
        else do
          let (members, rest) ← readMembers fuel room [] (d :: rest)
          return (.object members, rest)
    else readAtom (c :: rest)

/-- The items of a list that has one at least, through its closing bracket. -/
def readItems : (fuel room : Nat) → List Char → Except ReadError (List Value × List Char)
  | 0, _, _ => .error .malformed
  | fuel + 1, room, s => do
    let (item, rest) ← readValue fuel room s
    match skipGap rest with
    | ']' :: rest => return ([item], rest)
    | ',' :: rest =>
      let (items, rest) ← readItems fuel room (skipGap rest)
      return (item :: items, rest)
    | _ => throw .malformed

/-- The members of an object that has one at least, through its closing brace, after those in
`before`. -/
def readMembers :
    (fuel room : Nat) → Members → List Char → Except ReadError (Members × List Char)
  | fuel + 1, room, before, '"' :: s => do
    let (name, rest) ← readString s
    match skipGap rest with
    | ':' :: rest =>
      let (value, rest) ← readValue fuel room (skipGap rest)
      let members := before.set name value
      match skipGap rest with
      | ',' :: rest => readMembers fuel room members (skipGap rest)
      | c :: rest => if c = closeBrace then return (members, rest) else throw .malformed
      | [] => throw .malformed
    | _ => throw .malformed
  | _, _, _, _ => .error .malformed

end

/-- **The JSON value of a text**, which may stand between blanks. -/
def Value.read (s : List Char) : Except ReadError Value := do
  let (value, rest) ← readValue (s.length + 1) maxDepth (skipGap s)
  if (skipGap rest).isEmpty then return value else throw .malformed

end Stencil.Json
