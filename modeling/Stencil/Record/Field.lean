import Stencil.Record.Error
import Stencil.Text.Blank
import Stencil.Text.Case
import Stencil.Text.Pieces

/-!
# Record/Field — the fields of a record

A record is a line of fields between commas, each a key, an equals sign and a value. Keys and values
are trimmed and lower-cased; blank fields are skipped; what follows a second equals sign is not part
of the value. `Field.read` cuts a record into its fields, and `integer` reads the value of a key
that takes an integer.
-/

namespace Stencil.Record

open Stencil.Text

/-- **One field** of a record. -/
@[ext] structure Field where
  key : String
  value : String
  value_ne : value ≠ ""
  deriving Repr

instance : DecidableEq Field := fun _ _ =>
  decidable_of_decidable_of_iff Field.ext_iff.symm

/-- A key or a value as it counts: without outer blanks, in lower case. -/
def normal (s : List Char) : List Char :=
  lower (trim s)

/-- The text before the first equals sign of a field. -/
def keyPart (field : List Char) : List Char :=
  field.takeWhile (· ≠ '=')

/-- The text between the first equals sign of a field and the second, or the end. -/
def valuePart (field : List Char) : List Char :=
  ((field.dropWhile (· ≠ '=')).drop 1).takeWhile (· ≠ '=')

/-- The field that a text between two commas holds, when it has a value. -/
def Field.ofText? (field : List Char) : Option Field :=
  if h : trim (valuePart field) = [] then none
  else
    some
      { key := String.ofList (normal (keyPart field))
        value := String.ofList (normal (valuePart field))
        value_ne := by
          intro e
          have := congrArg String.toList e
          simp [normal, h] at this }

/-- The fields of a list of texts between commas; `record` is named where one has no value. -/
def Field.ofTexts (record : String) : List (List Char) → Except Error (List Field)
  | [] => .ok []
  | text :: rest =>
    if isBlankText text then Field.ofTexts record rest
    else
      match Field.ofText? text with
      | none => .error (.fault (.noValue (String.ofList (trim text))) none (some record))
      | some field => (Field.ofTexts record rest).map (field :: ·)

/-- **The fields of a record**, in order. -/
def Field.read (record : String) : Except Error (List Field) :=
  Field.ofTexts record (pieces ',' record.toList)

/-! ## Integers -/

/-- The least integer of 32 bits. -/
def minInteger : Int := -2147483648

/-- The greatest integer of 32 bits. -/
def maxInteger : Int := 2147483647

/-- The sign and the digits of an integer that fills a text. A line feed may follow the digits. -/
def integerDigits? (s : List Char) : Option (Bool × List Nat) :=
  let (negative, rest) := Decimal.takeSign s
  match Decimal.takeDigits rest with
  | ([], _) => none
  | (digits, []) => some (negative, digits)
  | (digits, ['\n']) => some (negative, digits)
  | _ => none

/-- **The integer that a key's value stands for.** -/
def integer (key value : String) : Except Error Int :=
  match integerDigits? value.toList with
  | none => .error (.fault (.notInteger key value) none none)
  | some (negative, digits) =>
    if Decimal.maxDigits < digits.length then .error (.tooManyDigits digits.length)
    else
      let n := Decimal.Binary.signed negative (Decimal.ofDigits digits)
      if minInteger ≤ n ∧ n ≤ maxInteger then .ok n
      else .error (.fault (.outOfRange key value) none none)

theorem integer_mem_range {key value : String} {n : Int} (h : integer key value = .ok n) :
    minInteger ≤ n ∧ n ≤ maxInteger := by
  unfold integer at h
  split at h
  · cases h
  · split at h
    · cases h
    · simp only at h
      split at h
      · cases h
        assumption
      · cases h

end Stencil.Record
