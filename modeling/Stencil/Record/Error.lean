import Stencil.Decimal.Reading
import Stencil.Text.Quoted

/-!
# Record/Error — what can be wrong with an instruction

A `Fault` is what one record, or a whole text of records, violates. An `Error` is a fault with the
place where it was found, as far as that is known, or a number with too many digits to be taken for
an integer at all, which is no fault of the record's form.
-/

namespace Stencil.Record

open Stencil.Text

/-- **What a record violates.** -/
inductive Fault where
  /-- A field, shown without its outer blanks, has no value. -/
  | noValue (field : String)
  /-- The value of a key that takes an integer is none. -/
  | notInteger (key value : String)
  /-- The value is an integer of more than 32 bits. -/
  | outOfRange (key value : String)
  /-- There is no record to take for the canvas. -/
  | noCanvas
  deriving Repr, DecidableEq

/-- The message of a fault. -/
def Fault.message : Fault → String
  | noValue field => "field " ++ quoted field ++ " has no value"
  | notInteger key value => key ++ "=" ++ quoted value ++ " is not an integer"
  | outOfRange key value => key ++ "=" ++ value ++ " is outside the 32-bit integer range"
  | noCanvas => "instruction input has no canvas record"

/-- **Why instructions cannot be read.** -/
inductive Error where
  /-- A fault, with the number of its line and its record where they are known. -/
  | fault (fault : Fault) (line : Option Nat) (record : Option String)
  /-- A number with this many digits. -/
  | tooManyDigits (count : Nat)
  deriving Repr, DecidableEq

namespace Error

/-- The message of an error, which starts with the line where that is known. -/
def message : Error → String
  | fault f (some line) _ => s!"line {line}: " ++ f.message
  | fault f none _ => f.message
  | tooManyDigits count => Decimal.tooManyDigitsMessage count

/-- The error at a place: a fault is said to be there, whatever was known of its place before. -/
def locate (line : Nat) (record : String) : Error → Error
  | fault f _ _ => fault f (some line) (some record)
  | tooManyDigits count => tooManyDigits count

/-- Whether the error is a fault, which lenient reading passes over. -/
def isFault : Error → Bool
  | fault .. => true
  | tooManyDigits _ => false

end Error

end Stencil.Record
