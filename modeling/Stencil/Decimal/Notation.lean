import Stencil.Decimal.Shortest

/-!
# Decimal/Notation — writing numbers

`Notation` holds the decisions that a format of floating-point numbers makes; `Notation.write`
writes a double's shortest decimal in it. `Notation.plain` is the format of messages and
descriptions. Whole numbers are written by `intText`.
-/

namespace Stencil.Decimal

/-- The decimal digits of a number, most significant first. -/
def digitsOf (n : Nat) : List Char :=
  if n < 10 then [Char.ofNat (0x30 + n)] else digitsOf (n / 10) ++ [Char.ofNat (0x30 + n % 10)]

/-- A whole number in decimal, with a minus sign when it is negative. -/
def intChars : Int → List Char
  | .ofNat n => digitsOf n
  | .negSucc n => '-' :: digitsOf (n + 1)

/-- A whole number in decimal, as a string. -/
def intText (n : Int) : String :=
  String.ofList (intChars n)

/-- **How a format writes floating-point numbers.** -/
structure Notation where
  /-- The smallest power of ten, of the first digit, that is written positionally. -/
  minPositional : Int
  /-- The largest power of ten, of the first digit, that is written positionally. -/
  maxPositional : Int
  /-- The least number of digits of an exponent. -/
  exponentDigits : Nat
  nan : String
  infinity : String
  deriving Repr

/-- Numbers from a ten-thousandth up to ten quadrillions are written positionally and always have
a fraction; others have an exponent of two digits or more with its sign. -/
def Notation.plain : Notation :=
  { minPositional := -4, maxPositional := 15, exponentDigits := 2, nan := "nan", infinity := "inf" }

/-- A decimal with its point: `place` is the power of ten of the last digit. -/
def positional (digits : List Char) (place : Int) : List Char :=
  if 0 ≤ place then digits ++ List.replicate place.toNat '0' ++ ['.', '0']
  else
    let fraction := (-place).toNat
    if fraction < digits.length then
      digits.take (digits.length - fraction) ++ '.' :: digits.drop (digits.length - fraction)
    else '0' :: '.' :: List.replicate (fraction - digits.length) '0' ++ digits

/-- A decimal with one digit before its point and an exponent. -/
def scientific (digits : List Char) (leading : Int) (exponentDigits : Nat) : List Char :=
  let fraction := if digits.length ≤ 1 then [] else '.' :: digits.drop 1
  let power := digitsOf leading.natAbs
  digits.take 1 ++ fraction ++ 'e' :: (if leading < 0 then '-' else '+') ::
    List.replicate (exponentDigits - power.length) '0' ++ power

/-- The number's characters in the format. -/
def Notation.writeChars (format : Notation) (x : Float) : List Char :=
  match Binary.ofFloat x with
  | .nan => format.nan.toList
  | .infinite negative => (if negative then ['-'] else []) ++ format.infinity.toList
  | .finite negative mantissa exponent =>
    let (count, place) := shortest mantissa exponent
    let digits := digitsOf count
    let leading := place + digits.length - 1
    (if negative then ['-'] else []) ++
      if format.minPositional ≤ leading && leading ≤ format.maxPositional then
        positional digits place
      else scientific digits leading format.exponentDigits

/-- **The number's text in the format.** -/
def Notation.write (format : Notation) (x : Float) : String :=
  String.ofList (format.writeChars x)

/-- The number's text in messages and descriptions. -/
def floatText (x : Float) : String :=
  Notation.plain.write x

end Stencil.Decimal
