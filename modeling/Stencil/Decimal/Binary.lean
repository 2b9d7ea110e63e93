/-!
# Decimal/Binary — a double as a whole number times a power of two

`Binary.ofFloat` takes a double apart: not a number, an infinity, or a sign with `mantissa · 2 ^
exponent`. Everything that needs the exact value of a double goes through this form, since it is
plain integer arithmetic. `truncate?` drops the fraction.
-/

namespace Stencil.Decimal

/-- **The exact value of a double.** -/
inductive Binary where
  | nan
  | infinite (negative : Bool)
  /-- The number `± mantissa * 2 ^ exponent`. -/
  | finite (negative : Bool) (mantissa : Nat) (exponent : Int)
  deriving Repr, DecidableEq

namespace Binary

/-- The exponent of the smallest positive double. -/
def minExponent : Int := -1074

/-- Reads the three fields of a double. -/
def ofFloat (x : Float) : Binary :=
  let bits : Nat := x.toBits.toNat
  let negative := bits / 0x8000000000000000 % 2 == 1
  let biased : Nat := bits / 0x10000000000000 % 0x800
  let fraction : Nat := bits % 0x10000000000000
  if biased = 0x7ff then
    if fraction = 0 then infinite negative else nan
  else if biased = 0 then finite negative fraction minExponent
  else finite negative (0x10000000000000 + fraction) ((biased : Int) - 1075)

/-- Whole number with a sign. -/
def signed (negative : Bool) (n : Nat) : Int :=
  if negative then -(n : Int) else n

/-- The number without its fraction; nothing for an infinity or what is not a number. -/
def truncate? : Binary → Option Int
  | finite negative mantissa exponent =>
    some (signed negative
      (if 0 ≤ exponent then mantissa * Nat.pow 2 exponent.toNat
        else mantissa / Nat.pow 2 (-exponent).toNat))
  | _ => none

end Binary

/-- Whether a double is neither infinite nor not a number. -/
def isFinite (x : Float) : Bool :=
  (Binary.ofFloat x).truncate?.isSome

/-- The double nearest to a whole number, ties to the even mantissa; nothing when the number is
beyond the largest double. -/
def ofInt? (n : Int) : Option Float :=
  let x := Float.ofInt n
  if isFinite x then some x else none

end Stencil.Decimal
