import Stencil.Decimal.Binary

/-!
# Decimal/Shortest — the fewest digits that read back as the same double

`shortest mantissa exponent` gives a decimal `digits * 10 ^ exponent` with the fewest digits among
all decimals that round to the double `mantissa * 2 ^ exponent`; of several with that many digits it
gives the one nearest to the double, and of two equally near the one with an even last digit.

The decimals that round to a double form an interval, whose ends belong to it exactly when the
mantissa is even. The grids of one, two, … seventeen digits are tried in turn; a grid meets the
interval exactly when one of the double's two neighbours on the grid does.
-/

namespace Stencil.Decimal

/-- **The rounding interval of a double**, on a common scale: all four numbers count the same unit,
which is a quarter of the double's last place times `unit`. -/
structure Interval where
  low : Nat
  value : Nat
  high : Nat
  /-- How many scale steps make the number one. -/
  unit : Nat
  /-- Whether the two ends round to the double too. -/
  closed : Bool
  deriving Repr, DecidableEq

/-- The interval of `mantissa * 2 ^ exponent`. Below a power of two the doubles lie twice as
close. -/
def Interval.of (mantissa : Nat) (exponent : Int) : Interval :=
  let scale := Nat.pow 2 exponent.toNat
  let below := if mantissa = 0x10000000000000 && Binary.minExponent < exponent then 1 else 2
  { low := (4 * mantissa - below) * scale
    value := 4 * mantissa * scale
    high := (4 * mantissa + 2) * scale
    unit := 4 * Nat.pow 2 (-exponent).toNat
    closed := mantissa % 2 == 0 }

/-- Whether the interval holds `count * 10 ^ place`. -/
def Interval.holds (i : Interval) (count : Nat) (place : Int) : Bool :=
  let up := Nat.pow 10 place.toNat
  let down := Nat.pow 10 (-place).toNat
  let x := count * up * i.unit
  if i.closed then i.low * down ≤ x && x ≤ i.high * down
  else i.low * down < x && x < i.high * down

/-- The number of decimal digits of a number; zero has none. -/
def digitCount (n : Nat) : Nat :=
  if n = 0 then 0 else digitCount (n / 10) + 1

/-- The place of the value's first digit: the value lies in `[10 ^ place, 10 ^ (place + 1))`. -/
def Interval.leadingPlace (i : Interval) : Int :=
  if i.unit ≤ i.value then (digitCount (i.value / i.unit) : Int) - 1
  else
    -- The first digit of a fraction stands where its reciprocal, rounded up, ends.
    -(digitCount ((i.unit - 1) / i.value) : Int)

/-- The best decimal on the grid of multiples of `10 ^ place`, when the grid meets the interval. -/
def Interval.onGrid? (i : Interval) (place : Int) : Option Nat :=
  let up := Nat.pow 10 place.toNat
  let down := Nat.pow 10 (-place).toNat
  let below := i.value * down / (up * i.unit)
  let remainder := i.value * down % (up * i.unit)
  let above := below + 1
  match i.holds below place, i.holds above place with
  | true, false => some below
  | false, true => some above
  | false, false => none
  | true, true =>
    if 2 * remainder < up * i.unit then some below
    else if up * i.unit < 2 * remainder then some above
    else if below % 2 = 0 then some below
    else some above

/-- Tries the grids from the coarsest of those left. -/
def Interval.search (i : Interval) (leading : Int) : (left : Nat) → (tried : Nat) → Nat × Int
  | 0, tried => (i.value / i.unit, leading - tried)
  | left + 1, tried =>
    match i.onGrid? (leading - tried) with
    | some count => (count, leading - tried)
    | none => i.search leading left (tried + 1)

/-- A decimal without the zeros at its end; `fuel` bounds their number. -/
def dropZeros : (fuel : Nat) → Nat × Int → Nat × Int
  | 0, d => d
  | fuel + 1, (count, place) =>
    if count ≠ 0 && count % 10 = 0 then dropZeros fuel (count / 10, place + 1)
    else (count, place)

/-- **The shortest decimal of a double**, as digits and the place of the last one. -/
def shortest (mantissa : Nat) (exponent : Int) : Nat × Int :=
  if mantissa = 0 then (0, 0)
  else
    let i := Interval.of mantissa exponent
    dropZeros 20 (i.search i.leadingPlace 17 0)

end Stencil.Decimal
