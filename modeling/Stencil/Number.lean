import Stencil.Decimal.Binary

/-!
# Number — the limits of whole numbers and doubles

Whole numbers have no limit of their own. They meet one when they become a double (`Number.double`,
`Number.quotient`) or a pixel position of 64 bits (`Number.word`, whose sums wrap around by
`Number.wrap`). `Number.toPixel` takes a double to a pixel position: it drops the fraction and
saturates at 32 bits, and `toPixel_mem` says that nothing leaves that range. Numbers that are kept
together take one of the forms of `Form`, in which some of them may fall together.
-/

namespace Stencil.Number

/-- **Why a number cannot be computed.** -/
inductive Error where
  /-- The number has no place in the type that it is meant for. -/
  | tooLarge
  /-- Two whole numbers cannot be divided as doubles. -/
  | zeroDivisor
  /-- Two whole numbers cannot be divided as whole numbers. -/
  | zeroWholeDivisor
  /-- What is not a number has no whole part. -/
  | notNumber
  /-- An infinite angle has no sine. -/
  | infiniteAngle
  deriving Repr, DecidableEq

/-- The message of a number that cannot be computed. -/
def Error.message : Error → String
  | tooLarge => "number too large"
  | zeroDivisor => "division by zero"
  | zeroWholeDivisor => "integer division or modulo by zero"
  | notNumber => "cannot convert float NaN to integer"
  | infiniteAngle => "math domain error"

/-! ## Whole numbers -/

/-- The quotient of two whole numbers without its fraction. -/
def divTowardZero (a b : Int) : Except Error Int :=
  if b = 0 then .error .zeroWholeDivisor else .ok (a.tdiv b)

/-- A whole number that has to fit 64 bits. -/
def word (n : Int) : Except Error Int :=
  if -0x8000000000000000 ≤ n ∧ n < 0x8000000000000000 then .ok n else .error .tooLarge

/-- The number of 64 bits that a sum of two of them is, from the lowest on again when it passes the
highest. -/
def wrap (n : Int) : Int :=
  n.bmod 0x10000000000000000

theorem word_eq_ok_iff {n m : Int} :
    word n = .ok m ↔ n = m ∧ -0x8000000000000000 ≤ n ∧ n < 0x8000000000000000 := by
  unfold word
  split
  · rename_i h
    exact ⟨fun e => ⟨Except.ok.inj e, h⟩, fun e => congrArg _ e.1⟩
  · rename_i h
    exact ⟨nofun, fun e => absurd e.2 h⟩

theorem wrap_eq_self {n : Int} (h : -0x8000000000000000 ≤ n ∧ n < 0x8000000000000000) :
    wrap n = n :=
  Int.bmod_eq_of_le (by omega) (by omega)

/-! ## Doubles -/

/-- The double nearest to a whole number. -/
def double (n : Int) : Except Error Float :=
  match Decimal.ofInt? n with
  | some x => .ok x
  | none => .error .tooLarge

/-- The whole number nearest to `n / d`, an even one when two are equally near. -/
def roundedQuotient (n d : Nat) : Nat :=
  let q := n / d
  let r := n % d
  if 2 * r < d ∨ (2 * r = d ∧ q % 2 = 0) then q else q + 1

/-- The double of `mantissa * 2 ^ exponent`. -/
def binary (mantissa : Nat) (exponent : Int) : Float :=
  if 0 ≤ exponent then Float.ofNat (mantissa * Nat.pow 2 exponent.toNat)
  else Float.ofScientific (mantissa * Nat.pow 5 (-exponent).toNat) true (-exponent).toNat

/-- The double nearest to `n / d`, ties to the even mantissa: the quotient is rounded once, to a
mantissa of 53 bits or to as many as the smallest doubles have. -/
def nearestQuotient (n d : Nat) : Float :=
  if n = 0 then 0
  else
    let fraction (exponent : Int) : Nat × Nat :=
      (n * Nat.pow 2 (-exponent).toNat, d * Nat.pow 2 exponent.toNat)
    let least : Int := (n.log2 : Int) - d.log2 - 53
    let exact := (fraction least).1 < 0x20000000000000 * (fraction least).2
    let exponent := max Decimal.Binary.minExponent (if exact then least else least + 1)
    binary (roundedQuotient (fraction exponent).1 (fraction exponent).2) exponent

/-- **The quotient of two whole numbers** as a double, rounded once. -/
def quotient (a b : Int) : Except Error Float :=
  if b = 0 then .error .zeroDivisor
  else
    let x := nearestQuotient a.natAbs b.natAbs
    let x := if (a < 0) != (b < 0) then -x else x
    if Decimal.isFinite x then .ok x else .error .tooLarge

/-- The double nearest to a whole number, as a whole number; one beyond all doubles stays. -/
def nearest (n : Int) : Int :=
  match Decimal.ofInt? n with
  | some x => ((Decimal.Binary.ofFloat x).truncate?).getD n
  | none => n

/-- The whole part of a double. -/
def wholePart (x : Float) : Except Error Int :=
  match (Decimal.Binary.ofFloat x).truncate? with
  | some n => .ok n
  | none => .error (if x.isNaN then .notNumber else .tooLarge)

/-! ## Numbers kept together -/

/-- **The form of whole numbers that are kept together.** -/
inductive Form where
  /-- 64 bits with a sign. -/
  | word
  /-- 64 bits without a sign. -/
  | natural
  /-- Doubles, where words meet numbers that only fit without a sign. -/
  | double
  /-- As many digits as there are. -/
  | unlimited
  deriving Repr, DecidableEq

namespace Form

/-- The form of a number by itself. -/
def ofInt (n : Int) : Form :=
  if -0x8000000000000000 ≤ n ∧ n < 0x8000000000000000 then word
  else if 0 ≤ n ∧ n < 0x10000000000000000 then natural
  else unlimited

/-- The form that two forms come together in. -/
def join (a b : Form) : Form :=
  if a = b then a else if a = unlimited ∨ b = unlimited then unlimited else double

/-- The form that some numbers come together in. -/
def ofInts : List Int → Form
  | [] => word
  | n :: rest => rest.foldl (fun form n => form.join (ofInt n)) (ofInt n)

/-- Whether two numbers are the same in a form. -/
def same (form : Form) (a b : Int) : Bool :=
  if form = double then nearest a = nearest b else a = b

end Form

/-! ## Pixel positions -/

/-- The lowest position that a double gives. -/
def leastPixel : Int := -0x80000000

/-- The highest position that a double gives. -/
def greatestPixel : Int := 0x7fffffff

/-- The position nearest to a whole number. -/
def saturate (n : Int) : Int :=
  min greatestPixel (max leastPixel n)

/-- **The pixel position of a double**: its whole part, saturated at 32 bits. What is not a number
has no position; the least one stands in for it, so statements about positions ask for numbers. -/
def toPixel (x : Float) : Int :=
  match (Decimal.Binary.ofFloat x).truncate? with
  | some n => saturate n
  | none => if 0 < x then greatestPixel else leastPixel

theorem saturate_mem (n : Int) : leastPixel ≤ saturate n ∧ saturate n ≤ greatestPixel := by
  simp only [saturate, leastPixel, greatestPixel]
  omega

theorem saturate_eq_self {n : Int} (h : leastPixel ≤ n ∧ n ≤ greatestPixel) : saturate n = n := by
  simp only [saturate]
  omega

theorem toPixel_mem (x : Float) : leastPixel ≤ toPixel x ∧ toPixel x ≤ greatestPixel := by
  unfold toPixel
  split
  · exact saturate_mem _
  · split <;> simp [leastPixel, greatestPixel]

end Stencil.Number
