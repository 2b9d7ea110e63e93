import Stencil.Decimal.Notation

/-!
# Coordinate — where a drawing starts on one axis

A `Coordinate` is a fixed pixel or a request for random placement. Instruction files have one number
for either: the lowest 32-bit integer, `Coordinate.marker`, stands for random placement. `ofRaw`
reads that number and `raw` gives it; `ofRaw_raw` says that nothing is lost unless a fixed
coordinate is the marker itself.
-/

namespace Stencil

/-- **A starting position** on one axis. -/
inductive Coordinate where
  | fixed (pixel : Int)
  | random
  deriving Repr, DecidableEq

namespace Coordinate

/-- The number that stands for random placement. -/
def marker : Int := -2147483648

/-- The coordinate that a number of an instruction file stands for. -/
def ofRaw (n : Int) : Coordinate :=
  if n = marker then random else fixed n

/-- The number that stands for a coordinate in an instruction file. -/
def raw : Coordinate → Int
  | fixed pixel => pixel
  | random => marker

/-- Whether the coordinate asks for random placement. -/
def isRandom : Coordinate → Bool
  | fixed _ => false
  | random => true

@[simp] theorem raw_ofRaw (n : Int) : (ofRaw n).raw = n := by
  by_cases h : n = marker <;> simp [ofRaw, raw, h]

theorem ofRaw_raw (c : Coordinate) : ofRaw c.raw = c ↔ c ≠ fixed marker := by
  cases c with
  | fixed n => by_cases h : n = marker <;> simp [ofRaw, raw, h]
  | random => simp [ofRaw, raw]

/-- The coordinate as descriptions show it. -/
def describe : Coordinate → String
  | fixed pixel => Decimal.intText pixel
  | random => "random"

/-- The pixel of a coordinate, zero where it is random. -/
def pixel : Coordinate → Int
  | fixed pixel => pixel
  | random => 0

/-- The coordinate with its fields spelled out. -/
def inspect (c : Coordinate) : String :=
  let value := Decimal.intText c.pixel
  let flag := if c.isRandom then "True" else "False"
  s!"Coordinate(value={value}, is_random={flag})"

end Coordinate

end Stencil
