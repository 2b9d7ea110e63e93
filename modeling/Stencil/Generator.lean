/-!
# Generator — where random placement takes its numbers from

A `Generator` answers with whole numbers below a bound. Its answer may depend on the bounds that it
was asked for before. `Generator.scripted` takes its answers from a list, over and over again, and
`Generator.seeded` from a number that stands for the whole sequence.
-/

namespace Stencil

/-- **A source of whole numbers** below a bound. -/
structure Generator where
  /-- The answer, after some earlier bounds, to another one. -/
  answer : (earlier : Array Nat) → (bound : Nat) → Nat
  answer_lt : ∀ (earlier : Array Nat) (bound : Nat), 0 < bound → answer earlier bound < bound

namespace Generator

/-- **The generator of a script**: each answer is the script's next number, reduced below the bound.
A script without numbers stands for nothing but zeros. -/
def scripted (script : List Int) : Generator :=
  let numbers := script.toArray
  { answer := fun earlier bound =>
      (numbers.getD (earlier.size % numbers.size) 0 % (bound : Int)).toNat
    answer_lt := fun earlier bound h => by
      have := Int.emod_lt_of_pos (numbers.getD (earlier.size % numbers.size) 0)
        (show (0 : Int) < bound by omega)
      omega }

/-- A word with its bits mixed, no two words alike. -/
def mix (x : UInt64) : UInt64 :=
  let x := (x ^^^ (x >>> 30)) * 0xBF58476D1CE4E5B9
  let x := (x ^^^ (x >>> 27)) * 0x94D049BB133111EB
  x ^^^ (x >>> 31)

/-- **The generator of a seed**: each answer is the mixed sum of the seed and a multiple of the
answer's turn, reduced below the bound. -/
def seeded (seed : Nat) : Generator :=
  { answer := fun earlier bound =>
      (mix (UInt64.ofNat seed + UInt64.ofNat (earlier.size + 1) * 0x9E3779B97F4A7C15)).toNat % bound
    answer_lt := fun _ _ h => Nat.mod_lt _ h }

/-- The generator that answers zero. -/
def zero : Generator :=
  ⟨fun _ _ => 0, fun _ _ h => h⟩

end Generator

end Stencil
