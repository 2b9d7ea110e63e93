import Stencil.Text.Loose

/-!
# Json/Value — JSON values

A JSON value with whole numbers and floating-point numbers kept apart: `1` and `1.0` are different
values. Texts may hold halves of pairs that stand alone, since an escape can write one. An object
is the list of its members in order of first appearance; `Members.set` keeps that order when a name
comes back and replaces the earlier value.
-/

namespace Stencil.Json

open Stencil.Text

/-- **A JSON value.** -/
inductive Value where
  | null
  | bool (b : Bool)
  | int (n : Int)
  | float (x : Float)
  | text (s : Loose)
  | list (items : List Value)
  | object (members : List (Loose × Value))
  deriving Repr, Inhabited

/-- The value of a text of characters only. -/
@[match_pattern] abbrev Value.plain (s : String) : Value := .text (.plain s)

/-- The brace that opens an object. -/
def openBrace : Char := Char.ofNat 0x7b

/-- The brace that closes an object. -/
def closeBrace : Char := Char.ofNat 0x7d

/-- Members of an object, in order of first appearance. -/
abbrev Members := List (Loose × Value)

/-- The members with one of them set: a name that is there already keeps its place. -/
def Members.set : Members → Loose → Value → Members
  | [], name, value => [(name, value)]
  | (n, v) :: rest, name, value =>
    if n = name then (n, value) :: rest else (n, v) :: Members.set rest name value

/-- The value of the member of that name. -/
def Members.get? : Members → Loose → Option Value
  | [], _ => none
  | (n, v) :: rest, name => if n = name then some v else Members.get? rest name

/-- The value of an object's member; nothing when it has none of that name or is no object. -/
def Value.member? : Value → Loose → Option Value
  | object members, name => Members.get? members name
  | _, _ => none

@[simp] theorem Members.get?_set_self (members : Members) (name : Loose) (value : Value) :
    (members.set name value).get? name = some value := by
  induction members with
  | nil => simp [Members.set, Members.get?]
  | cons m rest ih =>
    by_cases h : m.1 = name
    · simp [Members.set, Members.get?, h]
    · simp [Members.set, Members.get?, h, ih]

theorem Members.get?_set_of_ne (members : Members) {name other : Loose} (value : Value)
    (h : other ≠ name) : (members.set name value).get? other = members.get? other := by
  induction members with
  | nil => simp [Members.set, Members.get?, Ne.symm h]
  | cons m rest ih =>
    by_cases hm : m.1 = name
    · have : m.1 ≠ other := fun e => h (e.symm.trans hm)
      simp [Members.set, Members.get?, hm, Ne.symm h]
    · by_cases ho : m.1 = other
      · simp [Members.set, Members.get?, ho, h]
      · simp [Members.set, Members.get?, hm, ho, ih]

end Stencil.Json
