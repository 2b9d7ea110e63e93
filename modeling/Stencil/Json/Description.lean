import Stencil.Decimal.Notation
import Stencil.Json.Value

/-!
# Json/Description — JSON values in plain words

`Value.describe` shows a value the way a name is made of it: a text as it stands, `None`, `True` and
`False` for the three words, numbers with their shortest digits, lists and objects between their
brackets. Inside a list or an object a text is quoted (`Value.inspect`).
-/

namespace Stencil.Json

open Stencil.Text Stencil.Decimal

/-- What stands between two items. -/
def itemSeparator : List Char := [',', ' ']

mutual

/-- A value as it is shown inside another one. -/
def Value.inspect : Value → List Char
  | .null => "None".toList
  | .bool b => if b then "True".toList else "False".toList
  | .int n => intChars n
  | .float x => Notation.plain.writeChars x
  | .text s => Loose.quotedPoints s.points
  | .list items => '[' :: inspectItems items ++ [']']
  | .object members => openBrace :: inspectMembers members ++ [closeBrace]

/-- Items with what stands between them. -/
def inspectItems : List Value → List Char
  | [] => []
  | [item] => item.inspect
  | item :: rest => item.inspect ++ itemSeparator ++ inspectItems rest

/-- Members with what stands between them. -/
def inspectMembers : List (Loose × Value) → List Char
  | [] => []
  | [(name, value)] => Loose.quotedPoints name.points ++ [':', ' '] ++ value.inspect
  | (name, value) :: rest =>
    Loose.quotedPoints name.points ++ [':', ' '] ++ value.inspect ++ itemSeparator ++
      inspectMembers rest

end

/-- **The plain words of a value.** -/
def Value.describe : Value → Loose
  | .text s => s
  | value => .plain (String.ofList value.inspect)

end Stencil.Json
