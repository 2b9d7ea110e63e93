import Stencil.Decimal.Reading
import Stencil.Json.Description
import Stencil.Json.Printer
import Stencil.Json.Reader
import Stencil.Shape
import Stencil.Text.Lines

/-!
# Shape/Template — the file of a shape

A template is a JSON object with the name of a shape and its vertices. `Shape.toTemplate` writes
one, `Shape.ofTemplate` reads one. Reading is generous: the name may be any value, the vertices may
be anything that has parts, a vertex anything with two parts, and a coordinate a number, a truth
value or the text of a number. `Template.Error` lists what is still wrong with a template.
-/

namespace Stencil

open Stencil.Json

namespace Template

/-- **Why a template gives no shape.** -/
inductive Error where
  /-- The file is no text. -/
  | notText
  /-- The text is no JSON. -/
  | malformed
  /-- A whole number has so many digits. -/
  | tooManyDigits (count : Nat)
  /-- A list or an object lies within too many others. -/
  | tooDeep (nest : Nest)
  /-- The name or the vertices are missing. -/
  | incomplete
  /-- A value is of a kind that cannot be used in its place. -/
  | wrongKind
  /-- A vertex has only so many coordinates. -/
  | tooFewCoordinates (count : Nat)
  | tooManyCoordinates
  /-- A text stands for no number. -/
  | notNumber (text : Text.Loose)
  /-- A whole number is beyond the largest double. -/
  | tooLarge
  | shape (error : Shape.BuildError)
  deriving Repr, DecidableEq

/-- The message of a template that gives no shape. -/
def Error.message : Error → String
  | notText => "template is not UTF-8"
  | malformed => "template is not JSON"
  | tooManyDigits count => Decimal.tooManyDigitsMessage count
  | tooDeep nest =>
    "maximum recursion depth exceeded while decoding a JSON " ++ nest.word ++
      " from a unicode string"
  | incomplete => "template JSON requires 'name' and 'points'"
  | wrongKind => "template value of the wrong kind"
  | tooFewCoordinates count => s!"not enough values to unpack (expected 2, got {count})"
  | tooManyCoordinates => "too many values to unpack (expected 2)"
  | notNumber text => "could not convert string to float: " ++ text.quoted
  | tooLarge => "number too large"
  | shape e => e.message

/-! ## Reading -/

/-- The parts of a value: the items of a list, the code points of a text, the names of an object. -/
def parts? : Value → Option (List Value)
  | .list items => some items
  | .text s => some (s.points.map fun point => .text (.ofPoints [point]))
  | .object members => some (members.map fun m => .text m.1)
  | _ => none

/-- Whether a text occurs in another one. -/
def occurs (word : List Text.CodePoint) : List Text.CodePoint → Bool
  | [] => word.isEmpty
  | point :: rest => word.isPrefixOf (point :: rest) || occurs word rest

/-- Whether a value is the text. -/
def isText (s : Text.Loose) : Value → Bool
  | .text t => t == s
  | _ => false

/-- Whether a value has a part of that name; nothing for a value that has no parts. -/
def has? (name : Text.Loose) : Value → Option Bool
  | .list items => some (items.any (isText name))
  | .text s => some (occurs name.points s.points)
  | .object members => some (members.any fun m => m.1 == name)
  | _ => none

/-- A coordinate. -/
def coordinate : Value → Except Error Float
  | .int n => (Decimal.ofInt? n).elim (.error .tooLarge) .ok
  | .float x => .ok x
  | .bool b => .ok (if b then 1 else 0)
  | .text (.plain s) => (Decimal.numberFromText? s.toList).elim (.error (.notNumber s)) .ok
  | .text s => .error (.notNumber s)
  | _ => .error .wrongKind

/-- A vertex. -/
def vertex (value : Value) : Except Error Point :=
  match parts? value with
  | none => .error .wrongKind
  | some [x, y] => do
    let x ← coordinate x
    let y ← coordinate y
    return ⟨x, y⟩
  | some (_ :: _ :: _) => .error .tooManyCoordinates
  | some few => .error (.tooFewCoordinates few.length)

/-- The vertices in order. -/
def vertices (value : Value) : Except Error (List Point) :=
  match parts? value with
  | none => .error .wrongKind
  | some items => items.mapM vertex

/-- What a value has to have to be a template. -/
def check (value : Value) : Except Error Unit :=
  match has? "name" value with
  | none => .error .wrongKind
  | some false => .error .incomplete
  | some true => if has? "points" value = some true then .ok () else .error .incomplete

end Template

namespace Shape

/-- The shape of a value. -/
def ofValue (value : Value) : Except Template.Error Shape := do
  Template.check value
  match value.member? "name", value.member? "points" with
  | some name, some points => do
    let points ← Template.vertices points
    (Shape.make name.describe (points.map some)).mapError .shape
  | _, _ => .error .wrongKind

/-- **The shape of a template's text.** -/
def ofTemplate (text : String) : Except Template.Error Shape :=
  match Value.read (Text.unifyEnds text.toList) with
  | .error .malformed => .error .malformed
  | .error (.tooManyDigits count) => .error (.tooManyDigits count)
  | .error (.tooDeep nest) => .error (.tooDeep nest)
  | .ok value => ofValue value

/-! ## Writing -/

/-- The value of a shape. -/
def toValue (s : Shape) : Value :=
  .object [("name", .text s.name),
    ("points", .list (s.points.map fun p => .list [.float p.x, .float p.y]))]

/-- **The template of a shape**, indented by two blanks a level. -/
def toTemplate (s : Shape) : String :=
  s.toValue.print (.indented 2)

end Shape

end Stencil
