import Stencil.Record.Canvas
import Stencil.Stamp

/-!
# Record/Stamp — the record of a stamp

`Stamp.ofRecord` reads a stamp from a record and `Stamp.toRecord` writes one. Fields are taken in
order, a later one overriding an earlier one of the same key; the keys that are not given leave the
stamp as `Stamp.plain` has it. A record that is read is a plain text; one that is written may hold
halves of pairs, if the name of the shape does.
-/

namespace Stencil

open Stencil.Record

/-- The value of a field is no empty name. -/
theorem Record.Field.plain_value_ne (f : Field) : Text.Loose.plain f.value ≠ .plain "" :=
  Text.Loose.plain_ne f.value_ne

namespace Stamp

/-- A key of a stamp record that takes an integer. -/
inductive NumberKey where
  | scale
  | x
  | y
  | repeats
  | offsetX
  | offsetY
  | rotate
  | repeatRotate
  | channel (name : Canvas.ChannelName)
  deriving Repr, DecidableEq

/-- **A key of a stamp record.** -/
inductive Key where
  | shape
  | filled
  | number (key : NumberKey)
  deriving Repr, DecidableEq

/-- The keys and how they are spelled. -/
def Key.table : List (String × Key) :=
  [("shape", .shape), ("filled", .filled), ("scale", .number .scale), ("x", .number .x),
   ("y", .number .y), ("rep", .number .repeats), ("repoffx", .number .offsetX),
   ("repoffy", .number .offsetY), ("rotate", .number .rotate), ("reprot", .number .repeatRotate),
   ("red", .number (.channel .red)), ("green", .number (.channel .green)),
   ("blue", .number (.channel .blue))]

/-- The key that is spelled so. -/
def Key.ofText? (s : String) : Option Key :=
  Key.table.lookup s

/-- The stamp with one number set. -/
def setNumber (s : Stamp) (n : Int) : NumberKey → Stamp
  | .scale => s.withScale n
  | .x => { s with x := Coordinate.ofRaw n }
  | .y => { s with y := Coordinate.ofRaw n }
  | .repeats => s.withRepeats n
  | .offsetX => { s with offsetX := n }
  | .offsetY => { s with offsetY := n }
  | .rotate => { s with rotate := n }
  | .repeatRotate => { s with repeatRotate := n }
  | .channel name => { s with color := s.color.withChannel name n }

/-- The stamp with one field more. Only the value `false` asks for an outline; a field of an unknown
key asks for nothing. -/
def add (s : Stamp) (f : Field) : Except Error Stamp :=
  match Key.ofText? f.key with
  | none => .ok s
  | some .shape => .ok (s.withShape f.value f.plain_value_ne)
  | some .filled => .ok { s with filled := f.value != "false" }
  | some (.number key) => (integer f.key f.value).map fun n => s.setNumber n key

/-- The stamp with several fields more. -/
def addAll (s : Stamp) : List Field → Except Error Stamp
  | [] => .ok s
  | f :: rest => (s.add f).bind fun s => s.addAll rest

/-- **The stamp of a record.** -/
def ofRecord (record : String) : Except Error Stamp :=
  (Field.read record).bind plain.addAll

/-- The numbers of a stamp record, without those of its colour. -/
def numbers (s : Stamp) : List Int :=
  [s.scale, s.x.raw, s.y.raw, s.repeats, s.offsetX, s.offsetY, s.rotate, s.repeatRotate]

/-- The fields of a stamp record behind the name of the shape. -/
def laterFields (s : Stamp) : List String :=
  [numberField "scale" s.scale, numberField "x" s.x.raw, numberField "y" s.y.raw,
   numberField "rep" s.repeats, numberField "repOffX" s.offsetX, numberField "repOffY" s.offsetY,
   "filled=" ++ (if s.filled then "true" else "false"), numberField "rotate" s.rotate,
   numberField "repRot" s.repeatRotate] ++
    colorFields "red" "green" "blue" s.color

/-- **The record of a stamp.** -/
def record (s : Stamp) : Text.Loose :=
  Text.Loose.intercalate ", " (("shape=" ++ s.shape) :: s.laterFields.map Text.Loose.plain)

/-- The record of a stamp as it is shown. -/
def toRecord (s : Stamp) : String :=
  s.record.shown

end Stamp

end Stencil
