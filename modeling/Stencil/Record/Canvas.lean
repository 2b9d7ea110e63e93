import Stencil.Canvas
import Stencil.Record.Field

/-!
# Record/Canvas — the record of a canvas

`Canvas.ofRecord` reads a canvas from a record and `Canvas.toRecord` writes one. The record may name
three colours: the plain one and the two ends of a gradient. A colour counts as asked for as soon as
one of its channels is given; its other channels are then full.
-/

namespace Stencil

open Stencil.Record

namespace Canvas

/-- Which of a record's three colours a key belongs to. -/
inductive Role where
  | solid
  | start
  | finish
  deriving Repr, DecidableEq

/-- Which channel of a colour a key gives. -/
inductive ChannelName where
  | red
  | green
  | blue
  deriving Repr, DecidableEq

/-- **A key of a canvas record.** All of them take an integer. -/
inductive Key where
  | width
  | height
  | direction
  | channel (role : Role) (name : ChannelName)
  deriving Repr, DecidableEq

/-- The keys and how they are spelled. -/
def Key.table : List (String × Key) :=
  [("width", .width), ("height", .height), ("graddir", .direction),
   ("red", .channel .solid .red), ("green", .channel .solid .green),
   ("blue", .channel .solid .blue),
   ("gradstartred", .channel .start .red), ("gradstartgreen", .channel .start .green),
   ("gradstartblue", .channel .start .blue),
   ("gradendred", .channel .finish .red), ("gradendgreen", .channel .finish .green),
   ("gradendblue", .channel .finish .blue)]

/-- The key that is spelled so. -/
def Key.ofText? (s : String) : Option Key :=
  Key.table.lookup s

end Canvas

/-- The colour with one channel set to a clamped number. -/
def Color.withChannel (c : Color) : Canvas.ChannelName → Int → Color
  | .red, n => { c with red := Channel.clamp n }
  | .green, n => { c with green := Channel.clamp n }
  | .blue, n => { c with blue := Channel.clamp n }

namespace Canvas

/-- **What a record has asked for so far.** -/
structure Request where
  width : Int := 100
  height : Int := 100
  direction : Int := 0
  solid : Option Color := none
  start : Option Color := none
  finish : Option Color := none
  deriving Repr, DecidableEq

namespace Request

/-- The request with one number more. -/
def set (r : Request) (n : Int) : Key → Request
  | .width => { r with width := n }
  | .height => { r with height := n }
  | .direction => { r with direction := n }
  | .channel .solid name => { r with solid := some ((r.solid.getD Color.white).withChannel name n) }
  | .channel .start name => { r with start := some ((r.start.getD Color.white).withChannel name n) }
  | .channel .finish name =>
    { r with finish := some ((r.finish.getD Color.white).withChannel name n) }

/-- The request with one field more. A field of an unknown key asks for nothing. -/
def add (r : Request) (f : Field) : Except Error Request :=
  match Key.ofText? f.key with
  | none => .ok r
  | some key => (integer f.key f.value).map fun n => r.set n key

/-- The request with several fields more. -/
def addAll (r : Request) : List Field → Except Error Request
  | [] => .ok r
  | f :: rest => (r.add f).bind fun r => r.addAll rest

/-- The canvas nearest to the request. -/
def canvas (r : Request) : Canvas :=
  Canvas.make r.width r.height r.solid r.start r.finish r.direction

end Request

/-- **The canvas of a record.** -/
def ofRecord (record : String) : Except Error Canvas :=
  (Field.read record).bind fun fields => (({} : Request).addAll fields).map Request.canvas

end Canvas

/-! ## Writing -/

namespace Record

/-- Whether a number has no more digits than it may, and can be written. -/
def isShort (n : Int) : Bool :=
  (Decimal.digitsOf n.natAbs).length ≤ Decimal.maxDigits

/-- A field that gives a number. -/
def numberField (key : String) (n : Int) : String :=
  key ++ "=" ++ Decimal.intText n

/-- The three fields of a colour, under three keys. -/
def colorFields (red green blue : String) (c : Color) : List String :=
  [numberField red c.red.val, numberField green c.green.val, numberField blue c.blue.val]

/-- A record of these fields. -/
def ofFields (fields : List String) : String :=
  String.intercalate ", " fields

end Record

namespace Canvas

/-- The fields of a canvas record. -/
def recordFields (c : Canvas) : List String :=
  [numberField "width" c.width, numberField "height" c.height] ++
    (c.solid?.toList.flatMap (colorFields "red" "green" "blue")) ++
    (c.start?.toList.flatMap (colorFields "gradStartRed" "gradStartGreen" "gradStartBlue")) ++
    (c.finish?.toList.flatMap (colorFields "gradEndRed" "gradEndGreen" "gradEndBlue")) ++
    [numberField "gradDir" c.direction.code]

/-- **The record of a canvas.** -/
def toRecord (c : Canvas) : String :=
  Record.ofFields c.recordFields

end Canvas

end Stencil
