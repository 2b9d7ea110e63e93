import Stencil.Record.Stamp
import Stencil.Text.Encoding
import Stencil.Text.Lines

/-!
# Script — a canvas and what is stamped on it

A `Script` is what an instruction file says: a canvas and a list of stamps. The first record of a
text that is not blank is the canvas, every later one a stamp. Strict reading stops at the first
fault; lenient reading passes over a stamp record that has one and keeps the fault as a warning. The
canvas record has to be right either way, and so has the size of every number.

`Script.fileText` is what a script's file holds, if there can be one, and `Script.ofText` reads a
file's text.
-/

namespace Stencil

open Stencil.Record

/-- **A canvas and the stamps on it**, in the order in which they are drawn. -/
structure Script where
  canvas : Canvas
  stamps : List Stamp
  deriving Repr, DecidableEq

namespace Script

/-- What becomes of a stamp record that has a fault. -/
inductive Policy where
  /-- It ends the reading. -/
  | strict
  /-- It is passed over with a warning. -/
  | lenient
  deriving Repr, DecidableEq

/-- **What reading leaves**: a script or the error that ended it, and the warnings up to there. -/
structure Reading (α : Type) where
  outcome : Except Error α
  warnings : List Error
  deriving Repr

/-- A line as a record: without outer blanks. -/
def recordOf (line : String) : String :=
  String.ofList (Text.trim line.toList)

/-- The stamps of the lines from number `line` on. -/
def readStamps (policy : Policy) : (line : Nat) → List String → Reading (List Stamp)
  | _, [] => ⟨.ok [], []⟩
  | line, text :: rest =>
    let record := recordOf text
    if record = "" then readStamps policy (line + 1) rest
    else
      match Stamp.ofRecord record with
      | .ok stamp =>
        let later := readStamps policy (line + 1) rest
        ⟨later.outcome.map (stamp :: ·), later.warnings⟩
      | .error e =>
        let e := e.locate line record
        if policy = .lenient ∧ e.isFault then
          let later := readStamps policy (line + 1) rest
          ⟨later.outcome, e :: later.warnings⟩
        else ⟨.error e, []⟩

/-- The script of the lines from number `line` on, none before which has a record. -/
def readFrom (policy : Policy) : (line : Nat) → List String → Reading Script
  | _, [] => ⟨.error (.fault .noCanvas none none), []⟩
  | line, text :: rest =>
    let record := recordOf text
    if record = "" then readFrom policy (line + 1) rest
    else
      match Canvas.ofRecord record with
      | .error e => ⟨.error (e.locate line record), []⟩
      | .ok canvas =>
        let stamps := readStamps policy (line + 1) rest
        ⟨stamps.outcome.map (⟨canvas, ·⟩), stamps.warnings⟩

/-- **The script of a list of lines**, which are counted from one. -/
def read (policy : Policy) (lines : List String) : Reading Script :=
  readFrom policy 1 lines

/-- The lines of a file's text. -/
def linesOf (text : String) : List String :=
  (Text.lines (Text.unifyEnds text.toList)).map String.ofList

/-- **The script of a file's text.** -/
def ofText (policy : Policy) (text : String) : Reading Script :=
  read policy (linesOf text)

/-- What a warning says of a stamp record that was passed over. -/
def warningMessage (e : Error) : String :=
  "skipping draw record: " ++ e.message

/-- **The text of a script**: one record a line, the canvas first. -/
def text (s : Script) : Text.Loose :=
  Text.Loose.intercalate "\n" (s.canvas.toRecord :: s.stamps.map Stamp.record) ++ "\n"

/-- The text of a script as it is shown. -/
def toText (s : Script) : String :=
  s.text.shown

/-- The numbers of a script, without those of its colours. -/
def numbers (s : Script) : List Int :=
  [(s.canvas.width : Int), s.canvas.height] ++ s.stamps.flatMap Stamp.numbers

/-- **Why there is no file for a script.** -/
inductive FileError where
  /-- A number is too long to be written. -/
  | longNumber
  /-- A file cannot hold the text. It is begun before this is found out, and stays empty. -/
  | encoding (error : Text.EncodingError)
  deriving Repr, DecidableEq

/-- The message of a script without a file. -/
def FileError.message : FileError → String
  | longNumber => Decimal.tooLongMessage
  | encoding e => e.message

/-- **What the file of a script holds**, or why there is none. -/
def fileText (s : Script) : Except FileError String :=
  if s.numbers.all isShort then s.text.encode.mapError .encoding
  else .error .longNumber

/-- The script as descriptions show it. -/
def describe (s : Script) : String :=
  s.canvas.describe ++ "\n" ++ String.join (s.stamps.map Stamp.describe)

end Script

end Stencil
