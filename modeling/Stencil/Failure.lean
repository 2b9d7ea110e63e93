import Stencil.Drawing
import Stencil.Shape.Template
import Stencil.Store
import Stencil.Surface.Raster

/-!
# Failure — what can go wrong between files and drawings

A `Failure` is why work with files and drawings ends early. Most failures are those of a single part
of the work; the others concern output files, contact sheets and the command line.
-/

namespace Stencil

/-- **Why work ends early.** -/
inductive Failure where
  | file (error : Store.Error)
  /-- A file that should hold a text holds none. -/
  | notText
  | record (error : Record.Error)
  | template (error : Template.Error)
  | library (error : Library.AddError)
  | drawing (error : Drawing.Error)
  | figure (error : Surface.Figure.SizeError)
  | raster (error : Surface.Raster.SizeError)
  /-- There is no output format of that name. -/
  | noFormat (name : String)
  /-- A contact sheet of nothing is asked for. -/
  | noDrawings
  /-- So many pictures are given for so many drawings. -/
  | pictureCount (pictures drawings : Nat)
  /-- There are fewer titles than drawings. -/
  | noTitle
  /-- A sheet of a library without shapes is asked for. -/
  | emptyLibrary
  /-- The seed of random placement is negative. -/
  | negativeSeed
  /-- An option that needs a value has none. -/
  | noValue (option : String)

namespace Failure

/-- The message of a failure. -/
def message : Failure → String
  | file e => e.message
  | notText => "file is not UTF-8"
  | record e => e.message
  | template e => e.message
  | library e => e.message
  | drawing e => e.message
  | figure e => e.message
  | raster e => e.message
  | noFormat name => "unsupported output format: " ++ name
  | noDrawings => "No drawings provided"
  | pictureCount pictures drawings => s!"{pictures} images for {drawings} drawings"
  | noTitle => "list index out of range"
  | emptyLibrary => "library is empty"
  | negativeSeed => "expected non-negative integer"
  | noValue option => "no value for " ++ option

/-- Whether the failure concerns the reading of one file of instructions, so that other files can be
read all the same. -/
def isOfReading : Failure → Bool
  | file e => e.isOfFile
  | record e => e.isFault
  | _ => false

/-- Whether the failure concerns the painting of one drawing, so that other drawings can be painted
all the same. -/
def isOfPainting : Failure → Bool
  | file e => e.isOfFile
  | drawing (.noShape _) => true
  | drawing (.refused .unsupported) => false
  | drawing (.refused .tooFar) => false
  | drawing (.refused _) => true
  | _ => false

/-- Whether the failure concerns a file. -/
def isOfFile : Failure → Bool
  | file e => e.isOfFile
  | _ => false

end Failure

end Stencil
