import Stencil.Image.FileFormat
import Stencil.Session

/-!
# Output — the file of a drawing

A drawing is written as pixels or as shapes on paper. `Format.choose` finds out which of the two is
meant, by a name or by the ending of the file's path.
-/

namespace Stencil

/-- **How a drawing is written.** -/
inductive Format where
  | png
  | svg
  deriving Repr, DecidableEq

namespace Format

/-- The name of a format, which is also the ending of its files. -/
def name : Format → String
  | png => "png"
  | svg => "svg"

/-- A text in lower case. -/
def lowerText (s : String) : String :=
  String.ofList (Text.lower s.toList)

/-- The format of a name in lower case. -/
def ofName? (s : String) : Option Format :=
  if s = "png" then some png else if s = "svg" then some svg else none

/-- The format that a path's ending asks for. -/
def ofPath (path : String) : Format :=
  if ".svg".toList.isSuffixOf (Text.lower path.toList) then svg else png

/-- **The format of an output file**: the one named, or else the one of the path. -/
def choose (path : String) (format : Option String) : Except Failure Format :=
  match format with
  | none => .ok (ofPath path)
  | some name =>
    match ofName? (lowerText name) with
    | some f => .ok f
    | none => .error (.noFormat (lowerText name))

end Format

/-! ## Pictures -/

/-- Why a picture is not in its file. -/
inductive SavingError where
  | format (error : FileFormat.Error)
  | file (error : Store.Error)

/-- **The store with a picture in a file of its own format**, which can be looked at again. -/
def Store.savePicture (s : Store) (image : Image) (path : String) (format : Option String) :
    Except SavingError Store := do
  let format ← (FileFormat.choose path format).mapError .format
  let s ← (s.write path (.image image)).mapError .file
  format.write.mapError .format
  (format.reopen path image.size).mapError .format
  return s

namespace Session

/-- **A drawing written to a file**, together with the folder it lies in. -/
def writeDrawing (g : Generator) (d : Drawing) (path : String) (format : Option String)
    (dpi : Int) : Work Unit := do
  let format ← check id (Format.choose path format)
  change fun store => store.makeParent path
  match format with
  | .svg =>
    let figure ← figure g d dpi
    change fun store => store.write path (.page (Page.ofFigure figure (some Format.svg.name)))
  | .png =>
    let image ← picture g d
    change fun store => store.write path (.image image)

end Session

end Stencil
