import Stencil.Arguments
import Stencil.Library.Folder
import Stencil.Sheet

/-!
# CommandLine — drawing files from the command line

`CommandLine.run` does what the arguments ask for: it reads the library, reads the files of
instructions, describes them, paints each drawing and writes it, and puts all of them on a contact
sheet or into windows. A file that cannot be read and a drawing that cannot be painted are counted
and reported, and the others go on. The exit status says whether anything was counted.
-/

namespace Stencil.CommandLine

open Session

/-- The topic of messages about reading instructions. -/
def readingTopic : String := "instructions.parser"

/-- A text of the command line that is there and not empty. -/
def given? : Setting String → Option String
  | .value text => if text = "" then none else some text
  | _ => none

/-- The value of an option that cannot be without one. -/
def required {α : Type} (name : String) : Setting α → Work α
  | .value a => return a
  | _ => throw (.noValue name)

/-- What was done, and how many failures were counted on the way. -/
structure Tally (α : Type) where
  done : List α
  failures : Nat

/-! ## Reading -/

/-- What is said of a script that has been read. -/
def readingMessage (path : String) (script : Script) : String :=
  "parsed " ++ path ++ s!": canvas {script.canvas.width}x{script.canvas.height}, " ++
    s!"{script.stamps.length} draw records"

/-- **The drawing of a file of instructions.** -/
def readDrawing (library : Library) (policy : Script.Policy) (path : String) : Work Drawing := do
  let text ← readText path
  let reading := Script.ofText policy text
  for e in reading.warnings do
    warn readingTopic (Script.warningMessage e)
  let script ← check Failure.record reading.outcome
  tell readingTopic (readingMessage path script)
  return ⟨library, script, some (Path.stem path)⟩

/-- The drawings of several files. A file that cannot be read is reported and counted. -/
def readDrawings (library : Library) (policy : Script.Policy) :
    List String → Work (Tally Drawing)
  | [] => return ⟨[], 0⟩
  | path :: rest => do
    let drawing ←
      try some <$> readDrawing library policy path
      catch e =>
        if e.isOfReading then
          complain ("[error] " ++ path ++ ": " ++ e.message)
          pure none
        else throw e
    let later ← readDrawings library policy rest
    match drawing with
    | some d => return ⟨d :: later.done, later.failures⟩
    | none => return ⟨later.done, later.failures + 1⟩

/-! ## Describing -/

/-- Prints the library and the drawings. -/
def describe (library : Library) (drawings : List Drawing) : Work Unit := do
  print "*********Shape Library**************"
  print library.describe
  for d in drawings do
    print ("*********" ++ d.name.getD "" ++ "*********")
    print d.describe

/-! ## Painting -/

/-- The ending of output files. An empty list stands where a format was to be named. -/
def ending (a : Arguments) : String :=
  match a.format with
  | .value format => format.name
  | _ => "[]"

/-- The path of a drawing in a folder. -/
def outputPath (a : Arguments) (folder name : String) : String :=
  Path.join folder (name ++ "." ++ ending a)

/-- A drawing written to its file in a folder. Its picture is there already. -/
def writeTo (a : Arguments) (g : Generator) (folder : String) (count i : Nat) (d : Drawing)
    (image : Image) : Work Unit := do
  change fun store => store.makeFolders folder
  let name := d.name.getD ""
  let path := outputPath a folder name
  print (s!"[{i + 1}/{count}] Rendering " ++ name ++ " -> " ++ path)
  if a.format = .value .svg then
    restart
    match a.dpi with
    | .value dpi => writeDrawing g d path (some Format.svg.name) dpi
    | _ =>
      tell paintingTopic d.announcement
      throw (.noValue "--dpi")
  else change fun store => store.write path (.image image)

/-- **One drawing painted**, and written where a folder is given. Whatever is made of it shows the
same random placement. -/
def paint (a : Arguments) (g : Generator) (count i : Nat) (d : Drawing) : Work Image := do
  restart
  let image ← picture g d
  if let some folder := given? a.outdir then writeTo a g folder count i d image
  return image

/-- Several drawings painted, the first of which is number `i` of `count`. A drawing that cannot be
painted or written is reported and counted. -/
def paintAll (a : Arguments) (generators : Nat → Generator) (count : Nat) :
    (i : Nat) → List Drawing → Work (Tally (Drawing × Image))
  | _, [] => return ⟨[], 0⟩
  | i, d :: rest => do
    let image ←
      try some <$> paint a (generators i) count i d
      catch e =>
        if e.isOfPainting then
          complain ("[error] " ++ d.name.getD "" ++ ": " ++ e.message)
          pure none
        else throw e
    let later ← paintAll a generators count (i + 1) rest
    match image with
    | some image => return ⟨(d, image) :: later.done, later.failures⟩
    | none => return ⟨later.done, later.failures + 1⟩

/-! ## Sheets -/

/-- The contact sheet of the library, where one is asked for. -/
def libraryStage (a : Arguments) (library : Library) : Work Unit := do
  if let some path := given? a.librarySheet then
    print (s!"Rendering shape library ({library.count} templates) -> " ++ path)
    writeLibrarySheet library path libraryColumns

/-- The contact sheet of the drawings, where one is asked for: the number of failures. -/
def sheetStage (a : Arguments) (painted : List (Drawing × Image)) : Work Nat := do
  match given? a.grid, painted with
  | some path, _ :: _ =>
    print ("Rendering contact sheet -> " ++ path)
    let columns ← required "--cols" a.columns
    try
      writeSheet Generator.zero (painted.map Prod.fst) path columns none
        (some (painted.map Prod.snd))
      return 0
    catch e =>
      if e.isOfFile then
        complain ("[error] contact sheet: " ++ e.message)
        return 1
      else throw e
  | _, _ => return 0

/-! ## The whole run -/

/-- The last line printed. -/
def closingLine (failures : Nat) : String :=
  if failures = 0 then "Done." else s!"Done with {failures} failure(s)."

/-- The exit status. -/
def status (failures : Nat) : Nat :=
  if failures = 0 then 0 else 1

/-- The policy that the arguments ask for. -/
def policy (a : Arguments) : Script.Policy :=
  if a.lenient then .lenient else .strict

/-- The seed has to be a number from nought on. -/
def checkSeed (a : Arguments) : Work Unit :=
  match a.seed with
  | .value seed => if seed < 0 then throw .negativeSeed else return
  | _ => return

/-- The library that the arguments ask for. -/
def libraryOf (a : Arguments) : Work Library :=
  match a.templates with
  | .unset => Session.library none
  | templates => do
    let folder ← required "--templates" templates
    Session.library (some folder)

/-- **All that the arguments ask for**, with a generator for each drawing: the exit status. -/
def work (a : Arguments) (generators : Nat → Generator) : Work Nat := do
  modify fun s => { s with verbose := a.verbose }
  checkSeed a
  let library ← libraryOf a
  libraryStage a library
  let read ← readDrawings library (policy a) a.files
  if a.describe then describe library read.done
  let painted ← paintAll a generators read.done.length 0 read.done
  let unwritten ← sheetStage a painted.done
  if a.windows && !painted.done.isEmpty then openWindows (painted.done.map Prod.snd)
  let failures := read.failures + painted.failures + unwritten
  print (closingLine failures)
  return status failures

/-- **A run over some files.** -/
def run (a : Arguments) (generators : Nat → Generator) (store : Store) :
    Except Failure Nat × Session :=
  (Session.start store).run (work a generators)

end Stencil.CommandLine
