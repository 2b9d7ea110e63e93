import Stencil.Failure

/-!
# Session — work with files, drawings and messages

A `Session` is what work changes: the files, the bounds that the generator was asked for, the lines
printed and the lines of messages, and the windows opened. `Work` is a step that may fail; what it
did before it failed is done.
-/

namespace Stencil

/-- **The state of the work.** -/
structure Session where
  store : Store
  /-- The bounds asked of the generator, in order. -/
  calls : Array Nat
  /-- Whether messages about the course of the work are wanted. -/
  verbose : Bool
  /-- The lines printed. -/
  output : Array String
  /-- The lines of errors, warnings and messages. -/
  messages : Array String
  /-- The sizes of the pages begun and not yet written, in inches. -/
  openPages : Array (Float × Float)
  /-- The sizes of the windows opened, in inches. -/
  windows : Array (Float × Float)

/-- **A step of work.** -/
abbrev Work := ExceptT Failure (StateM Session)

namespace Session

/-- The session before any work. -/
def start (store : Store) : Session :=
  ⟨store, #[], false, #[], #[], #[], #[]⟩

/-- What work leaves of a session: its outcome, and the session as it is then. -/
def run {α : Type} (session : Session) (work : Work α) : Except Failure α × Session :=
  (ExceptT.run work).run session

/-! ## Messages -/

/-- Prints a line. -/
def print (line : String) : Work Unit :=
  modify fun s => { s with output := s.output.push line }

/-- Shows a line about what went wrong. -/
def complain (line : String) : Work Unit :=
  modify fun s => { s with messages := s.messages.push line }

/-- Shows a message about the course of the work, if such are wanted. -/
def tell (topic message : String) : Work Unit :=
  modify fun s =>
    if s.verbose then { s with messages := s.messages.push ("DEBUG " ++ topic ++ ": " ++ message) }
    else s

/-- Shows a warning. -/
def warn (topic message : String) : Work Unit :=
  complain ("WARNING " ++ topic ++ ": " ++ message)

/-! ## Steps that may fail -/

/-- A result that may be an error. -/
def check {ε α : Type} (failure : ε → Failure) (result : Except ε α) : Work α :=
  match result with
  | .ok a => pure a
  | .error e => throw (failure e)

/-- A change of the files. -/
def change (f : Store → Except Store.Error Store) : Work Unit := do
  let session ← get
  match f session.store with
  | .ok store => set { session with store := store }
  | .error e => throw (.file e)

/-- **The text of a file.** -/
def readText (path : String) : Work String := do
  let session ← get
  let contents ← check Failure.file (session.store.read path)
  match contents.text? with
  | some text => return text
  | none => throw .notText

/-! ## Drawings -/

/-- The topic of messages about painting. -/
def paintingTopic : String := "plotting.engine"

/-- Forgets what the generator was asked for. -/
def restart : Work Unit :=
  modify fun s => { s with calls := #[] }

/-- A drawing on a surface, as it is left. -/
def paintOn {σ : Type} [Surface σ] (g : Generator) (d : Drawing) (surface : σ) : Work σ := do
  let session ← get
  let (outcome, easel) := d.paint g surface session.calls
  set { session with calls := easel.calls }
  match outcome with
  | .ok _ => return easel.surface
  | .error e => throw (.drawing e)

/-- **The picture of a drawing.** -/
def picture (g : Generator) (d : Drawing) : Work Image := do
  tell paintingTopic d.announcement
  let blank ← check Failure.raster (Surface.Raster.ofSize d.canvas.size)
  let raster ← paintOn g d blank
  return raster.image

/-- The figure of a drawing, at so many dots an inch. -/
def figure (g : Generator) (d : Drawing) (dpi : Int) : Work Surface.Figure := do
  tell paintingTopic d.announcement
  let blank ← check Failure.figure (Surface.Figure.blank d.canvas.size dpi)
  paintOn g d blank

end Session

end Stencil
