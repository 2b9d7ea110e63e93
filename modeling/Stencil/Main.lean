import Stencil.CommandLine
import Stencil.Page.Svg

/-!
# Main — the program

The program looks at the files and folders that the command line names, has `CommandLine.run` do the
work on what it found, prints what is to be printed and writes what has changed. Nothing is decided
here.
-/

namespace Stencil.Main

/-! ## Before the work -/

/-- The path of a place on the disk. -/
def pathOf (place : Place) : String :=
  "/" ++ String.intercalate "/" place

/-- What is in a place on the disk. What cannot be read is not there. -/
def entryOnDisk (place : Place) : IO (Option Entry) := do
  try
    let path ← IO.FS.realPath (pathOf place)
    if ← path.isDir then return some .folder
    else return some (.file (Contents.ofBytes (← IO.FS.readBinFile path)))
  catch _ => return none

/-- A store with what is found on the way that some steps lead from a place. -/
def observeSteps (store : Store) (place : Place) : List String → IO Store
  | [] => return store
  | step :: rest => do
    let next := if step = ".." then place.dropLast else place ++ [step]
    match ← entryOnDisk next with
    | none => return store
    | some entry => observeSteps (if next = [] then store else store.put next entry) next rest

/-- A store with what is found on the way of a path. -/
def observe (store : Store) (path : String) : IO Store :=
  observeSteps store (if Path.isAbsolute path then [] else store.home) (Path.steps path)

/-- A store with what is found in a folder. -/
def observeFolder (store : Store) (path : String) : IO Store := do
  let store ← observe store path
  match store.locate path with
  | .error _ => return store
  | .ok place =>
    if store.isFolder path then
      let entries ← (← IO.FS.realPath (pathOf place)).readDir
      entries.foldlM (fun store entry => observeSteps store place [entry.fileName]) store
    else return store

/-- The paths that the command line names or leads to. -/
def paths (a : Arguments) : List String :=
  let outputs (folder : String) :=
    folder :: a.files.map fun file => CommandLine.outputPath a folder (Path.stem file)
  let pathsOf (setting : Setting String) := (CommandLine.given? setting).toList
  a.files ++ (pathsOf a.outdir).flatMap outputs ++ pathsOf a.grid ++ pathsOf a.librarySheet

/-- The store of what the command line names. -/
def observeAll (a : Arguments) : IO Store := do
  let here := (← IO.currentDir).toString
  let store ← observe (Store.ofHome []) here
  let store ← (paths a).foldlM observe { store with home := Path.steps here }
  match a.templates with
  | .value folder => observeFolder store folder
  | _ => return store

/-! ## After the work -/

/-- The bytes of a file. -/
def bytesOf : Contents → ByteArray
  | .text s => s.toUTF8
  | .bytes bytes => bytes
  | .image image => image.toPng
  | .page page => if page.format = some Format.svg.name then page.toSvg.toUTF8 else page.toPng

/-- Writes what has changed. -/
def save (before after : Store) : IO Unit := do
  for place in after.newFolders before do
    IO.FS.createDirAll (pathOf place)
  for (place, contents) in after.changedFiles before do
    IO.FS.writeBinFile (pathOf place) (bytesOf contents)

/-- Prints what the session left to be printed. -/
def report (session : Session) : IO Unit := do
  for line in session.output do
    IO.println line
  for line in session.messages do
    IO.eprintln line
  for size in session.windows do
    IO.eprintln ("no display for a window of " ++ Decimal.floatText size.1 ++ " by " ++
      Decimal.floatText size.2 ++ " inches")

/-- How the program is called. -/
def usage : String :=
  "usage: stencil [-h] [--seed SEED] [--outdir OUTDIR] [--format png|svg] [--dpi DPI] " ++
    "[--grid GRID] [--cols COLS] [--templates TEMPLATES] [--library-sheet LIBRARY_SHEET] " ++
    "[--describe] [--show] [--lenient] [--verbose] files [files ...]"

/-- The seed of the whole run. -/
def seedOf (a : Arguments) : IO Nat :=
  match a.seed with
  | .value seed => return seed.toNat
  | .withheld => return 0
  | .unset => IO.rand 0 0xffffffff

/-- Does what the words of the command line ask for: the exit status. -/
def run (words : List String) : IO UInt32 := do
  match Arguments.read words with
  | .error .help =>
    IO.println usage
    return UInt32.ofNat Arguments.Stop.help.status
  | .error stop =>
    IO.eprintln usage
    return UInt32.ofNat stop.status
  | .ok a =>
    let before ← observeAll a
    let seed ← seedOf a
    let generators (i : Nat) := Generator.seeded (seed * 0x100000 + i)
    let (outcome, session) := CommandLine.run a generators before
    report session
    save before session.store
    match outcome with
    | .ok status => return UInt32.ofNat status
    | .error e =>
      IO.eprintln e.message
      return 1

end Stencil.Main

/-- The program. -/
def main (words : List String) : IO UInt32 :=
  Stencil.Main.run words
