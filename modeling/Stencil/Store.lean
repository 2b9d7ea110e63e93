import Stencil.Page
import Stencil.Path
import Stencil.Text.Quoted

/-!
# Store — files and folders

A `Store` holds the files and folders below one folder, the root. Paths that do not start at the
root start at the store's home. `read`, `write`, `makeFolder` and `makeFolders` work on paths and
refuse what cannot be done, naming the path. A name has 255 bytes at most and a path 4095, and a
text with a null character is no path. Each place is a file or a folder of its own, which can be
read and written: there are no links and no permissions, and there is always room. `get?` is the
view of a store that the others are told by: `get?_put_self` and `get?_put_of_ne` say that putting
something in one place changes no other.
-/

namespace Stencil

/-- **What a file holds.** -/
inductive Contents where
  | text (text : String)
  /-- Bytes that are no text. -/
  | bytes (bytes : ByteArray)
  | image (image : Image)
  | page (page : Page)

namespace Contents

/-- The contents of some bytes: their text, if they are one. -/
def ofBytes (bytes : ByteArray) : Contents :=
  match String.fromUTF8? bytes with
  | some s => text s
  | none => .bytes bytes

/-- The text of a file. A picture has none. Pages are not printed here, so the file of a page is
taken to be empty: what a printer puts into it is no part of a store. -/
def text? : Contents → Option String
  | text s => some s
  | bytes _ => none
  | image _ => none
  | page _ => some ""

end Contents

/-- **What is in a place.** -/
inductive Entry where
  | folder
  | file (contents : Contents)

/-- A place below the root: the names that lead there. -/
abbrev Place := List String

/-- **Files and folders**, each with its place. -/
structure Store where
  /-- Where paths start that do not start at the root. -/
  home : Place
  entries : List (Place × Entry)

namespace Store

/-- Why something cannot be done with a path. -/
inductive Problem where
  | notFound
  | exists
  | notFolder
  | isFolder
  | nameTooLong
  /-- The path holds a null character. -/
  | notPath
  deriving Repr, DecidableEq

/-- The number of a problem. A text that is no path has none. -/
def Problem.code? : Problem → Option Nat
  | notFound => some 2
  | «exists» => some 17
  | notFolder => some 20
  | isFolder => some 21
  | nameTooLong => some 36
  | notPath => none

/-- What is said of a problem. -/
def Problem.words : Problem → String
  | notFound => "No such file or directory"
  | «exists» => "File exists"
  | notFolder => "Not a directory"
  | isFolder => "Is a directory"
  | nameTooLong => "File name too long"
  | notPath => "embedded null byte"

/-- **A problem and the path that has it.** -/
structure Error where
  problem : Problem
  path : String
  deriving Repr, DecidableEq

/-- Whether an error is one of files and folders, and not of a text that is no path. -/
def Error.isOfFile (e : Error) : Bool :=
  e.problem ≠ .notPath

/-- The message of an error. -/
def Error.message (e : Error) : String :=
  match e.problem.code? with
  | some code => s!"[Errno {code}] " ++ e.problem.words ++ ": " ++ Text.quoted e.path
  | none => e.problem.words

/-! ## Places -/

/-- The store with nothing but its home and the folders above it. -/
def ofHome (home : Place) : Store :=
  ⟨home, (List.range home.length).map fun n => (home.take (n + 1), .folder)⟩

/-- What a place holds in a list of entries. -/
def lookup : List (Place × Entry) → Place → Option Entry
  | [], _ => none
  | (p, e) :: rest, place => if p = place then some e else lookup rest place

/-- The entries with one of them set; a place that is there already keeps its turn. -/
def replace : List (Place × Entry) → Place → Entry → List (Place × Entry)
  | [], place, entry => [(place, entry)]
  | (p, e) :: rest, place, entry =>
    if p = place then (p, entry) :: rest else (p, e) :: replace rest place entry

/-- **What is in a place.** The root is a folder. -/
def get? (s : Store) (place : Place) : Option Entry :=
  if place = [] then some .folder else lookup s.entries place

/-- The store with something put in a place. -/
def put (s : Store) (place : Place) (entry : Entry) : Store :=
  { s with entries := replace s.entries place entry }

theorem lookup_replace_self (entries : List (Place × Entry)) (place : Place) (entry : Entry) :
    lookup (replace entries place entry) place = some entry := by
  induction entries with
  | nil => simp [replace, lookup]
  | cons e rest ih =>
    by_cases h : e.1 = place
    · simp [replace, lookup, h]
    · simp [replace, lookup, h, ih]

theorem lookup_replace_of_ne (entries : List (Place × Entry)) {place other : Place} (entry : Entry)
    (h : other ≠ place) : lookup (replace entries place entry) other = lookup entries other := by
  induction entries with
  | nil => simp [replace, lookup, Ne.symm h]
  | cons e rest ih =>
    by_cases hp : e.1 = place
    · have ho : e.1 ≠ other := fun he => h (he.symm.trans hp)
      simp [replace, lookup, hp, Ne.symm h]
    · by_cases ho : e.1 = other
      · simp [replace, lookup, ho, h]
      · simp [replace, lookup, hp, ho, ih]

theorem get?_put_self (s : Store) {place : Place} (entry : Entry) (h : place ≠ []) :
    (s.put place entry).get? place = some entry := by
  simp [get?, put, h, lookup_replace_self]

theorem get?_put_of_ne (s : Store) {place other : Place} (entry : Entry) (h : other ≠ place) :
    (s.put place entry).get? other = s.get? other := by
  by_cases ho : other = [] <;> simp [get?, put, ho, lookup_replace_of_ne _ entry h]

/-! ## Paths -/

/-- The most bytes that a name may have. -/
def maxName : Nat := 255

/-- The most bytes that a path may have. -/
def maxPath : Nat := 4095

/-- What is wrong with a place that holds nothing. -/
def absence (place : Place) : Problem :=
  if place.any fun name => maxName < name.utf8ByteSize then .nameTooLong else .notFound

/-- The place that some steps lead to from another one. Every step but the last has to lead to a
folder. -/
def walk (s : Store) (place : Place) : List String → Except Problem Place
  | [] => .ok place
  | step :: rest =>
    if step = ".." then walk s place.dropLast rest
    else if rest = [] then .ok (place ++ [step])
    else
      match s.get? (place ++ [step]) with
      | some .folder => walk s (place ++ [step]) rest
      | some (.file _) => .error .notFolder
      | none => .error (absence [step])

/-- The place itself, if there is a folder. -/
def enter (s : Store) (place : Place) : Except Problem Place :=
  match s.get? place with
  | some .folder => .ok place
  | some (.file _) => .error .notFolder
  | none => .error (absence place)

/-- The place that a path leads to. A dot at its end, with or without slashes behind it, stands for
the folder that is there. -/
def locate (s : Store) (path : String) : Except Problem Place :=
  if path.toList.contains (Char.ofNat 0) then .error .notPath
  else if path = "" then .error .notFound
  else if maxPath < path.utf8ByteSize then .error .nameTooLong
  else
    (s.walk (if Path.isAbsolute path then [] else s.home) (Path.steps path)).bind fun place =>
      if Path.endsInDot path then s.enter place else .ok place

/-- Whether a path asks for a folder by a slash at its end. -/
def wantsFolder (path : String) : Bool :=
  Path.lastPart path = ""

/-- What a path leads to. -/
def find? (s : Store) (path : String) : Option Entry :=
  match s.locate path with
  | .error _ => none
  | .ok place =>
    match s.get? place with
    | some (.file contents) => if wantsFolder path then none else some (.file contents)
    | entry => entry

/-- Whether a path leads to something. -/
def contains (s : Store) (path : String) : Bool :=
  (s.find? path).isSome

/-- Whether a path leads to a folder. -/
def isFolder (s : Store) (path : String) : Bool :=
  match s.find? path with
  | some .folder => true
  | _ => false

/-! ## Files -/

/-- **What a file holds.** -/
def read (s : Store) (path : String) : Except Error Contents :=
  match s.locate path with
  | .error problem => .error ⟨problem, path⟩
  | .ok place =>
    match s.get? place with
    | none => .error ⟨absence place, path⟩
    | some .folder => .error ⟨.isFolder, path⟩
    | some (.file contents) =>
      if wantsFolder path then .error ⟨.notFolder, path⟩ else .ok contents

/-- **The store with a file written**, in place of an earlier one if there is one. -/
def write (s : Store) (path : String) (contents : Contents) : Except Error Store :=
  match s.locate path with
  | .error problem => .error ⟨problem, path⟩
  | .ok place =>
    match s.get? place with
    | some .folder => .error ⟨.isFolder, path⟩
    | some (.file _) =>
      if wantsFolder path then .error ⟨.isFolder, path⟩ else .ok (s.put place (.file contents))
    | none =>
      if wantsFolder path then .error ⟨.isFolder, path⟩
      else if absence place = .nameTooLong then .error ⟨.nameTooLong, path⟩
      else .ok (s.put place (.file contents))

/-! ## Folders -/

/-- The store with one folder more. -/
def makeFolder (s : Store) (path : String) : Except Error Store :=
  match s.locate path with
  | .error problem => .error ⟨problem, path⟩
  | .ok place =>
    match s.get? place with
    | some _ => .error ⟨.exists, path⟩
    | none =>
      if absence place = .nameTooLong then .error ⟨.nameTooLong, path⟩
      else .ok (s.put place .folder)

/-- The folder that a path lies in, and its own name. -/
def splitName (path : String) : String × String :=
  let (head, tail) := Path.split path
  if tail = "" then Path.split head else (head, tail)

/-- The store with a folder and those above it, as far as `fuel` folders up, and the error that came
in between. Folders made before the error stay. -/
def makeFoldersWithin : (fuel : Nat) → Store → String → Store × Option Error
  | 0, s, _ => (s, none)
  | fuel + 1, s, path =>
    let (head, tail) := splitName path
    let isNested := head ≠ "" && tail ≠ "" && !s.contains head
    let (s, problem) := if isNested then makeFoldersWithin fuel s head else (s, none)
    match problem.filter fun e => e.problem ≠ .exists with
    | some e => (s, some e)
    | none =>
      if isNested && tail = "." then (s, none)
      else
        match s.makeFolder path with
        | .ok s => (s, none)
        | .error e => if s.isFolder path then (s, none) else (s, some e)

/-- **The store with a folder** and all those above it; those that are there already are kept. -/
def makeFolders (s : Store) (path : String) : Except Error Store :=
  match makeFoldersWithin (path.length + 1) s path with
  | (s, none) => .ok s
  | (_, some e) => .error e

/-- The store with a folder, made after those above it when these are not there, as far as `fuel`
folders up, and the error that came in between. -/
def makeMissingWithin : (fuel : Nat) → Store → String → Store × Option Error
  | 0, s, _ => (s, none)
  | fuel + 1, s, path =>
    let settle (s : Store) (e : Error) : Store × Option Error :=
      if e.problem ≠ .notFound && s.isFolder path then (s, none) else (s, some e)
    match s.makeFolder path with
    | .ok s => (s, none)
    | .error e =>
      if e.problem = .notFound && Path.above path ≠ path then
        match makeMissingWithin fuel s (Path.above path) with
        | (s, some e) => (s, some e)
        | (s, none) =>
          match s.makeFolder path with
          | .ok s => (s, none)
          | .error e => settle s e
      else settle s e

/-- **The store with the folder of a path in its shortest form**, and with all those above it. -/
def makeMissing (s : Store) (path : String) : Except Error Store :=
  match makeMissingWithin (path.length + 1) s path with
  | (s, none) => .ok s
  | (_, some e) => .error e

/-- The store with the folder that a path lies in. -/
def makeParent (s : Store) (path : String) : Except Error Store :=
  if Path.parent path = "" then .ok s else s.makeFolders (Path.parent path)

/-! ## Lists of files -/

/-- The name of something in a folder; nothing for what is elsewhere. -/
def nameIn? (folder place : Place) : Option String :=
  match place.getLast? with
  | some name => if place.dropLast = folder then some name else none
  | none => none

/-- **The names in a folder**, in the order of their characters. -/
def names (s : Store) (folder : Place) : List String :=
  (s.entries.filterMap fun e => nameIn? folder e.1).mergeSort fun a b => a ≤ b

/-- All files with their places. -/
def files (s : Store) : List (Place × Contents) :=
  s.entries.filterMap fun (place, entry) =>
    match entry with
    | .file contents => some (place, contents)
    | .folder => none

/-- Those of some files that lie below the home, each with its place from there. -/
def belowHome (s : Store) (files : List (Place × Contents)) : List (Place × Contents) :=
  files.filterMap fun (place, contents) =>
    if s.home.isPrefixOf place then some (place.drop s.home.length, contents) else none

/-- The files whose places another store does not have. -/
def newFiles (s before : Store) : List (Place × Contents) :=
  s.files.filter fun (place, _) => (before.get? place).isNone

/-- Whether some contents are those of a file that is as it was. Pictures and pages are
always new. -/
def isKept (before : Store) (place : Place) : Contents → Bool
  | .text s =>
    match before.get? place with
    | some (.file (.text old)) => s == old
    | _ => false
  | .bytes _ => true
  | .image _ => false
  | .page _ => false

/-- **The files to be written** so that what was before becomes what is now. -/
def changedFiles (s before : Store) : List (Place × Contents) :=
  s.files.filter fun (place, contents) => !before.isKept place contents

/-- The folders whose places another store does not have. -/
def newFolders (s before : Store) : List Place :=
  s.entries.filterMap fun (place, entry) =>
    match entry with
    | .folder => if (before.get? place).isNone then some place else none
    | .file _ => none

end Store

end Stencil
