import Stencil.Text.Pieces

/-!
# Path — the names of files and folders

A path is a text whose parts are separated by slashes. `Path.steps` are the parts that lead
somewhere, without empty ones and without the dots that stay in place. The other functions take a
path apart or put one together: `parent` and `join` by its text, `simplify`, `child`, `above`,
`name` and `stem` by its steps.
-/

namespace Stencil.Path

/-- The parts of a path that lead somewhere. -/
def steps (path : String) : List String :=
  ((Text.pieces '/' path.toList).map String.ofList).filter fun part => part != "" && part != "."

/-- Whether a path starts at the root. -/
def isAbsolute (path : String) : Bool :=
  path.toList.head? == some '/'

/-- The part after the last slash. -/
def lastPart (path : String) : String :=
  String.ofList ((Text.pieces '/' path.toList).getLast?.getD [])

/-- The slashes that stand for the root at the start of a path: none, one, or exactly two. -/
def root (path : String) : String :=
  match path.toList.takeWhile (· == '/') with
  | [] => ""
  | [_, _] => "//"
  | _ => "/"

/-- The path of some steps. -/
def ofSteps (root : String) (steps : List String) : String :=
  if root = "" && steps.isEmpty then "." else root ++ String.intercalate "/" steps

/-- **The path in its shortest form.** -/
def simplify (path : String) : String :=
  ofSteps (root path) (steps path)

/-- The path of a name in a folder. -/
def child (folder name : String) : String :=
  ofSteps (root folder) (steps folder ++ [name])

/-- The path without its last step. -/
def above (path : String) : String :=
  ofSteps (root path) (steps path).dropLast

/-- The last step of a path. -/
def name (path : String) : String :=
  (steps path).getLast?.getD ""

/-- A name without its last dot and what follows, unless the dot is its first or its
last character. -/
def stemOf (name : List Char) : List Char :=
  let ending := name.reverse.takeWhile (· != '.')
  let stem := (name.take (name.length - (ending.length + 1)))
  if ending.length + 1 < name.length && !ending.isEmpty then stem else name

/-- **The name of a file without its ending.** -/
def stem (path : String) : String :=
  String.ofList (stemOf (name path).toList)

/-- A text without the slashes at its end, unless it holds nothing else. -/
def dropLastSlashes (path : List Char) : List Char :=
  if path.all (· == '/') then path else (path.reverse.dropWhile (· == '/')).reverse

/-- Whether the last part of a path, but for slashes at the end, is the dot that stays in place. -/
def endsInDot (path : String) : Bool :=
  lastPart (String.ofList (dropLastSlashes path.toList)) == "."

/-- The text before the last slash and the text after it. -/
def split (path : String) : String × String :=
  let chars := path.toList
  let tail := (chars.reverse.takeWhile (· != '/')).reverse
  let head := chars.take (chars.length - tail.length)
  (String.ofList (dropLastSlashes head), String.ofList tail)

/-- **The folder that a path lies in**, empty when the path names none. -/
def parent (path : String) : String :=
  (split path).1

/-- **A path seen from a folder.** -/
def join (folder path : String) : String :=
  if isAbsolute path then path
  else if folder = "" || folder.toList.getLast? == some '/' then folder ++ path
  else folder ++ "/" ++ path

end Stencil.Path
