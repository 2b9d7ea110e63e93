import Stencil.Decimal.Reading
import Stencil.Output

/-!
# Arguments — what the command line asks for

`Arguments.read` reads the words of a command line: the files to draw, and options before, between
and after them. An option may be cut short as long as it stays unambiguous, and its value may follow
in the next word or after an equals sign. Two dashes after the equals sign leave the option without
a value, which is more than not to name it. After two dashes that are a word every word is a file.
All files stand together: those that come after an option that follows the first ones are refused.
-/

namespace Stencil

/-- **An option of the command line.** -/
inductive Switch where
  | help
  | seed
  | outdir
  | format
  | dpi
  | grid
  | columns
  | templates
  | librarySheet
  | describe
  | «show»
  | lenient
  | verbose
  deriving Repr, DecidableEq

namespace Switch

/-- The options and how they are spelled. -/
def table : List (String × Switch) :=
  [("-h", .help), ("--help", .help), ("--seed", .seed), ("--outdir", .outdir),
   ("--format", .format), ("--dpi", .dpi), ("--grid", .grid), ("--cols", .columns),
   ("--templates", .templates), ("--library-sheet", .librarySheet), ("--describe", .describe),
   ("--show", .show), ("--lenient", .lenient), ("--verbose", .verbose)]

/-- Whether the option stands alone, without a value. -/
def isFlag : Switch → Bool
  | help | describe | «show» | lenient | verbose => true
  | _ => false

end Switch

/-- **What becomes of an option** that takes a value. -/
inductive Setting (α : Type) where
  /-- It is not named and has no value of its own. -/
  | unset
  /-- It is named, with two dashes in place of a value. -/
  | withheld
  | value (a : α)
  deriving Repr, DecidableEq

/-- **What the command line asks for.** -/
structure Arguments where
  files : List String := []
  seed : Setting Int := .unset
  /-- The folder that every drawing is written to. -/
  outdir : Setting String := .unset
  format : Setting Format := .value .png
  dpi : Setting Int := .value 100
  /-- The file of the contact sheet. -/
  grid : Setting String := .unset
  columns : Setting Int := .value 4
  /-- The folder of templates. -/
  templates : Setting String := .unset
  /-- The file of the library's contact sheet. -/
  librarySheet : Setting String := .unset
  describe : Bool := false
  windows : Bool := false
  lenient : Bool := false
  verbose : Bool := false
  deriving Repr, DecidableEq

namespace Arguments

/-- Why there is nothing to do. -/
inductive Stop where
  /-- Help is asked for. -/
  | help
  /-- The command line cannot be understood. -/
  | misused
  deriving Repr, DecidableEq

/-- The exit status when there is nothing to do. -/
def Stop.status : Stop → Nat
  | help => 0
  | misused => 2

/-! ## Words -/

/-- **What a word of the command line is.** -/
inductive Token where
  /-- A file, or the value of an option. -/
  | word (text : String)
  /-- An option, maybe with a value of its own. -/
  | option (switch : Switch) (value : Option String)
  /-- The letter that asks for help, with such letters behind it. -/
  | letters (rest : List Char)
  /-- What looks like an option and is none. -/
  | unknown
  /-- Two dashes. -/
  | divider
  deriving Repr, DecidableEq

/-- The text before the first equals sign, and the one after it. -/
def cutAtEquals (s : List Char) : List Char × Option String :=
  match s.dropWhile (· != '=') with
  | [] => (s, none)
  | _ :: value => (s.takeWhile (· != '='), some (String.ofList value))

/-- Whether the text is that of a negative number. -/
def isNegativeNumber (s : List Char) : Bool :=
  let isDigit c := (Text.decimalDigit? c).isSome
  let s := if s.getLast? == some '\n' then s.dropLast else s
  match s with
  | '-' :: number =>
    let fraction := number.dropWhile isDigit
    match fraction with
    | [] => !number.isEmpty
    | '.' :: digits => !digits.isEmpty && digits.all isDigit
    | _ => false
  | _ => false

/-- The options that a cut option may stand for. -/
def candidates (cut : List Char) : List Switch :=
  (Switch.table.filter fun (name, _) => cut.isPrefixOf name.toList).map Prod.snd

/-- What a word is that starts with a dash, is longer than that and is no option as it stands. -/
def tokenOfCut (text : String) : Except Stop Token :=
  let s := text.toList
  match s with
  | '-' :: 'h' :: '=' :: rest => .ok (.letters rest)
  | '-' :: 'h' :: rest => .ok (.letters rest)
  | _ =>
    let (name, value) := cutAtEquals s
    match Switch.table.lookup (String.ofList name), value with
    | some switch, some value => .ok (.option switch (some value))
    | _, _ =>
      let found := if "--".toList.isPrefixOf s then candidates name else []
      match found with
      | [switch] => .ok (.option switch value)
      | _ :: _ :: _ => .error .misused
      | [] => .ok (if isNegativeNumber s || s.contains ' ' then .word text else .unknown)

/-- **What a word is**, before two dashes have been met. -/
def tokenOf (text : String) : Except Stop Token :=
  match text.toList with
  | '-' :: _ :: _ =>
    match Switch.table.lookup text with
    | some switch => .ok (.option switch none)
    | none => tokenOfCut text
  | _ => .ok (.word text)

/-- What the words are. After two dashes none is an option. -/
def tokens : List String → Except Stop (List Token)
  | [] => .ok []
  | text :: rest =>
    if text = "--" then .ok (.divider :: rest.map .word)
    else (tokenOf text).bind fun t => (tokens rest).map (t :: ·)

/-! ## Options -/

/-- The setting of an option by a text, if the text stands for a value of its kind. -/
def setting {α : Type} (value? : String → Option α) (text : String) : Except Stop (Setting α) :=
  if text = "--" then .ok .withheld
  else
    match value? text with
    | some a => .ok (.value a)
    | none => .error .misused

/-- The whole number that a text stands for. -/
def whole? (text : String) : Option Int :=
  Decimal.wholeFromText? text.toList

/-- The arguments with an option that has a value. -/
def withValue (a : Arguments) (text : String) : Switch → Except Stop Arguments
  | .seed => (setting whole? text).map fun seed => { a with seed := seed }
  | .outdir => (setting some text).map fun folder => { a with outdir := folder }
  | .format => (setting Format.ofName? text).map fun format => { a with format := format }
  | .dpi => (setting whole? text).map fun dpi => { a with dpi := dpi }
  | .grid => (setting some text).map fun path => { a with grid := path }
  | .columns => (setting whole? text).map fun columns => { a with columns := columns }
  | .templates => (setting some text).map fun folder => { a with templates := folder }
  | .librarySheet => (setting some text).map fun path => { a with librarySheet := path }
  | _ => .error .misused

/-- The arguments with an option that stands alone. -/
def withFlag (a : Arguments) : Switch → Except Stop Arguments
  | .help => .error .help
  | .describe => .ok { a with describe := true }
  | .show => .ok { a with windows := true }
  | .lenient => .ok { a with lenient := true }
  | .verbose => .ok { a with verbose := true }
  | _ => .error .misused

/-- What the letters behind the one that asks for help come to: help, if they all ask for it. -/
def lettersStop (rest : List Char) : Stop :=
  if !rest.isEmpty && rest.all (· == 'h') then .help else .misused

/-! ## The whole line -/

/-- How far the files have come. -/
inductive Progress where
  | ahead
  | here
  | behind
  deriving Repr, DecidableEq

/-- **What is left to find out**, word by word. `stray` says whether something was met that belongs
nowhere; that is refused at the end, where help may still have been asked for. -/
def readTokens (a : Arguments) (progress : Progress) (stray : Bool) :
    List Token → Except Stop Arguments
  | [] => if stray || progress = .ahead then .error .misused else .ok a
  | .word text :: rest =>
    if progress = .behind then readTokens a progress true rest
    else readTokens { a with files := a.files ++ [text] } .here stray rest
  | .divider :: rest => readTokens a progress (stray || progress = .behind) rest
  | .unknown :: rest =>
    readTokens a (if progress = .here then .behind else progress) true rest
  | .letters rest :: _ => .error (lettersStop rest)
  | .option switch (some value) :: rest =>
    match a.withValue value switch with
    | .error stop => .error stop
    | .ok a => readTokens a (if progress = .here then .behind else progress) stray rest
  | .option switch none :: rest =>
    if switch.isFlag then
      match a.withFlag switch with
      | .error stop => .error stop
      | .ok a => readTokens a (if progress = .here then .behind else progress) stray rest
    else
      match rest with
      | .word value :: rest =>
        match a.withValue value switch with
        | .error stop => .error stop
        | .ok a => readTokens a (if progress = .here then .behind else progress) stray rest
      | _ => .error .misused

/-- **What the words of a command line ask for.** -/
def read (words : List String) : Except Stop Arguments :=
  (tokens words).bind (readTokens {} .ahead false)

end Arguments

end Stencil
