import Stencil.Image
import Stencil.Path
import Stencil.Text.Case
import Stencil.Text.Case.Upper
import Stencil.Text.Quoted

/-!
# Image/FileFormat — the file formats of pictures

A `FileFormat` has a name, the endings of its files and an `Ability`: what it makes of a picture in
colours. `FileFormat.choose` finds the format that is meant, by its name or by the ending of a path,
and `FileFormat.write` and `FileFormat.reopen` say what stands in the way of writing a picture and
of looking at it again.
-/

namespace Stencil

/-- **What a file format makes of a picture in colours.** -/
inductive Ability where
  /-- It keeps the picture, or what comes nearest to it. -/
  | written
  /-- Its files cannot be looked at again. -/
  | sealed
  /-- Its files cannot be looked at without a program that is not there. -/
  | interpreted
  /-- It holds reduced copies of a picture, the smallest of which has this many pixels a side. -/
  | reduced (least : Nat)
  /-- It has no colours; messages call it by this name. -/
  | colorless (label : String)
  /-- It has only colours that are numbered. -/
  | numbered
  /-- What would write it is not there. -/
  | unhandled
  /-- It can be read and not written. -/
  | unwritten
  deriving Repr, DecidableEq

/-- **A file format of pictures.** -/
structure FileFormat where
  name : String
  endings : List String
  ability : Ability
  deriving Repr, DecidableEq

namespace FileFormat

/-- Why a picture is not written, or not to be looked at again. -/
inductive Error where
  /-- No format is known by the ending of the path. -/
  | unknownEnding (ending : String)
  /-- No format that can be written has that name. -/
  | unknownFormat (name : String)
  | colorless (label : String)
  | numbered
  | unhandled (name : String)
  /-- The file at this path is not that of a picture. -/
  | unidentified (path : String)
  | interpreted
  deriving Repr, DecidableEq

/-- The message of an error. -/
def Error.message : Error → String
  | unknownEnding ending => "unknown file extension: " ++ ending
  | unknownFormat name => Text.quoted name
  | colorless label => "cannot write mode RGB as " ++ label
  | numbered => "Unsupported BLP image mode"
  | unhandled name => name ++ " save handler not installed"
  | unidentified path => "cannot identify image file " ++ Text.quoted path
  | interpreted => "Unable to locate Ghostscript on paths"

/-- **The formats**, with the endings of their files. -/
def table : List FileFormat :=
  [⟨"PNG", [".png", ".apng"], .written⟩, ⟨"BMP", [".bmp"], .written⟩, ⟨"DIB", [".dib"], .written⟩,
   ⟨"TIFF", [".tif", ".tiff"], .written⟩,
   ⟨"PPM", [".pbm", ".pgm", ".ppm", ".pnm", ".pfm"], .written⟩,
   ⟨"TGA", [".tga", ".icb", ".vda", ".vst"], .written⟩,
   ⟨"SGI", [".bw", ".rgb", ".rgba", ".sgi"], .written⟩, ⟨"PCX", [".pcx"], .written⟩,
   ⟨"IM", [".im"], .written⟩, ⟨"GIF", [".gif"], .written⟩, ⟨"DDS", [".dds"], .written⟩,
   ⟨"QOI", [".qoi"], .written⟩,
   ⟨"JPEG2000", [".jp2", ".j2k", ".jpc", ".jpf", ".jpx", ".j2c"], .written⟩,
   ⟨"JPEG", [".jfif", ".jpe", ".jpg", ".jpeg"], .written⟩, ⟨"MPO", [".mpo"], .written⟩,
   ⟨"WEBP", [".webp"], .written⟩, ⟨"AVIF", [".avif", ".avifs"], .written⟩,
   ⟨"ICNS", [".icns"], .written⟩, ⟨"SPIDER", [], .written⟩, ⟨"ICO", [".ico"], .reduced 16⟩,
   ⟨"PDF", [".pdf"], .sealed⟩, ⟨"EPS", [".ps", ".eps"], .interpreted⟩,
   ⟨"XBM", [".xbm"], .colorless "XBM"⟩, ⟨"MSP", [".msp"], .colorless "MSP"⟩,
   ⟨"PALM", [".palm"], .colorless "Palm"⟩, ⟨"BLP", [".blp"], .numbered⟩,
   ⟨"BUFR", [".bufr"], .unhandled⟩, ⟨"GRIB", [".grib"], .unhandled⟩,
   ⟨"HDF5", [".h5", ".hdf"], .unhandled⟩, ⟨"WMF", [".wmf", ".emf"], .unhandled⟩,
   ⟨"CUR", [".cur"], .unwritten⟩, ⟨"DCX", [".dcx"], .unwritten⟩,
   ⟨"FITS", [".fit", ".fits"], .unwritten⟩, ⟨"FLI", [".fli", ".flc"], .unwritten⟩,
   ⟨"FTEX", [".ftc", ".ftu"], .unwritten⟩, ⟨"GBR", [".gbr"], .unwritten⟩,
   ⟨"IPTC", [".iim"], .unwritten⟩, ⟨"MPEG", [".mpg", ".mpeg"], .unwritten⟩,
   ⟨"PCD", [".pcd"], .unwritten⟩, ⟨"PIXAR", [".pxr"], .unwritten⟩, ⟨"PSD", [".psd"], .unwritten⟩,
   ⟨"SUN", [".ras"], .unwritten⟩, ⟨"XPM", [".xpm"], .unwritten⟩]

/-- The format of a name in upper case, if it can be written. -/
def ofName (name : String) : Except Error FileFormat :=
  match table.find? fun f => f.name == name && f.ability != .unwritten with
  | some f => .ok f
  | none => .error (.unknownFormat name)

/-- The ending of a path: what stands from the last dot of its name on, unless nothing but dots
comes before. -/
def endingOf (path : String) : String :=
  let name := (Path.split path).2.toList
  let ending := name.reverse.takeWhile (· != '.')
  if ((name.take (name.length - (ending.length + 1))).all (· == '.')) then ""
  else String.ofList ('.' :: ending.reverse)

/-- **The format that is meant**: the one named, or else the one that the path's ending stands
for. -/
def choose (path : String) (format : Option String) : Except Error FileFormat :=
  match format.filter (· != "") with
  | some name => ofName (String.ofList (Text.upper name.toList))
  | none =>
    let ending := String.ofList (Text.lower (endingOf path).toList)
    match table.find? fun f => f.endings.contains ending with
    | some f => ofName f.name
    | none => .error (.unknownEnding ending)

/-- What stands in the way of writing a picture in the format. -/
def write (f : FileFormat) : Except Error Unit :=
  match f.ability with
  | .colorless label => .error (.colorless label)
  | .numbered => .error .numbered
  | .unhandled => .error (.unhandled f.name)
  | .unwritten => .error (.unknownFormat f.name)
  | _ => .ok ()

/-- What stands in the way of looking again at a picture of this size at this path. -/
def reopen (f : FileFormat) (path : String) (size : Size) : Except Error Unit :=
  match f.ability with
  | .sealed => .error (.unidentified path)
  | .interpreted => .error .interpreted
  | .reduced least =>
    if size.width < least ∨ size.height < least then .error (.unidentified path) else .ok ()
  | _ => .ok ()

end FileFormat

end Stencil
