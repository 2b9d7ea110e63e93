import Stencil.Session

/-!
# Library/Folder — a library in a folder of templates

A folder of templates holds one file for each shape. The built-in shapes are written there first, in
place of whatever their files held; other files are left alone. Then the library is read: the
built-in shapes in their order, and after them every other template by the name of its file.
-/

namespace Stencil

namespace Template

/-- The ending of a template's file. -/
def ending : String := ".json"

/-- The name of the file of a shape. -/
def fileName (shape : Shape) : String :=
  shape.name.shown ++ ending

/-- The names of the files of the built-in shapes. -/
def builtinNames : List String :=
  Shape.builtins.map fileName

/-- Whether a name is that of a template beside the built-in ones. -/
def isExtra (name : String) : Bool :=
  ending.toList.isSuffixOf name.toList && !builtinNames.contains name

end Template

namespace Session

/-- The topic of messages about templates. -/
def templateTopic : String := "shapes.templates"

/-- **The template of a shape** written to a file. -/
def writeTemplate (path : String) (shape : Shape) : Work Unit :=
  change fun store => store.write path (.text shape.toTemplate)

/-- The built-in shapes written to a folder. -/
def writeTemplates (folder : String) : List Shape → Work Unit
  | [] => return
  | shape :: rest => do
    let path := Path.child folder (Template.fileName shape)
    tell templateTopic ("writing template " ++ shape.name.shown ++ " -> " ++ path)
    writeTemplate path shape
    writeTemplates folder rest

/-- The shape of a template's file. -/
def readTemplate (path : String) : Work Shape := do
  let text ←
    try readText path
    catch
      | .notText => throw (.template .notText)
      | e => throw e
  check Failure.template (Shape.ofTemplate text)

/-- The shapes of the templates with these names. -/
def readTemplates (folder : String) : List String → Work (List Shape)
  | [] => return []
  | name :: rest => do
    let shape ← readTemplate (Path.child folder name)
    let shapes ← readTemplates folder rest
    return shape :: shapes

/-- The names of a folder's templates, the built-in ones first. -/
def templateNames (store : Store) (folder : String) : List String :=
  match store.locate folder with
  | .ok place => Template.builtinNames ++ (store.names place).filter Template.isExtra
  | .error _ => Template.builtinNames

/-- **The library of a folder.** -/
def libraryOfFolder (path : String) : Work Library := do
  let folder := Path.simplify path
  change fun store => store.makeMissing folder
  writeTemplates folder Shape.builtins
  let session ← get
  let shapes ← readTemplates folder (templateNames session.store folder)
  tell templateTopic (s!"loaded {shapes.length} templates from " ++ folder)
  check Failure.library (Library.ofShapes (shapes.map some))

/-- **The library to work with**: that of a folder where one is given, and the built-in one
otherwise. -/
def library (folder : Option String) : Work Library :=
  match folder with
  | some path => libraryOfFolder path
  | none => return Library.builtin

end Session

end Stencil
