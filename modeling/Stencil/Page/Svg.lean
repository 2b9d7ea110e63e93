import Stencil.Page.Picture

/-!
# Page/Svg — a page as text

A page in the SVG format is a tree of elements: the paper, and for every panel a part of its own
with the title and the polygons painted there. All positions are those of the polygons themselves;
the box of each panel says how they are seen.
-/

namespace Stencil.Svg

/-- A character as it stands in text and in attributes. -/
def escapeChar : Char → List Char
  | '&' => "&amp;".toList
  | '<' => "&lt;".toList
  | '>' => "&gt;".toList
  | '"' => "&quot;".toList
  | c => [c]

/-- **A text with the characters escaped** that mean something else. -/
def escape (s : String) : String :=
  String.ofList (s.toList.flatMap escapeChar)

/-- An attribute of an element. -/
abbrev Attribute := String × String

/-- An element with attributes and what stands in it. -/
def element (name : String) (attributes : List Attribute) (content : String) : String :=
  let attributes := attributes.map fun a => " " ++ a.1 ++ "=\"" ++ escape a.2 ++ "\""
  "<" ++ name ++ String.join attributes ++
    (if content = "" then "/>\n" else ">\n" ++ content ++ "</" ++ name ++ ">\n")

/-- A colour as an attribute has it. -/
def color (c : Color) : String :=
  s!"rgb({c.red.val},{c.green.val},{c.blue.val})"

/-- The vertices of a polygon as an attribute has them. -/
def points (o : Outline) : String :=
  String.intercalate " " (o.map fun v => s!"{v.x},{v.y}")

/-- A box that is all of one colour. -/
def rectangle (c : Color) (left top width height : String) : String :=
  element "rect"
    [("x", left), ("y", top), ("width", width), ("height", height), ("fill", color c)] ""

/-- The attributes of a box. -/
def boxAttributes (b : Box) : List Attribute :=
  [("x", toString b.left), ("y", toString b.top), ("width", toString b.width),
   ("height", toString b.height)]

/-- The ends of the axes as an attribute has them: the corner and the size. -/
def viewBox (l : Limits) : String :=
  String.intercalate " "
    ([l.x.1, l.y.2, l.x.2 - l.x.1, l.y.1 - l.y.2].map Decimal.floatText)

/-- A mark in a panel whose axes have these ends. -/
def mark (l : Limits) : Mark → String
  | .ground c =>
    rectangle c (Decimal.floatText l.x.1) (Decimal.floatText l.y.2)
      (Decimal.floatText (l.x.2 - l.x.1)) (Decimal.floatText (l.y.1 - l.y.2))
  | .polygon style c outline =>
    let fill :=
      match style with
      | .filled => color c
      | .outlined => "none"
    element "polygon"
      [("points", points outline), ("fill", fill), ("stroke", color c), ("stroke-width", "1")] ""

/-- The title of a panel, above its box. -/
def title (b : Box) (text : String) : String :=
  if text = "" then ""
  else
    element "text"
      [("x", toString (b.left + b.width / 2)), ("y", toString (b.top - b.top / 20)),
       ("text-anchor", "middle"), ("font-size", toString (b.width / 15))] (escape text ++ "\n")

/-- A panel and its place on the page. -/
def panel (page : Page) (i : Nat) (p : Panel) : String :=
  let box := page.box i p.exhibit
  title box p.title ++
    element "svg"
      (boxAttributes box ++
        [("viewBox", viewBox p.exhibit.limits), ("preserveAspectRatio", "xMinYMin")])
      (String.join (p.exhibit.marks.map (mark p.exhibit.limits)))

end Stencil.Svg

namespace Stencil.Page

/-- The name of the vocabulary that the elements belong to. -/
def vocabulary : String :=
  String.intercalate "/" ["http:", "", "www.w3.org", "2000", "svg"]

/-- **The file of a page as text.** -/
def toSvg (p : Page) : String :=
  let width := toString (p.dotsOf p.inches.1)
  let height := toString (p.dotsOf p.inches.2)
  Svg.element "svg"
    [("xmlns", vocabulary), ("width", width), ("height", height)]
    (Svg.rectangle p.paper "0" "0" width height ++
      String.join (p.panels.zipIdx.map fun (panel, i) => Svg.panel p i panel))

end Stencil.Page
