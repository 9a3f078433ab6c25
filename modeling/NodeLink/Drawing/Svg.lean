import NodeLink.Decimal.Notation
import NodeLink.Drawing.Command

/-! # Drawings as SVG

A drawing becomes a list of elements with attributes, and an element becomes text.  Every
text of a graph goes through `escape` where it enters an element, so that none can end an
attribute or begin a tag; numbers and names are written as they are. -/

namespace NodeLink.Svg

/-! ### Elements -/

/-- A text with every occurrence of a character replaced. -/
def replace (character : Char) (replacement text : String) : String :=
  String.ofList <|
    text.toList.flatMap fun c => if c = character then replacement.toList else [c]

/-- A text as it stands in a value or between tags: the four characters that mean something to
a reader of tags are written as entities.  Ampersands come first, since every entity brings
one. -/
def escape (text : String) : String :=
  replace '"' "&quot;" <| replace '>' "&gt;" <| replace '<' "&lt;" <| replace '&' "&amp;" text

/-- An element as it is written: its name, its attributes in order, and the text in it, if it
has any. -/
structure Element where
  name : String
  attributes : List (String × String)
  content : Option String := none
  deriving DecidableEq, Repr, Inhabited

/-- One attribute, with a space before it. -/
def attributeText (entry : String × String) : List Char :=
  ' ' :: entry.1.toList ++ ['=', '"'] ++ entry.2.toList ++ ['"']

/-- The name and the attributes of an element. -/
def Element.head (element : Element) : List Char :=
  element.name.toList ++ element.attributes.flatMap attributeText

/-- An element on a line of its own. -/
def Element.line (element : Element) : List Char :=
  [' ', ' ', '<'] ++ element.head ++
    match element.content with
    | none => [' ', '/', '>', '\n']
    | some text =>
      '>' :: text.toList ++ ['<', '/'] ++ element.name.toList ++ ['>', '\n']

/-! ### Values -/

/-- A number in a drawing. -/
def number (x : Float) : String :=
  match Decimal.Layout.drawing.render? x with
  | some text => text
  | none => if x.isNaN then "NaN" else if x < 0 then "-inf" else "inf"

/-- The fill of a node without a colour. -/
def defaultFill : String := "#ffffff"

/-- The colour of lines and borders. -/
def defaultStroke : String := "#333333"

/-- The width of a line without one. -/
def defaultLineWidth : String := "1"

/-- The font of a label without one. -/
def defaultFont : String := "sans-serif"

/-- The size of a label without one. -/
def defaultFontSize : String := "12px"

/-- The two attributes for how an edge looks. -/
def strokeAttributes (options : EdgeOptions) : List (String × String) :=
  [("stroke", escape (options.color.getD defaultStroke)),
   ("stroke-width", escape (options.lineWidth.getD defaultLineWidth))]

/-- The coordinates of a point on a path. -/
def coordinates (point : Point Float) : String :=
  number point.x ++ "," ++ number point.y

/-- A path through points: a move to the first, then a line to each. -/
def pathData (first : Point Float) (rest : List (Point Float)) : String :=
  rest.foldl (fun text point => text ++ " L" ++ coordinates point) ("M" ++ coordinates first)

/-! ### Drawings -/

/-- The elements that a command draws.  A path without points draws nothing. -/
def elements : DrawCommand Float → List Element
  | .circle center radius options =>
    let circle : Element :=
      { name := "circle"
        attributes :=
          [("cx", number center.x), ("cy", number center.y), ("r", number radius),
           ("fill", escape (options.color.getD defaultFill)), ("stroke", defaultStroke)] }
    let label (text : String) : Element :=
      { name := "text"
        attributes :=
          [("x", number center.x), ("y", number center.y),
           ("font-family", escape (options.font.getD defaultFont)),
           ("font-size", escape (options.fontSize.getD defaultFontSize)),
           ("text-anchor", "middle"), ("dominant-baseline", "central")]
        content := some (escape text) }
    circle :: (options.label.map label).toList
  | .line tail head options =>
    [{ name := "line"
       attributes :=
         [("x1", number tail.x), ("y1", number tail.y), ("x2", number head.x),
          ("y2", number head.y)] ++ strokeAttributes options }]
  | .polyline [] _ => []
  | .polyline (first :: rest) options =>
    [{ name := "path"
       attributes := [("d", pathData first rest), ("fill", "none")] ++ strokeAttributes options }]
  | .finish => []

/-- The element for a background of a colour. -/
def background (color : String) : Element :=
  { name := "rect"
    attributes := [("width", "100%"), ("height", "100%"), ("fill", escape color)] }

/-- The element around a drawing, without what it holds. -/
def root (width height : Float) : Element :=
  { name := "svg"
    attributes :=
      [("xmlns", "http://www.w3.org/2000/svg"), ("width", number width),
       ("height", number height),
       ("viewBox", "0 0 " ++ number width ++ " " ++ number height)] }

/-- Everything that a drawing holds. -/
def children (color : Option String) (commands : List (DrawCommand Float)) : List Element :=
  (color.map background).toList ++ commands.flatMap elements

/-- The text of a drawing of a size, with a background of a colour if there is one. -/
def render (width height : Float) (color : Option String)
    (commands : List (DrawCommand Float)) : String :=
  String.ofList <|
    '<' :: (root width height).head ++ ['>', '\n'] ++
      (children color commands).flatMap Element.line ++ "</svg>\n".toList

/-- Whether a drawing has come to its end. -/
def isFinished (commands : List (DrawCommand Float)) : Bool :=
  commands.any DrawCommand.isFinish

end NodeLink.Svg
