import NodeLink.Source.Position

/-! # Tokens

The kinds of token of the diagram language, the names diagnostics use for them, and a token
as it stands in a source: its kind, its text, its span and its location. -/

namespace NodeLink.Source

/-- What a token is.  Strings keep their quotes; comments and white space are trivia. -/
inductive TokenKind where
  | graph
  | bundle
  | color
  | label
  | lineWidth
  | font
  | fontSize
  | identifier
  | undirectedEdge
  | directedEdge
  | openBracket
  | closeBracket
  | equal
  | comma
  | string
  | openBrace
  | closeBrace
  | comment
  | whitespace
  deriving DecidableEq, Repr, Inhabited

namespace TokenKind

/-- Every kind, in the order of the declaration. -/
def all : List TokenKind :=
  [graph, bundle, color, label, lineWidth, font, fontSize, identifier, undirectedEdge,
   directedEdge, openBracket, closeBracket, equal, comma, string, openBrace, closeBrace,
   comment, whitespace]

/-- Whether the kind is a reserved word. -/
def isKeyword : TokenKind → Bool
  | graph | bundle | color | label | lineWidth | font | fontSize => true
  | _ => false

/-- Whether the kind carries no meaning for the document. -/
def isTrivia : TokenKind → Bool
  | comment | whitespace => true
  | _ => false

/-- The name of a kind in diagnostics. -/
def describe : TokenKind → String
  | graph => "`graph`"
  | bundle => "`bundle`"
  | color => "`color`"
  | label => "`label`"
  | lineWidth => "`line-width`"
  | font => "`font`"
  | fontSize => "`font-size`"
  | identifier => "identifier"
  | undirectedEdge => "`--`"
  | directedEdge => "`->`"
  | openBracket => "`[`"
  | closeBracket => "`]`"
  | equal => "`=`"
  | comma => "`,`"
  | string => "string literal"
  | openBrace => "`\x7b`"
  | closeBrace => "`\x7d`"
  | comment => "comment"
  | whitespace => "whitespace"

end TokenKind

/-- The place of something in a source: the bytes it covers and where they start. -/
structure Site where
  span : Span
  location : Location
  deriving DecidableEq, Repr, Inhabited

/-- The place of `text` when it starts at `position`. -/
def Site.covering (position : Position) (text : List Char) : Site where
  span := ⟨position.offset, (position.advance text).offset⟩
  location := position.location

/-- The empty place at the end of a source. -/
def Site.atEnd (source : String) : Site where
  span := ⟨source.utf8ByteSize, source.utf8ByteSize⟩
  location := Location.of source source.utf8ByteSize

/-- A token of a source, with its exact text. -/
structure Token where
  kind : TokenKind
  text : String
  site : Site
  deriving DecidableEq, Repr, Inhabited

end NodeLink.Source
