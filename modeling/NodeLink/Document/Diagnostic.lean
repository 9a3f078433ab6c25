import NodeLink.Source.Scan

/-! # Diagnostics

What can be wrong with a source.  A syntax error says what was expected at a place and what
stands there instead; its wording is `SyntaxError.message`.  Diagnostics join the errors of
scanning and of parsing and are listed by where they start. -/

namespace NodeLink

open NodeLink.Source

/-- What a parser looks for at some point. -/
inductive Expectation where
  | graphKeyword
  | graphName
  | openBrace
  | closeBrace
  | declaration
  | endOfInput
  | edgeHead
  | nodeIdentifier
  | attributeSeparator
  | attributeEntry
  | equalSign
  | stringOrIdentifier
  | anyIdentifier
  | stringLiteral
  deriving DecidableEq, Repr, Inhabited

/-- The words for what was expected. -/
def Expectation.describe : Expectation → String
  | graphKeyword => "`graph`"
  | graphName => "a graph name"
  | openBrace => "`\x7b`"
  | closeBrace => "`\x7d`"
  | declaration => "a node or edge declaration"
  | endOfInput => "end of input"
  | edgeHead => "an identifier after the edge operator"
  | nodeIdentifier => "a node identifier"
  | attributeSeparator => "`,` or `]`"
  | attributeEntry => "an attribute"
  | equalSign => "`=`"
  | stringOrIdentifier => "a string or identifier"
  | anyIdentifier => "an identifier"
  | stringLiteral => "a string literal"

/-- Something expected that is not there: `found` is the text of the token that stands there,
absent at the end of the input. -/
structure SyntaxError where
  site : Site
  expected : Expectation
  found : Option String
  deriving DecidableEq, Repr, Inhabited

/-- The error in words, without its place. -/
def SyntaxError.message (error : SyntaxError) : String :=
  "expected " ++ error.expected.describe ++ ", found " ++
    match error.found with
    | some text => "`" ++ text ++ "`"
    | none => "end of input"

/-- The error as one line of text. -/
def SyntaxError.render (error : SyntaxError) : String :=
  error.site.location.render ++ ": " ++ error.message

/-- One thing that is wrong with a source. -/
inductive Diagnostic where
  | lexical (error : LexError)
  | grammatical (error : SyntaxError)
  deriving DecidableEq, Repr, Inhabited

namespace Diagnostic

/-- Where the diagnostic points. -/
def site : Diagnostic → Site
  | lexical error => error.site
  | grammatical error => error.site

/-- The diagnostic as one line of text. -/
def render : Diagnostic → String
  | lexical error => "lex error at " ++ error.render
  | grammatical error => "syntax error at " ++ error.render

/-- The error of scanning that a diagnostic is, if it is one. -/
def lexError? : Diagnostic → Option LexError
  | lexical error => some error
  | grammatical _ => none

/-- The error of parsing that a diagnostic is, if it is one. -/
def syntaxError? : Diagnostic → Option SyntaxError
  | lexical _ => none
  | grammatical error => some error

/-- All errors of one source, by where they start; errors of scanning go first at one start. -/
def inOrder (lexErrors : List LexError) (syntaxErrors : List SyntaxError) : List Diagnostic :=
  (lexErrors.map lexical ++ syntaxErrors.map grammatical).mergeSort
    fun a b => a.site.span.start ≤ b.site.span.start

/-- One line for a whole list of diagnostics. -/
def summary (diagnostics : List Diagnostic) : String :=
  toString diagnostics.length ++ " error(s) while parsing"

end Diagnostic

end NodeLink
