import NodeLink.Document.Parse

/-! # Parsing turn by turn

This parser keeps all tokens and moves a cursor among them.  The cursor steps over tokens one by
one, and it goes back to where a declaration starts if that was read as an edge and is none.  Two
loops drive it, one over the declarations of the body and one over the entries of an attribute list,
and neither has a bound: `Parsing.turn?` takes one turn of the loop that is running.  What a run
leads to is only known of a number of turns within which it is over (`parseInTurns?`). -/

namespace NodeLink

open NodeLink.Source

namespace Parse

/-- The tokens of a source, and where it ends. -/
structure Input where
  tokens : Array Token
  finish : Site

/-- Some tokens of a source. -/
def Input.of (source : String) (tokens : List Token) : Input :=
  ⟨tokens.toArray, Site.atEnd source⟩

/-- The index of the next token, and what went wrong so far (the latest first). -/
structure Cursor where
  index : Nat
  errors : List SyntaxError

variable (input : Input)

namespace Cursor

/-- The next token. -/
def peek? (c : Cursor) : Option Token := input.tokens[c.index]?

/-- Whether the next token is of a kind. -/
def startsWith (c : Cursor) (kind : TokenKind) : Bool :=
  (c.peek? input).any fun token => token.kind = kind

/-- What is wrong when something was expected here. -/
def problem (c : Cursor) (expected : Expectation) : SyntaxError :=
  match c.peek? input with
  | some token => ⟨token.site, expected, some token.text⟩
  | none => ⟨input.finish, expected, none⟩

/-- Records that something was expected here, unless the last error is at the same place. -/
def fail (c : Cursor) (expected : Expectation) : Cursor :=
  if c.errors.head?.any fun last => last.site.span = (c.problem input expected).site.span then c
  else { c with errors := c.problem input expected :: c.errors }

/-- Moves over the next token, if there is one. -/
def skip (c : Cursor) : Cursor :=
  match c.peek? input with
  | some _ => { c with index := c.index + 1 }
  | none => c

/-- The next token, if it is of a kind, and the cursor behind it. -/
def take? (c : Cursor) (kind : TokenKind) : Option (Token × Cursor) :=
  match c.peek? input with
  | some token =>
    if token.kind = kind then some (token, { c with index := c.index + 1 }) else none
  | none => none

/-- The next token, if it is of a kind; otherwise an error, and the cursor stays. -/
def expect (c : Cursor) (kind : TokenKind) (expected : Expectation) : Option Token × Cursor :=
  match c.take? input kind with
  | some (token, c) => (some token, c)
  | none => (none, c.fail input expected)

/-- Moves on until the next token is one of some kinds, or there is none. -/
def skipUntil (stops : List TokenKind) (c : Cursor) : Cursor :=
  match _h : c.peek? input with
  | some token =>
    if stops.contains token.kind then c else skipUntil stops { c with index := c.index + 1 }
  | none => c
termination_by input.tokens.size - c.index
decreasing_by
  have := (Array.getElem?_eq_some_iff.mp _h).1
  omega

/-! ### Entries of attribute lists -/

/-- A token of a kind, as its text. -/
def textOf (c : Cursor) (kind : TokenKind) (expected : Expectation) : Option String × Cursor :=
  match c.expect input kind expected with
  | (some token, c) => (some token.text, c)
  | (none, c) => (none, c)

/-- A token of a kind, as its text without quotes. -/
def unquotedTextOf (c : Cursor) (kind : TokenKind) (expected : Expectation) :
    Option String × Cursor :=
  let (text, c) := c.textOf input kind expected
  (text.map unquote, c)

/-- A string or an identifier, as its text without quotes. -/
def stringOrIdentifier (c : Cursor) : Option String × Cursor :=
  match c.take? input .string with
  | some (token, c) => (some (unquote token.text), c)
  | none => c.unquotedTextOf input .identifier .stringOrIdentifier

/-- An equal sign and then a value. -/
def assigned (c : Cursor) (value : Cursor → Option String × Cursor) : Option String × Cursor :=
  match c.expect input .equal .equalSign with
  | (some _, c) => value c
  | (none, c) => (none, c)

/-- One entry of an attribute list. -/
def entry (c : Cursor) : Option Attribute × Cursor :=
  match c.peek? input with
  | none => (none, c.fail input .attributeEntry)
  | some key =>
    let valued (make : String → Attribute) (value : Cursor → Option String × Cursor) :=
      let (text, c) := (c.skip input).assigned input value
      (text.map make, c)
    match key.kind with
    | .bundle => (some .bundle, c.skip input)
    | .color => valued .color fun c => c.stringOrIdentifier input
    | .label => valued .label fun c => c.unquotedTextOf input .string .stringLiteral
    | .font => valued .font fun c => c.unquotedTextOf input .string .stringLiteral
    | .fontSize => valued .fontSize fun c => c.unquotedTextOf input .string .stringLiteral
    | .lineWidth => valued .lineWidth fun c => c.textOf input .identifier .anyIdentifier
    | _ => (none, c.fail input .attributeEntry)

/-- One entry of an attribute list; after a bad one, the cursor where reading goes on. -/
def entryOrSkip (c : Cursor) : Option Attribute × Cursor :=
  match c.entry input with
  | (some found, c) => (some found, c)
  | (none, c) => (none, c.skipUntil input entryStops)

/-- Whether another entry follows the one before the cursor, and the cursor behind the comma or
behind the end of the list. -/
def afterEntry (c : Cursor) : Bool × Cursor :=
  match c.take? input .comma with
  | some (_, c) => (true, c)
  | none =>
    match c.take? input .closeBracket with
    | some (_, c) => (false, c)
    | none =>
      let c := (c.fail input .attributeSeparator).skipUntil input entryStops
      match c.take? input .comma with
      | some (_, c) => (true, c)
      | none =>
        match c.take? input .closeBracket with
        | some (_, c) => (false, c)
        | none => (false, c)

/-! ### Edges -/

/-- What comes of reading a declaration as an edge: its ends, nothing after an operator, or the
knowledge that it is no edge, with the cursor wherever that was found out. -/
inductive Attempt where
  | edge (tail head : Token) (directed : Bool) (c : Cursor)
  | failed (c : Cursor)
  | noEdge (c : Cursor)

/-- Reads a declaration as an edge, up to its attributes. -/
def edge (c : Cursor) : Attempt :=
  match c.take? input .identifier with
  | none => .noEdge c
  | some (tail, c) =>
    match (c.peek? input).bind fun operator => direction? operator.kind with
    | none => .noEdge c
    | some directed =>
      match (c.skip input).expect input .identifier .edgeHead with
      | (some head, c) => .edge tail head directed c
      | (none, c) => .failed c

end Cursor

/-! ### Turns -/

/-- A declaration up to its attributes. -/
inductive Stem where
  | node (identifier : Token)
  | edge (tail head : Token) (directed : Bool)

/-- A declaration whose attributes are known. -/
def Stem.declaration (stem : Stem) (attributes : Option Attributes) : Declaration :=
  match stem with
  | .node identifier =>
    .node { identifier := identifier.text, location := identifier.site.location, attributes }
  | .edge tail head directed =>
    .edge
      { tail := tail.text, tailLocation := tail.site.location
        head := head.text, headLocation := head.site.location
        directed, attributes }

/-- What an attribute list belongs to. -/
inductive Holder where
  | graph
  | declaration (stem : Stem)

/-- What a run does next: a turn of the loop over the declarations, a turn of the loop over the
entries of a list with some entries found before, or nothing. -/
inductive Stage where
  | declarations
  | entries (holder : Holder) (found : Attributes)
  | finished

/-- Where a run stands between two turns. -/
structure Parsing where
  stage : Stage
  document : Document
  cursor : Cursor

/-- Goes over the opening brace of the body; if it is missing here, the next one counts. -/
def Parsing.open (document : Document) (c : Cursor) : Parsing :=
  match c.expect input .openBrace .openBrace with
  | (some _, c) => ⟨.declarations, document, c⟩
  | (none, c) =>
    let c := c.skipUntil input [.openBrace]
    match c.take? input .openBrace with
    | some (_, c) => ⟨.declarations, document, c⟩
    | none => ⟨.finished, document, c⟩

namespace Holder

/-- Enters what has its attributes now, or has none, into the document. -/
def declare (holder : Holder) (attributes : Option Attributes) (document : Document) (c : Cursor) :
    Parsing :=
  match holder with
  | .graph => .open input { document with graphAttributes := attributes.getD {} } c
  | .declaration stem => ⟨.declarations, document.push (stem.declaration attributes), c⟩

/-- Goes into the attribute list of the holder, if there is one and it is not empty. -/
def enter (holder : Holder) (document : Document) (c : Cursor) : Parsing :=
  if c.startsWith input .openBracket then
    let c := c.skip input
    match c.take? input .closeBracket with
    | some (_, c) => holder.declare input (some {}) document c
    | none => ⟨.entries holder {}, document, c⟩
  else holder.declare input none document c

end Holder

namespace Parsing

/-- The header of a document, up to its attributes. -/
def start : Parsing :=
  let (_, c) := (Cursor.mk 0 []).expect input .graph .graphKeyword
  let (name, c) := c.expect input .identifier .graphName
  Holder.graph.enter input { graphName := (name.map Token.text).getD "" } c

/-- Reads a declaration as a node. -/
def node (document : Document) (c : Cursor) : Parsing :=
  match c.expect input .identifier .nodeIdentifier with
  | (some identifier, c) => (Holder.declaration (.node identifier)).enter input document c
  | (none, c) => ⟨.declarations, document, c⟩

/-- Reads a declaration as an edge, and if it is none goes back and reads it as a node. -/
def declaration (document : Document) (c : Cursor) : Parsing :=
  match c.edge input with
  | .edge tail head directed c =>
    (Holder.declaration (.edge tail head directed)).enter input document c
  | .failed c => ⟨.declarations, document, c.skipUntil input declarationStops⟩
  | .noEdge away => node input document { away with index := c.index }

/-- One turn of the loop over the declarations. -/
def declarationTurn (document : Document) (c : Cursor) : Parsing :=
  match c.peek? input with
  | none => ⟨.finished, document, c.fail input .closeBrace⟩
  | some token =>
    match token.kind with
    | .closeBrace =>
      let c := c.skip input
      ⟨.finished, document, if (c.peek? input).isSome then c.fail input .endOfInput else c⟩
    | .identifier => declaration input document c
    | _ =>
      ⟨.declarations, document,
        ((c.fail input .declaration).skip input).skipUntil input declarationStops⟩

/-- One turn of the loop over the entries of a list. -/
def entryTurn (holder : Holder) (found : Attributes) (document : Document) (c : Cursor) : Parsing :=
  let (latest, c) := c.entryOrSkip input
  let found := latest.elim found found.apply
  match c.afterEntry input with
  | (true, c) => ⟨.entries holder found, document, c⟩
  | (false, c) => holder.declare input (some found) document c

/-- One turn of the loop that is running. -/
def turn? (parsing : Parsing) : Option Parsing :=
  match parsing.stage with
  | .declarations => some (declarationTurn input parsing.document parsing.cursor)
  | .entries holder found => some (entryTurn input holder found parsing.document parsing.cursor)
  | .finished => none

/-- What a run leads to, if it is over within a number of turns. -/
def outcome? : Nat → Parsing → Option (Document × List SyntaxError)
  | turns, parsing =>
    match parsing.turn? input, turns with
    | none, _ => some (parsing.document, parsing.cursor.errors.reverse)
    | some _, 0 => none
    | some next, turns + 1 => outcome? turns next

end Parsing

end Parse

/-- The document that a list of tokens makes and the syntax errors in it, if the loops of the parser
take no more than a number of turns together. -/
def parseInTurns? (source : String) (tokens : List Token) (turns : Nat) :
    Option (Document × List SyntaxError) :=
  let input := Parse.Input.of source tokens
  (Parse.Parsing.start input).outcome? input turns

end NodeLink
