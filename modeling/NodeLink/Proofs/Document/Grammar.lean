import NodeLink.Document.Parse

/-! # The grammar of documents

Derivation trees of the grammar

    graph         :=  GRAPH identifier [attributeList] { statement* }
    statement     :=  identifier [attributeList]  |  identifier (-- | ->) identifier [attributeList]
    attributeList :=  [ ]  |  [ pair (, pair)* ]
    pair          :=  BUNDLE  |  COLOR = value  |  LABEL = string  |  LINE-WIDTH = identifier
                   |  FONT = string  |  FONT-SIZE = string
    value         :=  string  |  identifier

A tree has one constructor for each rule and one field for each symbol on its right, and its
leaves are tokens of the kinds that the rule asks for, so a tree can only be built along the
grammar.  `Sentence.tokens` reads off the tokens at the leaves of a tree, and
`Sentence.document` is the document that the tree stands for; neither knows of a parser. -/

namespace NodeLink.Grammar

open NodeLink.Source

/-- A token of one kind: a leaf of a derivation tree. -/
structure Leaf (kind : TokenKind) where
  token : Token
  kind_eq : token.kind = kind

/-- The text of a leaf as it stands in the source. -/
def Leaf.text {kind : TokenKind} (leaf : Leaf kind) : String := leaf.token.text

/-- The text between the quotes of a string. -/
def Leaf.content (leaf : Leaf .string) : String :=
  String.ofList leaf.token.text.toList.tail.dropLast

/-! ### Attribute lists -/

/-- A string or an identifier. -/
inductive Value where
  | string (leaf : Leaf .string)
  | identifier (leaf : Leaf .identifier)

/-- One pair of an attribute list. -/
inductive Pair where
  | bundle (key : Leaf .bundle)
  | color (key : Leaf .color) (equal : Leaf .equal) (value : Value)
  | label (key : Leaf .label) (equal : Leaf .equal) (value : Leaf .string)
  | lineWidth (key : Leaf .lineWidth) (equal : Leaf .equal) (value : Leaf .identifier)
  | font (key : Leaf .font) (equal : Leaf .equal) (value : Leaf .string)
  | fontSize (key : Leaf .fontSize) (equal : Leaf .equal) (value : Leaf .string)

/-- A bracketed list of pairs. -/
inductive AttributeList where
  | empty (opening : Leaf .openBracket) (closing : Leaf .closeBracket)
  | pairs (opening : Leaf .openBracket) (first : Pair) (later : List (Leaf .comma × Pair))
      (closing : Leaf .closeBracket)

/-- The token of a value. -/
def Value.token : Value → Token
  | string leaf => leaf.token
  | identifier leaf => leaf.token

/-- What a value says: a string without its quotes, an identifier as it stands. -/
def Value.content : Value → String
  | string leaf => leaf.content
  | identifier leaf => leaf.text

namespace Pair

/-- The tokens of a pair. -/
def tokens : Pair → List Token
  | bundle key => [key.token]
  | color key equal value => [key.token, equal.token, value.token]
  | label key equal value => [key.token, equal.token, value.token]
  | lineWidth key equal value => [key.token, equal.token, value.token]
  | font key equal value => [key.token, equal.token, value.token]
  | fontSize key equal value => [key.token, equal.token, value.token]

/-- What a pair sets. -/
def entry : Pair → Attribute
  | bundle _ => .bundle
  | color _ _ value => .color value.content
  | label _ _ value => .label value.content
  | lineWidth _ _ value => .lineWidth value.text
  | font _ _ value => .font value.content
  | fontSize _ _ value => .fontSize value.content

end Pair

/-- The tokens of the pairs after the first one, each behind its comma. -/
def laterTokens (later : List (Leaf .comma × Pair)) : List Token :=
  later.flatMap fun (comma, pair) => comma.token :: pair.tokens

/-- Every key with the last value that a list of pairs gives it. -/
def lastValues (pairs : List Attribute) : Attributes where
  bundle := (pairs.filterMap fun | .bundle => some true | _ => none).getLast?
  color := (pairs.filterMap fun | .color value => some value | _ => none).getLast?
  label := (pairs.filterMap fun | .label value => some value | _ => none).getLast?
  lineWidth := (pairs.filterMap fun | .lineWidth value => some value | _ => none).getLast?
  font := (pairs.filterMap fun | .font value => some value | _ => none).getLast?
  fontSize := (pairs.filterMap fun | .fontSize value => some value | _ => none).getLast?

namespace AttributeList

/-- The tokens of an attribute list. -/
def tokens : AttributeList → List Token
  | empty opening closing => [opening.token, closing.token]
  | pairs opening first later closing =>
    opening.token :: (first.tokens ++ laterTokens later ++ [closing.token])

/-- The attributes that a list sets. -/
def attributes : AttributeList → Attributes
  | empty _ _ => {}
  | pairs _ first later _ => lastValues (first.entry :: later.map fun (_, pair) => pair.entry)

end AttributeList

/-- The tokens of an attribute list that may be left out. -/
def optionalTokens : Option AttributeList → List Token
  | some list => list.tokens
  | none => []

/-! ### Statements and sentences -/

/-- The operator of an edge. -/
inductive Operator where
  | undirected (leaf : Leaf .undirectedEdge)
  | directed (leaf : Leaf .directedEdge)

/-- The token of an operator. -/
def Operator.token : Operator → Token
  | undirected leaf => leaf.token
  | directed leaf => leaf.token

/-- Whether an operator is the arrow. -/
def Operator.isArrow : Operator → Bool
  | undirected _ => false
  | directed _ => true

/-- One statement of the body: a node or an edge. -/
inductive Statement where
  | node (identifier : Leaf .identifier) (attributes : Option AttributeList)
  | edge (tail : Leaf .identifier) (operator : Operator) (head : Leaf .identifier)
      (attributes : Option AttributeList)

namespace Statement

/-- The tokens of a statement. -/
def tokens : Statement → List Token
  | node identifier attributes => identifier.token :: optionalTokens attributes
  | edge tail operator head attributes =>
    tail.token :: operator.token :: head.token :: optionalTokens attributes

/-- The node that a statement declares, if it declares one. -/
def node? : Statement → Option NodeDeclaration
  | node identifier attributes =>
    some { identifier := identifier.text, location := identifier.token.site.location
           attributes := attributes.map AttributeList.attributes }
  | edge .. => none

/-- The edge that a statement declares, if it declares one. -/
def edge? : Statement → Option EdgeDeclaration
  | node .. => none
  | edge tail operator head attributes =>
    some { tail := tail.text, tailLocation := tail.token.site.location
           head := head.text, headLocation := head.token.site.location
           directed := operator.isArrow
           attributes := attributes.map AttributeList.attributes }

end Statement

/-- A whole derivation: a sentence of the grammar. -/
structure Sentence where
  keyword : Leaf .graph
  name : Leaf .identifier
  attributes : Option AttributeList
  opening : Leaf .openBrace
  statements : List Statement
  closing : Leaf .closeBrace

namespace Sentence

/-- The tokens of a sentence. -/
def tokens (sentence : Sentence) : List Token :=
  sentence.keyword.token :: sentence.name.token :: (optionalTokens sentence.attributes ++
    sentence.opening.token :: (sentence.statements.flatMap Statement.tokens ++
      [sentence.closing.token]))

/-- The document that a sentence stands for. -/
def document (sentence : Sentence) : Document where
  graphName := sentence.name.text
  graphAttributes := (sentence.attributes.map AttributeList.attributes).getD {}
  nodeDeclarations := sentence.statements.filterMap Statement.node?
  edgeDeclarations := sentence.statements.filterMap Statement.edge?

end Sentence

end NodeLink.Grammar
