import NodeLink.Document.Basic
import NodeLink.Document.Diagnostic
import NodeLink.Source.LineTracker

/-! # Parsing tokens into a document

The grammar, with brackets for what may be left out:

    graph        :=  GRAPH identifier [attributes] { declaration* }
    declaration  :=  identifier [attributes]  |  identifier (-- | ->) identifier [attributes]
    attributes   :=  [ ]  |  [ entry (, entry)* ]
    entry        :=  BUNDLE  |  COLOR = (string | identifier)  |  LABEL = string
                  |  LINE-WIDTH = identifier  |  FONT = string  |  FONT-SIZE = string

A parser state holds the tokens still to read and the errors so far.  After an error the
parser goes on: inside an attribute list at the next comma or closing bracket, in the body at
the next identifier or closing brace, so that one run reports every problem.  At most one
error is kept for one place.  No function makes the remaining tokens longer
(`entry_le`, `attributes_le`, `declaration_lt`), and each round of a loop makes them shorter,
which is why the loops end. -/

namespace NodeLink

open NodeLink.Source

namespace Parse

/-- What is left to read, what went wrong so far (the latest first), and where the input
ends. -/
@[ext]
structure State where
  rest : List Token
  errors : List SyntaxError
  finish : Site

namespace State

/-- Whether the next token is of a kind. -/
def startsWith (s : State) (kind : TokenKind) : Bool :=
  s.rest.head?.any fun token => token.kind = kind

/-- What is wrong when something was expected here. -/
def problem (s : State) (expected : Expectation) : SyntaxError :=
  match s.rest with
  | token :: _ => ⟨token.site, expected, some token.text⟩
  | [] => ⟨s.finish, expected, none⟩

/-- Records that something was expected here, unless the last error is at the same place. -/
def fail (s : State) (expected : Expectation) : State :=
  if s.errors.head?.any fun last => last.site.span = (s.problem expected).site.span then s
  else { s with errors := s.problem expected :: s.errors }

/-- Moves over one token. -/
def skip (s : State) : State :=
  { s with rest := s.rest.tail }

/-- The next token, if it is of a kind, and the state after it. -/
def take? (s : State) (kind : TokenKind) : Option (Token × State) :=
  match s.rest with
  | token :: rest => if token.kind = kind then some (token, { s with rest := rest }) else none
  | [] => none

/-- The next token, if it is of a kind; otherwise an error, and nothing is read. -/
def expect (s : State) (kind : TokenKind) (expected : Expectation) : Option Token × State :=
  match s.take? kind with
  | some (token, s) => (some token, s)
  | none => (none, s.fail expected)

/-- Moves to the next token of one of some kinds, or to the end. -/
def skipUntil (s : State) (stops : List TokenKind) : State :=
  { s with rest := s.rest.dropWhile fun token => !stops.contains token.kind }

@[simp] theorem rest_fail (s : State) (expected : Expectation) :
    (s.fail expected).rest = s.rest := by
  unfold fail
  split <;> rfl

theorem length_skipUntil_le (s : State) (stops : List TokenKind) :
    (s.skipUntil stops).rest.length ≤ s.rest.length :=
  (List.dropWhile_sublist _).length_le

theorem take?_lt {s t : State} {kind : TokenKind} {token : Token}
    (h : s.take? kind = some (token, t)) : t.rest.length < s.rest.length := by
  unfold take? at h
  split at h
  · next hr =>
    split at h
    · simp only [Option.some.injEq, Prod.mk.injEq] at h
      simp [← h.2, hr]
    · simp at h
  · simp at h

theorem expect_le (s : State) (kind : TokenKind) (expected : Expectation) :
    (s.expect kind expected).2.rest.length ≤ s.rest.length := by
  unfold expect
  split
  · next h => exact Nat.le_of_lt (take?_lt h)
  · simp

end State

/-! ### Attribute lists -/

/-- Where reading goes on after a bad entry of an attribute list. -/
def entryStops : List TokenKind := [.comma, .closeBracket, .closeBrace]

/-- A token of a kind, as its text. -/
def textOf (s : State) (kind : TokenKind) (expected : Expectation) : Option String × State :=
  match s.expect kind expected with
  | (some token, s) => (some token.text, s)
  | (none, s) => (none, s)

/-- A token of a kind, as its text without quotes. -/
def unquotedTextOf (s : State) (kind : TokenKind) (expected : Expectation) :
    Option String × State :=
  let (text, s) := textOf s kind expected
  (text.map unquote, s)

/-- A string or an identifier, as its text without quotes. -/
def stringOrIdentifier (s : State) : Option String × State :=
  match s.take? .string with
  | some (token, s) => (some (unquote token.text), s)
  | none => unquotedTextOf s .identifier .stringOrIdentifier

/-- An equal sign and then a value. -/
def assigned (s : State) (value : State → Option String × State) : Option String × State :=
  match s.expect .equal .equalSign with
  | (some _, s) => value s
  | (none, s) => (none, s)

/-- One entry of an attribute list. -/
def entry (s : State) : Option Attribute × State :=
  match s.rest with
  | [] => (none, s.fail .attributeEntry)
  | key :: _ =>
    let valued (make : String → Attribute) (value : State → Option String × State) :=
      let (text, s) := assigned s.skip value
      (text.map make, s)
    match key.kind with
    | .bundle => (some .bundle, s.skip)
    | .color => valued .color stringOrIdentifier
    | .label => valued .label fun s => unquotedTextOf s .string .stringLiteral
    | .font => valued .font fun s => unquotedTextOf s .string .stringLiteral
    | .fontSize => valued .fontSize fun s => unquotedTextOf s .string .stringLiteral
    | .lineWidth => valued .lineWidth fun s => textOf s .identifier .anyIdentifier
    | _ => (none, s.fail .attributeEntry)

/-- One entry of an attribute list; after a bad one, the state where reading goes on. -/
def entryOrSkip (s : State) : Option Attribute × State :=
  match entry s with
  | (some found, s) => (some found, s)
  | (none, s) => (none, s.skipUntil entryStops)

theorem textOf_le (s : State) (kind : TokenKind) (expected : Expectation) :
    (textOf s kind expected).2.rest.length ≤ s.rest.length := by
  have h := s.expect_le kind expected
  unfold textOf
  split <;> simp_all

theorem unquotedTextOf_le (s : State) (kind : TokenKind) (expected : Expectation) :
    (unquotedTextOf s kind expected).2.rest.length ≤ s.rest.length :=
  textOf_le s kind expected

theorem stringOrIdentifier_le (s : State) :
    (stringOrIdentifier s).2.rest.length ≤ s.rest.length := by
  unfold stringOrIdentifier
  split
  · next h => exact Nat.le_of_lt (State.take?_lt h)
  · exact unquotedTextOf_le ..

theorem assigned_le (s : State) (value : State → Option String × State)
    (hv : ∀ s, (value s).2.rest.length ≤ s.rest.length) :
    (assigned s value).2.rest.length ≤ s.rest.length := by
  have h := s.expect_le .equal .equalSign
  unfold assigned
  split
  · next heq => rw [heq] at h; exact Nat.le_trans (hv _) h
  · next heq => rw [heq] at h; exact h

theorem length_skip_le (s : State) : s.skip.rest.length ≤ s.rest.length := by
  simp [State.skip]

theorem entry_le (s : State) : (entry s).2.rest.length ≤ s.rest.length := by
  have hs := length_skip_le s
  unfold entry
  split
  · simp
  · dsimp only
    split
    · exact hs
    · exact Nat.le_trans (assigned_le _ _ stringOrIdentifier_le) hs
    · exact Nat.le_trans (assigned_le _ _ fun _ => unquotedTextOf_le ..) hs
    · exact Nat.le_trans (assigned_le _ _ fun _ => unquotedTextOf_le ..) hs
    · exact Nat.le_trans (assigned_le _ _ fun _ => unquotedTextOf_le ..) hs
    · exact Nat.le_trans (assigned_le _ _ fun _ => textOf_le ..) hs
    · simp

theorem entryOrSkip_le (s : State) : (entryOrSkip s).2.rest.length ≤ s.rest.length := by
  have h := entry_le s
  unfold entryOrSkip
  split
  · next heq => rw [heq] at h; exact h
  · next heq => rw [heq] at h; exact Nat.le_trans (State.length_skipUntil_le ..) h

/-- What follows an entry: another one after a comma, or the end of the list.  Anything else
is an error, after which reading goes on at the next comma or the end of the list; a closing
brace or the end of the input is left to the body. -/
inductive AfterEntry where
  | another (s : State)
  | finished (s : State)

/-- Reads what follows an entry. -/
def afterEntry (s : State) : AfterEntry :=
  match s.take? .comma with
  | some (_, s) => .another s
  | none =>
    match s.take? .closeBracket with
    | some (_, s) => .finished s
    | none =>
      let s := (s.fail .attributeSeparator).skipUntil entryStops
      match s.take? .comma with
      | some (_, s) => .another s
      | none =>
        match s.take? .closeBracket with
        | some (_, s) => .finished s
        | none => .finished s

theorem afterEntry_another_lt {s t : State} (h : afterEntry s = .another t) :
    t.rest.length < s.rest.length := by
  unfold afterEntry at h
  split at h
  · next ht => cases h; exact State.take?_lt ht
  · split at h
    · cases h
    · dsimp only at h
      split at h
      · next ht =>
        cases h
        refine Nat.lt_of_lt_of_le (State.take?_lt ht) ?_
        refine Nat.le_trans (State.length_skipUntil_le ..) ?_
        simp
      · split at h <;> cases h

theorem afterEntry_finished_le {s t : State} (h : afterEntry s = .finished t) :
    t.rest.length ≤ s.rest.length := by
  have hskip : ((s.fail .attributeSeparator).skipUntil entryStops).rest.length
      ≤ s.rest.length :=
    Nat.le_trans (State.length_skipUntil_le ..) (by simp)
  unfold afterEntry at h
  split at h
  · cases h
  · split at h
    · next ht => cases h; exact Nat.le_of_lt (State.take?_lt ht)
    · dsimp only at h
      split at h
      · cases h
      · split at h
        · next ht => cases h; exact Nat.le_trans (Nat.le_of_lt (State.take?_lt ht)) hskip
        · cases h; exact hskip

/-- The entries of an attribute list from its first entry on, and what follows its end. -/
def entries (s : State) : List Attribute × State :=
  match _h : afterEntry (entryOrSkip s).2 with
  | .another t =>
    let (later, t) := entries t
    ((entryOrSkip s).1.toList ++ later, t)
  | .finished t => ((entryOrSkip s).1.toList, t)
termination_by s.rest.length
decreasing_by exact Nat.lt_of_lt_of_le (afterEntry_another_lt _h) (entryOrSkip_le s)

theorem entries_le (s : State) : (entries s).2.rest.length ≤ s.rest.length := by
  fun_induction entries s with
  | case1 s t h later u heq ih =>
    rw [heq] at ih
    exact Nat.le_trans ih
      (Nat.le_trans (Nat.le_of_lt (afterEntry_another_lt h)) (entryOrSkip_le s))
  | case2 s t h => exact Nat.le_trans (afterEntry_finished_le h) (entryOrSkip_le s)

/-- An attribute list from its opening bracket on. -/
def attributes (s : State) : Attributes × State :=
  match s.skip.take? .closeBracket with
  | some (_, s) => ({}, s)
  | none =>
    let (pairs, s) := entries s.skip
    (Attributes.ofPairs pairs, s)

theorem attributes_le (s : State) : (attributes s).2.rest.length ≤ s.rest.length := by
  have hs := length_skip_le s
  unfold attributes
  split
  · next h => exact Nat.le_trans (Nat.le_of_lt (State.take?_lt h)) hs
  · exact Nat.le_trans (entries_le _) hs

/-- An attribute list, if one starts here. -/
def attributes? (s : State) : Option Attributes × State :=
  if s.startsWith .openBracket then
    let (found, s) := attributes s
    (some found, s)
  else (none, s)

theorem attributes?_le (s : State) : (attributes? s).2.rest.length ≤ s.rest.length := by
  unfold attributes?
  split
  · exact attributes_le s
  · exact Nat.le_refl _

/-! ### Declarations -/

/-- Where reading goes on after a bad declaration. -/
def declarationStops : List TokenKind := [.identifier, .closeBrace]

/-- Whether an edge operator is an arrow; absent for any other kind of token. -/
def direction? : TokenKind → Option Bool
  | .undirectedEdge => some false
  | .directedEdge => some true
  | _ => none

/-- What follows the operator of an edge: its other end and its attributes. -/
def edgeHead (tail : Token) (directed : Bool) (s : State) : Option Declaration × State :=
  match s.expect .identifier .edgeHead with
  | (some head, s) =>
    let (attributes, s) := attributes? s
    (some (.edge
      { tail := tail.text, tailLocation := tail.site.location
        head := head.text, headLocation := head.site.location
        directed, attributes }), s)
  | (none, s) => (none, s.skipUntil declarationStops)

/-- A node declaration after its identifier. -/
def nodeRest (identifier : Token) (s : State) : Declaration × State :=
  let (attributes, s) := attributes? s
  (.node { identifier := identifier.text, location := identifier.site.location, attributes }, s)

/-- A declaration that starts with `identifier`: an edge if an operator follows, else a
node. -/
def declaration (identifier : Token) (s : State) : Option Declaration × State :=
  match s.rest.head?.bind fun operator => direction? operator.kind with
  | some directed => edgeHead identifier directed s.skip
  | none =>
    let (node, s) := nodeRest identifier s
    (some node, s)

theorem edgeHead_le (tail : Token) (directed : Bool) (s : State) :
    (edgeHead tail directed s).2.rest.length ≤ s.rest.length := by
  have h := s.expect_le .identifier .edgeHead
  unfold edgeHead
  split
  · next heq =>
    rw [heq] at h
    exact Nat.le_trans (attributes?_le _) h
  · next heq =>
    rw [heq] at h
    exact Nat.le_trans (State.length_skipUntil_le ..) h

theorem declaration_le (identifier : Token) (s : State) :
    (declaration identifier s).2.rest.length ≤ s.rest.length := by
  unfold declaration
  split
  · exact Nat.le_trans (edgeHead_le ..) (length_skip_le s)
  · exact attributes?_le s

/-- The declarations of the body, and what follows its closing brace.  A token that starts no
declaration is an error, after which reading goes on at the next identifier or closing
brace; a body that the input cuts short is one, too. -/
def body (s : State) : List Declaration × State :=
  match _h : s.rest with
  | [] => ([], s.fail .closeBrace)
  | token :: _ =>
    match token.kind with
    | .closeBrace =>
      let s := s.skip
      ([], if s.rest.isEmpty then s else s.fail .endOfInput)
    | .identifier =>
      let first := declaration token s.skip
      let (later, t) := body first.2
      (first.1.toList ++ later, t)
    | _ => body ((s.fail .declaration).skip.skipUntil declarationStops)
termination_by s.rest.length
decreasing_by
  · refine Nat.lt_of_le_of_lt (declaration_le ..) ?_
    simp [State.skip, _h]
  · refine Nat.lt_of_le_of_lt (State.length_skipUntil_le ..) ?_
    simp [State.skip, _h]

/-! ### Documents -/

/-- Reads the opening brace of the body, and says whether there is one; if it is missing here,
the next one counts. -/
def openBody (s : State) : Bool × State :=
  match s.expect .openBrace .openBrace with
  | (some _, s) => (true, s)
  | (none, s) =>
    let s := s.skipUntil [.openBrace]
    match s.take? .openBrace with
    | some (_, s) => (true, s)
    | none => (false, s)

/-- What stands before the body of a document: the keyword, the name and the attributes of the
graph. -/
def header (s : State) : Document × State :=
  let (_, s) := s.expect .graph .graphKeyword
  let (name, s) := s.expect .identifier .graphName
  let (attributes, s) := attributes? s
  ({ graphName := (name.map Token.text).getD "", graphAttributes := attributes.getD {} }, s)

/-- A whole document. -/
def document (s : State) : Document × State :=
  let (header, s) := header s
  match openBody s with
  | (true, s) =>
    let (declarations, s) := body s
    (header.append declarations, s)
  | (false, s) => (header, s)

end Parse

/-- The document that a list of tokens without trivia makes, as far as it can be read, and
the syntax errors in it. -/
def parseTokens (source : String) (tokens : List Token) : Document × List SyntaxError :=
  let (document, s) := Parse.document ⟨tokens, [], Site.atEnd source⟩
  (document, s.errors.reverse)

/-- The document of a source, or everything that is wrong with the source. -/
def parse (source : String) : Except (List Diagnostic) Document :=
  let lexed := tokenize source
  let (document, syntaxErrors) := parseTokens source lexed.tokens
  match Diagnostic.inOrder lexed.errors syntaxErrors with
  | [] => .ok document
  | diagnostics => .error diagnostics

/-! ### Locations of 32 bits

`parse` counts lines and columns without a bound.  What runs counts them with 32 bits: the tokens
come from a line tracker, and a syntax error at the end of the input counts from the start of the
source.  Without a result there is a line or a column after the last number. -/

/-- A syntax error that is located anew if it stands at the end of the input. -/
def SyntaxError.locate32? (source : String) (error : SyntaxError) : Option SyntaxError :=
  match error.found with
  | some _ => some error
  | none => do
    let location ← Location.of32? source source.utf8ByteSize
    return { error with site := { error.site with location } }

/-- What some tokens make, with the locations of syntax errors in 32 bits. -/
def parseTokens32? (source : String) (tokens : List Token) :
    Option (Document × List SyntaxError) := do
  let (document, errors) := parseTokens source tokens
  let errors ← errors.mapM (SyntaxError.locate32? source)
  return (document, errors)

/-- The document of a source, or everything that is wrong with it, with locations in 32 bits. -/
def parse32? (source : String) : Option (Except (List Diagnostic) Document) := do
  let lexed ← track? false source
  let (document, syntaxErrors) ← parseTokens32? source lexed.tokens
  return match Diagnostic.inOrder lexed.errors syntaxErrors with
    | [] => .ok document
    | diagnostics => .error diagnostics

end NodeLink
