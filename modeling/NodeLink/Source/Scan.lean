import NodeLink.Source.Token
import NodeLink.Text.Characters

/-! # Scanning a source into tokens

`nextToken?` applies the token rules at the head of a text: white space, a comment up to the
end of its line, a string on one line, an edge operator, punctuation, and words, where a
reserved word (in any letter case) gives way to a longer identifier.  `scanFrom` goes over a
whole text once.  Where no token starts it skips a character, and what was skipped is reported
late, as one error for the whole run, when the next token is met or the text ends.  Every rule
leaves a shorter text (`nextToken?_rest_lt`), which is why the scan ends. -/

namespace NodeLink.Source

open NodeLink.Text

/-! ### Token rules -/

/-- A token at the head of a text: what it is, its characters, and the text after it. -/
structure Munch where
  kind : TokenKind
  text : List Char
  rest : List Char

/-- A run of white space. -/
def blankRun? (input : List Char) : Option Munch :=
  match input.takeWhile isBlank with
  | [] => none
  | run => some ⟨.whitespace, run, input.dropWhile isBlank⟩

/-- Two slashes and the rest of the line, its newline excluded. -/
def comment? : List Char → Option Munch
  | '/' :: '/' :: input =>
    some ⟨.comment, '/' :: '/' :: input.takeWhile (· ≠ '\n'), input.dropWhile (· ≠ '\n')⟩
  | _ => none

/-- Whether a character may stand inside a string: neither a quote nor a newline. -/
def isStringBody (c : Char) : Bool :=
  c ≠ '"' && c ≠ '\n'

/-- A string: two quotes on one line and what stands between them. -/
def string? : List Char → Option Munch
  | '"' :: input =>
    match input.dropWhile isStringBody with
    | '"' :: rest => some ⟨.string, '"' :: (input.takeWhile isStringBody ++ ['"']), rest⟩
    | _ => none
  | _ => none

/-- An edge operator or a punctuation mark. -/
def mark? : List Char → Option Munch
  | '-' :: '-' :: rest => some ⟨.undirectedEdge, ['-', '-'], rest⟩
  | '-' :: '>' :: rest => some ⟨.directedEdge, ['-', '>'], rest⟩
  | '[' :: rest => some ⟨.openBracket, ['['], rest⟩
  | ']' :: rest => some ⟨.closeBracket, [']'], rest⟩
  | '=' :: rest => some ⟨.equal, ['='], rest⟩
  | ',' :: rest => some ⟨.comma, [','], rest⟩
  | '\x7b' :: rest => some ⟨.openBrace, ['\x7b'], rest⟩
  | '\x7d' :: rest => some ⟨.closeBrace, ['\x7d'], rest⟩
  | _ => none

/-- Whether a character may start an identifier: an ASCII letter or digit, or `#`. -/
def isIdentifierStart (c : Char) : Bool :=
  c.isAlphanum || c = '#'

/-- Whether a character may continue an identifier: an ASCII letter or digit, or `_`. -/
def isIdentifierPart (c : Char) : Bool :=
  c.isAlphanum || c = '_'

/-- The number of characters of the identifier at the head of a text, zero if there is none. -/
def identifierLength : List Char → Nat
  | [] => 0
  | c :: rest => if isIdentifierStart c then (rest.takeWhile isIdentifierPart).length + 1 else 0

/-- The reserved words, each before the ones it starts with. -/
def keywords : List (List Char × TokenKind) :=
  [("line-width".toList, .lineWidth), ("font-size".toList, .fontSize), ("bundle".toList, .bundle),
   ("graph".toList, .graph), ("color".toList, .color), ("label".toList, .label),
   ("font".toList, .font)]

/-- Whether `input` starts with `word`, ASCII letters taken without their case. -/
def startsWithWord : List Char → List Char → Bool
  | [], _ => true
  | _ :: _, [] => false
  | w :: word, c :: input => w.toLower = c.toLower && startsWithWord word input

/-- The reserved word at the head of a text. -/
def keyword? (input : List Char) : Option (List Char × TokenKind) :=
  keywords.find? fun entry => startsWithWord entry.1 input

/-- The first `count` characters of a text as a token. -/
def Munch.taking (kind : TokenKind) (count : Nat) (input : List Char) : Munch :=
  ⟨kind, input.take count, input.drop count⟩

/-- An identifier, if the head of the text has one. -/
def identifier? (input : List Char) : Option Munch :=
  if identifierLength input = 0 then none
  else some (Munch.taking .identifier (identifierLength input) input)

/-- A reserved word or an identifier, whichever is longer; the reserved word on a tie. -/
def word? (input : List Char) : Option Munch :=
  match keyword? input with
  | some (word, kind) =>
    if identifierLength input ≤ word.length then some (Munch.taking kind word.length input)
    else identifier? input
  | none => identifier? input

/-- The token at the head of a text, if one starts there. -/
def nextToken? (input : List Char) : Option Munch :=
  (blankRun? input).or <| (comment? input).or <| (string? input).or <| (mark? input).or <|
    word? input

/-! ### A rule splits the text it reads, and takes at least one character -/

/-- The token is not empty, and with what follows it spells the text it was read from. -/
structure Munch.Splits (munch : Munch) (input : List Char) : Prop where
  text_ne_nil : munch.text ≠ []
  append_eq : munch.text ++ munch.rest = input

theorem blankRun?_splits {input : List Char} {m : Munch} (h : blankRun? input = some m) :
    m.Splits input := by
  unfold blankRun? at h
  split at h
  · simp at h
  · next hne =>
    obtain rfl := Option.some.inj h
    exact ⟨hne, List.takeWhile_append_dropWhile⟩

theorem comment?_splits {input : List Char} {m : Munch} (h : comment? input = some m) :
    m.Splits input := by
  unfold comment? at h
  split at h
  · obtain rfl := Option.some.inj h
    exact ⟨by simp, by simp only [List.cons_append, List.takeWhile_append_dropWhile]⟩
  · simp at h

theorem string?_splits {input : List Char} {m : Munch} (h : string? input = some m) :
    m.Splits input := by
  unfold string? at h
  split at h
  · next input =>
    split at h
    · next rest hd =>
      obtain rfl := Option.some.inj h
      refine ⟨by simp, ?_⟩
      have := List.takeWhile_append_dropWhile (p := isStringBody) (l := input)
      rw [hd] at this
      simpa using this
    · simp at h
  · simp at h

theorem mark?_splits {input : List Char} {m : Munch} (h : mark? input = some m) :
    m.Splits input := by
  unfold mark? at h
  split at h <;> first
    | (obtain rfl := Option.some.inj h; exact ⟨by simp, by simp⟩)
    | simp at h

theorem Munch.taking_splits {kind : TokenKind} {count : Nat} {input : List Char}
    (hpos : 0 < count) (hne : input ≠ []) : (Munch.taking kind count input).Splits input where
  text_ne_nil := by
    simp only [Munch.taking, ne_eq, List.take_eq_nil_iff, hne, or_false]
    omega
  append_eq := List.take_append_drop ..

theorem identifier?_splits {input : List Char} {m : Munch} (h : identifier? input = some m) :
    m.Splits input := by
  unfold identifier? at h
  split at h
  · simp at h
  · next hz =>
    obtain rfl := Option.some.inj h
    refine Munch.taking_splits (Nat.pos_of_ne_zero hz) ?_
    rintro rfl
    exact hz rfl

theorem keyword?_length_pos {input : List Char} {entry : List Char × TokenKind}
    (h : keyword? input = some entry) : 0 < entry.1.length := by
  have hall : ∀ entry ∈ keywords, 0 < entry.1.length := by decide
  exact hall entry (List.mem_of_find?_eq_some h)

theorem startsWithWord_ne_nil {word input : List Char} (hw : 0 < word.length)
    (h : startsWithWord word input = true) : input ≠ [] := by
  rintro rfl
  cases word with
  | nil => simp at hw
  | cons w word => simp [startsWithWord] at h

theorem word?_splits {input : List Char} {m : Munch} (h : word? input = some m) :
    m.Splits input := by
  unfold word? at h
  split at h
  · next word kind hk =>
    split at h
    · obtain rfl := Option.some.inj h
      have hpos := keyword?_length_pos hk
      unfold keyword? at hk
      have hs := List.find?_some hk
      exact Munch.taking_splits hpos (startsWithWord_ne_nil hpos hs)
    · exact identifier?_splits h
  · exact identifier?_splits h

theorem nextToken?_splits {input : List Char} {m : Munch} (h : nextToken? input = some m) :
    m.Splits input := by
  simp only [nextToken?, Option.or_eq_some_iff] at h
  rcases h with h | ⟨-, h | ⟨-, h | ⟨-, h | ⟨-, h⟩⟩⟩⟩
  · exact blankRun?_splits h
  · exact comment?_splits h
  · exact string?_splits h
  · exact mark?_splits h
  · exact word?_splits h

/-- Every token leaves a shorter text. -/
theorem nextToken?_rest_lt {input : List Char} {m : Munch} (h : nextToken? input = some m) :
    m.rest.length < input.length := by
  obtain ⟨hne, happ⟩ := nextToken?_splits h
  have := List.length_pos_iff.2 hne
  rw [← happ, List.length_append]
  omega

/-! ### Tokens, comments and errors -/

/-- A run of characters that starts no token. -/
structure LexError where
  text : String
  site : Site
  deriving DecidableEq, Repr, Inhabited

/-- The error as one line of text. -/
def LexError.render (error : LexError) : String :=
  error.site.location.render ++ ": unrecognized input `" ++ error.text ++ "`"

/-- What scanning finds: the tokens, the comments beside them, and the errors. -/
structure Lexed where
  tokens : List Token := []
  comments : List Token := []
  errors : List LexError := []
  deriving DecidableEq, Repr, Inhabited

/-- Puts a token before what is found after it.  Unless trivia is kept, white space is dropped
and a comment is set aside. -/
def Lexed.addToken (keepTrivia : Bool) (token : Token) (found : Lexed) : Lexed :=
  match keepTrivia, token.kind with
  | false, .whitespace => found
  | false, .comment => { found with comments := token :: found.comments }
  | _, _ => { found with tokens := token :: found.tokens }

/-- Characters that were skipped since the last token, the last one first, and the place where
they start. -/
structure Skipped where
  start : Position
  characters : List Char := []

namespace Skipped

/-- The skipped text. -/
def text (skipped : Skipped) : List Char := skipped.characters.reverse

/-- The place where the skipped text ends. -/
def stop (skipped : Skipped) : Position := skipped.start.advance skipped.text

/-- Skips one more character. -/
def push (skipped : Skipped) (c : Char) : Skipped :=
  { skipped with characters := c :: skipped.characters }

/-- The error for the skipped text; if nothing was skipped there is none. -/
def error? (skipped : Skipped) : Option LexError :=
  if skipped.characters.isEmpty then none
  else some ⟨String.ofList skipped.text, Site.covering skipped.start skipped.text⟩

end Skipped

/-- Puts the error for a skipped text before what is found after it. -/
def Lexed.addSkipped (skipped : Skipped) (found : Lexed) : Lexed :=
  { found with errors := skipped.error?.toList ++ found.errors }

/-- Scans the rest of a text, given what was skipped just before it. -/
def scanFrom (keepTrivia : Bool) (skipped : Skipped) (input : List Char) : Lexed :=
  match input with
  | [] => Lexed.addSkipped skipped {}
  | c :: rest =>
    match _h : nextToken? (c :: rest) with
    | some munch =>
      let token : Token :=
        ⟨munch.kind, String.ofList munch.text, Site.covering skipped.stop munch.text⟩
      Lexed.addSkipped skipped <| Lexed.addToken keepTrivia token <|
        scanFrom keepTrivia ⟨skipped.stop.advance munch.text, []⟩ munch.rest
    | none => scanFrom keepTrivia (skipped.push c) rest
termination_by input.length
decreasing_by
  · exact nextToken?_rest_lt _h
  · exact Nat.lt_succ_self _

/-- Scans a source and keeps every token, white space and comments included. -/
def tokenizeWithTrivia (source : String) : Lexed :=
  scanFrom true ⟨{}, []⟩ source.toList

/-- Scans a source into the tokens of its document, with comments and errors beside them. -/
def tokenize (source : String) : Lexed :=
  scanFrom false ⟨{}, []⟩ source.toList

end NodeLink.Source
