import NodeLink.Source.Scan

/-! # The pieces of a source

`pieces` cuts a text into tokens and maximal runs of characters that start none, and `placeFrom`
puts the pieces one behind the other.  They spell the text again (`pieces_flatten`).  A scan
reports a run only when it is over and sorts what it finds into lists, but it finds these pieces
and no others: with trivia they are its tokens and its errors (`scanFrom_eq_ofPieces`), and
without trivia it finds the same, white space dropped and comments set aside
(`scanFrom_eq_withoutTrivia`). -/

namespace NodeLink.Source

/-! ### Cutting a text into pieces -/

/-- The characters up to the next one at which a token starts. -/
def badRun : List Char → List Char
  | [] => []
  | c :: rest => if (nextToken? (c :: rest)).isSome then [] else c :: badRun rest

/-- The text from the next character at which a token starts. -/
def afterBadRun : List Char → List Char
  | [] => []
  | c :: rest => if (nextToken? (c :: rest)).isSome then c :: rest else afterBadRun rest

theorem badRun_append_afterBadRun (input : List Char) :
    badRun input ++ afterBadRun input = input := by
  induction input with
  | nil => rfl
  | cons c rest ih =>
    unfold badRun afterBadRun
    split <;> simp [ih]

theorem length_afterBadRun_le (input : List Char) :
    (afterBadRun input).length ≤ input.length := by
  have h := congrArg List.length (badRun_append_afterBadRun input)
  rw [List.length_append] at h
  omega

/-- A part of a text: a token of some kind, or characters that start no token. -/
structure Piece where
  kind? : Option TokenKind
  text : List Char

/-- A text cut into tokens and maximal runs of characters that start none. -/
def pieces (input : List Char) : List Piece :=
  match input with
  | [] => []
  | c :: rest =>
    match _h : nextToken? (c :: rest) with
    | some munch => ⟨some munch.kind, munch.text⟩ :: pieces munch.rest
    | none => ⟨none, c :: badRun rest⟩ :: pieces (afterBadRun rest)
termination_by input.length
decreasing_by
  · exact nextToken?_rest_lt _h
  · have := length_afterBadRun_le rest
    simp only [List.length_cons]
    omega

theorem pieces_token {c : Char} {rest : List Char} {munch : Munch}
    (h : nextToken? (c :: rest) = some munch) :
    pieces (c :: rest) = ⟨some munch.kind, munch.text⟩ :: pieces munch.rest := by
  rw [pieces]
  split
  · next munch' h' =>
    cases h.symm.trans h'
    rfl
  · next h' => cases h.symm.trans h'

theorem pieces_bad {c : Char} {rest : List Char} (h : nextToken? (c :: rest) = none) :
    pieces (c :: rest) = ⟨none, c :: badRun rest⟩ :: pieces (afterBadRun rest) := by
  rw [pieces]
  split
  · next munch h' => cases h.symm.trans h'
  · rfl

/-- The pieces of a text spell the text. -/
theorem pieces_flatten (input : List Char) : ((pieces input).map Piece.text).flatten = input := by
  fun_induction pieces input with
  | case1 => rfl
  | case2 c rest munch h ih =>
    rw [List.map_cons, List.flatten_cons, ih]
    exact (nextToken?_splits h).append_eq
  | case3 c rest h ih =>
    rw [List.map_cons, List.flatten_cons, ih, List.cons_append, badRun_append_afterBadRun]

theorem text_ne_nil_of_mem_pieces {input : List Char} {piece : Piece} (h : piece ∈ pieces input) :
    piece.text ≠ [] := by
  fun_induction pieces input with
  | case1 => cases h
  | case2 c rest munch hm ih =>
    rcases List.mem_cons.mp h with rfl | h
    · exact (nextToken?_splits hm).text_ne_nil
    · exact ih h
  | case3 c rest hm ih =>
    rcases List.mem_cons.mp h with rfl | h
    · exact List.cons_ne_nil _ _
    · exact ih h

/-! ### Placing the pieces -/

/-- A piece with the place where it starts. -/
structure PlacedPiece where
  piece : Piece
  start : Position

/-- Pieces that follow each other from `position` on. -/
def placeFrom (position : Position) : List Piece → List PlacedPiece
  | [] => []
  | piece :: rest => ⟨piece, position⟩ :: placeFrom (position.advance piece.text) rest

/-- The place that a placed piece covers. -/
def PlacedPiece.site (placed : PlacedPiece) : Site :=
  Site.covering placed.start placed.piece.text

/-- The token that a placed piece is, unless it is an error. -/
def PlacedPiece.token? (placed : PlacedPiece) : Option Token :=
  placed.piece.kind?.map fun kind => ⟨kind, String.ofList placed.piece.text, placed.site⟩

/-- The error that a placed piece is, unless it is a token. -/
def PlacedPiece.error? (placed : PlacedPiece) : Option LexError :=
  match placed.piece.kind? with
  | none => some ⟨String.ofList placed.piece.text, placed.site⟩
  | some _ => none

/-- The placed pieces of a whole source. -/
def placedPieces (source : String) : List PlacedPiece :=
  placeFrom {} (pieces source.toList)

/-- Placed pieces sorted into tokens and errors. -/
def Lexed.ofPieces (placed : List PlacedPiece) : Lexed where
  tokens := placed.filterMap PlacedPiece.token?
  comments := []
  errors := placed.filterMap PlacedPiece.error?

/-! ### One step of a scan -/

theorem scanFrom_token {keepTrivia : Bool} {skipped : Skipped} {c : Char} {rest : List Char}
    {munch : Munch} (h : nextToken? (c :: rest) = some munch) :
    scanFrom keepTrivia skipped (c :: rest) =
      Lexed.addSkipped skipped (Lexed.addToken keepTrivia
        ⟨munch.kind, String.ofList munch.text, Site.covering skipped.stop munch.text⟩
        (scanFrom keepTrivia ⟨skipped.stop.advance munch.text, []⟩ munch.rest)) := by
  rw [scanFrom]
  split
  · next munch' h' =>
    cases h.symm.trans h'
    rfl
  · next h' => cases h.symm.trans h'

theorem scanFrom_skip {keepTrivia : Bool} {skipped : Skipped} {c : Char} {rest : List Char}
    (h : nextToken? (c :: rest) = none) :
    scanFrom keepTrivia skipped (c :: rest) = scanFrom keepTrivia (skipped.push c) rest := by
  rw [scanFrom]
  split
  · next munch h' => cases h.symm.trans h'
  · rfl

theorem Skipped.text_push (skipped : Skipped) (c : Char) :
    (skipped.push c).text = skipped.text ++ [c] :=
  List.reverse_cons

/-! ### A scan finds the pieces -/

/-- The piece that a run of characters is, if there are any. -/
def runPieces (run : List Char) : List Piece :=
  if run.isEmpty then [] else [⟨none, run⟩]

/-- The pieces of a text just before which some characters were skipped: these are part of the
first run if the text starts with one, and a run of their own if not. -/
def piecesAfter (skipped input : List Char) : List Piece :=
  runPieces (skipped ++ badRun input) ++ pieces (afterBadRun input)

theorem piecesAfter_end (skipped : List Char) : piecesAfter skipped [] = runPieces skipped := by
  unfold piecesAfter
  rw [badRun, afterBadRun, pieces, List.append_nil, List.append_nil]

theorem piecesAfter_skip (skipped : List Char) {c : Char} {rest : List Char}
    (h : nextToken? (c :: rest) = none) :
    piecesAfter skipped (c :: rest) = piecesAfter (skipped ++ [c]) rest := by
  have hbad : badRun (c :: rest) = c :: badRun rest := by simp [badRun, h]
  have hafter : afterBadRun (c :: rest) = afterBadRun rest := by simp [afterBadRun, h]
  unfold piecesAfter
  rw [hbad, hafter, List.append_assoc, List.singleton_append]

theorem piecesAfter_token (skipped : List Char) {c : Char} {rest : List Char} {munch : Munch}
    (h : nextToken? (c :: rest) = some munch) :
    piecesAfter skipped (c :: rest) =
      runPieces skipped ++ ⟨some munch.kind, munch.text⟩ :: pieces munch.rest := by
  have hbad : badRun (c :: rest) = [] := by simp [badRun, h]
  have hafter : afterBadRun (c :: rest) = c :: rest := by simp [afterBadRun, h]
  unfold piecesAfter
  rw [hbad, hafter, List.append_nil, pieces_token h]

theorem piecesAfter_nil (input : List Char) : piecesAfter [] input = pieces input := by
  cases input with
  | nil => rw [piecesAfter_end, pieces, runPieces, List.isEmpty_nil, if_pos rfl]
  | cons c rest =>
      cases h : nextToken? (c :: rest) with
      | some munch =>
          rw [piecesAfter_token [] h, pieces_token h]
          rfl
      | none =>
          rw [piecesAfter_skip [] h, pieces_bad h]
          rfl

theorem addSkipped_ofPieces (skipped : Skipped) (later : List Piece) :
    Lexed.addSkipped skipped (Lexed.ofPieces (placeFrom skipped.stop later)) =
      Lexed.ofPieces (placeFrom skipped.start (runPieces skipped.text ++ later)) := by
  have hempty : skipped.text.isEmpty = skipped.characters.isEmpty := List.isEmpty_reverse
  unfold runPieces Lexed.addSkipped Skipped.error?
  rw [hempty]
  split
  · next h =>
    have htext : skipped.text = [] := by simpa [Skipped.text] using h
    simp [Skipped.stop, htext]
  · rfl

theorem addToken_ofPieces (start : Position) (munch : Munch) (later : List Piece) :
    Lexed.addToken true
        ⟨munch.kind, String.ofList munch.text, Site.covering start munch.text⟩
        (Lexed.ofPieces (placeFrom (start.advance munch.text) later)) =
      Lexed.ofPieces (placeFrom start (⟨some munch.kind, munch.text⟩ :: later)) := rfl

/-- With trivia a scan finds the pieces of its text. -/
theorem scanFrom_eq_ofPieces (skipped : Skipped) (input : List Char) :
    scanFrom true skipped input =
      Lexed.ofPieces (placeFrom skipped.start (piecesAfter skipped.text input)) := by
  fun_induction scanFrom true skipped input with
  | case1 skipped =>
      have hend := addSkipped_ofPieces skipped []
      rw [List.append_nil] at hend
      rw [piecesAfter_end]
      exact hend
  | case2 skipped c rest munch h token ih =>
      have hrest : (Skipped.mk (skipped.stop.advance munch.text) []).text = [] := rfl
      rw [ih, hrest, piecesAfter_nil, piecesAfter_token _ h, ← addSkipped_ofPieces,
        ← addToken_ofPieces]
  | case3 skipped c rest h ih =>
      rw [ih, skipped.text_push, piecesAfter_skip _ h]
      rfl

theorem tokenizeWithTrivia_eq (source : String) :
    tokenizeWithTrivia source = Lexed.ofPieces (placedPieces source) := by
  have hnone : (Skipped.mk {} []).text = [] := rfl
  unfold tokenizeWithTrivia placedPieces
  rw [scanFrom_eq_ofPieces, hnone, piecesAfter_nil]

/-! ### A scan without trivia -/

/-- Drops white space and sets the comments aside. -/
def Lexed.withoutTrivia (lexed : Lexed) : Lexed where
  tokens := lexed.tokens.filter fun token => !token.kind.isTrivia
  comments := lexed.tokens.filter fun token => token.kind = .comment
  errors := lexed.errors

theorem withoutTrivia_addSkipped (skipped : Skipped) (found : Lexed) :
    (Lexed.addSkipped skipped found).withoutTrivia =
      Lexed.addSkipped skipped found.withoutTrivia := rfl

theorem withoutTrivia_addToken (token : Token) (found : Lexed) :
    (Lexed.addToken true token found).withoutTrivia =
      Lexed.addToken false token found.withoutTrivia := by
  obtain ⟨kind, text, site⟩ := token
  cases kind <;> rfl

/-- Without trivia a scan finds the same as with it, white space dropped and comments set
aside. -/
theorem scanFrom_eq_withoutTrivia (skipped : Skipped) (input : List Char) :
    scanFrom false skipped input = (scanFrom true skipped input).withoutTrivia := by
  fun_induction scanFrom true skipped input with
  | case1 skipped =>
      rw [scanFrom, withoutTrivia_addSkipped]
      rfl
  | case2 skipped c rest munch h token ih =>
      rw [scanFrom_token h, withoutTrivia_addSkipped, withoutTrivia_addToken, ← ih]
  | case3 skipped c rest h ih =>
      rw [scanFrom_skip h]
      exact ih

theorem mem_tokenizeWithTrivia_of_mem {source : String} {token : Token}
    (h : token ∈ (tokenize source).tokens) : token ∈ (tokenizeWithTrivia source).tokens := by
  unfold tokenize at h
  rw [scanFrom_eq_withoutTrivia] at h
  exact (List.mem_filter.mp h).1

end NodeLink.Source
