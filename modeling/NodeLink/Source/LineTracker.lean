import NodeLink.Source.Scan

/-! # Scanning with a line tracker

This scan carries no position.  It counts the lines that have ended and remembers the byte at which
the current one starts; a location is counted in the slice of the source between that byte and the
place in question, and the tracker moves over a text by its newlines alone.  Where a scan stands
follows from the bytes that are left.  Lines and columns are numbers of 32 bits.  A slice that
would go backwards or cut a character does not exist, nor does a number after the last one, and
with either the scan has no result. -/

namespace NodeLink.Source

/-- One more than the greatest number of 32 bits. -/
def wordBound : Nat := 4294967296

/-- The next number of 32 bits, if there is one. -/
def next32? (n : Nat) : Option Nat :=
  if n + 1 < wordBound then some (n + 1) else none

/-- The location of a byte offset, counted from the start of a source. -/
def Location.of32? (source : String) (offset : Nat) : Option Location := do
  let before := charactersBefore source.toList offset
  let line ← next32? (before.count '\n' % wordBound)
  let column ← next32? ((before.reverse.takeWhile (· ≠ '\n')).length % wordBound)
  return { line, column }

/-- The text between two bytes of a source: both have to stand between two characters, and not in
the wrong order. -/
def slice? (source : String) (start stop : Nat) : Option String :=
  if start ≤ stop ∧ String.Pos.Raw.IsValid source ⟨start⟩ ∧
      String.Pos.Raw.IsValid source ⟨stop⟩ then
    some (String.Pos.Raw.extract source ⟨start⟩ ⟨stop⟩)
  else none

/-- How many lines have ended, and the byte at which the current one starts. -/
structure LineTracker where
  line : Nat := 0
  lineStart : Nat := 0

namespace LineTracker

/-- The location of a byte of the current line. -/
def locate? (tracker : LineTracker) (source : String) (offset : Nat) : Option Location := do
  let before ← slice? source tracker.lineStart offset
  let column ← next32? (before.length % wordBound)
  let line ← next32? tracker.line
  return { line, column }

/-- The bytes behind the newlines of a text that starts at byte `offset`. -/
def lineStarts (offset : Nat) : List Char → List Nat
  | [] => []
  | c :: text =>
    if c = '\n' then (offset + 1) :: lineStarts (offset + c.utf8Size) text
    else lineStarts (offset + c.utf8Size) text

/-- Moves over a text that starts at byte `offset`. -/
def advance? (tracker : LineTracker) (offset : Nat) (text : List Char) : Option LineTracker :=
  (lineStarts offset text).foldlM (fun tracker lineStart => do
    let line ← next32? tracker.line
    return { line, lineStart }) tracker

/-- The error for what was skipped up to a byte, if something was, and the tracker behind it. -/
def report? (tracker : LineTracker) (source : String) (skippedFrom : Option Nat) (stop : Nat) :
    Option (Option LexError × LineTracker) :=
  match skippedFrom with
  | none => some (none, tracker)
  | some start => do
    let text ← slice? source start stop
    let location ← tracker.locate? source start
    let tracker ← tracker.advance? start text.toList
    return (some ⟨text, ⟨⟨start, stop⟩, location⟩⟩, tracker)

end LineTracker

/-- Puts an error, if there is one, before what is found after it. -/
def Lexed.addError? (error? : Option LexError) (found : Lexed) : Lexed :=
  { found with errors := error?.toList ++ found.errors }

/-- Scans the rest of a source, given the byte from which on characters were skipped. -/
def trackFrom? (source : String) (keepTrivia : Bool) (tracker : LineTracker)
    (skippedFrom : Option Nat) (rest : List Char) : Option Lexed :=
  let offset := source.utf8ByteSize - (String.ofList rest).utf8ByteSize
  match rest with
  | [] => do
    let (error?, _) ← tracker.report? source skippedFrom offset
    return Lexed.addError? error? {}
  | c :: tail =>
    match _h : nextToken? (c :: tail) with
    | some munch => do
      let (error?, tracker) ← tracker.report? source skippedFrom offset
      let location ← tracker.locate? source offset
      let tracker ← tracker.advance? offset munch.text
      let text := String.ofList munch.text
      let found ← trackFrom? source keepTrivia tracker none munch.rest
      return Lexed.addError? error? <| Lexed.addToken keepTrivia
        ⟨munch.kind, text, ⟨⟨offset, offset + text.utf8ByteSize⟩, location⟩⟩ found
    | none => trackFrom? source keepTrivia tracker (some (skippedFrom.getD offset)) tail
termination_by rest.length
decreasing_by
  · exact nextToken?_rest_lt _h
  · exact Nat.lt_succ_self _

/-- Scans a source with a line tracker, white space and comments kept or not. -/
def track? (keepTrivia : Bool) (source : String) : Option Lexed :=
  trackFrom? source keepTrivia {} none source.toList

end NodeLink.Source
