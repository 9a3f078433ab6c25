/-! # Positions in a source text

A `Span` is a range of bytes, a `Location` a line and a column, both counted from one, where
a column counts characters.  A `Position` carries the byte offset and the location together
and moves over one character at a time; `Location.of` reads the location of an offset off the
text before it, without a running count. -/

namespace NodeLink.Source

/-- A range of bytes of the source, its end excluded. -/
structure Span where
  start : Nat
  stop : Nat
  deriving DecidableEq, Repr, Inhabited

/-- The number of bytes of a span; a span that ends before it starts has none. -/
def Span.length? (span : Span) : Option Nat :=
  if span.start ≤ span.stop then some (span.stop - span.start) else none

/-- Whether a span starts where it ends. -/
def Span.isEmpty (span : Span) : Bool :=
  span.start == span.stop

/-- A line and a column, both counted from one. -/
structure Location where
  line : Nat := 1
  column : Nat := 1
  deriving DecidableEq, Repr, Inhabited

/-- Line and column with a colon between them. -/
def Location.render (location : Location) : String :=
  toString location.line ++ ":" ++ toString location.column

/-- The characters of `text` that end within its first `offset` bytes. -/
def charactersBefore : List Char → Nat → List Char
  | [], _ => []
  | c :: rest, offset =>
    if c.utf8Size ≤ offset then c :: charactersBefore rest (offset - c.utf8Size) else []

/-- The location just after `before`, the whole text up to there. -/
def Location.after (before : List Char) : Location where
  line := before.count '\n' + 1
  column := (before.reverse.takeWhile (· ≠ '\n')).length + 1

/-- The location of a byte offset: an offset inside a character counts as that character's
start, one past the end as the end. -/
def Location.of (source : String) (offset : Nat) : Location :=
  Location.after (charactersBefore source.toList offset)

/-- A place between two characters. -/
structure Position where
  offset : Nat := 0
  location : Location := {}
  deriving DecidableEq, Repr, Inhabited

/-- The place after one more character: a newline starts a line, all else a column. -/
def Position.step (position : Position) (c : Char) : Position where
  offset := position.offset + c.utf8Size
  location :=
    if c = '\n' then ⟨position.location.line + 1, 1⟩
    else ⟨position.location.line, position.location.column + 1⟩

/-- The place after some text. -/
def Position.advance (position : Position) (text : List Char) : Position :=
  text.foldl Position.step position

@[simp] theorem Position.advance_nil (position : Position) : position.advance [] = position := rfl

@[simp] theorem Position.advance_cons (position : Position) (c : Char) (text : List Char) :
    position.advance (c :: text) = (position.step c).advance text := rfl

theorem Position.advance_append (position : Position) (a b : List Char) :
    position.advance (a ++ b) = (position.advance a).advance b :=
  List.foldl_append ..

end NodeLink.Source
