import NodeLink.Json.Number

/-! # JSON texts, faults included

`Raw.ofText` reads a text into a tree that keeps, in the order of the text, everything that
was read up to the first fault, and the fault itself where it stands.  Whoever walks the tree
in that order meets first what comes first: a fault of the text, or a value that is not what
was wanted.

Two things depend on the reader.  A value that is only skipped is read loosely: its numbers
may be too large and its strings may hold half of a surrogate pair, and a number cut short by
the end of the text counts as malformed.  So numbers and strings carry both outcomes. -/

namespace NodeLink.Json

/-- Why a text does not yield the wanted value: it is no JSON, it ends too early, or it is
JSON of another shape. -/
inductive Problem where
  | malformed
  | truncated
  | mismatch
  deriving DecidableEq, Repr, Inhabited

/-- A string: its characters when it is read, and the fault when it is skipped, if any. -/
structure RawText where
  content : Except Problem String
  fault : Option Problem

/-- How a list ends. -/
inductive ListEnd where
  /-- With its bracket. -/
  | closed
  /-- Before a bracket or comma, with the text. -/
  | cut
  /-- With something that is neither bracket nor comma. -/
  | stray
  /-- After a comma, with a problem. -/
  | afterComma (problem : Problem)
  deriving DecidableEq, Repr, Inhabited

/-- The problem of a list that does not end with its bracket. -/
def ListEnd.problem? : ListEnd → Option Problem
  | closed => none
  | cut => some .truncated
  | stray => some .malformed
  | afterComma problem => some problem

/-- A JSON value as far as its text can be read. -/
inductive Raw where
  | broken (problem : Problem)
  | null
  | bool (value : Bool)
  | number (literal : NumberLiteral) (fault : Option Problem)
  | text (value : RawText)
  | list (items : List Raw) (finish : ListEnd)
  | object (fields : List (RawText × Raw)) (fault : Option Problem)

/-! ### Blanks, words and digits -/

/-- The characters between tokens. -/
def isJsonBlank (c : Char) : Bool :=
  c = ' ' || c = '\n' || c = '\t' || c = '\r'

/-- The text after leading blanks. -/
def skipBlanks (input : List Char) : List Char :=
  input.dropWhile isJsonBlank

/-- The text after a word that has to stand here. -/
def word : List Char → List Char → Except Problem (List Char)
  | [], input => .ok input
  | _ :: _, [] => .error .truncated
  | w :: rest, c :: input => if w = c then word rest input else .error .malformed

/-- The digits at the head of a text. -/
def leadingDigits (input : List Char) : List Nat :=
  (input.takeWhile Char.isDigit).map fun c => c.toNat - '0'.toNat

/-- The text after its leading digits. -/
def afterDigits (input : List Char) : List Char :=
  input.dropWhile Char.isDigit

/-- At least one digit. -/
def digits (input : List Char) : Except Problem (List Nat × List Char) :=
  match input, leadingDigits input with
  | [], _ => .error .truncated
  | _, [] => .error .malformed
  | _, found => .ok (found, afterDigits input)

/-! ### Numbers -/

/-- The digits before the point: a zero alone, or digits that do not start with zero. -/
def wholeDigits (input : List Char) : Except Problem (List Nat × List Char) := do
  let (found, rest) ← digits input
  match found with
  | 0 :: _ :: _ => .error .malformed
  | _ => return (found, rest)

/-- The digits after the point, if there is a point. -/
def fractionDigits (input : List Char) : Except Problem (Option (List Nat) × List Char) :=
  match input with
  | '.' :: rest => (digits rest).map fun (found, rest) => (some found, rest)
  | _ => .ok (none, input)

/-- The sign and digits of the exponent, if there is one. -/
def exponentDigits (input : List Char) :
    Except Problem (Option (Bool × List Nat) × List Char) :=
  match input with
  | c :: rest =>
    if c = 'e' || c = 'E' then
      let (below, rest) :=
        match rest with
        | '+' :: rest => (false, rest)
        | '-' :: rest => (true, rest)
        | _ => (false, rest)
      (digits rest).map fun (found, rest) => (some (below, found), rest)
    else .ok (none, input)
  | [] => .ok (none, input)

/-- A number without its sign. -/
def numberLiteral (negative : Bool) (input : List Char) :
    Except Problem (NumberLiteral × List Char) := do
  let (whole, rest) ← wholeDigits input
  let (fraction, rest) ← fractionDigits rest
  let (exponent, rest) ← exponentDigits rest
  return ({ negative, whole, fraction, exponent }, rest)

/-! ### Strings -/

/-- A character of a string, or a sixteen-bit unit written as an escape. -/
inductive StringPart where
  | char (value : Char)
  | unit (value : Nat)

/-- The value of a hexadecimal digit. -/
def hexValue? (c : Char) : Option Nat :=
  if c.isDigit then some (c.toNat - '0'.toNat)
  else if 'a' ≤ c ∧ c ≤ 'f' then some (c.toNat - 'a'.toNat + 10)
  else if 'A' ≤ c ∧ c ≤ 'F' then some (c.toNat - 'A'.toNat + 10)
  else none

/-- The value of four hexadecimal digits. -/
def hexUnit? (a b c d : Char) : Option Nat := do
  let a ← hexValue? a
  let b ← hexValue? b
  let c ← hexValue? c
  let d ← hexValue? d
  return ((a * 16 + b) * 16 + c) * 16 + d

/-- The character of an escape of one letter. -/
def escaped? : Char → Option Char
  | '"' => some '"'
  | '\\' => some '\\'
  | '/' => some '/'
  | 'b' => some '\x08'
  | 'f' => some '\x0c'
  | 'n' => some '\n'
  | 'r' => some '\r'
  | 't' => some '\t'
  | _ => none

/-- What is wrong with an escape of a unit whose four digits are not all there: a text with
fewer than four bytes left is cut short. -/
def unitProblem (input : List Char) : Problem :=
  if (String.ofList input).utf8ByteSize < 4 then .truncated else .malformed

/-- A string after its opening quote: its parts, and the text after the closing quote or what
went wrong. -/
def stringParts : List Char → List StringPart × Except Problem (List Char)
  | [] => ([], .error .truncated)
  | '"' :: rest => ([], .ok rest)
  | ['\\'] => ([], .error .truncated)
  | '\\' :: 'u' :: a :: b :: c :: d :: rest =>
    match hexUnit? a b c d with
    | some value =>
      let (parts, after) := stringParts rest
      (.unit value :: parts, after)
    | none => ([], .error (unitProblem (a :: b :: c :: d :: rest)))
  | '\\' :: 'u' :: rest => ([], .error (unitProblem rest))
  | '\\' :: c :: rest =>
    match escaped? c with
    | some value =>
      let (parts, after) := stringParts rest
      (.char value :: parts, after)
    | none => ([], .error .malformed)
  | c :: rest =>
    if c.toNat < 0x20 then ([], .error .malformed)
    else
      let (parts, after) := stringParts rest
      (.char c :: parts, after)

/-- Whether a unit is the first half of a pair. -/
def isLeadingUnit (value : Nat) : Bool :=
  0xD800 ≤ value && value ≤ 0xDBFF

/-- Whether a unit is the second half of a pair. -/
def isTrailingUnit (value : Nat) : Bool :=
  0xDC00 ≤ value && value ≤ 0xDFFF

/-- The characters of a string's parts, pairs of units joined, up to the first half pair or the
fault at the end of the string. -/
def joinParts (fault : Option Problem) : List StringPart → Except Problem (List Char)
  | [] =>
    match fault with
    | none => .ok []
    | some problem => .error problem
  | .char c :: rest => (joinParts fault rest).map (c :: ·)
  | .unit lead :: rest =>
    if isTrailingUnit lead then .error .malformed
    else if isLeadingUnit lead then
      match rest with
      | .unit trail :: rest =>
        if isTrailingUnit trail then
          (joinParts fault rest).map
            (Char.ofNat (0x10000 + (lead - 0xD800) * 0x400 + (trail - 0xDC00)) :: ·)
        else .error .malformed
      | [] => .error (fault.getD .malformed)
      | .char _ :: _ => .error .malformed
    else (joinParts fault rest).map (Char.ofNat lead :: ·)

/-- A string after its opening quote, and the text after it unless it is broken. -/
def rawText (input : List Char) : RawText × Option (List Char) :=
  match stringParts input with
  | (parts, .ok rest) => (⟨(joinParts none parts).map String.ofList, none⟩, some rest)
  | (parts, .error problem) =>
    (⟨(joinParts (some problem) parts).map String.ofList, some problem⟩, none)

/-! ### Values -/

/-- A value and the text after it; no text follows a value with a fault in it. -/
abbrev Read (α : Type) := α × Option (List Char)

/-- A word of the language, with its value. -/
def literalWord (spelling : String) (value : Raw) (input : List Char) : Read Raw :=
  match word spelling.toList input with
  | .ok rest => (value, some rest)
  | .error problem => (.broken problem, none)

/-- A number without its sign, as a value. -/
def rawNumber (negative : Bool) (input : List Char) : Read Raw :=
  match numberLiteral negative input with
  | .ok (literal, rest) => (.number literal none, some rest)
  | .error problem => (.number { negative, whole := [] } (some problem), none)

mutual

/-- A value.  The first argument bounds the steps that are left. -/
def rawValue : Nat → List Char → Read Raw
  | 0, _ => (.broken .truncated, none)
  | fuel + 1, input =>
    match skipBlanks input with
    | [] => (.broken .truncated, none)
    | c :: rest =>
      match c with
      | 'n' => literalWord "null" .null (c :: rest)
      | 't' => literalWord "true" (.bool true) (c :: rest)
      | 'f' => literalWord "false" (.bool false) (c :: rest)
      | '-' => rawNumber true rest
      | '"' =>
        let (value, after) := rawText rest
        (.text value, after)
      | '[' =>
        match skipBlanks rest with
        | ']' :: rest => (.list [] .closed, some rest)
        | [] => (.list [] .cut, none)
        | rest =>
          let ((items, finish), after) := rawItems fuel rest
          (.list items finish, after)
      | '\x7b' =>
        match skipBlanks rest with
        | '\x7d' :: rest => (.object [] none, some rest)
        | '"' :: rest =>
          let ((fields, fault), after) := rawFields fuel rest
          (.object fields fault, after)
        | [] => (.object [] (some .truncated), none)
        | _ => (.object [] (some .malformed), none)
      | _ => if c.isDigit then rawNumber false (c :: rest) else (.broken .malformed, none)

/-- The items of a list from one item on. -/
def rawItems : Nat → List Char → Read (List Raw × ListEnd)
  | 0, _ => (([], .cut), none)
  | fuel + 1, input =>
    let (first, after) := rawValue fuel input
    match after.map skipBlanks with
    | none => (([first], .cut), none)
    | some [] => (([first], .cut), none)
    | some (']' :: rest) => (([first], .closed), some rest)
    | some (',' :: rest) =>
      match skipBlanks rest with
      | [] => (([first], .afterComma .truncated), none)
      | ']' :: _ => (([first], .afterComma .malformed), none)
      | rest =>
        let ((items, finish), after) := rawItems fuel rest
        ((first :: items, finish), after)
    | some _ => (([first], .stray), none)

/-- The fields of an object after the opening quote of a name. -/
def rawFields : Nat → List Char → Read (List (RawText × Raw) × Option Problem)
  | 0, _ => (([], some .truncated), none)
  | fuel + 1, input =>
    let (name, after) := rawText input
    match after.map skipBlanks with
    | none => (([(name, .broken .truncated)], none), none)
    | some [] => (([(name, .broken .truncated)], none), none)
    | some (':' :: rest) =>
      let (value, after) := rawValue fuel rest
      match after.map skipBlanks with
      | none => (([(name, value)], none), none)
      | some [] => (([(name, value)], some .truncated), none)
      | some ('\x7d' :: rest) => (([(name, value)], none), some rest)
      | some (',' :: rest) =>
        match skipBlanks rest with
        | '"' :: rest =>
          let ((fields, fault), after) := rawFields fuel rest
          (((name, value) :: fields, fault), after)
        | [] => (([(name, value)], some .truncated), none)
        | _ => (([(name, value)], some .malformed), none)
      | some _ => (([(name, value)], some .malformed), none)
    | some _ => (([(name, .broken .malformed)], none), none)

end

/-- The value of a text, and whether anything but blanks follows it. -/
structure RawDocument where
  value : Raw
  trailing : Bool

/-- Reads a whole text.  Every two steps take a character, which bounds their number. -/
def Raw.ofText (text : String) : RawDocument :=
  let input := text.toList
  let (value, after) := rawValue (2 * input.length + 2) input
  ⟨value, after.any fun rest => !(skipBlanks rest).isEmpty⟩

end NodeLink.Json
