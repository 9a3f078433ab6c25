import NodeLink.Decimal.Notation

/-! # JSON values and their text

A JSON value with its fields in order, and its text in two forms: on one line, and indented
by two spaces with one entry a line.  Strings escape the quote, the backslash and the control
characters and nothing else; a double that is no number is written as `null`. -/

namespace NodeLink

/-- A JSON value; objects keep the order of their fields. -/
inductive Json where
  | null
  | bool (value : Bool)
  | int (value : Int)
  | num (value : Float)
  | text (value : String)
  | list (items : List Json)
  | object (fields : List (String × Json))

namespace Json

/-- A value that may be missing, as `null` when it is. -/
def option {α : Type} (encode : α → Json) : Option α → Json
  | some value => encode value
  | none => null

/-- A natural number. -/
def nat (n : Nat) : Json := int n

/-- A field that is left out when it has no value. -/
def field? (name : String) : Option Json → List (String × Json)
  | some value => [(name, value)]
  | none => []

/-! ### Text -/

/-- The lower-case hexadecimal digit of a number below sixteen. -/
def hexDigit (n : Nat) : Char :=
  Nat.digitChar (n % 16)

/-- A character as it stands inside a JSON string. -/
def escapeChar (c : Char) : List Char :=
  if c = '"' then ['\\', '"']
  else if c = '\\' then ['\\', '\\']
  else if c = '\x08' then ['\\', 'b']
  else if c = '\x0c' then ['\\', 'f']
  else if c = '\n' then ['\\', 'n']
  else if c = '\r' then ['\\', 'r']
  else if c = '\t' then ['\\', 't']
  else if c.toNat < 0x20 then ['\\', 'u', '0', '0', hexDigit (c.toNat / 16), hexDigit c.toNat]
  else [c]

/-- A JSON string with its quotes. -/
def quote (s : String) : List Char :=
  '"' :: s.toList.flatMap escapeChar ++ ['"']

/-- The text of a double, `null` for one that is no number. -/
def numberText (x : Float) : List Char :=
  ((Decimal.Layout.data.render? x).getD "null").toList

/-- The decimal text of an integer. -/
def intText (n : Int) : List Char :=
  (if n < 0 then ['-'] else []) ++ Decimal.digitsOf n.natAbs

/-- Where one entry of a container is set apart from the next: on one line, or on lines of
its own at an indentation. -/
inductive Spacing where
  | compact
  | indented (depth : Nat)

/-- The spacing one level further in. -/
def Spacing.deeper : Spacing → Spacing
  | compact => compact
  | indented depth => indented (depth + 1)

/-- What stands before an entry or a closing bracket. -/
def Spacing.gap : Spacing → List Char
  | compact => []
  | indented depth => '\n' :: List.replicate (2 * depth) ' '

/-- What stands between a field's name and its value. -/
def Spacing.colon : Spacing → List Char
  | compact => [':']
  | indented _ => [':', ' ']

mutual

/-- The characters of a value. -/
def characters (spacing : Spacing) : Json → List Char
  | null => ['n', 'u', 'l', 'l']
  | bool true => ['t', 'r', 'u', 'e']
  | bool false => ['f', 'a', 'l', 's', 'e']
  | int n => intText n
  | num x => numberText x
  | text s => quote s
  | list [] => ['[', ']']
  | list (first :: rest) =>
    '[' :: (spacing.deeper.gap ++ characters spacing.deeper first ++
      itemCharacters spacing.deeper rest ++ spacing.gap ++ [']'])
  | object [] => ['\x7b', '\x7d']
  | object ((name, first) :: rest) =>
    '\x7b' :: (spacing.deeper.gap ++ quote name ++ spacing.colon ++
      characters spacing.deeper first ++ fieldCharacters spacing.deeper rest ++
      spacing.gap ++ ['\x7d'])

/-- The characters of the later items of a list. -/
def itemCharacters (spacing : Spacing) : List Json → List Char
  | [] => []
  | item :: rest =>
    ',' :: (spacing.gap ++ characters spacing item ++ itemCharacters spacing rest)

/-- The characters of the later fields of an object. -/
def fieldCharacters (spacing : Spacing) : List (String × Json) → List Char
  | [] => []
  | (name, value) :: rest =>
    ',' :: (spacing.gap ++ quote name ++ spacing.colon ++ characters spacing value ++
      fieldCharacters spacing rest)

end

/-- A value on one line. -/
def compress (value : Json) : String :=
  String.ofList (value.characters .compact)

/-- A value with one entry a line, indented by two spaces a level. -/
def pretty (value : Json) : String :=
  String.ofList (value.characters (.indented 0))

end Json

end NodeLink
