import NodeLink.Decimal.Shortest

/-! # Reading decimals

A decimal as a person types it: an optional sign, digits with an optional point among or
around them, and an optional exponent; or a word for infinity or for no number, in any letter
case.  `readDouble?` gives the nearest double, `readNatural?` a natural number below a bound,
which may carry a plus sign. -/

namespace NodeLink.Decimal

/-- The number that digit characters write. -/
def naturalOf (digits : List Char) : Nat :=
  digits.foldl (fun value c => 10 * value + (c.toNat - '0'.toNat)) 0

/-- An optional sign, whether it is a minus, and the characters after it. -/
def splitSign : List Char → Bool × List Char
  | '+' :: rest => (false, rest)
  | '-' :: rest => (true, rest)
  | rest => (false, rest)

/-- The exponent after the digits of a decimal: zero when nothing follows. -/
def readExponent? : List Char → Option Int
  | [] => some 0
  | mark :: rest =>
    if mark = 'e' || mark = 'E' then
      let (below, digits) := splitSign rest
      if digits.isEmpty || !digits.all Char.isDigit then none
      else
        let size : Int := naturalOf digits
        some (if below then -size else size)
    else none

/-- A decimal without its sign, as a coefficient and a power of ten. -/
def readDecimal? (input : List Char) : Option (Nat × Int) :=
  let whole := input.takeWhile Char.isDigit
  let (fraction, rest) :=
    match input.dropWhile Char.isDigit with
    | '.' :: rest => (rest.takeWhile Char.isDigit, rest.dropWhile Char.isDigit)
    | rest => ([], rest)
  if whole.isEmpty && fraction.isEmpty then none
  else
    (readExponent? rest).map fun exponent =>
      (naturalOf (whole ++ fraction), exponent - fraction.length)

/-- A word for a double that is no finite number. -/
def readWord? (negative : Bool) (input : List Char) : Option Float :=
  match String.ofList (input.map Char.toLower) with
  | "nan" => some (0 / 0)
  | "inf" | "infinity" => some (if negative then -(1 / 0) else 1 / 0)
  | _ => none

/-- The double nearest to a decimal. -/
def readDouble? (text : String) : Option Float :=
  let (negative, input) := splitSign text.toList
  match readDecimal? input with
  | some (coefficient, exponent) => some (nearest negative coefficient exponent)
  | none => readWord? negative input

/-- A natural number below a bound. -/
def readNatural? (bound : Nat) (text : String) : Option Nat :=
  let digits :=
    match text.toList with
    | '+' :: rest => rest
    | input => input
  if digits.isEmpty || !digits.all Char.isDigit then none
  else
    let value := naturalOf digits
    if value < bound then some value else none

end NodeLink.Decimal
