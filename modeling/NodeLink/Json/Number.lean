/-! # Numbers in JSON texts

A number literal and its value.  Whole literals that fit sixty-four bits stay integers; every
other literal becomes a double: as many leading digits as fit a sixty-four-bit significand are
gathered, the significand is rounded to a double and scaled by a power of ten.  A literal
beyond the largest double has no value.  Minus zero is a double. -/

namespace NodeLink.Json

/-- A number as it is written: its sign, the digits before the point, those after it, and the
exponent with its sign. -/
structure NumberLiteral where
  negative : Bool
  whole : List Nat
  fraction : Option (List Nat) := none
  exponent : Option (Bool × List Nat) := none
  deriving DecidableEq, Repr, Inhabited

/-- The value of a number. -/
inductive Number where
  | natural (value : Nat)
  | negative (value : Int)
  | double (value : Float)

/-- The greatest significand. -/
def maxSignificand : Nat := Nat.pow 2 64 - 1

/-- The number that decimal digits write. -/
def digitsValue (digits : List Nat) : Nat :=
  digits.foldl (fun value digit => 10 * value + digit) 0

/-- Gathers digits while they fit the significand; the second result is the number of digits
left over. -/
def gatherDigits (significand : Nat) : List Nat → Nat × Nat
  | [] => (significand, 0)
  | digit :: rest =>
    if 10 * significand + digit ≤ maxSignificand then
      gatherDigits (10 * significand + digit) rest
    else (significand, rest.length + 1)

/-- A power of ten as a double. -/
def powerOfTen (exponent : Nat) : Float :=
  Float.ofScientific 1 false exponent

/-- Divides by a power of ten, in steps of at most `10 ^ 308`. -/
def scaleDown (value : Float) (exponent : Nat) : Float :=
  if exponent ≤ 308 then value / powerOfTen exponent
  else if value == 0 then value
  else scaleDown (value / powerOfTen 308) (exponent - 308)
termination_by exponent

/-- The double `significand · 10 ^ exponent`, absent beyond the largest double. -/
def scaled? (significand : Nat) (exponent : Int) : Option Float :=
  let value := Float.ofNat significand
  if exponent < 0 then some (scaleDown value exponent.natAbs)
  else if significand = 0 then some value
  else if exponent ≤ 308 then
    let product := value * powerOfTen exponent.toNat
    if product.isInf then none else some product
  else none

/-- The greatest exponent that is told apart from larger ones. -/
def maxExponent : Int := 2147483647

/-- Keeps a sum of exponents within thirty-two bits. -/
def clampExponent (exponent : Int) : Int :=
  max (-maxExponent - 1) (min maxExponent exponent)

/-- The size of a literal as a double, absent beyond the largest double. -/
def NumberLiteral.magnitude? (literal : NumberLiteral) : Option Float :=
  let (whole, dropped) := gatherDigits 0 literal.whole
  let fraction := literal.fraction.getD []
  let (significand, unread) := gatherDigits whole fraction
  let shift : Int := dropped - (fraction.length - unread : Nat)
  match literal.exponent with
  | none => scaled? significand shift
  | some (below, digits) =>
    let exponent : Int := digitsValue digits
    if maxExponent < exponent then
      if significand = 0 ∨ below then some 0 else none
    else scaled? significand (clampExponent (if below then shift - exponent else shift + exponent))

/-- The value of a literal, absent beyond the largest double. -/
def NumberLiteral.value? (literal : NumberLiteral) : Option Number :=
  let whole := digitsValue literal.whole
  if literal.fraction.isNone ∧ literal.exponent.isNone ∧ whole ≤ maxSignificand then
    if !literal.negative then some (.natural whole)
    else if whole = 0 ∨ Nat.pow 2 63 < whole then some (.double (-(Float.ofNat whole)))
    else some (.negative (-(whole : Int)))
  else
    literal.magnitude?.map fun value => .double (if literal.negative then -value else value)

/-- A number as a double, the nearest one for integers. -/
def Number.toFloat : Number → Float
  | .natural n => Float.ofNat n
  | .negative n => -(Float.ofNat n.natAbs)
  | .double value => value

end NodeLink.Json
