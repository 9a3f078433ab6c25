import NodeLink.Decimal.Shortest

/-! # Writing doubles

How the digits of a double are laid out.  A `Layout` gathers the decisions: from where on an
exponent is written, whether a whole number keeps a fraction, which way ties between digits
go.  `Layout.render` writes a finite double; what stands for the others is up to the caller. -/

namespace NodeLink.Decimal

/-- The decisions of a number format. -/
structure Layout where
  /-- The decimal exponents that are written without an exponent part; all if absent. -/
  plain : Option (Int × Int)
  /-- Whether a whole number in plain form ends in a fraction of zero. -/
  wholeFraction : Bool
  /-- Which of two equally near decimals is taken. -/
  tie : Tie

/-- Numbers in data: plain from `10 ^ -5` up to below `10 ^ 16`, always with a fraction there,
otherwise with a signed exponent. -/
def Layout.data : Layout := ⟨some (-5, 15), true, .toEven⟩

/-- Numbers in drawings: always plain, whole numbers without a fraction. -/
def Layout.drawing : Layout := ⟨none, false, .up⟩

/-- The decimal digits of a natural number. -/
def digitsOf (n : Nat) : List Char :=
  Nat.toDigits 10 n

/-- `coefficient · 10 ^ exponent` without an exponent part. -/
def plainText (layout : Layout) (digits : Digits) : List Char :=
  let written := digitsOf digits.coefficient
  if 0 ≤ digits.exponent then
    written ++ List.replicate digits.exponent.toNat '0' ++
      if layout.wholeFraction then ['.', '0'] else []
  else
    let places := digits.exponent.natAbs
    let padded := List.replicate (places + 1 - written.length) '0' ++ written
    padded.take (padded.length - places) ++ '.' :: padded.drop (padded.length - places)

/-- `coefficient · 10 ^ exponent` with one digit before the point and an exponent part. -/
def scientificText (digits : Digits) (exponent : Int) : List Char :=
  let mark := 'e' :: (if exponent < 0 then '-' else '+') :: digitsOf exponent.natAbs
  match digitsOf digits.coefficient with
  | first :: second :: more => first :: '.' :: second :: more ++ mark
  | short => short ++ mark

/-- A finite positive value `m · 2 ^ q` in a layout, or zero. -/
def Layout.magnitude (layout : Layout) (m : Nat) (q : Int) : List Char :=
  if m = 0 then plainText layout ⟨0, 0⟩
  else
    let digits := shortest layout.tie m q
    let exponent := digits.exponent + digitCount digits.coefficient - 1
    match layout.plain with
    | some (low, high) =>
      if low ≤ exponent ∧ exponent ≤ high then plainText layout digits
      else scientificText digits exponent
    | none => plainText layout digits

/-- A finite double in a layout, zero with its sign; absent for the other doubles. -/
def Layout.render? (layout : Layout) (x : Float) : Option String :=
  match Reading.of x with
  | .finite negative m q =>
    some (String.ofList ((if negative then ['-'] else []) ++ layout.magnitude m q))
  | _ => none

end NodeLink.Decimal
