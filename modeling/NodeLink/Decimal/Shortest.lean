/-! # Doubles and their shortest decimals

The value of a double, read off its bits: a sign, a natural mantissa and a power of two, or
one of the values that are no number.  `nearest` goes the other way: the double nearest to a
decimal `coefficient · 10 ^ exponent`, ties to even.

The shortest decimal still identifies a double.  The reals that round to a double
`m · 2 ^ q` form an interval around it, ends included when `m` is even; `shortest` looks for
the coarsest power of ten on whose grid one of the two neighbours of the value lies in that
interval, and takes the nearer one. -/

namespace NodeLink.Decimal

/-! ### Doubles as numbers -/

/-- What a double stands for. -/
inductive Reading where
  | notANumber
  | infinite (negative : Bool)
  | finite (negative : Bool) (mantissa : Nat) (exponent : Int)
  deriving DecidableEq, Repr, Inhabited

/-- Reads the bits of a double: one of sign, eleven of exponent, fifty-two of fraction. -/
def Reading.ofBits (bits : UInt64) : Reading :=
  let word := bits.toNat
  let negative := word / Nat.pow 2 63 = 1
  let exponent : Nat := word / Nat.pow 2 52 % Nat.pow 2 11
  let fraction : Nat := word % Nat.pow 2 52
  if exponent = 2047 then
    if fraction = 0 then .infinite negative else .notANumber
  else if exponent = 0 then .finite negative fraction (-1074)
  else .finite negative (Nat.pow 2 52 + fraction) ((exponent : Int) - 1075)

/-- What a double stands for. -/
def Reading.of (x : Float) : Reading :=
  Reading.ofBits x.toBits

/-- The number of decimal digits of a natural number, at least one. -/
def digitCount (n : Nat) : Nat :=
  (Nat.toDigits 10 n).length

/-- The double nearest to `coefficient · 10 ^ exponent`, an infinity when that is out of
range.  Decimals beyond the range on either side are settled by their digit count alone. -/
def nearest (negative : Bool) (coefficient : Nat) (exponent : Int) : Float :=
  let magnitude : Float :=
    if coefficient = 0 then 0
    else if 400 < exponent + (digitCount coefficient : Int) then 1 / 0
    else if exponent + (digitCount coefficient : Int) < -400 then 0
    else if exponent < 0 then Float.ofScientific coefficient true exponent.natAbs
    else Float.ofScientific coefficient false exponent.toNat
  if negative then -magnitude else magnitude

/-! ### Fewest digits -/

/-- A decimal `coefficient · 10 ^ exponent`. -/
structure Digits where
  coefficient : Nat
  exponent : Int
  deriving DecidableEq, Repr, Inhabited

/-- Which of two equally near decimals is taken. -/
inductive Tie where
  | toEven
  | up
  deriving DecidableEq, Repr, Inhabited

/-- A ratio of naturals. -/
structure Ratio where
  num : Nat
  den : Nat

/-- `n · base ^ exponent`. -/
def Ratio.scaled (n base : Nat) (exponent : Int) : Ratio :=
  if exponent < 0 then ⟨n, Nat.pow base exponent.natAbs⟩ else ⟨n * Nat.pow base exponent.toNat, 1⟩

/-- The quotient of two ratios. -/
def Ratio.div (a b : Ratio) : Ratio :=
  ⟨a.num * b.den, a.den * b.num⟩

/-- The order of ratios with positive denominators. -/
def Ratio.le (a b : Ratio) : Bool :=
  a.num * b.den ≤ b.num * a.den

/-- The strict order of ratios with positive denominators. -/
def Ratio.lt (a b : Ratio) : Bool :=
  a.num * b.den < b.num * a.den

/-- The interval of reals that round to a double. -/
structure RoundingInterval where
  low : Ratio
  high : Ratio
  inclusive : Bool

/-- The interval around `m · 2 ^ q`: half a unit up, and half a unit down, or a quarter where
the doubles below are twice as dense. -/
def RoundingInterval.around (m : Nat) (q : Int) : RoundingInterval where
  low := Ratio.scaled (if m = Nat.pow 2 52 ∧ q > -1074 then 4 * m - 1 else 4 * m - 2) 2 (q - 2)
  high := Ratio.scaled (4 * m + 2) 2 (q - 2)
  inclusive := m % 2 = 0

/-- Whether a ratio rounds to the double of the interval. -/
def RoundingInterval.contains (interval : RoundingInterval) (x : Ratio) : Bool :=
  if interval.inclusive then interval.low.le x && x.le interval.high
  else interval.low.lt x && x.lt interval.high

/-- The least `k` with `value < 10 ^ k`. -/
def scale (value : Ratio) : Int :=
  if value.den ≤ value.num then digitCount (value.num / value.den)
  else
    let zeros := (List.range 400).find? (fun j => value.den ≤ value.num * Nat.pow 10 (j + 1))
    Int.neg (zeros.getD 400)

/-- The neighbour of `value` on the grid `10 ^ exponent` that lies in the interval, the nearer
one if both do. -/
def onGrid? (tie : Tie) (interval : RoundingInterval) (value : Ratio) (exponent : Int) :
    Option Digits :=
  let quotient := value.div (Ratio.scaled 1 10 exponent)
  let below := quotient.num / quotient.den
  let rest := quotient.num % quotient.den
  let fits (n : Nat) := interval.contains (Ratio.scaled n 10 exponent)
  let upper : Bool :=
    if 2 * rest = quotient.den then
      match tie with
      | .up => true
      | .toEven => below % 2 = 1
    else quotient.den < 2 * rest
  match fits below, fits (below + 1) with
  | true, true => some ⟨if upper then below + 1 else below, exponent⟩
  | true, false => some ⟨below, exponent⟩
  | false, true => some ⟨below + 1, exponent⟩
  | false, false => none

/-- Moves trailing zeros of the coefficient into the exponent. -/
def Digits.trim (digits : Digits) : Digits :=
  go (digitCount digits.coefficient) digits
where
  go : Nat → Digits → Digits
    | 0, digits => digits
    | fuel + 1, digits =>
      if digits.coefficient ≠ 0 ∧ digits.coefficient % 10 = 0 then
        go fuel ⟨digits.coefficient / 10, digits.exponent + 1⟩
      else digits

/-- The fewest digits that identify the double `m · 2 ^ q`, for positive `m`.  Should seventeen
not be enough, the exact value stands in. -/
def shortest (tie : Tie) (m : Nat) (q : Int) : Digits :=
  let value := Ratio.scaled m 2 q
  let interval := RoundingInterval.around m q
  let k := scale value
  let found := (List.range 17).findSome? fun n => onGrid? tie interval value (k - (n + 1 : Nat))
  (found.getD (if q < 0 then ⟨m * Nat.pow 5 q.natAbs, q⟩ else ⟨m * Nat.pow 2 q.toNat, 0⟩)).trim

end NodeLink.Decimal
