/-! # Scalars

The numbers that geometry computes with.  `Scalar` asks for the operations alone and for no
law about them, so that one definition of each computation runs on doubles and can be read
over any ordered field with square roots.  `max`, `min` and `clamp` pass over an operand that
is not equal to itself; on doubles `round` takes halves away from zero and keeps the sign of
zero. -/

namespace NodeLink

/-- The operations of a number type. -/
class Scalar (α : Type) extends Add α, Sub α, Mul α, Div α, Neg α where
  /-- A natural number. -/
  ofNat : Nat → α
  /-- The square root. -/
  sqrt : α → α
  /-- The absolute value. -/
  abs : α → α
  /-- The natural logarithm. -/
  log : α → α
  /-- The nearest whole number, halves away from zero. -/
  round : α → α
  /-- Equality as the numbers compare. -/
  eq : α → α → Bool
  /-- The strict order. -/
  lt : α → α → Bool
  /-- The order. -/
  le : α → α → Bool
  /-- Whether a value is a finite number. -/
  isFinite : α → Bool
  /-- The whole part of a number that is not negative, within sixty-four bits. -/
  toNat : α → Nat

namespace Scalar

variable {α : Type} [Scalar α]

/-- Zero. -/
@[inline] def zero : α := ofNat 0

/-- One. -/
@[inline] def one : α := ofNat 1

/-- A fraction of natural numbers. -/
@[inline] def ratio (num den : Nat) : α := ofNat num / ofNat den

/-- The greater of two values, the second one if neither is; a value that differs from itself
gives way to the other. -/
@[inline] def max (a b : α) : α :=
  if !(eq a a) || le a b then b else a

/-- The smaller of two values, the second one if neither is; a value that differs from itself
gives way to the other. -/
@[inline] def min (a b : α) : α :=
  if !(eq a a) || le b a then b else a

/-- The nearest value between two limits. -/
@[inline] def clamp (x low high : α) : α :=
  let x := if lt x low then low else x
  if lt high x then high else x

end Scalar

/-! ### Doubles -/

/-- The nearest whole double, halves away from zero.  Doubles from `2 ^ 52` on are whole, and
below that the whole part is exact. -/
def roundHalfAway (x : Float) : Float :=
  let size := x.abs
  if size < 4503599627370496 then
    let whole := size.toUInt64.toFloat
    let rounded := if size - whole < 0.5 then whole else whole + 1
    if x.toBits >>> 63 = 0 then rounded else -rounded
  else x

@[always_inline]
instance : Scalar Float where
  ofNat n := Float.ofNat n
  sqrt := Float.sqrt
  abs := Float.abs
  log := Float.log
  round := roundHalfAway
  eq a b := a == b
  lt a b := decide (a < b)
  le a b := decide (a ≤ b)
  isFinite := Float.isFinite
  toNat x := x.toUInt64.toNat

end NodeLink
