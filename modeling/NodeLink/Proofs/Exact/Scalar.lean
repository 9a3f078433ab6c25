import NodeLink.Geometry.Scalar
import Mathlib

/-! # Exact arithmetic

The real numbers as scalars.  Every operation is the one of the real numbers, except that a
division by zero has whatever value is chosen for it: `DivisionByZero` is that choice, made once for
each dividend, and what is proved for all choices depends on none of them.  On the real numbers the
order is total and every number equals itself, so `max`, `min` and `clamp` are the usual ones, and
rounding is monotone and leaves integers alone (`roundAway_mono`, `roundAway_intCast`). -/

namespace NodeLink

/-- What a division by zero yields, for each dividend. -/
class DivisionByZero where
  quotient : ℝ → ℝ

/-- Every division by zero yields zero. -/
@[reducible] def DivisionByZero.zero : DivisionByZero := ⟨fun _ => 0⟩

/-- The nearest integer, halves away from zero. -/
noncomputable def roundAway (x : ℝ) : ℤ :=
  if 0 ≤ x then ⌊x + 1 / (2 : ℕ)⌋ else ⌈x - 1 / (2 : ℕ)⌉

theorem roundAway_eq (x : ℝ) :
    roundAway x = if 0 ≤ x then ⌊x + 1 / 2⌋ else ⌈x - 1 / 2⌉ := rfl

/-- Exact arithmetic. -/
noncomputable instance Scalar.real [DivisionByZero] : Scalar ℝ where
  toAdd := inferInstance
  toSub := inferInstance
  toMul := inferInstance
  toNeg := inferInstance
  toDiv := ⟨fun a b => if b = 0 then DivisionByZero.quotient a else a / b⟩
  ofNat n := n
  sqrt := Real.sqrt
  abs x := |x|
  log := Real.log
  round x := roundAway x
  eq a b := decide (a = b)
  lt a b := decide (a < b)
  le a b := decide (a ≤ b)
  isFinite _ := true
  toNat x := Nat.min ⌊x⌋₊ (2 ^ 64 - 1)

namespace Exact

-- what is written between real numbers is to be the operation of the real numbers
attribute [scoped instance (low)] Scalar.toAdd Scalar.toSub Scalar.toMul Scalar.toDiv Scalar.toNeg

end Exact

open scoped Exact

/-! ### Rounding -/

/-- An integer is its own nearest integer. -/
theorem roundAway_intCast (n : ℤ) : roundAway n = n := by
  rw [roundAway_eq]
  split_ifs with h
  · rw [Int.floor_eq_iff]
    constructor <;> linarith
  · rw [Int.ceil_eq_iff]
    constructor <;> linarith

/-- Rounding keeps the order. -/
theorem roundAway_mono {x y : ℝ} (h : x ≤ y) : roundAway x ≤ roundAway y := by
  rw [roundAway_eq, roundAway_eq]
  split_ifs with hx hy hy
  · exact Int.floor_le_floor (by linarith)
  · exact absurd (hx.trans h) hy
  · -- what lies below zero is rounded to zero at most, and what does not to zero at least
    have hbelow : ⌈x - 1 / 2⌉ ≤ 0 := Int.ceil_le.mpr (by push_cast; linarith)
    have habove : 0 ≤ ⌊y + 1 / 2⌋ := Int.floor_nonneg.mpr (by linarith)
    exact hbelow.trans habove
  · exact Int.ceil_le_ceil (by linarith)

theorem roundAway_mem {x : ℝ} {low high : ℤ} (hlow : low ≤ x) (hhigh : x ≤ high) :
    low ≤ roundAway x ∧ roundAway x ≤ high := by
  have h₁ := roundAway_mono hlow
  have h₂ := roundAway_mono hhigh
  rw [roundAway_intCast] at h₁ h₂
  exact ⟨h₁, h₂⟩

/-! ### The operations -/

namespace Scalar

variable [DivisionByZero]

@[simp] theorem ofNat_real (n : ℕ) : (ofNat n : ℝ) = n := rfl

@[simp] theorem zero_real : (zero : ℝ) = 0 := Nat.cast_zero

@[simp] theorem one_real : (one : ℝ) = 1 := Nat.cast_one

@[simp] theorem sqrt_real (x : ℝ) : sqrt x = Real.sqrt x := rfl

@[simp] theorem abs_real (x : ℝ) : abs x = |x| := rfl

@[simp] theorem round_real (x : ℝ) : round x = roundAway x := rfl

@[simp] theorem eq_real (a b : ℝ) : eq a b = decide (a = b) := rfl

@[simp] theorem lt_real (a b : ℝ) : lt a b = decide (a < b) := rfl

@[simp] theorem le_real (a b : ℝ) : le a b = decide (a ≤ b) := rfl

@[simp] theorem isFinite_real (x : ℝ) : isFinite x = true := rfl

theorem div_real (a : ℝ) {b : ℝ} (hb : b ≠ 0) :
    @HDiv.hDiv ℝ ℝ ℝ (@instHDiv ℝ Scalar.toDiv) a b = a / b := if_neg hb

@[simp] theorem max_real (a b : ℝ) : Scalar.max a b = Max.max a b := by
  unfold Scalar.max
  rcases le_total a b with h | h
  · simp [h]
  · rcases h.eq_or_lt with rfl | hlt
    · simp
    · simp [h, hlt]

@[simp] theorem min_real (a b : ℝ) : Scalar.min a b = Min.min a b := by
  unfold Scalar.min
  rcases le_total b a with h | h
  · simp [h]
  · rcases h.eq_or_lt with rfl | hlt
    · simp
    · simp [h, hlt]

theorem clamp_real {x low high : ℝ} (hlow : low ≤ x) (hhigh : x ≤ high) :
    clamp x low high = x := by
  simp [clamp, hlow.not_gt, hhigh.not_gt]

end Scalar

end NodeLink
