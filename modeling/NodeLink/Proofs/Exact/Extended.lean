import NodeLink.Proofs.Exact.Plane

/-! # Exact arithmetic with infinities

The real numbers as scalars once more, with two infinities and a value that is no number: a division
by zero has the value that it has for doubles.  A double has two zeros and exact arithmetic has one;
it counts as the positive one.  What is computed from real numbers is what exact arithmetic computes
from them, as long as nothing is divided by zero: distances, middles and lengths
(`Point.distance_extended`, `Point.midpoint_extended`, `Segment.lengthAtLeast_extended`), and the
feet of perpendiculars on a segment whose ends differ (`Point.projectOnto_extended`). -/

namespace NodeLink

/-- The real numbers, two infinities, and a value that is no number. -/
inductive Extended where
  | real (x : ℝ)
  | top
  | bottom
  | nan

namespace Extended

/-! ### The operations -/

/-- The infinity with the sign of a number.  Zero has none. -/
noncomputable def infinity (x : ℝ) : Extended :=
  if 0 < x then top else if x < 0 then bottom else nan

/-- Opposite infinities have no sum. -/
noncomputable def add : Extended → Extended → Extended
  | real x, real y => real (x + y)
  | top, bottom | bottom, top | nan, _ | _, nan => nan
  | top, _ | _, top => top
  | _, _ => bottom

noncomputable def neg : Extended → Extended
  | real x => real (-x)
  | top => bottom
  | bottom => top
  | nan => nan

/-- Zero and an infinity have no product. -/
noncomputable def mul : Extended → Extended → Extended
  | real x, real y => real (x * y)
  | real x, top | top, real x => infinity x
  | real x, bottom | bottom, real x => infinity (-x)
  | top, top | bottom, bottom => top
  | top, bottom | bottom, top => bottom
  | _, _ => nan

/-- A quotient by zero is an infinity, and zero has no quotient by zero. -/
noncomputable def div : Extended → Extended → Extended
  | real x, real y => if y = 0 then infinity x else real (x / y)
  | real _, top | real _, bottom => real 0
  | top, real y => if 0 ≤ y then top else bottom
  | bottom, real y => if 0 ≤ y then bottom else top
  | _, _ => nan

noncomputable def sqrt : Extended → Extended
  | real x => if x < 0 then nan else real (Real.sqrt x)
  | top => top
  | _ => nan

noncomputable def abs : Extended → Extended
  | real x => real |x|
  | top | bottom => top
  | nan => nan

noncomputable def log : Extended → Extended
  | real x => if x < 0 then nan else if x = 0 then bottom else real (Real.log x)
  | top => top
  | _ => nan

noncomputable def round : Extended → Extended
  | real x => real (roundAway x)
  | a => a

noncomputable def eq : Extended → Extended → Bool
  | real x, real y => decide (x = y)
  | top, top | bottom, bottom => true
  | _, _ => false

/-- What is no number is neither below nor above anything, itself included. -/
noncomputable def lt : Extended → Extended → Bool
  | real x, real y => decide (x < y)
  | real _, top | bottom, real _ | bottom, top => true
  | _, _ => false

noncomputable def toNat : Extended → ℕ
  | real x => Nat.min ⌊x⌋₊ (2 ^ 64 - 1)
  | top => 2 ^ 64 - 1
  | _ => 0

end Extended

/-- Exact arithmetic with infinities. -/
noncomputable instance Scalar.extended : Scalar Extended where
  toAdd := ⟨Extended.add⟩
  toSub := ⟨fun a b => a.add b.neg⟩
  toMul := ⟨Extended.mul⟩
  toDiv := ⟨Extended.div⟩
  toNeg := ⟨Extended.neg⟩
  ofNat n := .real n
  sqrt := Extended.sqrt
  abs := Extended.abs
  log := Extended.log
  round := Extended.round
  eq := Extended.eq
  lt := Extended.lt
  le a b := a.lt b || a.eq b
  isFinite a := match a with
    | .real _ => true
    | _ => false
  toNat := Extended.toNat

namespace Extended

/-! ### Operations on real numbers -/

section Real

variable (x y : ℝ)

theorem add_real : real x + real y = real (x + y) := rfl

theorem sub_real : real x - real y = real (x - y) := by
  rw [sub_eq_add_neg]
  rfl

theorem mul_real : real x * real y = real (x * y) := rfl

theorem div_real {y : ℝ} (hy : y ≠ 0) : real x / real y = real (x / y) := if_neg hy

theorem div_real_zero : real x / real 0 = infinity x := if_pos rfl

theorem ofNat_real (n : ℕ) : (Scalar.ofNat n : Extended) = real n := rfl

theorem zero_real : (Scalar.zero : Extended) = real 0 := congrArg real Nat.cast_zero

theorem one_real : (Scalar.one : Extended) = real 1 := congrArg real Nat.cast_one

theorem sqrt_real {x : ℝ} (hx : 0 ≤ x) : Scalar.sqrt (real x) = real (Real.sqrt x) :=
  if_neg hx.not_gt

theorem abs_real : Scalar.abs (real x) = real |x| := rfl

theorem lt_real : Scalar.lt (real x) (real y) = decide (x < y) := rfl

theorem le_real : Scalar.le (real x) (real y) = decide (x ≤ y) := by
  show (decide (x < y) || decide (x = y)) = decide (x ≤ y)
  rw [← Bool.decide_or]
  exact decide_eq_decide.mpr le_iff_lt_or_eq.symm

theorem max_real : Scalar.max (real x) (real y) = real (max x y) := by
  have heq : Scalar.eq (real x) (real x) = true := decide_eq_true rfl
  unfold Scalar.max
  rw [heq, le_real, Bool.not_true, Bool.false_or, max_def, apply_ite real]
  simp only [decide_eq_true_eq]

theorem min_real : Scalar.min (real x) (real y) = real (min x y) := by
  have heq : Scalar.eq (real x) (real x) = true := decide_eq_true rfl
  unfold Scalar.min
  rw [heq, le_real, Bool.not_true, Bool.false_or, min_comm, min_def, apply_ite real]
  simp only [decide_eq_true_eq]

end Real

/-! ### Operations on what is no real number -/

theorem max_nan (a : Extended) : Scalar.max nan a = a := rfl

theorem max_bottom (x : ℝ) : Scalar.max bottom (real x) = real x := rfl

theorem max_sub_infinity (x : ℝ) {y : ℝ} (hy : 0 ≤ y) :
    Scalar.max (real x - infinity y) (real 0) = real 0 := by
  unfold infinity
  rcases hy.eq_or_lt with rfl | hpos
  · rw [if_neg (lt_irrefl 0), if_neg (lt_irrefl 0)]
    exact max_nan (real 0)
  · rw [if_pos hpos]
    exact max_bottom 0

end Extended

/-! ### Values between bounds -/

/-- The value is a real number of the set. -/
def Extended.IsIn (s : Set ℝ) (a : Extended) : Prop := ∃ x ∈ s, a = .real x

/-- A set that shares of its numbers do not leave is not left by a product with a share. -/
theorem Extended.IsIn.mul {s : Set ℝ} (hs : ∀ x ∈ s, ∀ t ∈ Set.Icc (0 : ℝ) 1, x * t ∈ s)
    {a b : Extended} (ha : a.IsIn s) (hb : b.IsIn (Set.Icc 0 1)) : (a * b).IsIn s := by
  obtain ⟨x, hx, rfl⟩ := ha
  obtain ⟨t, ht, rfl⟩ := hb
  exact ⟨x * t, hs x hx t ht, rfl⟩

theorem Extended.isIn_real {s : Set ℝ} {x : ℝ} : (real x).IsIn s ↔ x ∈ s := by
  constructor
  · rintro ⟨y, hy, heq⟩
    rwa [Extended.real.inj heq]
  · exact fun h => ⟨x, h, rfl⟩

/-! ### The plane -/

/-- A vector with real coordinates. -/
def Vec.extended (v : Vec ℝ) : Vec Extended := ⟨.real v.x, .real v.y⟩

/-- A point with real coordinates. -/
def Point.extended (a : Point ℝ) : Point Extended := ⟨.real a.x, .real a.y⟩

/-- A segment between points with real coordinates. -/
def Segment.extended (segment : Segment ℝ) : Segment Extended :=
  ⟨segment.tail.extended, segment.head.extended⟩

open scoped Exact

section Plane

variable [DivisionByZero]

theorem Extended.ratio_real (num : ℕ) {den : ℕ} (hden : den ≠ 0) :
    (Scalar.ratio num den : Extended) = real (Scalar.ratio num den : ℝ) := by
  have hcast : (den : ℝ) ≠ 0 := Nat.cast_ne_zero.mpr hden
  unfold Scalar.ratio
  rw [ofNat_real, ofNat_real, div_real _ hcast, Scalar.ofNat_real, Scalar.ofNat_real,
    Scalar.div_real _ hcast]

namespace Vec

variable (v w : Vec ℝ)

theorem dot_extended : v.extended.dot w.extended = .real (v.dot w) := rfl

theorem normSquare_extended : v.extended.normSquare = .real v.normSquare := rfl

theorem norm_extended : v.extended.norm = .real v.norm :=
  Extended.sqrt_real (add_nonneg (mul_self_nonneg v.x) (mul_self_nonneg v.y))

theorem mul_extended (s : ℝ) : v.extended * Extended.real s = (v * s).extended := rfl

end Vec

namespace Point

variable (a b : Point ℝ)

theorem sub_extended : (a.extended - b.extended : Vec Extended) = (a - b : Vec ℝ).extended := by
  show (⟨Extended.real a.x - .real b.x, Extended.real a.y - .real b.y⟩ : Vec Extended) =
    ⟨.real (a.x - b.x), .real (a.y - b.y)⟩
  rw [Extended.sub_real, Extended.sub_real]

theorem add_extended (v : Vec ℝ) : a.extended + v.extended = (a + v).extended := rfl

theorem distance_extended : a.extended.distance b.extended = .real (a.distance b) := by
  unfold distance
  rw [sub_extended, Vec.norm_extended]

theorem midpoint_extended : a.extended.midpoint b.extended = (a.midpoint b).extended := by
  unfold midpoint
  rw [Extended.ratio_real 1 two_ne_zero]
  rfl

/-- The foot of a perpendicular on a segment whose ends differ. -/
theorem projectOnto_extended {segment : Segment ℝ} (h : segment.isDegenerate = false) :
    a.extended.projectOnto segment.extended = (a.projectOnto segment).extended := by
  have hne : (segment.head - segment.tail : Vec ℝ).normSquare ≠ 0 := Segment.normSquare_ne_zero h
  dsimp only [projectOnto, Segment.extended]
  rw [sub_extended, sub_extended, Vec.dot_extended, Vec.normSquare_extended,
    Extended.div_real _ hne, Scalar.div_real _ hne, Vec.mul_extended, add_extended]

end Point

namespace Segment

variable (segment : Segment ℝ)

theorem vector_extended : segment.extended.vector = segment.vector.extended :=
  Point.sub_extended segment.head segment.tail

theorem midpoint_extended : segment.extended.midpoint = segment.midpoint.extended :=
  Point.midpoint_extended segment.tail segment.head

theorem lengthAtLeast_extended (tolerance : ℝ) :
    segment.extended.lengthAtLeast (.real tolerance) =
      .real (segment.lengthAtLeast tolerance) := by
  have hlt (x y : ℝ) : Scalar.lt (Scalar.abs (Extended.real x - .real y)) (.real tolerance) =
      Scalar.lt (Scalar.abs (x - y)) tolerance := by
    rw [Extended.sub_real, Extended.abs_real, Extended.lt_real, Scalar.abs_real, Scalar.lt_real]
  dsimp only [lengthAtLeast, extended, Point.extended]
  rw [hlt, hlt, apply_ite Extended.real, ← Point.distance_extended]
  rfl

end Segment

end Plane

end NodeLink
