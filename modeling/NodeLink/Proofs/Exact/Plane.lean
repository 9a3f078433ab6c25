import NodeLink.Proofs.Exact.Scalar
import NodeLink.Proofs.Bundling.Exchange

/-! # The plane in exact arithmetic

Sums of vectors do not depend on their order, distances are symmetric and vanish between equal
points only, and what is measured about a segment does not depend on which of its ends comes first:
its length, its middle, and the feet of perpendiculars on its line (`Point.projectOnto_reverse`). -/

namespace NodeLink

open scoped Exact

/-- A segment with its ends exchanged. -/
def Segment.reverse {α : Type} (segment : Segment α) : Segment α := ⟨segment.head, segment.tail⟩

variable [DivisionByZero]

instance Scalar.commutes_real : Scalar.Commutes ℝ where
  add_comm := add_comm
  mul_comm := mul_comm
  sub_mul_self_comm a b := by ring
  min_comm _ _ := by rw [Scalar.min_real, Scalar.min_real, min_comm]
  max_comm _ _ := by rw [Scalar.max_real, Scalar.max_real, max_comm]
  abs_norm v := abs_of_nonneg (Real.sqrt_nonneg _)
  abs_eq_of_lt {a b} h := abs_of_nonneg ((abs_nonneg a).trans (of_decide_eq_true h).le)
  abs_max_zero a := by
    rw [Scalar.max_real, Scalar.zero_real, Scalar.abs_real, abs_of_nonneg (le_max_right a 0)]

/-! ### Vectors -/

namespace Vec

theorem add_comm_real (a b : Vec ℝ) : a + b = b + a := by
  show (⟨a.x + b.x, a.y + b.y⟩ : Vec ℝ) = ⟨b.x + a.x, b.y + a.y⟩
  rw [add_comm a.x, add_comm a.y]

theorem add_right_comm_real (a b c : Vec ℝ) : a + b + c = a + c + b := by
  show (⟨a.x + b.x + c.x, a.y + b.y + c.y⟩ : Vec ℝ) = ⟨a.x + c.x + b.x, a.y + c.y + b.y⟩
  rw [add_right_comm a.x, add_right_comm a.y]

theorem add_zero_real (a : Vec ℝ) : a + (zero : Vec ℝ) = a := by
  show (⟨a.x + Scalar.zero, a.y + Scalar.zero⟩ : Vec ℝ) = a
  rw [Scalar.zero_real, add_zero, add_zero]

theorem zero_mul_real (s : ℝ) : (zero : Vec ℝ) * s = zero := by
  show (⟨Scalar.zero * s, Scalar.zero * s⟩ : Vec ℝ) = ⟨Scalar.zero, Scalar.zero⟩
  rw [Scalar.zero_real, zero_mul]

theorem abs_dot_le (a b : Vec ℝ) : |a.dot b| ≤ a.norm * b.norm := by
  have hsquare : a.dot b ^ 2 ≤ a.normSquare * b.normSquare := by
    show (a.x * b.x + a.y * b.y) ^ 2 ≤ (a.x * a.x + a.y * a.y) * (b.x * b.x + b.y * b.y)
    linarith [sq_nonneg (a.x * b.y - a.y * b.x)]
  have hnonneg : 0 ≤ a.normSquare := add_nonneg (mul_self_nonneg a.x) (mul_self_nonneg a.y)
  show |a.dot b| ≤ Real.sqrt a.normSquare * Real.sqrt b.normSquare
  rw [← Real.sqrt_mul hnonneg]
  exact Real.abs_le_sqrt hsquare

end Vec

/-! ### Points -/

namespace Point

theorem add_zero_real (a : Point ℝ) : a + (Vec.zero : Vec ℝ) = a := by
  show (⟨a.x + Scalar.zero, a.y + Scalar.zero⟩ : Point ℝ) = a
  rw [Scalar.zero_real, add_zero, add_zero]

theorem distance_eq (a b : Point ℝ) :
    a.distance b = Real.sqrt ((a.x - b.x) * (a.x - b.x) + (a.y - b.y) * (a.y - b.y)) := rfl

theorem distance_nonneg (a b : Point ℝ) : 0 ≤ a.distance b := Real.sqrt_nonneg _

theorem distance_eq_zero_iff {a b : Point ℝ} : a.distance b = 0 ↔ a = b := by
  have hx := mul_self_nonneg (a.x - b.x)
  have hy := mul_self_nonneg (a.y - b.y)
  rw [distance_eq, Real.sqrt_eq_zero (add_nonneg hx hy), add_eq_zero_iff_of_nonneg hx hy,
    mul_self_eq_zero, mul_self_eq_zero, sub_eq_zero, sub_eq_zero]
  cases a
  cases b
  rw [Point.mk.injEq]

theorem distance_eq_dist (a b : Point ℝ) : a.distance b = dist (⟨a.x, a.y⟩ : ℂ) ⟨b.x, b.y⟩ := by
  rw [Complex.dist_mk, distance_eq, sq, sq]

theorem distance_triangle (a b c : Point ℝ) : a.distance c ≤ a.distance b + b.distance c := by
  rw [distance_eq_dist, distance_eq_dist, distance_eq_dist]
  exact dist_triangle _ _ _

theorem distance_of_level {a b : Point ℝ} (h : a.y = b.y) : a.distance b = |a.x - b.x| := by
  rw [distance_eq, h, sub_self, mul_zero, add_zero, Real.sqrt_mul_self_eq_abs]

theorem midpoint_comm (a b : Point ℝ) : a.midpoint b = b.midpoint a := by
  unfold midpoint
  rw [add_comm a.x, add_comm a.y]

theorem lerp_eq (a b : Point ℝ) (t : ℝ) :
    a.lerp b t = ⟨a.x + t * (b.x - a.x), a.y + t * (b.y - a.y)⟩ := rfl

theorem lerp_zero (a b : Point ℝ) : a.lerp b 0 = a := by
  rw [lerp_eq, zero_mul, zero_mul, add_zero, add_zero]

theorem lerp_one (a b : Point ℝ) : a.lerp b 1 = b := by
  rw [lerp_eq, one_mul, one_mul, add_sub_cancel, add_sub_cancel]

theorem lerp_self (a : Point ℝ) (t : ℝ) : a.lerp a t = a := by
  rw [lerp_eq, sub_self, sub_self, mul_zero, add_zero, add_zero]

theorem lerp_reverse (a b : Point ℝ) (t : ℝ) : b.lerp a (1 - t) = a.lerp b t := by
  rw [lerp_eq, lerp_eq, Point.mk.injEq]
  constructor <;> ring

theorem add_mul_eq_lerp (a b : Point ℝ) (t : ℝ) : a + (b - a : Vec ℝ) * t = a.lerp b t := by
  rw [lerp_eq, mul_comm t, mul_comm t]
  rfl

theorem same_iff {a b : Point ℝ} : a.same b = true ↔ a = b := by
  unfold same
  rw [Bool.and_eq_true, Scalar.eq_real, Scalar.eq_real, decide_eq_true_eq, decide_eq_true_eq]
  cases a
  cases b
  rw [Point.mk.injEq]

end Point

/-! ### Segments -/

namespace Segment

theorem isDegenerate_iff {segment : Segment ℝ} :
    segment.isDegenerate = true ↔ segment.tail = segment.head := Point.same_iff

theorem isDegenerate_eq_false_iff {segment : Segment ℝ} :
    segment.isDegenerate = false ↔ segment.tail ≠ segment.head := by
  rw [Bool.eq_false_iff, Ne, isDegenerate_iff]

theorem isDegenerate_reverse (segment : Segment ℝ) :
    segment.reverse.isDegenerate = segment.isDegenerate := by
  rw [Bool.eq_iff_iff, isDegenerate_iff, isDegenerate_iff]
  exact eq_comm

theorem midpoint_reverse (segment : Segment ℝ) : segment.reverse.midpoint = segment.midpoint :=
  Point.midpoint_comm _ _

theorem lengthAtLeast_reverse (segment : Segment ℝ) (tolerance : ℝ) :
    segment.reverse.lengthAtLeast tolerance = segment.lengthAtLeast tolerance := by
  unfold lengthAtLeast reverse
  rw [Point.distance_comm segment.head, Scalar.abs_real, Scalar.abs_real, Scalar.abs_real,
    Scalar.abs_real, abs_sub_comm segment.head.x, abs_sub_comm segment.head.y]

theorem lengthAtLeast_eq (segment : Segment ℝ) (tolerance : ℝ) :
    segment.lengthAtLeast tolerance =
      if |segment.tail.x - segment.head.x| < tolerance ∧
          |segment.tail.y - segment.head.y| < tolerance then tolerance
      else segment.tail.distance segment.head := by
  unfold lengthAtLeast
  rw [Scalar.lt_real, Scalar.lt_real, ← Bool.decide_and]
  simp only [decide_eq_true_eq, Scalar.abs_real]

theorem lengthAtLeast_pos {segment : Segment ℝ} (h : segment.isDegenerate = false)
    (tolerance : ℝ) : 0 < segment.lengthAtLeast tolerance := by
  have hends := isDegenerate_eq_false_iff.mp h
  rw [lengthAtLeast_eq]
  split_ifs with hclose
  · -- what is greater than an absolute value is greater than zero
    exact (abs_nonneg _).trans_lt hclose.1
  · exact (Point.distance_nonneg _ _).lt_of_ne' fun hzero =>
      hends (Point.distance_eq_zero_iff.mp hzero)

end Segment

namespace Segment

theorem normSquare_eq (segment : Segment ℝ) :
    segment.vector.normSquare =
      (segment.head.x - segment.tail.x) * (segment.head.x - segment.tail.x) +
        (segment.head.y - segment.tail.y) * (segment.head.y - segment.tail.y) := rfl

theorem normSquare_ne_zero {segment : Segment ℝ} (h : segment.isDegenerate = false) :
    segment.vector.normSquare ≠ 0 := by
  intro hzero
  have hdistance : segment.head.distance segment.tail = 0 := by
    rw [Point.distance_eq, ← normSquare_eq, hzero, Real.sqrt_zero]
  exact isDegenerate_eq_false_iff.mp h (Point.distance_eq_zero_iff.mp hdistance).symm

end Segment

namespace Point

theorem projectOnto_eq (a : Point ℝ) {segment : Segment ℝ} (h : segment.isDegenerate = false) :
    a.projectOnto segment = segment.tail.lerp segment.head
      (((a.x - segment.tail.x) * (segment.head.x - segment.tail.x) +
        (a.y - segment.tail.y) * (segment.head.y - segment.tail.y)) /
          segment.vector.normSquare) := by
  have hne : (segment.head - segment.tail : Vec ℝ).normSquare ≠ 0 := Segment.normSquare_ne_zero h
  dsimp only [projectOnto]
  rw [Scalar.div_real _ hne, add_mul_eq_lerp]
  rfl

/-- The foot of a perpendicular does not depend on which end of the segment comes first. -/
theorem projectOnto_reverse (a : Point ℝ) {segment : Segment ℝ}
    (h : segment.isDegenerate = false) :
    a.projectOnto segment.reverse = a.projectOnto segment := by
  have hreverse : segment.reverse.isDegenerate = false := by rw [Segment.isDegenerate_reverse, h]
  have hne := Segment.normSquare_ne_zero h
  have hnorm : segment.reverse.vector.normSquare = segment.vector.normSquare := by
    rw [Segment.normSquare_eq, Segment.normSquare_eq]
    unfold Segment.reverse
    ring
  rw [projectOnto_eq a h, projectOnto_eq a hreverse, hnorm, ← lerp_reverse segment.tail]
  unfold Segment.reverse
  congr 1
  rw [eq_sub_iff_add_eq, ← add_div, div_eq_one_iff_eq hne, Segment.normSquare_eq]
  ring

end Point

end NodeLink
