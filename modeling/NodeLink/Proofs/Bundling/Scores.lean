import NodeLink.Proofs.Bundling.Exchange
import NodeLink.Proofs.Exact.Plane

/-! # Scores in exact arithmetic

Which end of an edge comes first does not matter to its scores, as long as its ends differ
(`score_reverse`).  An edge scores one against itself and zero against an edge at a right angle to
it. -/

namespace NodeLink.Compatibility

open scoped Exact

variable [DivisionByZero]

/-! ### Either end first -/

section Reverse

variable {p : Segment ℝ}

theorem angle_reverse {q : Segment ℝ} (hp : p.isDegenerate = false) (hq : q.isDegenerate = false)
    (tolerance : ℝ) : angle p.reverse q tolerance = angle p q tolerance := by
  have hne : p.lengthAtLeast tolerance * q.lengthAtLeast tolerance ≠ 0 :=
    (mul_pos (Segment.lengthAtLeast_pos hp tolerance) (Segment.lengthAtLeast_pos hq tolerance)).ne'
  have hdot : p.reverse.vector.dot q.vector = -(p.vector.dot q.vector) := by
    show (p.tail.x - p.head.x) * q.vector.x + (p.tail.y - p.head.y) * q.vector.y =
      -((p.head.x - p.tail.x) * q.vector.x + (p.head.y - p.tail.y) * q.vector.y)
    ring
  dsimp only [angle]
  rw [Segment.lengthAtLeast_reverse, Scalar.div_real _ hne, Scalar.div_real _ hne, hdot, neg_div,
    Scalar.abs_real, Scalar.abs_real, abs_neg]

theorem scale_reverse (q : Segment ℝ) (tolerance : ℝ) :
    scale p.reverse q tolerance = scale p q tolerance := by
  unfold scale
  rw [Segment.lengthAtLeast_reverse]

theorem position_reverse (q : Segment ℝ) (tolerance : ℝ) :
    position p.reverse q tolerance = position p q tolerance := by
  unfold position
  rw [Segment.lengthAtLeast_reverse, Segment.midpoint_reverse]

theorem visibilityFrom_reverse_left (hp : p.isDegenerate = false) (q : Segment ℝ) :
    visibilityFrom p.reverse q = visibilityFrom p q := by
  unfold visibilityFrom
  rw [Point.projectOnto_reverse _ hp, Point.projectOnto_reverse _ hp, Segment.midpoint_reverse]

theorem visibilityFrom_reverse_right (q : Segment ℝ) :
    visibilityFrom q p.reverse = visibilityFrom q p := by
  dsimp only [visibilityFrom, Segment.reverse]
  rw [Point.midpoint_comm (p.head.projectOnto q), Point.distance_comm (p.head.projectOnto q)]

/-- Which end of an edge comes first does not matter to its scores. -/
theorem score_reverse {q : Segment ℝ} (hp : p.isDegenerate = false) (hq : q.isDegenerate = false)
    (tolerance : ℝ) : score p.reverse q tolerance = score p q tolerance := by
  unfold score visibility
  rw [angle_reverse hp hq, scale_reverse, position_reverse, visibilityFrom_reverse_left hp,
    visibilityFrom_reverse_right]

end Reverse

/-! ### Extreme scores -/

section Extremes

variable {p q : Segment ℝ}

theorem score_of_perpendicular (hp : p.isDegenerate = false) (hq : q.isDegenerate = false)
    (h : p.vector.dot q.vector = 0) (tolerance : ℝ) : score p q tolerance = 0 := by
  have hne : p.lengthAtLeast tolerance * q.lengthAtLeast tolerance ≠ 0 :=
    (mul_pos (Segment.lengthAtLeast_pos hp tolerance) (Segment.lengthAtLeast_pos hq tolerance)).ne'
  have hangle : angle p q tolerance = 0 := by
    dsimp only [angle]
    rw [Scalar.div_real _ hne, h, zero_div, Scalar.abs_real, abs_zero]
  unfold score
  rw [hangle, zero_mul, zero_mul, zero_mul]

theorem tail_projectOnto (hp : p.isDegenerate = false) : p.tail.projectOnto p = p.tail := by
  rw [Point.projectOnto_eq _ hp, sub_self, sub_self, zero_mul, zero_mul, add_zero, zero_div,
    Point.lerp_zero]

theorem head_projectOnto (hp : p.isDegenerate = false) : p.head.projectOnto p = p.head := by
  rw [Point.projectOnto_eq _ hp, ← Segment.normSquare_eq, div_self (Segment.normSquare_ne_zero hp),
    Point.lerp_one]

theorem distance_ne_zero (hp : p.isDegenerate = false) : p.tail.distance p.head ≠ 0 :=
  fun hzero => Segment.isDegenerate_eq_false_iff.mp hp (Point.distance_eq_zero_iff.mp hzero)

theorem visibilityFrom_self (hp : p.isDegenerate = false) : visibilityFrom p p = 1 := by
  have hoffset : p.midpoint.distance (p.tail.midpoint p.head) = 0 :=
    Point.distance_eq_zero_iff.mpr rfl
  dsimp only [visibilityFrom]
  rw [tail_projectOnto hp, head_projectOnto hp, hoffset, Scalar.div_real _ (distance_ne_zero hp),
    mul_zero, zero_div, Scalar.one_real, sub_zero, Scalar.max_real, Scalar.zero_real,
    max_eq_left zero_le_one]

theorem visibility_self (hp : p.isDegenerate = false) : visibility p p = 1 := by
  unfold visibility
  rw [visibilityFrom_self hp, Scalar.min_real, min_self]

theorem half_eq (x : ℝ) :
    @HDiv.hDiv ℝ ℝ ℝ (@instHDiv ℝ Scalar.toDiv) x (Scalar.ofNat 2) = x / 2 := by
  rw [Scalar.ofNat_real, Scalar.div_real _ (Nat.cast_ne_zero.mpr two_ne_zero), Nat.cast_ofNat]

theorem scale_self (hp : p.isDegenerate = false) (tolerance : ℝ) : scale p p tolerance = 1 := by
  have hpos := Segment.lengthAtLeast_pos hp tolerance
  dsimp only [scale]
  rw [half_eq, add_self_div_two, Scalar.min_real, Scalar.max_real, min_self, max_self,
    Scalar.div_real _ hpos.ne', div_self hpos.ne', Scalar.ofNat_real, Scalar.div_real]
  all_goals norm_num

theorem position_self (hp : p.isDegenerate = false) (tolerance : ℝ) :
    position p p tolerance = 1 := by
  have hpos := Segment.lengthAtLeast_pos hp tolerance
  have hzero : p.midpoint.distance p.midpoint = 0 := Point.distance_eq_zero_iff.mpr rfl
  dsimp only [position]
  rw [half_eq, add_self_div_two, hzero, add_zero, Scalar.div_real _ hpos.ne', div_self hpos.ne']

/-- The angle of an edge with itself is off by what its length is off. -/
theorem angle_self (hp : p.isDegenerate = false) (tolerance : ℝ) :
    angle p p tolerance = p.tail.distance p.head * p.tail.distance p.head /
      (p.lengthAtLeast tolerance * p.lengthAtLeast tolerance) := by
  have hpos := Segment.lengthAtLeast_pos hp tolerance
  have hdot : p.vector.dot p.vector = p.tail.distance p.head * p.tail.distance p.head := by
    rw [Point.distance_comm, Point.distance_eq]
    exact (Real.mul_self_sqrt (add_nonneg (mul_self_nonneg _) (mul_self_nonneg _))).symm
  dsimp only [angle]
  rw [hdot, Scalar.div_real _ (mul_pos hpos hpos).ne', Scalar.abs_real,
    abs_of_nonneg (div_nonneg (mul_self_nonneg _) (mul_self_nonneg _))]

theorem score_self_eq (hp : p.isDegenerate = false) (tolerance : ℝ) :
    score p p tolerance = angle p p tolerance := by
  unfold score
  rw [scale_self hp, position_self hp, visibility_self hp, mul_one, mul_one, mul_one]

/-- An edge that is longer than the tolerance is as much like itself as can be. -/
theorem score_self (hp : p.isDegenerate = false) {tolerance : ℝ}
    (hlength : p.lengthAtLeast tolerance = p.tail.distance p.head) : score p p tolerance = 1 := by
  have hpos := Segment.lengthAtLeast_pos hp tolerance
  rw [score_self_eq hp, angle_self hp, ← hlength, div_self (mul_pos hpos hpos).ne']

end Extremes

end NodeLink.Compatibility
