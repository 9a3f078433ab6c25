import NodeLink.Proofs.Bundling.Independence
import NodeLink.Proofs.Exact.Extended

/-! # What the measures of compatibility lie between

Where both coordinates of an edge are below the tolerance, the tolerance counts as its length,
although the edge may be longer than that, by a factor of less than the root of two.  Scale,
position and visibility are between zero and one nevertheless; the angle, and with it the score, is
so for edges that are not cut short, and is below two in general (`bounded_of_ends_ne`).  With a
projection of no length visibility divides by zero: the quotient is an infinity, or no number if
there is no offset either, and in both cases nothing is seen (`visibilityFrom_isIn`). -/

namespace NodeLink

open scoped Exact

/-- What counts as the length of the segment is not less than its length. -/
def Segment.KeepsLength {α : Type} [Scalar α] (segment : Segment α) (tolerance : α) : Prop :=
  Scalar.le (segment.tail.distance segment.head) (segment.lengthAtLeast tolerance) = true

section Exact

variable [DivisionByZero]

/-! ### Lengths -/

namespace Segment

variable {segment : Segment ℝ}

theorem norm_vector (segment : Segment ℝ) :
    segment.vector.norm = segment.tail.distance segment.head := Point.distance_comm _ _

theorem abs_dot_vector_le (p q : Segment ℝ) :
    |p.vector.dot q.vector| ≤ p.tail.distance p.head * q.tail.distance q.head := by
  rw [← norm_vector, ← norm_vector]
  exact Vec.abs_dot_le _ _

theorem keepsLength_iff {tolerance : ℝ} :
    segment.KeepsLength tolerance ↔
      segment.tail.distance segment.head ≤ segment.lengthAtLeast tolerance := by
  unfold KeepsLength
  rw [Scalar.le_real, decide_eq_true_eq]

/-- A segment is cut short if both its coordinates are below the tolerance and its length is not. -/
theorem keepsLength_iff_of_coordinates {tolerance : ℝ} :
    segment.KeepsLength tolerance ↔ tolerance ≤ |segment.tail.x - segment.head.x| ∨
      tolerance ≤ |segment.tail.y - segment.head.y| ∨
        segment.tail.distance segment.head ≤ tolerance := by
  rw [keepsLength_iff, lengthAtLeast_eq]
  split_ifs with hclose
  · rw [or_iff_right hclose.1.not_ge, or_iff_right hclose.2.not_ge]
  · rw [not_and_or, not_lt, not_lt] at hclose
    exact iff_of_true le_rfl (hclose.imp_right Or.inl)

theorem keepsLength_extended {tolerance : ℝ} :
    segment.extended.KeepsLength (.real tolerance) ↔ segment.KeepsLength tolerance := by
  unfold KeepsLength
  rw [lengthAtLeast_extended]
  dsimp only [extended]
  rw [Point.distance_extended, Extended.le_real, Scalar.le_real]

/-- A segment is longer than what counts as its length by less than the diagonal of a square is
longer than its side. -/
theorem distance_lt (h : segment.isDegenerate = false) (tolerance : ℝ) :
    segment.tail.distance segment.head < Real.sqrt 2 * segment.lengthAtLeast tolerance := by
  have hpos := lengthAtLeast_pos h tolerance
  have hroot : 1 < Real.sqrt 2 := Real.lt_sqrt_of_sq_lt (by norm_num)
  rw [lengthAtLeast_eq] at hpos ⊢
  split_ifs at hpos ⊢ with hclose
  · rw [← abs_of_pos hpos, ← sq_lt_sq, ← sq_lt_sq] at hclose
    rw [Point.distance_eq, Real.sqrt_lt' (by positivity), mul_pow, Real.sq_sqrt zero_le_two]
    linarith
  · exact lt_mul_of_one_lt_left hpos hroot

end Segment

namespace Compatibility

/-! ### Bounds in exact arithmetic -/

section Bounds

variable {p q : Segment ℝ} (hp : p.isDegenerate = false) (hq : q.isDegenerate = false)
  (tolerance : ℝ)

include hp hq

theorem angle_eq : angle p q tolerance =
    |p.vector.dot q.vector| / (p.lengthAtLeast tolerance * q.lengthAtLeast tolerance) := by
  have hpos := mul_pos (Segment.lengthAtLeast_pos hp tolerance)
    (Segment.lengthAtLeast_pos hq tolerance)
  dsimp only [angle]
  rw [Scalar.div_real _ hpos.ne', Scalar.abs_real, abs_div, abs_of_pos hpos]

theorem angle_mem_Ico : angle p q tolerance ∈ Set.Ico 0 2 := by
  have hp₀ := Segment.lengthAtLeast_pos hp tolerance
  have hq₀ := Segment.lengthAtLeast_pos hq tolerance
  rw [angle_eq hp hq]
  refine ⟨by positivity, ?_⟩
  rw [div_lt_iff₀ (mul_pos hp₀ hq₀)]
  calc |p.vector.dot q.vector|
      ≤ p.tail.distance p.head * q.tail.distance q.head := Segment.abs_dot_vector_le p q
    _ < Real.sqrt 2 * p.lengthAtLeast tolerance * (Real.sqrt 2 * q.lengthAtLeast tolerance) :=
        mul_lt_mul'' (Segment.distance_lt hp tolerance) (Segment.distance_lt hq tolerance)
          (Point.distance_nonneg _ _) (Point.distance_nonneg _ _)
    _ = 2 * (p.lengthAtLeast tolerance * q.lengthAtLeast tolerance) := by
        rw [mul_mul_mul_comm, Real.mul_self_sqrt zero_le_two]

theorem angle_le_one (hp' : p.KeepsLength tolerance) (hq' : q.KeepsLength tolerance) :
    angle p q tolerance ≤ 1 := by
  have hp₀ := Segment.lengthAtLeast_pos hp tolerance
  have hq₀ := Segment.lengthAtLeast_pos hq tolerance
  rw [angle_eq hp hq, div_le_one (mul_pos hp₀ hq₀)]
  calc |p.vector.dot q.vector|
      ≤ p.tail.distance p.head * q.tail.distance q.head := Segment.abs_dot_vector_le p q
    _ ≤ p.lengthAtLeast tolerance * q.lengthAtLeast tolerance :=
        mul_le_mul (Segment.keepsLength_iff.mp hp') (Segment.keepsLength_iff.mp hq')
          (Point.distance_nonneg _ _) hp₀.le

theorem average_mem :
    0 < min (p.lengthAtLeast tolerance) (q.lengthAtLeast tolerance) ∧
      (p.lengthAtLeast tolerance + q.lengthAtLeast tolerance) / 2 ∈
        Set.Icc (min (p.lengthAtLeast tolerance) (q.lengthAtLeast tolerance))
          (max (p.lengthAtLeast tolerance) (q.lengthAtLeast tolerance)) := by
  refine ⟨lt_min (Segment.lengthAtLeast_pos hp tolerance) (Segment.lengthAtLeast_pos hq tolerance),
    ?_, ?_⟩
  · linarith [min_le_left (p.lengthAtLeast tolerance) (q.lengthAtLeast tolerance),
      min_le_right (p.lengthAtLeast tolerance) (q.lengthAtLeast tolerance)]
  · linarith [le_max_left (p.lengthAtLeast tolerance) (q.lengthAtLeast tolerance),
      le_max_right (p.lengthAtLeast tolerance) (q.lengthAtLeast tolerance)]

omit hq in
/-- An edge is at most as much like itself as can be if and only if it is not cut short. -/
theorem angle_self_le_one_iff : angle p p tolerance ≤ 1 ↔ p.KeepsLength tolerance := by
  have hpos := Segment.lengthAtLeast_pos hp tolerance
  rw [angle_self hp, div_le_one (mul_pos hpos hpos), Segment.keepsLength_iff,
    mul_self_le_mul_self_iff (Point.distance_nonneg _ _) hpos.le]

theorem scale_eq : scale p q tolerance =
    2 / ((p.lengthAtLeast tolerance + q.lengthAtLeast tolerance) / 2 /
        min (p.lengthAtLeast tolerance) (q.lengthAtLeast tolerance) +
      max (p.lengthAtLeast tolerance) (q.lengthAtLeast tolerance) /
        ((p.lengthAtLeast tolerance + q.lengthAtLeast tolerance) / 2)) := by
  obtain ⟨hmin, hlow, hhigh⟩ := average_mem hp hq tolerance
  have haverage := hmin.trans_le hlow
  have hmax := haverage.trans_le hhigh
  dsimp only [scale]
  rw [half_eq, Scalar.min_real, Scalar.max_real, Scalar.div_real _ hmin.ne',
    Scalar.div_real _ haverage.ne', Scalar.ofNat_real, Scalar.div_real _ (by positivity),
    Nat.cast_ofNat]

theorem scale_mem_Icc : scale p q tolerance ∈ Set.Icc 0 1 := by
  obtain ⟨hmin, hlow, hhigh⟩ := average_mem hp hq tolerance
  have haverage := hmin.trans_le hlow
  have hfirst := (one_le_div hmin).mpr hlow
  have hsecond := (one_le_div haverage).mpr hhigh
  rw [scale_eq hp hq]
  exact ⟨div_nonneg zero_le_two (by linarith), (div_le_one (by linarith)).mpr (by linarith)⟩

theorem position_eq : position p q tolerance =
    (p.lengthAtLeast tolerance + q.lengthAtLeast tolerance) / 2 /
      ((p.lengthAtLeast tolerance + q.lengthAtLeast tolerance) / 2 +
        p.midpoint.distance q.midpoint) := by
  obtain ⟨hmin, hlow, -⟩ := average_mem hp hq tolerance
  have hdistance := Point.distance_nonneg p.midpoint q.midpoint
  dsimp only [position]
  rw [half_eq, Scalar.div_real _ (by linarith)]

theorem position_mem_Icc : position p q tolerance ∈ Set.Icc 0 1 := by
  obtain ⟨hmin, hlow, -⟩ := average_mem hp hq tolerance
  have haverage := hmin.trans_le hlow
  have hdistance := Point.distance_nonneg p.midpoint q.midpoint
  rw [position_eq hp hq]
  exact ⟨by positivity, (div_le_one (by positivity)).mpr (le_add_of_nonneg_right hdistance)⟩

end Bounds

/-! ### With infinities -/

section Extended

variable {p q : Segment ℝ} (hp : p.isDegenerate = false) (hq : q.isDegenerate = false)
  (tolerance : ℝ)

section Measures

include hp hq

theorem angle_extended :
    angle p.extended q.extended (.real tolerance) = .real (angle p q tolerance) := by
  have hne : p.lengthAtLeast tolerance * q.lengthAtLeast tolerance ≠ 0 :=
    (mul_pos (Segment.lengthAtLeast_pos hp tolerance) (Segment.lengthAtLeast_pos hq tolerance)).ne'
  dsimp only [angle]
  rw [Segment.lengthAtLeast_extended, Segment.lengthAtLeast_extended, Segment.vector_extended,
    Segment.vector_extended, Vec.dot_extended, Extended.mul_real, Extended.div_real _ hne,
    Scalar.div_real _ hne]
  rfl

theorem scale_extended :
    scale p.extended q.extended (.real tolerance) = .real (scale p q tolerance) := by
  obtain ⟨hmin, hlow, hhigh⟩ := average_mem hp hq tolerance
  have haverage := hmin.trans_le hlow
  have hmax := haverage.trans_le hhigh
  rw [scale_eq hp hq]
  dsimp only [scale]
  rw [Segment.lengthAtLeast_extended, Segment.lengthAtLeast_extended, Extended.ofNat_real,
    Nat.cast_ofNat, Extended.add_real, Extended.div_real _ two_ne_zero, Extended.min_real,
    Extended.max_real, Extended.div_real _ hmin.ne', Extended.div_real _ haverage.ne',
    Extended.add_real, Extended.div_real _ (by positivity)]

theorem position_extended :
    position p.extended q.extended (.real tolerance) = .real (position p q tolerance) := by
  obtain ⟨hmin, hlow, -⟩ := average_mem hp hq tolerance
  have hdistance := Point.distance_nonneg p.midpoint q.midpoint
  rw [position_eq hp hq]
  dsimp only [position]
  rw [Segment.lengthAtLeast_extended, Segment.lengthAtLeast_extended, Segment.midpoint_extended,
    Segment.midpoint_extended, Point.distance_extended, Extended.ofNat_real, Nat.cast_ofNat,
    Extended.add_real, Extended.div_real _ two_ne_zero, Extended.add_real,
    Extended.div_real _ (by linarith)]

end Measures

section Visibility

include hp

/-- The visibility of an edge as a quotient of lengths that may both be zero. -/
theorem visibilityFrom_extended (q : Segment ℝ) :
    visibilityFrom p.extended q.extended = Scalar.max (.real 1 -
      .real (2 * p.midpoint.distance ((q.tail.projectOnto p).midpoint (q.head.projectOnto p))) /
        .real ((q.tail.projectOnto p).distance (q.head.projectOnto p))) (.real 0) := by
  have htail : q.extended.tail.projectOnto p.extended = (q.tail.projectOnto p).extended :=
    Point.projectOnto_extended q.tail hp
  have hhead : q.extended.head.projectOnto p.extended = (q.head.projectOnto p).extended :=
    Point.projectOnto_extended q.head hp
  dsimp only [visibilityFrom]
  rw [htail, hhead, Segment.midpoint_extended, Point.midpoint_extended, Point.distance_extended,
    Point.distance_extended, Extended.ofNat_real, Extended.mul_real, Extended.one_real,
    Extended.zero_real, Nat.cast_ofNat]

/-- What is seen of an edge is a part of it.  Where its projection has no length, the quotient is an
infinity or no number, and nothing is seen. -/
theorem visibilityFrom_isIn (q : Segment ℝ) :
    (visibilityFrom p.extended q.extended).IsIn (Set.Icc 0 1) := by
  have hoffset := Point.distance_nonneg p.midpoint
    ((q.tail.projectOnto p).midpoint (q.head.projectOnto p))
  have hlength := Point.distance_nonneg (q.tail.projectOnto p) (q.head.projectOnto p)
  rw [visibilityFrom_extended hp]
  rcases hlength.eq_or_lt with hzero | hpos
  · rw [← hzero, Extended.div_real_zero, Extended.max_sub_infinity 1 (by positivity),
      Extended.isIn_real]
    exact Set.left_mem_Icc.mpr zero_le_one
  · rw [Extended.div_real _ hpos.ne', Extended.sub_real, Extended.max_real, Extended.isIn_real]
    exact ⟨le_max_right _ _, max_le (sub_le_self 1 (by positivity)) zero_le_one⟩

theorem visibility_self_extended : visibility p.extended p.extended = .real 1 := by
  have hoffset : p.midpoint.distance (p.tail.midpoint p.head) = 0 :=
    Point.distance_eq_zero_iff.mpr rfl
  unfold visibility
  rw [visibilityFrom_extended hp, tail_projectOnto hp, head_projectOnto hp, hoffset,
    Extended.div_real _ (distance_ne_zero hp), Extended.sub_real, Extended.max_real,
    Extended.min_real, min_self, mul_zero, zero_div, sub_zero, max_eq_left zero_le_one]

theorem score_self_extended :
    score p.extended p.extended (.real tolerance) = .real (angle p p tolerance) := by
  unfold score
  rw [angle_extended hp hp, scale_extended hp hp, position_extended hp hp,
    visibility_self_extended hp, scale_self hp, position_self hp, Extended.mul_real,
    Extended.mul_real, Extended.mul_real, mul_one, mul_one, mul_one]

end Visibility

include hp hq

theorem visibility_isIn : (visibility p.extended q.extended).IsIn (Set.Icc 0 1) := by
  obtain ⟨x, hx, hfrom⟩ := visibilityFrom_isIn hp q
  obtain ⟨y, hy, hback⟩ := visibilityFrom_isIn hq p
  unfold visibility
  rw [hfrom, hback, Extended.min_real, Extended.isIn_real]
  exact ⟨le_min hx.1 hy.1, (min_le_left x y).trans hx.2⟩

theorem score_isIn {s : Set ℝ} (hs : ∀ x ∈ s, ∀ t ∈ Set.Icc (0 : ℝ) 1, x * t ∈ s)
    (hangle : angle p q tolerance ∈ s) :
    (score p.extended q.extended (.real tolerance)).IsIn s := by
  unfold score
  rw [angle_extended hp hq, scale_extended hp hq, position_extended hp hq]
  exact (((Extended.isIn_real.mpr hangle).mul hs
    (Extended.isIn_real.mpr (scale_mem_Icc hp hq tolerance))).mul hs
    (Extended.isIn_real.mpr (position_mem_Icc hp hq tolerance))).mul hs (visibility_isIn hp hq)

end Extended

end Compatibility

end Exact

namespace Compatibility

open Bundling (strand across)

/-! ### The measures of two edges -/

/-- What the measures of two edges lie between. -/
structure Bounded (p q : Segment Extended) (tolerance : Extended) : Prop where
  scale : (scale p q tolerance).IsIn (Set.Icc 0 1)
  position : (position p q tolerance).IsIn (Set.Icc 0 1)
  visibility : (visibility p q).IsIn (Set.Icc 0 1)
  angle : (angle p q tolerance).IsIn (Set.Ico 0 2)
  score : (score p q tolerance).IsIn (Set.Ico 0 2)
  /-- If no edge is cut short, the angle and the score are like the other measures. -/
  unit : p.KeepsLength tolerance → q.KeepsLength tolerance →
    (Compatibility.angle p q tolerance).IsIn (Set.Icc 0 1) ∧
      (Compatibility.score p q tolerance).IsIn (Set.Icc 0 1)
  /-- An edge that is cut short scores more than that against itself. -/
  sharp : (Compatibility.score p p tolerance).IsIn (Set.Icc 0 1) ↔ p.KeepsLength tolerance

/-- **Scale, position and visibility are between zero and one**, and so are the angle and the score
of edges that are not cut short; in general these are below two. -/
theorem bounded_of_ends_ne {p q : Segment ℝ} (hp : p.tail ≠ p.head) (hq : q.tail ≠ q.head)
    (tolerance : ℝ) : Bounded p.extended q.extended (.real tolerance) := by
  let := DivisionByZero.zero
  have hp' := Segment.isDegenerate_eq_false_iff.mpr hp
  have hq' := Segment.isDegenerate_eq_false_iff.mpr hq
  have hangle := angle_mem_Ico hp' hq' tolerance
  refine ⟨?_, ?_, visibility_isIn hp' hq', ?_, ?_, fun hshort hshort' => ?_, ?_⟩
  · rw [scale_extended hp' hq', Extended.isIn_real]
    exact scale_mem_Icc hp' hq' tolerance
  · rw [position_extended hp' hq', Extended.isIn_real]
    exact position_mem_Icc hp' hq' tolerance
  · rw [angle_extended hp' hq', Extended.isIn_real]
    exact hangle
  · exact score_isIn hp' hq' tolerance (fun x hx t ht => ⟨mul_nonneg hx.1 ht.1,
      (mul_le_of_le_one_right hx.1 ht.2).trans_lt hx.2⟩) hangle
  · have hone : Compatibility.angle p q tolerance ∈ Set.Icc 0 1 :=
      ⟨hangle.1, angle_le_one hp' hq' tolerance (Segment.keepsLength_extended.mp hshort)
        (Segment.keepsLength_extended.mp hshort')⟩
    refine ⟨?_, score_isIn hp' hq' tolerance (fun x hx t ht => ⟨mul_nonneg hx.1 ht.1,
      mul_le_one₀ hx.2 ht.1 ht.2⟩) hone⟩
    rw [angle_extended hp' hq', Extended.isIn_real]
    exact hone
  · have hself := angle_mem_Ico hp' hp' tolerance
    rw [score_self_extended hp', Extended.isIn_real, Segment.keepsLength_extended,
      ← angle_self_le_one_iff hp']
    exact ⟨fun h => h.2, fun h => ⟨hself.1, h⟩⟩

/-- Edges at a right angle, one of which ends in the middle of the other one. -/
theorem bounded_across : strand.tail ≠ strand.head ∧ across.tail ≠ across.head ∧
    strand.extended.KeepsLength (.real (1 / 1000000)) ∧
    across.extended.KeepsLength (.real (1 / 1000000)) ∧
    Bounded strand.extended across.extended (.real (1 / 1000000)) := by
  let := DivisionByZero.zero
  have hstrand := Segment.isDegenerate_eq_false_iff.mp Bundling.strand_isDegenerate
  have hacross := Segment.isDegenerate_eq_false_iff.mp Bundling.across_isDegenerate
  refine ⟨hstrand, hacross, ?_, ?_, bounded_of_ends_ne hstrand hacross (1 / 1000000)⟩
  · rw [Segment.keepsLength_extended, Segment.keepsLength_iff_of_coordinates]
    norm_num [strand]
  · rw [Segment.keepsLength_extended, Segment.keepsLength_iff_of_coordinates]
    norm_num [across]

/-- An edge along the diagonal of a square. -/
noncomputable def diagonal : Segment ℝ := ⟨⟨0, 0⟩, ⟨(3 : ℕ) / (4 : ℕ), (3 : ℕ) / (4 : ℕ)⟩⟩

/-- The sides of the square are below the tolerance, and its diagonal is not: the angle of the edge
with itself is not between zero and one, and its score is not. -/
theorem diagonal_not_unit : diagonal.tail ≠ diagonal.head ∧ (0 : ℝ) < 1 ∧
    angle diagonal.extended diagonal.extended (.real 1) = .real (9 / 8) ∧
    score diagonal.extended diagonal.extended (.real 1) = .real (9 / 8) ∧
    ¬ (angle diagonal.extended diagonal.extended (.real 1)).IsIn (Set.Icc 0 1) ∧
    ¬ (score diagonal.extended diagonal.extended (.real 1)).IsIn (Set.Icc 0 1) := by
  let := DivisionByZero.zero
  have hends : diagonal.tail ≠ diagonal.head := fun h => by
    have := congrArg Point.x h
    norm_num [diagonal] at this
  have hkept := Segment.isDegenerate_eq_false_iff.mpr hends
  have hlength : diagonal.lengthAtLeast 1 = 1 := by
    rw [Segment.lengthAtLeast_eq, if_pos]
    norm_num [diagonal, abs_of_pos]
  have hdot : diagonal.vector.dot diagonal.vector = 9 / 8 := by
    show (((3 : ℕ) : ℝ) / (4 : ℕ) - 0) * ((3 : ℕ) / (4 : ℕ) - 0) +
      ((3 : ℕ) / (4 : ℕ) - 0) * ((3 : ℕ) / (4 : ℕ) - 0) = 9 / 8
    norm_num
  have hangle : angle diagonal diagonal 1 = 9 / 8 := by
    rw [angle_eq hkept hkept, hlength, hdot]
    norm_num
  have hout : (9 / 8 : ℝ) ∉ Set.Icc 0 1 := fun h => absurd h.2 (by norm_num)
  rw [angle_extended hkept hkept, score_self_extended hkept, hangle, Extended.isIn_real]
  exact ⟨hends, zero_lt_one, rfl, rfl, hout, hout⟩

end Compatibility

end NodeLink
