import NodeLink.Bundling.Compatibility

/-! # Edges exchanged

Some laws hold of real numbers and of doubles alike, however a result is rounded
(`Scalar.Commutes`): sums and products do not depend on the order of their operands, and a
difference has the same square the other way around.  The smaller and the greater of two values
commute as long as none of them has a sign, that is, as long as both are their own magnitudes; of
two zeros with different signs the second one is taken.  Lengths have no sign, nor has a tolerance
where it counts as a length (`Segment.abs_lengthAtLeast`).

So two edges score each other alike (`score_comm`), whatever a division by zero yields, and it does
not matter which of them was declared first.  What an edge sees of another one is not what the other
one sees of it, but the smaller of the two is taken. -/

namespace NodeLink

/-- Numbers on which operations commute that treat their operands alike. -/
class Scalar.Commutes (α : Type) [Scalar α] : Prop where
  add_comm (a b : α) : a + b = b + a
  mul_comm (a b : α) : a * b = b * a
  /-- A difference has the same square the other way around. -/
  sub_mul_self_comm (a b : α) : (a - b) * (a - b) = (b - a) * (b - a)
  /-- The smaller of two magnitudes. -/
  min_comm {a b : α} (ha : abs a = a) (hb : abs b = b) : min a b = min b a
  /-- The greater of two magnitudes. -/
  max_comm {a b : α} (ha : abs a = a) (hb : abs b = b) : max a b = max b a
  /-- A length is its own magnitude. -/
  abs_norm (v : Vec α) : abs v.norm = v.norm
  /-- What a magnitude is below is its own magnitude. -/
  abs_eq_of_lt {a b : α} (h : lt (abs a) b = true) : abs b = b
  /-- What is at least zero is its own magnitude. -/
  abs_max_zero (a : α) : abs (max a zero) = max a zero

open Scalar (Commutes)

variable {α : Type} [Scalar α] [Commutes α]

theorem Vec.dot_comm (a b : Vec α) : a.dot b = b.dot a := by
  unfold dot
  rw [Commutes.mul_comm a.x, Commutes.mul_comm a.y]

theorem Point.distance_comm (a b : Point α) : a.distance b = b.distance a := by
  show Scalar.sqrt ((a.x - b.x) * (a.x - b.x) + (a.y - b.y) * (a.y - b.y)) =
    Scalar.sqrt ((b.x - a.x) * (b.x - a.x) + (b.y - a.y) * (b.y - a.y))
  rw [Commutes.sub_mul_self_comm a.x, Commutes.sub_mul_self_comm a.y]

/-- What counts as the length of a segment is its own magnitude, be it the length or the
tolerance. -/
theorem Segment.abs_lengthAtLeast (segment : Segment α) (tolerance : α) :
    Scalar.abs (segment.lengthAtLeast tolerance) = segment.lengthAtLeast tolerance := by
  unfold lengthAtLeast
  split
  · next h =>
    exact Commutes.abs_eq_of_lt (Bool.and_eq_true_iff.mp h).1
  · exact Commutes.abs_norm _

end NodeLink

namespace NodeLink.Compatibility

open Scalar (Commutes)

variable {α : Type} [Scalar α] [Commutes α]

theorem angle_comm (p q : Segment α) (tolerance : α) :
    angle p q tolerance = angle q p tolerance := by
  dsimp only [angle]
  rw [Vec.dot_comm, Commutes.mul_comm (p.lengthAtLeast tolerance)]

theorem scale_comm (p q : Segment α) (tolerance : α) :
    scale p q tolerance = scale q p tolerance := by
  have hp := p.abs_lengthAtLeast tolerance
  have hq := q.abs_lengthAtLeast tolerance
  dsimp only [scale]
  rw [Commutes.add_comm (p.lengthAtLeast tolerance), Commutes.min_comm hp hq,
    Commutes.max_comm hp hq]

theorem position_comm (p q : Segment α) (tolerance : α) :
    position p q tolerance = position q p tolerance := by
  dsimp only [position]
  rw [Commutes.add_comm (p.lengthAtLeast tolerance), Point.distance_comm]

theorem visibility_comm (p q : Segment α) : visibility p q = visibility q p :=
  Commutes.min_comm (Commutes.abs_max_zero _) (Commutes.abs_max_zero _)

/-- Two edges score each other alike. -/
theorem score_comm (p q : Segment α) (tolerance : α) :
    score p q tolerance = score q p tolerance := by
  unfold score
  rw [angle_comm, scale_comm, position_comm, visibility_comm]

end NodeLink.Compatibility
