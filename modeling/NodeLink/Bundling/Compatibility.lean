import NodeLink.Geometry.Plane

/-! # Compatibility of edges

Four measures of how alike two straight edges are: in direction, in length, in position, and
in how much of each is seen from the other.  Their product is the score that decides whether
the edges attract each other. -/

namespace NodeLink.Compatibility

variable {α : Type} [Scalar α]

/-- The cosine of the angle between two edges, without its sign. -/
@[specialize] def angle (p q : Segment α) (tolerance : α) : α :=
  let lengths := p.lengthAtLeast tolerance * q.lengthAtLeast tolerance
  Scalar.abs (p.vector.dot q.vector / lengths)

/-- How alike the lengths of two edges are; one for equal lengths. -/
@[specialize] def scale (p q : Segment α) (tolerance : α) : α :=
  let pLength := p.lengthAtLeast tolerance
  let qLength := q.lengthAtLeast tolerance
  let average := (pLength + qLength) / Scalar.ofNat 2
  Scalar.ofNat 2 /
    (average / Scalar.min pLength qLength + Scalar.max pLength qLength / average)

/-- How close two edges lie, against their average length. -/
@[specialize] def position (p q : Segment α) (tolerance : α) : α :=
  let pLength := p.lengthAtLeast tolerance
  let qLength := q.lengthAtLeast tolerance
  let average := (pLength + qLength) / Scalar.ofNat 2
  average / (average + p.midpoint.distance q.midpoint)

/-- How much of `q` is seen from `p`, at least zero.  Where the projection of `q` has no
length this is zero. -/
@[specialize] def visibilityFrom (p q : Segment α) : α :=
  let tail := q.tail.projectOnto p
  let head := q.head.projectOnto p
  let offset := p.midpoint.distance (tail.midpoint head)
  Scalar.max (Scalar.one - Scalar.ofNat 2 * offset / tail.distance head) Scalar.zero

/-- The smaller of the two visibilities of a pair of edges. -/
@[specialize] def visibility (p q : Segment α) : α :=
  Scalar.min (visibilityFrom p q) (visibilityFrom q p)

/-- The product of the four measures. -/
@[specialize] def score (p q : Segment α) (tolerance : α) : α :=
  angle p q tolerance * scale p q tolerance * position p q tolerance * visibility p q

end NodeLink.Compatibility
