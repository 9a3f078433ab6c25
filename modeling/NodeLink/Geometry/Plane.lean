import NodeLink.Geometry.Scalar

/-! # Points and vectors of the plane

Points, the vectors between them, and segments.  Division of a vector multiplies by the
reciprocal, and lengths are square roots of sums of squares, so that the order of the
operations is the same wherever a length is taken. -/

namespace NodeLink

/-- A point of the plane. -/
structure Point (α : Type) where
  x : α
  y : α
  deriving DecidableEq, Repr, Inhabited

/-- A vector of the plane. -/
structure Vec (α : Type) where
  x : α
  y : α
  deriving DecidableEq, Repr, Inhabited

/-- A directed straight segment. -/
structure Segment (α : Type) where
  tail : Point α
  head : Point α
  deriving DecidableEq, Repr, Inhabited

variable {α : Type} [Scalar α]

/-! ### Vectors -/

namespace Vec

/-- The vector of no length. -/
@[inline] def zero : Vec α := ⟨Scalar.zero, Scalar.zero⟩

@[always_inline] instance : Add (Vec α) := ⟨fun a b => ⟨a.x + b.x, a.y + b.y⟩⟩

@[always_inline] instance : Sub (Vec α) := ⟨fun a b => ⟨a.x - b.x, a.y - b.y⟩⟩

@[always_inline] instance : HMul (Vec α) α (Vec α) := ⟨fun a s => ⟨a.x * s, a.y * s⟩⟩

@[always_inline] instance : HDiv (Vec α) α (Vec α) := ⟨fun a s => a * (Scalar.one / s)⟩

/-- The dot product. -/
@[inline] def dot (a b : Vec α) : α := a.x * b.x + a.y * b.y

/-- The square of the length. -/
@[inline] def normSquare (a : Vec α) : α := a.x * a.x + a.y * a.y

/-- The length. -/
@[inline] def norm (a : Vec α) : α := Scalar.sqrt a.normSquare

end Vec

/-! ### Points -/

namespace Point

/-- The point with both coordinates zero. -/
@[inline] def origin : Point α := ⟨Scalar.zero, Scalar.zero⟩

@[always_inline] instance : HSub (Point α) (Point α) (Vec α) :=
  ⟨fun a b => ⟨a.x - b.x, a.y - b.y⟩⟩

@[always_inline] instance : HAdd (Point α) (Vec α) (Point α) :=
  ⟨fun a v => ⟨a.x + v.x, a.y + v.y⟩⟩

/-- The distance of two points. -/
@[inline] def distance (a b : Point α) : α := Vec.norm (a - b)

/-- The point halfway between two points. -/
@[inline] def midpoint (a b : Point α) : Point α :=
  ⟨Scalar.ratio 1 2 * (a.x + b.x), Scalar.ratio 1 2 * (a.y + b.y)⟩

/-- The point at a share `t` of the way from `a` to `b`. -/
@[inline] def lerp (a b : Point α) (t : α) : Point α :=
  ⟨a.x + t * (b.x - a.x), a.y + t * (b.y - a.y)⟩

/-- The point with both coordinates rounded. -/
@[inline] def round (a : Point α) : Point α := ⟨Scalar.round a.x, Scalar.round a.y⟩

/-- Whether two points compare equal in both coordinates. -/
@[inline] def same (a b : Point α) : Bool := Scalar.eq a.x b.x && Scalar.eq a.y b.y

/-- The foot of the perpendicular from a point to the line through a segment.  A segment
without length has no such line, and the foot then has no finite coordinates. -/
@[inline] def projectOnto (a : Point α) (segment : Segment α) : Point α :=
  let direction : Vec α := segment.head - segment.tail
  segment.tail + direction * (Vec.dot (a - segment.tail) direction / direction.normSquare)

end Point

/-! ### Segments -/

namespace Segment

/-- The vector from tail to head. -/
@[inline] def vector (segment : Segment α) : Vec α := segment.head - segment.tail

/-- The point in the middle of a segment. -/
@[inline] def midpoint (segment : Segment α) : Point α := segment.tail.midpoint segment.head

/-- The length of a segment, or `tolerance` when both coordinates of its ends are closer than
that. -/
@[inline] def lengthAtLeast (segment : Segment α) (tolerance : α) : α :=
  if Scalar.lt (Scalar.abs (segment.tail.x - segment.head.x)) tolerance &&
      Scalar.lt (Scalar.abs (segment.tail.y - segment.head.y)) tolerance then tolerance
  else segment.tail.distance segment.head

/-- Whether the ends of a segment compare equal. -/
@[inline] def isDegenerate (segment : Segment α) : Bool := segment.tail.same segment.head

end Segment

end NodeLink
