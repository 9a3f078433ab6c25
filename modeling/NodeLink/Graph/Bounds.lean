import NodeLink.Geometry.Plane

/-! # Bounding boxes

The least box around some points, axis by axis.  An axis has no interval as long as no number
was met on it; coordinates that differ from themselves are passed over. -/

namespace NodeLink

/-- The range of the coordinates on one axis. -/
structure Interval (α : Type) where
  low : α
  high : α
  deriving DecidableEq, Repr, Inhabited

/-- A box: on each axis an interval, or none. -/
structure Bounds (α : Type) where
  x : Option (Interval α) := none
  y : Option (Interval α) := none
  deriving DecidableEq, Repr, Inhabited

variable {α : Type} [Scalar α]

/-- Extends the range of an axis to one more coordinate. -/
@[specialize] def Interval.cover (range : Option (Interval α)) (value : α) :
    Option (Interval α) :=
  match range with
  | some interval => some ⟨Scalar.min interval.low value, Scalar.max interval.high value⟩
  | none => if Scalar.eq value value then some ⟨value, value⟩ else none

/-- Whether an axis holds no coordinate. -/
@[specialize] def Interval.isEmpty : Option (Interval α) → Bool
  | some interval => Scalar.lt interval.high interval.low
  | none => true

/-- Whether an axis holds a coordinate. -/
@[specialize] def Interval.contains (range : Option (Interval α)) (value : α) : Bool :=
  range.any fun interval => Scalar.le interval.low value && Scalar.le value interval.high

/-- The extent of an axis, if it has one. -/
@[specialize] def Interval.extent? (range : Option (Interval α)) : Option α :=
  range.map fun interval => interval.high - interval.low

namespace Bounds

/-- The box that holds nothing. -/
def empty : Bounds α := {}

/-- Extends a box to one more point. -/
@[specialize] def cover (bounds : Bounds α) (point : Point α) : Bounds α where
  x := Interval.cover bounds.x point.x
  y := Interval.cover bounds.y point.y

/-- The least box around some points. -/
@[specialize] def ofPoints (points : List (Point α)) : Bounds α :=
  points.foldl cover empty

/-- Whether a box holds no point. -/
@[specialize] def isEmpty (bounds : Bounds α) : Bool :=
  Interval.isEmpty bounds.x || Interval.isEmpty bounds.y

/-- The width of a box, zero for an empty one. -/
@[specialize] def width (bounds : Bounds α) : α :=
  if bounds.isEmpty then Scalar.zero else (Interval.extent? bounds.x).getD Scalar.zero

/-- The height of a box, zero for an empty one. -/
@[specialize] def height (bounds : Bounds α) : α :=
  if bounds.isEmpty then Scalar.zero else (Interval.extent? bounds.y).getD Scalar.zero

/-- Whether a point lies in a box, its border included. -/
@[specialize] def contains (bounds : Bounds α) (point : Point α) : Bool :=
  Interval.contains bounds.x point.x && Interval.contains bounds.y point.y

end Bounds

end NodeLink
