import NodeLink.Geometry.Plane

/-! # Polylines

The length of a path through points, and `resample`, which places a number of points on it at
equal distances along the path and keeps its two ends.  However the lengths compare, the walk
along the path yields one point for every target (`length_walk`), so a resampled path has
exactly the wanted number of points (`length_resample`), the first and the last of which are those
of the path (`head?_resample`, `getLast?_resample`). -/

namespace NodeLink.Polyline

variable {α : Type} [Scalar α]

/-- The pieces of a path, in order. -/
@[specialize] def pieces (points : List (Point α)) : List (Point α × Point α) :=
  points.zip points.tail

/-- The length of a path. -/
@[specialize] def length (points : List (Point α)) : α :=
  (pieces points).foldl (fun total piece => total + piece.1.distance piece.2) Scalar.zero

/-- Where a walk along a path stands: the pieces from the current one on, and the length of
those before it. -/
structure Walk (α : Type) where
  ahead : List (Point α × Point α)
  walked : α

/-- Walks on to the piece on which the target length is reached; the point there, or `last`
when no piece is left. -/
@[specialize] def reach (last : Point α) (target : α) (walked : α) :
    List (Point α × Point α) → Point α × Walk α
  | [] => (last, ⟨[], walked⟩)
  | (a, b) :: ahead =>
    let length := a.distance b
    if Scalar.le target (walked + length) then
      let share :=
        if Scalar.lt Scalar.zero length then (target - walked) / length else Scalar.zero
      (a.lerp b (Scalar.clamp share Scalar.zero Scalar.one), ⟨(a, b) :: ahead, walked⟩)
    else reach last target (walked + length) ahead

/-- The points at the multiples `ks` of a step along a path. -/
@[specialize] def walk (last : Point α) (step : α) (state : Walk α) : List Nat → List (Point α)
  | [] => []
  | k :: ks =>
    let (point, state) := reach last (step * Scalar.ofNat k) state.walked state.ahead
    point :: walk last step state ks

/-- A path with the same ends and `count` points between them, at equal distances along the
given path. -/
@[specialize] def resample (points : List (Point α)) (count : Nat) : List (Point α) :=
  match points with
  | [] => []
  | first :: rest =>
    let last := rest.getLastD first
    let step := length points / Scalar.ofNat (count + 1)
    first :: (walk last step ⟨pieces points, Scalar.zero⟩ (List.range' 1 count) ++ [last])

/-- The walk yields one point for every target. -/
theorem length_walk (last : Point α) (step : α) (state : Walk α) (ks : List Nat) :
    (walk last step state ks).length = ks.length := by
  induction ks generalizing state with
  | nil => rfl
  | cons k ks ih => simp [walk, ih]

/-- A resampled path has the wanted number of points between its two ends. -/
theorem length_resample (first : Point α) (rest : List (Point α)) (count : Nat) :
    (resample (first :: rest) count).length = count + 2 := by
  simp [resample, length_walk]

theorem head?_resample (first : Point α) (rest : List (Point α)) (count : Nat) :
    (resample (first :: rest) count).head? = some first := rfl

theorem getLast?_resample (first : Point α) (rest : List (Point α)) (count : Nat) :
    (resample (first :: rest) count).getLast? = some (rest.getLastD first) := by
  unfold resample
  dsimp only
  rw [← List.cons_append, List.getLast?_concat]

end NodeLink.Polyline
