import NodeLink.Bundling.Compatibility
import NodeLink.Bundling.Force
import NodeLink.Geometry.Polyline

/-! # The bundling schedule

Edges are straight at first.  In every cycle all points of all paths move for a number of
passes under the forces of their neighbours and of compatible paths; after a cycle the step
size is halved, the number of passes shrinks and the paths are resampled with more points.
Edges whose ends coincide take no part and have an empty path. -/

namespace NodeLink.Bundling

variable {α : Type} [Scalar α]

/-- The most inner points that a path can have. -/
def maxSubdivision : Nat := 4096

/-- The edges that take part: those whose ends differ. -/
@[specialize] def kept (segments : List (Segment α)) : List (Segment α) :=
  segments.filter fun segment => !segment.isDegenerate

/-- The positions in the list of edges of those that take part. -/
@[specialize] def keptIndices (segments : List (Segment α)) : List Nat :=
  (segments.zipIdx.filter fun (segment, _) => !segment.isDegenerate).map Prod.snd

/-- Whether two edges attract each other; the earlier one is scored against the later one. -/
@[specialize] def attracts (parameters : BundlingParameters α) (segments : Array (Segment α))
    (p q : Nat) : Bool :=
  if p = q then false
  else
    match segments[Nat.min p q]?, segments[Nat.max p q]? with
    | some first, some second =>
      Scalar.le parameters.compatibilityThreshold
        (Compatibility.score first second parameters.lengthTolerance)
    | _, _ => false

/-- For every edge the edges that it attracts, in ascending order. -/
@[specialize] def compatibilityLists (parameters : BundlingParameters α)
    (segments : Array (Segment α)) : Array (List Nat) :=
  Array.ofFn fun p : Fin segments.size =>
    (List.range segments.size).filter (attracts parameters segments p)

/-- Moves every point by its displacement; a point without one stays. -/
@[specialize] def displace (points : Array (Point α)) (displacements : List (Vec α)) :
    Array (Point α) :=
  let moved := points.toList.zipWith (fun point v => point + v) displacements
  (moved ++ points.toList.drop moved.length).toArray

/-- One pass: all displacements come from the paths as they were before it. -/
@[specialize] def pass (parameters : BundlingParameters α) (segments : Array (Segment α))
    (compatible : Array (List Nat)) (stepSize : α) (paths : Array (Array (Point α))) :
    Array (Array (Point α)) :=
  paths.mapIdx fun path points =>
    match segments[path]?, compatible[path]? with
    | some segment, some others =>
      displace points ((displacements? paths others path segment stepSize parameters).getD [])
    | _, _ => points

/-- The state of the schedule between two cycles. -/
structure Cycle (α : Type) where
  paths : Array (Array (Point α))
  stepSize : α
  subdivision : Nat
  iterations : α

/-- The number of passes of a cycle. -/
@[inline] def Cycle.passes (cycle : Cycle α) : Nat :=
  Scalar.toNat (Scalar.max (Scalar.round cycle.iterations) Scalar.zero)

/-- Resamples every path. -/
@[specialize] def resampleAll (paths : Array (Array (Point α))) (count : Nat) :
    Array (Array (Point α)) :=
  paths.map fun points => (Polyline.resample points.toList count).toArray

/-- The state behind a cycle, given the paths that its passes lead to: they are resampled with
more points, the step size is halved and the number of passes shrinks. -/
@[specialize] def Cycle.refine (parameters : BundlingParameters α) (cycle : Cycle α)
    (paths : Array (Array (Point α))) : Cycle α :=
  let subdivision := min (cycle.subdivision * parameters.subdivisionRate) maxSubdivision
  { paths := resampleAll paths subdivision
    stepSize := cycle.stepSize / Scalar.ofNat 2
    subdivision
    iterations := cycle.iterations * parameters.iterationDecreaseRate }

/-- One cycle: its passes, then a finer subdivision. -/
@[specialize] def Cycle.next (parameters : BundlingParameters α) (segments : Array (Segment α))
    (compatible : Array (List Nat)) (cycle : Cycle α) : Cycle α :=
  cycle.refine parameters
    (Nat.repeat (pass parameters segments compatible cycle.stepSize) cycle.passes cycle.paths)

/-- The straight two-point paths of edges. -/
@[specialize] def straight (segments : Array (Segment α)) : Array (Array (Point α)) :=
  segments.map fun segment => #[segment.tail, segment.head]

/-- The state before the first cycle. -/
@[specialize] def Cycle.first (parameters : BundlingParameters α)
    (segments : Array (Segment α)) : Cycle α :=
  let subdivision := min parameters.initialSubdivision maxSubdivision
  { paths := resampleAll (straight segments) subdivision
    stepSize := parameters.initialStepSize
    subdivision
    iterations := parameters.initialIterationCount }

/-- The paths of edges whose ends differ. -/
@[specialize] def bundleKept (parameters : BundlingParameters α) (segments : Array (Segment α)) :
    Array (Array (Point α)) :=
  if parameters.cycleCount = 0 then straight segments
  else
    let compatible := compatibilityLists parameters segments
    (Nat.repeat (Cycle.next parameters segments compatible) parameters.cycleCount
      (Cycle.first parameters segments)).paths

/-- Deals paths out to the edges that take part, and empty paths to the others. -/
@[specialize] def deal : List (Segment α) → List (Array (Point α)) → List (Array (Point α))
  | [], _ => []
  | segment :: segments, paths =>
    if segment.isDegenerate then #[] :: deal segments paths
    else paths.headD #[] :: deal segments paths.tail

/-- The bundled paths of edges, one an edge in their order. -/
@[specialize] def bundle (parameters : BundlingParameters α) (segments : List (Segment α)) :
    List (Array (Point α)) :=
  deal segments (bundleKept parameters (kept segments).toArray).toList

end NodeLink.Bundling
