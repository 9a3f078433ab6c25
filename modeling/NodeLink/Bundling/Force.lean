import NodeLink.Geometry.Plane

/-! # Constants of bundling, and forces on the points of a path

The constants of the bundling schedule, with their defaults, and the two forces on an inner point:
springs to its neighbours on the path, and the pull of the points of the same index on compatible
paths.  A look-up outside a path has no answer, so the functions are partial; a pass of the
bundling schedule only asks for what exists. -/

namespace NodeLink

/-- The constants of the bundling schedule. -/
structure BundlingParameters (α : Type) where
  /-- The spring constant between neighbouring points of a path. -/
  stiffness : α
  /-- The step size of the first cycle, halved after every cycle. -/
  initialStepSize : α
  /-- The number of inner points of every path in the first cycle. -/
  initialSubdivision : Nat
  /-- By how much the number of inner points is multiplied after every cycle. -/
  subdivisionRate : Nat
  /-- The number of cycles. -/
  cycleCount : Nat
  /-- The number of passes in the first cycle, rounded in every cycle. -/
  initialIterationCount : α
  /-- By how much the number of passes is multiplied after every cycle. -/
  iterationDecreaseRate : α
  /-- The least score at which two edges attract each other. -/
  compatibilityThreshold : α
  /-- The least length of an edge in divisions. -/
  lengthTolerance : α
  deriving DecidableEq, Repr, Inhabited

/-- The default constants. -/
def BundlingParameters.default {α : Type} [Scalar α] : BundlingParameters α where
  stiffness := Scalar.ratio 1 10
  initialStepSize := Scalar.ratio 1 10
  initialSubdivision := 1
  subdivisionRate := 2
  cycleCount := 6
  initialIterationCount := Scalar.ofNat 90
  iterationDecreaseRate := Scalar.ratio 2 3
  compatibilityThreshold := Scalar.ratio 6 10
  lengthTolerance := Scalar.ratio 1 1000000

end NodeLink

namespace NodeLink.Bundling

variable {α : Type} [Scalar α]

/-- The pull of the two neighbours of a point on its path. -/
@[specialize] def springForce? (points : Array (Point α)) (index : Nat) (stiffness : α) :
    Option (Vec α) :=
  if index = 0 then none
  else
    match points[index - 1]?, points[index]?, points[index + 1]? with
    | some previous, some current, some next =>
      some (((previous - current : Vec α) + (next - current)) * stiffness)
    | _, _, _ => none

/-- Adds a unit vector in the direction of `pull`, unless both its coordinates are within the
threshold. -/
@[inline] def addUnit (threshold : α) (total pull : Vec α) : Vec α :=
  if Scalar.lt threshold (Scalar.abs pull.x) || Scalar.lt threshold (Scalar.abs pull.y) then
    total + pull / pull.norm
  else total

/-- The sum of the unit vectors from `current` to the points of one index on other paths. -/
@[specialize] def pulls? (paths : Array (Array (Point α))) (index : Nat) (threshold : α)
    (current : Point α) (total : Vec α) : List Nat → Option (Vec α)
  | [] => some total
  | other :: rest =>
    match paths[other]?.bind (·[index]?) with
    | some point =>
      pulls? paths index threshold current (addUnit threshold total (point - current)) rest
    | none => none

/-- The pull of compatible paths on a point of a path. -/
@[specialize] def electrostaticForce? (paths : Array (Array (Point α))) (compatible : List Nat)
    (path index : Nat) (threshold : α) : Option (Vec α) :=
  match paths[path]?.bind (·[index]?) with
  | some current => pulls? paths index threshold current Vec.zero compatible
  | none => none

/-- The displacement of an inner point in one pass. -/
@[specialize] def displacement? (paths : Array (Array (Point α))) (compatible : List Nat)
    (path : Nat) (points : Array (Point α)) (stiffness stepSize : α) (index : Nat) :
    Option (Vec α) :=
  match springForce? points index stiffness,
      electrostaticForce? paths compatible path index stepSize with
  | some spring, some electrostatic => some ((spring + electrostatic) * stepSize)
  | _, _ => none

/-- The displacements of the points of a path in one pass, one a point.  The ends of the path
stay where they are. -/
@[specialize] def displacements? (paths : Array (Array (Point α))) (compatible : List Nat)
    (path : Nat) (segment : Segment α) (stepSize : α) (parameters : BundlingParameters α) :
    Option (List (Vec α)) :=
  match paths[path]? with
  | none => none
  | some points =>
    let interior := points.size - 2
    let stiffness := parameters.stiffness /
      (segment.lengthAtLeast parameters.lengthTolerance * Scalar.ofNat (interior + 1))
    match (List.range' 1 interior).mapM
        (displacement? paths compatible path points stiffness stepSize) with
    | none => none
    | some inner =>
      some (Vec.zero :: (inner ++ if 1 < points.size then [Vec.zero] else []))

end NodeLink.Bundling
