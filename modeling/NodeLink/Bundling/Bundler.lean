import NodeLink.Bundling.Schedule

/-! # The bundler

The schedule as an object that is made for a list of edges: it keeps the edges that take part and
their positions in the list, scores every edge against the later ones and enters the two in each
other's lists, moves all paths of a cycle pass by pass, and sends the paths back to the positions of
their edges.  Every look-up by an index, and every change at one, is checked: with an index out of
range there is no result. -/

namespace NodeLink.Bundling

variable {α : Type}

/-- Takes a partial step a number of times. -/
@[specialize] def repeat? {σ : Type} (step : σ → Option σ) (n : Nat) (s : σ) : Option σ :=
  Nat.repeat (fun s? => s?.bind step) n (some s)

/-- Adds an edge at the end of the list of another one. -/
def push? (lists : Array (List Nat)) (edge other : Nat) : Option (Array (List Nat)) :=
  if edge < lists.size then some (lists.modify edge (· ++ [other])) else none

/-- The edges that take part in bundling, and what they attract. -/
structure Bundler (α : Type) where
  parameters : BundlingParameters α
  /-- The number of edges that it was made for. -/
  inputSize : Nat
  /-- The positions of the edges that take part. -/
  kept : List Nat
  /-- The edges that take part. -/
  segments : Array (Segment α)
  /-- For every edge that takes part the edges that it attracts.  There are no lists as long as
  nothing is scored. -/
  compatibility : Array (List Nat)

namespace Bundler

variable [Scalar α]

/-- The bundler for a list of edges. -/
@[specialize] def new (parameters : BundlingParameters α) (segments : List (Segment α)) :
    Bundler α where
  parameters
  inputSize := segments.length
  kept := keptIndices segments
  segments := (Bundling.kept segments).toArray
  compatibility := #[]

/-! ### Scoring -/

/-- Scores an edge against a later one, and enters each of them in the list of the other if the
score reaches the threshold. -/
@[specialize] def compare? (bundler : Bundler α) (p : Nat) (lists : Array (List Nat)) (q : Nat) :
    Option (Array (List Nat)) :=
  match bundler.segments[p]?, bundler.segments[q]? with
  | some first, some second =>
    let score := Compatibility.score first second bundler.parameters.lengthTolerance
    if Scalar.le bundler.parameters.compatibilityThreshold score then
      match push? lists p q with
      | some lists => push? lists q p
      | none => none
    else some lists
  | _, _ => none

/-- Scores an edge against all later ones. -/
@[specialize] def compareLater? (bundler : Bundler α) (lists : Array (List Nat)) (p : Nat) :
    Option (Array (List Nat)) :=
  (List.range' (p + 1) (bundler.segments.size - (p + 1))).foldlM (bundler.compare? p) lists

/-- Fills the lists anew. -/
@[specialize] def computeCompatibility? (bundler : Bundler α) : Option (Bundler α) :=
  let count := bundler.segments.size
  match (List.range' 0 count).foldlM bundler.compareLater? (Array.replicate count []) with
  | some compatibility => some { bundler with compatibility }
  | none => none

/-! ### Passes and cycles -/

/-- The displacements of the points of one path. -/
@[specialize] def displacementsAt? (bundler : Bundler α) (stepSize : α)
    (paths : Array (Array (Point α))) (edge : Nat) : Option (List (Vec α)) :=
  match bundler.compatibility[edge]?, bundler.segments[edge]? with
  | some others, some segment =>
    displacements? paths others edge segment stepSize bundler.parameters
  | _, _ => none

/-- The displacements of the points of all paths. -/
@[specialize] def allDisplacements? (bundler : Bundler α) (stepSize : α)
    (paths : Array (Array (Point α))) : Option (List (List (Vec α))) :=
  (List.range bundler.segments.size).mapM (bundler.displacementsAt? stepSize paths)

/-- Moves the points of all paths by their displacements; a path without any stays. -/
@[specialize] def displaceAll (paths : Array (Array (Point α)))
    (displacements : List (List (Vec α))) : Array (Array (Point α)) :=
  let moved := paths.toList.zipWith displace displacements
  (moved ++ paths.toList.drop moved.length).toArray

/-- One pass: no point moves before all displacements are known. -/
@[specialize] def pass? (bundler : Bundler α) (stepSize : α) (paths : Array (Array (Point α))) :
    Option (Array (Array (Point α))) :=
  match bundler.allDisplacements? stepSize paths with
  | some displacements => some (displaceAll paths displacements)
  | none => none

/-- One cycle: its passes, then a finer subdivision. -/
@[specialize] def next? (bundler : Bundler α) (cycle : Cycle α) : Option (Cycle α) :=
  match repeat? (bundler.pass? cycle.stepSize) cycle.passes cycle.paths with
  | some paths => some (cycle.refine bundler.parameters paths)
  | none => none

/-! ### The paths of all edges -/

/-- Puts a path at a position. -/
def place? (output : Array (Array (Point α))) (placed : Nat × Array (Point α)) :
    Option (Array (Array (Point α))) :=
  if placed.1 < output.size then some (output.setIfInBounds placed.1 placed.2) else none

/-- Sends paths back to the positions of their edges; elsewhere there are empty paths. -/
def output? (bundler : Bundler α) (paths : Array (Array (Point α))) :
    Option (Array (Array (Point α))) :=
  (bundler.kept.zip paths.toList).foldlM place? (Array.replicate bundler.inputSize #[])

/-- The bundled paths of the edges that the bundler was made for. -/
@[specialize] def bundle? (bundler : Bundler α) : Option (Array (Array (Point α))) :=
  if bundler.parameters.cycleCount = 0 then bundler.output? (straight bundler.segments)
  else
    match bundler.computeCompatibility? with
    | none => none
    | some bundler =>
      match repeat? bundler.next? bundler.parameters.cycleCount
          (Cycle.first bundler.parameters bundler.segments) with
      | none => none
      | some cycle => bundler.output? cycle.paths

end Bundler

end NodeLink.Bundling
