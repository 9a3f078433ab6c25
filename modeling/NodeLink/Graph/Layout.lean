import NodeLink.Graph.Basic

/-! # Layout

A layout moves the nodes tick by tick.  In a tick every pair of nodes that is close enough is
pushed apart with `k ^ 2 / d`, every edge pulls its ends together with `(d ^ 2 - k ^ 2) / k`
times the weight of the edge, and then every node moves by a share of its force, at most a
limit on each axis.  Nodes closer than a tenth are set apart by a small random vector
instead of their offset.  Pushes and pulls act on both ends alike, in opposite directions. -/

namespace NodeLink

open NodeLink.Random (Stream)

variable {α : Type} [Scalar α]

/-- The factor of an edge's pull: one more than half the logarithm of its weight.  A weight
that is not positive or not finite counts as one. -/
@[specialize] def attractionScale (weight : α) : α :=
  let weight :=
    if Scalar.isFinite weight && Scalar.lt Scalar.zero weight then weight else Scalar.one
  Scalar.one + Scalar.ratio 1 2 * Scalar.log weight

/-- The value within `limit` of zero that is nearest to a value. -/
@[specialize] def clampAxis (value limit : α) : α :=
  let limit := Scalar.abs limit
  Scalar.min (Scalar.max value (-limit)) limit

/-- A small random vector, both coordinates from a tenth up to two tenths. -/
@[specialize] def jitter (stream : Stream) : Vec α × Stream :=
  let (x, stream) := stream.between (Scalar.ratio 1 10) (Scalar.ratio 2 10)
  let (y, stream) := stream.between (Scalar.ratio 1 10) (Scalar.ratio 2 10)
  (⟨x, y⟩, stream)

/-- The offset of two points, or a small random vector if they are closer than a tenth. -/
@[specialize] def separation (source target : Point α) (stream : Stream) : Vec α × Stream :=
  let offset : Vec α := target - source
  if Scalar.lt offset.normSquare (Scalar.ratio 1 100) then jitter stream else (offset, stream)

/-- Nodes with the forces gathered so far, and the stream. -/
abbrev Gathering (α : Type) := Array (Node α) × Stream

/-- Adds to the force of a node. -/
@[inline] def addForce (nodes : Array (Node α)) (index : Nat) (v : Vec α) : Array (Node α) :=
  nodes.modify index fun node => { node with force := node.force + v }

/-- Takes from the force of a node. -/
@[inline] def subForce (nodes : Array (Node α)) (index : Nat) (v : Vec α) : Array (Node α) :=
  nodes.modify index fun node => { node with force := node.force - v }

/-- The position of the node with an index. -/
@[inline] def positionIn (nodes : Array (Node α)) (index : Nat) : Point α :=
  match nodes[index]? with
  | some node => node.position
  | none => Point.origin

/-- Pushes two nodes apart along the vector that separates them, if its length is small enough. -/
@[inline] def pushApart (parameters : Parameters α) (nodes : Array (Node α)) (pair : Nat × Nat)
    (offset : Vec α) (distance : α) : Array (Node α) :=
  if Scalar.lt distance parameters.maxRepulsiveDistance then
    let k := parameters.optimalDistance
    let push := offset * (k * k / (distance * distance))
    subForce (addForce nodes pair.2 push) pair.1 push
  else nodes

/-- Pulls the ends of an edge together along the vector of some length that separates them. -/
@[inline] def pullTogether (parameters : Parameters α) (nodes : Array (Node α)) (edge : Edge α)
    (offset : Vec α) (distance : α) : Array (Node α) :=
  let near := Scalar.min distance parameters.maxRepulsiveDistance
  let k := parameters.optimalDistance
  let magnitude := (near * near - k * k) / k * attractionScale edge.attraction
  let pull := offset * (magnitude / distance)
  addForce (subForce nodes edge.head pull) edge.tail pull

/-- Pushes two nodes apart, if they are close enough. -/
@[specialize] def repel (parameters : Parameters α) (state : Gathering α) (pair : Nat × Nat) :
    Gathering α :=
  let (nodes, stream) := state
  let (offset, stream) :=
    separation (positionIn nodes pair.1) (positionIn nodes pair.2) stream
  (pushApart parameters nodes pair offset offset.norm, stream)

/-- Pulls the ends of an edge together. -/
@[specialize] def attract (parameters : Parameters α) (state : Gathering α) (edge : Edge α) :
    Gathering α :=
  let (nodes, stream) := state
  let (offset, stream) :=
    separation (positionIn nodes edge.tail) (positionIn nodes edge.head) stream
  (pullTogether parameters nodes edge offset offset.norm, stream)

/-- Every pair of indices below `count`, the greater first, in ascending order. -/
def indexPairs (count : Nat) : List (Nat × Nat) :=
  (List.range count).flatMap fun i => (List.range i).map fun j => (i, j)

/-- Pushes every pair of nodes apart. -/
@[specialize] def repelAll (parameters : Parameters α) (state : Gathering α) : Gathering α :=
  (indexPairs state.1.size).foldl (repel parameters) state

/-- Pulls the ends of every edge together. -/
@[specialize] def attractAll (parameters : Parameters α) (edges : List (Edge α))
    (state : Gathering α) : Gathering α :=
  edges.foldl (attract parameters) state

/-- How far a force moves a node in a tick. -/
@[specialize] def displacementOf (parameters : Parameters α) (force : Vec α) : Vec α where
  x := clampAxis (parameters.damping * force.x) parameters.maxVertexDisplacement
  y := clampAxis (parameters.damping * force.y) parameters.maxVertexDisplacement

/-- Moves a node by its force, which is spent. -/
@[specialize] def Node.settle (parameters : Parameters α) (node : Node α) : Node α :=
  { node with
    position := node.position + displacementOf parameters node.force
    force := Vec.zero }

/-- Moves the next node by its force, and extends the box to where it comes to lie. -/
@[specialize] def settleNext (parameters : Parameters α) (settled : Array (Node α) × Bounds α)
    (node : Node α) : Array (Node α) × Bounds α :=
  let node := node.settle parameters
  (settled.1.push node, settled.2.cover node.position)

/-- Moves every node by its force, and gives the box that grew from nothing on the way. -/
@[specialize] def settleAll (parameters : Parameters α) (nodes : Array (Node α)) :
    Array (Node α) × Bounds α :=
  nodes.foldl (settleNext parameters) (#[], Bounds.empty)

namespace Graph

/-- One tick: gathers the forces, then moves every node. -/
@[specialize] def tick (graph : Graph α) : Graph α :=
  let (nodes, stream) :=
    attractAll graph.parameters graph.edges.toList
      (repelAll graph.parameters (graph.nodes, graph.stream))
  let (nodes, bounds) := settleAll graph.parameters nodes
  { graph with nodes, bounds, stream }

/-- A number of ticks. -/
@[specialize] def ticks (count : Nat) (graph : Graph α) : Graph α :=
  Nat.repeat tick count graph

/-- The whole layout: as many ticks as the parameters say. -/
@[specialize] def layout (graph : Graph α) : Graph α :=
  graph.ticks graph.parameters.maxTicks

end Graph

end NodeLink
