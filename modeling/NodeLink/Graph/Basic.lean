import NodeLink.Bundling.Schedule
import NodeLink.Graph.Bounds
import NodeLink.Graph.Parameters
import NodeLink.Random.Stream

/-! # Graphs

A laid-out graph: nodes with positions, edges between them by the positions of their ends in
the list of nodes, the box around the nodes, the bundled paths of the edges once there are
any, and the stream that the layout draws from.  Nodes and edges are only ever appended; a
node whose identifier is known is not added again. -/

namespace NodeLink

open NodeLink.Random (Stream)

/-- How a node looks. -/
structure NodeOptions where
  color : Option String := none
  label : Option String := none
  font : Option String := none
  fontSize : Option String := none
  deriving DecidableEq, Repr, Inhabited

/-- How an edge looks. -/
structure EdgeOptions where
  color : Option String := none
  lineWidth : Option String := none
  deriving DecidableEq, Repr, Inhabited

/-- A node; its force gathers during a tick and is zero between ticks. -/
structure Node (α : Type) where
  id : String
  position : Point α
  force : Vec α
  options : NodeOptions
  deriving DecidableEq, Repr, Inhabited

/-- An edge between two nodes, given by their indices. -/
structure Edge (α : Type) where
  tail : Nat
  head : Nat
  /-- Whether the edge was declared with an arrow; the layout does not care. -/
  directed : Bool
  /-- The weight of the edge in the layout. -/
  attraction : α
  options : EdgeOptions
  deriving DecidableEq, Repr, Inhabited

/-- A graph with a place for every node. -/
structure Graph (α : Type) where
  name : String
  nodes : Array (Node α)
  edges : Array (Edge α)
  parameters : Parameters α
  /-- The box around the nodes. -/
  bounds : Bounds α
  /-- The bundled paths, one an edge, once the edges were bundled; the path of an edge whose
  ends coincided is empty. -/
  paths : Option (List (Array (Point α)))
  stream : Stream

variable {α : Type} [Scalar α]

/-- A node at rest. -/
def Node.placed (id : String) (position : Point α) (options : NodeOptions) : Node α :=
  { id, position, force := Vec.zero, options }

namespace Graph

/-- A graph without nodes. -/
def empty (name : String) (parameters : Parameters α) (stream : Stream) : Graph α :=
  { name, nodes := #[], edges := #[], parameters, bounds := Bounds.empty, paths := none, stream }

/-- The index of the node with an identifier. -/
def indexOf? (graph : Graph α) (id : String) : Option Nat :=
  graph.nodes.findIdx? fun node => node.id = id

/-- The node with an identifier. -/
def node? (graph : Graph α) (id : String) : Option (Node α) :=
  (graph.indexOf? id).bind (graph.nodes[·]?)

/-- Adds a node, and gives its index.  If the identifier is known, nothing changes and the
index is that of the known node. -/
@[specialize] def addNode (graph : Graph α) (node : Node α) : Nat × Graph α :=
  match graph.indexOf? node.id with
  | some index => (index, graph)
  | none =>
    (graph.nodes.size,
     { graph with
       nodes := graph.nodes.push node
       bounds := graph.bounds.cover node.position })

/-- Adds an edge between nodes of the graph, and gives its index.  Bundled paths are dropped,
for they were computed without the edge. -/
def addEdge? (graph : Graph α) (edge : Edge α) : Option (Nat × Graph α) :=
  if edge.tail < graph.nodes.size ∧ edge.head < graph.nodes.size then
    some (graph.edges.size, { graph with edges := graph.edges.push edge, paths := none })
  else none

/-- Changes the node with an identifier, if there is one; the box stays as it is. -/
def modifyNode? (graph : Graph α) (id : String) (change : Node α → Node α) :
    Option (Graph α) :=
  (graph.indexOf? id).map fun index =>
    { graph with nodes := graph.nodes.modify index change }

/-- The identifier of the node with an index. -/
def idAt (graph : Graph α) (index : Nat) : String :=
  (graph.nodes[index]?.map Node.id).getD ""

/-- The position of the node with an index. -/
@[inline] def position (graph : Graph α) (index : Nat) : Point α :=
  match graph.nodes[index]? with
  | some node => node.position
  | none => Point.origin

/-- The positions of all nodes. -/
def positions (graph : Graph α) : List (Point α) :=
  graph.nodes.toList.map Node.position

/-- The straight segment between the ends of an edge. -/
@[inline] def segment (graph : Graph α) (edge : Edge α) : Segment α :=
  ⟨graph.position edge.tail, graph.position edge.head⟩

/-- The straight segments of all edges. -/
def segments (graph : Graph α) : List (Segment α) :=
  graph.edges.toList.map graph.segment

/-- Recomputes the box from the positions of the nodes. -/
@[specialize] def recomputeBounds (graph : Graph α) : Graph α :=
  { graph with bounds := Bounds.ofPoints graph.positions }

/-- Bundles the edges where the nodes are now, and keeps their paths. -/
@[specialize] def bundleEdges (graph : Graph α) (parameters : BundlingParameters α) : Graph α :=
  { graph with paths := some (Bundling.bundle parameters graph.segments) }

/-- The bundled path kept for an edge, unless there is none or it is empty. -/
def storedPath? (graph : Graph α) (index : Nat) : Option (Array (Point α)) :=
  (graph.paths.bind (·[index]?)).filter fun path => !path.isEmpty

/-- The path of an edge from tail to head: its bundled path, or else the straight segment.
An index without an edge and a path has an empty one. -/
def edgePath (graph : Graph α) (index : Nat) : Array (Point α) :=
  match graph.storedPath? index with
  | some path => path
  | none =>
    match graph.edges[index]? with
    | some edge => #[graph.position edge.tail, graph.position edge.head]
    | none => #[]

/-- All edges with their indices. -/
def indexedEdges (graph : Graph α) : List (Edge α × Nat) :=
  graph.edges.toList.zipIdx

end Graph

end NodeLink
