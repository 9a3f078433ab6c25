import NodeLink.Graph.Build

/-! # Indexed graphs

A graph that finds its nodes by a table: beside the nodes it keeps the index of each of them under
its identifier.  Nodes and table are filled by the same step (`Graph.Indexed.addNode`), which looks
at the table alone to see whether a node is known; whatever else is done to the graph does not touch
the table. -/

namespace NodeLink

open NodeLink.Source (Location)
open NodeLink.Random (Stream)

/-- Indices of nodes by identifier; of several entries for an identifier the latest counts. -/
structure NodeIndex where
  entries : List (String × Nat) := []
  deriving DecidableEq, Repr, Inhabited

namespace NodeIndex

/-- The index that is kept for an identifier. -/
def get? (index : NodeIndex) (id : String) : Option Nat := index.entries.lookup id

/-- Keeps an index for an identifier. -/
def insert (index : NodeIndex) (id : String) (position : Nat) : NodeIndex :=
  { entries := (id, position) :: index.entries }

@[simp] theorem get?_empty (id : String) : get? {} id = none := rfl

theorem get?_insert (index : NodeIndex) (id : String) (position : Nat) (other : String) :
    (index.insert id position).get? other =
      if other = id then some position else index.get? other := by
  unfold get? insert
  rw [List.lookup_cons]
  by_cases h : other = id
  · simp [h]
  · simp [h, beq_eq_false_iff_ne.mpr h]

end NodeIndex

variable {α : Type} [Scalar α]

/-- A graph with the table of its nodes. -/
structure Graph.Indexed (α : Type) where
  graph : Graph α
  index : NodeIndex := {}

namespace Graph.Indexed

/-- A graph without nodes. -/
def empty (name : String) (parameters : Parameters α) (stream : Stream) : Indexed α :=
  { graph := Graph.empty name parameters stream }

/-- Changes the graph and leaves the table as it is. -/
def update (indexed : Indexed α) (change : Graph α → Graph α) : Indexed α :=
  { indexed with graph := change indexed.graph }

/-- Adds a node, and gives its index.  If the table has the identifier, nothing changes and the
index is that of the table. -/
@[specialize] def addNode (indexed : Indexed α) (node : Node α) : Nat × Indexed α :=
  match indexed.index.get? node.id with
  | some known => (known, indexed)
  | none =>
    (indexed.graph.nodes.size,
     { graph :=
         { indexed.graph with
           nodes := indexed.graph.nodes.push node
           bounds := indexed.graph.bounds.cover node.position }
       index := indexed.index.insert node.id indexed.graph.nodes.size })

/-- Adds an edge between nodes of the graph, and gives its index. -/
def addEdge? (indexed : Indexed α) (edge : Edge α) : Option (Nat × Indexed α) :=
  (indexed.graph.addEdge? edge).map fun (added, graph) => (added, { indexed with graph })

/-- Adds the node of a declaration at a place, unless the table has its identifier. -/
@[specialize] def declareNode (indexed : Indexed α) (declared : NodeDeclaration × Point α) :
    Indexed α :=
  (indexed.addNode
    (Node.placed declared.1.identifier declared.2
      (NodeOptions.ofAttributes declared.1.attributes))).2

/-- The index of the node that an end of an edge names. -/
def resolve (indexed : Indexed α) (identifier : String) (location : Location) :
    Except CompileError Nat :=
  match indexed.index.get? identifier with
  | some known => .ok known
  | none => .error (.unknownNode identifier location)

/-- Adds the edge of a declaration, unless its ends are joined already. -/
def declareEdge (indexed : Indexed α) (declared : EdgeDeclaration) :
    Except CompileError (Indexed α) := do
  let tail ← indexed.resolve declared.tail declared.tailLocation
  let head ← indexed.resolve declared.head declared.headLocation
  return indexed.update fun graph => graph.addDeclared tail head declared

/-- The graph of a document before its layout. -/
@[specialize] def build (document : Document) (parameters : Parameters α) (stream : Stream) :
    Except CompileError (Indexed α) := do
  let declarations := document.nodeDeclarations
  let (points, stream) ← drawPlaces parameters declarations.length stream
  let indexed := empty document.graphName parameters stream
  let indexed := (declarations.zip points).foldl declareNode indexed
  let indexed ← document.edgeDeclarations.foldlM declareEdge indexed
  return indexed.update recomputeBounds

/-- The laid-out graph of a source; `fresh` are its random numbers if it has no seed. -/
@[specialize] def compile (source : String) (options : CompileOptions α) (fresh : Stream) :
    Except CompileError (Indexed α) :=
  match parse source with
  | .error diagnostics => .error (.invalid diagnostics)
  | .ok document => do
    let indexed ← build document (Parameters.resolve document options.parameters)
      (options.stream fresh)
    return indexed.update layout

end Graph.Indexed

end NodeLink
