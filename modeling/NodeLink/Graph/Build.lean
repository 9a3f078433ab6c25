import NodeLink.Document.Parse
import NodeLink.Graph.Layout

/-! # From documents to graphs

A document becomes a graph in three steps: a random place is drawn for every node
declaration, the first declaration of every identifier becomes a node, and the first
declaration of every pair of nodes becomes an edge.  An edge end that names no node of the
document is an error, whatever else the edge would be; so is a range of places that is wider
than the greatest number. -/

namespace NodeLink

open NodeLink.Source (Location)
open NodeLink.Random (Stream)

/-- Why a source gives no graph. -/
inductive CompileError where
  /-- The source is no document. -/
  | invalid (diagnostics : List Diagnostic)
  /-- The end of an edge names no node. -/
  | unknownNode (identifier : String) (location : Location)
  /-- The range of first places is wider than the greatest number. -/
  | placementOverflow
  deriving DecidableEq, Repr, Inhabited

/-- The words for an unknown end of an edge. -/
def unknownNodeText (identifier : String) (location : Location) : String :=
  location.render ++ ": invalid edge declaration, no node with identifier `" ++ identifier ++
    "` found"

/-- The error as one text. -/
def CompileError.render : CompileError → String
  | invalid diagnostics => Diagnostic.summary diagnostics
  | unknownNode identifier location => unknownNodeText identifier location
  | placementOverflow => "the range of initial positions is too wide"

/-- The error as lines, one a problem. -/
def CompileError.messages : CompileError → List String
  | invalid diagnostics => diagnostics.map Diagnostic.render
  | unknownNode identifier location => ["semantic error at " ++ unknownNodeText identifier location]
  | placementOverflow => [placementOverflow.render]

variable {α : Type} [Scalar α]

/-! ### Places -/

/-- Where coordinates are drawn from: a proper range, or one fixed value. -/
inductive Placement (α : Type) where
  | range (low high : α)
  | fixed (value : α)

/-- The placement between two ends in either order.  Ends that are equal or not finite leave
one value: the lower end if it is finite, else zero.  A range wider than the greatest number
gives no placement. -/
@[specialize] def Placement.between? (a b : α) : Option (Placement α) :=
  let low := Scalar.min a b
  let high := Scalar.max a b
  if Scalar.lt low high && Scalar.isFinite low && Scalar.isFinite high then
    if Scalar.isFinite (high - low) then some (.range low high) else none
  else if Scalar.isFinite low then some (.fixed low)
  else some (.fixed Scalar.zero)

/-- Draws a coordinate. -/
@[specialize] def Placement.draw (placement : Placement α) (stream : Stream) : α × Stream :=
  match placement with
  | range low high => stream.between low high
  | fixed value => (value, stream)

/-- Draws a point, its first coordinate first. -/
@[specialize] def Placement.drawPoint (placement : Placement α) (stream : Stream) :
    Point α × Stream :=
  let (x, stream) := placement.draw stream
  let (y, stream) := placement.draw stream
  (⟨x, y⟩, stream)

/-- Draws a number of points. -/
@[specialize] def Placement.drawPoints (placement : Placement α) :
    Nat → Stream → List (Point α) × Stream
  | 0, stream => ([], stream)
  | count + 1, stream =>
    let (point, stream) := placement.drawPoint stream
    let (points, stream) := placement.drawPoints count stream
    (point :: points, stream)

/-- Draws the places of a number of nodes; without nodes there is nothing to draw from. -/
@[specialize] def drawPlaces (parameters : Parameters α) (count : Nat) (stream : Stream) :
    Except CompileError (List (Point α) × Stream) :=
  if count = 0 then .ok ([], stream)
  else
    match Placement.between? parameters.placementRange.1 parameters.placementRange.2 with
    | some placement => .ok (placement.drawPoints count stream)
    | none => .error .placementOverflow

/-! ### Nodes and edges -/

/-- The options of a node, from the attributes of its declaration. -/
def NodeOptions.ofAttributes (attributes : Option Attributes) : NodeOptions :=
  let attributes := attributes.getD {}
  { color := attributes.color, label := attributes.label, font := attributes.font,
    fontSize := attributes.fontSize }

/-- The options of an edge, from the attributes of its declaration. -/
def EdgeOptions.ofAttributes (attributes : Option Attributes) : EdgeOptions :=
  let attributes := attributes.getD {}
  { color := attributes.color, lineWidth := attributes.lineWidth }

namespace Graph

/-- Adds the node of a declaration at a place, unless its identifier is known. -/
@[specialize] def declareNode (graph : Graph α) (declared : NodeDeclaration × Point α) :
    Graph α :=
  (graph.addNode
    (Node.placed declared.1.identifier declared.2
      (NodeOptions.ofAttributes declared.1.attributes))).2

/-- The index of the node that an end of an edge names. -/
def resolve (graph : Graph α) (identifier : String) (location : Location) :
    Except CompileError Nat :=
  match graph.indexOf? identifier with
  | some index => .ok index
  | none => .error (.unknownNode identifier location)

/-- Whether an edge joins two nodes, in either direction. -/
def joins (graph : Graph α) (tail head : Nat) : Bool :=
  graph.edges.any fun edge =>
    (edge.tail = tail && edge.head = head) || (edge.tail = head && edge.head = tail)

/-- Adds the edge of a declaration between two nodes, unless they are joined already. -/
def addDeclared (graph : Graph α) (tail head : Nat) (declared : EdgeDeclaration) : Graph α :=
  if graph.joins tail head then graph
  else
    let edge : Edge α :=
      { tail, head, directed := declared.directed, attraction := Scalar.one,
        options := EdgeOptions.ofAttributes declared.attributes }
    ((graph.addEdge? edge).map Prod.snd).getD graph

/-- Adds the edge of a declaration, unless its ends are joined already. -/
def declareEdge (graph : Graph α) (declared : EdgeDeclaration) :
    Except CompileError (Graph α) := do
  let tail ← graph.resolve declared.tail declared.tailLocation
  let head ← graph.resolve declared.head declared.headLocation
  return graph.addDeclared tail head declared

/-- The graph of a document before its layout. -/
@[specialize] def build (document : Document) (parameters : Parameters α) (stream : Stream) :
    Except CompileError (Graph α) := do
  let declarations := document.nodeDeclarations
  let (points, stream) ← drawPlaces parameters declarations.length stream
  let graph := Graph.empty document.graphName parameters stream
  let graph := (declarations.zip points).foldl declareNode graph
  let graph ← document.edgeDeclarations.foldlM declareEdge graph
  return graph.recomputeBounds

end Graph

/-! ### Compilation -/

/-- The laid-out graph of a document; `fresh` are its random numbers if it has no seed. -/
@[specialize] def analyze (document : Document) (options : CompileOptions α) (fresh : Stream) :
    Except CompileError (Graph α) := do
  let graph ← Graph.build document (Parameters.resolve document options.parameters)
    (options.stream fresh)
  return graph.layout

/-- The laid-out graph of a source; `fresh` are its random numbers if it has no seed. -/
@[specialize] def compile (source : String) (options : CompileOptions α) (fresh : Stream) :
    Except CompileError (Graph α) :=
  match parse source with
  | .error diagnostics => .error (.invalid diagnostics)
  | .ok document => analyze document options fresh

end NodeLink
