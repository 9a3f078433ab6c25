import NodeLink.Graph.Basic
import NodeLink.Graph.Codec

/-! # Snapshots

What is written out of a laid-out graph: its name, its parameters, the box around its nodes
unless it is empty, the nodes, and the edges with the identifiers of their ends and their
paths. -/

namespace NodeLink

/-- A node of a snapshot. -/
structure NodeSnapshot (α : Type) where
  id : String
  position : Point α
  options : NodeOptions
  deriving DecidableEq, Repr, Inhabited

/-- An edge of a snapshot. -/
structure EdgeSnapshot (α : Type) where
  tail : String
  head : String
  directed : Bool
  options : EdgeOptions
  path : Array (Point α)
  deriving DecidableEq, Repr, Inhabited

/-- What is written out of a graph. -/
structure Snapshot (α : Type) where
  name : String
  parameters : Parameters α
  bounds : Option (Bounds α)
  nodes : List (NodeSnapshot α)
  edges : List (EdgeSnapshot α)
  deriving DecidableEq, Repr, Inhabited

namespace Graph

variable {α : Type} [Scalar α]

/-- What is written out of a graph. -/
def snapshot (graph : Graph α) : Snapshot α where
  name := graph.name
  parameters := graph.parameters
  bounds := if graph.bounds.isEmpty then none else some graph.bounds
  nodes := graph.nodes.toList.map fun node => ⟨node.id, node.position, node.options⟩
  edges := graph.indexedEdges.map fun (edge, index) =>
    { tail := graph.idAt edge.tail, head := graph.idAt edge.head, directed := edge.directed,
      options := edge.options, path := graph.edgePath index }

end Graph

/-! ### As JSON -/

/-- A point as an object. -/
def Point.toJson (point : Point Float) : Json :=
  .object [("x", .num point.x), ("y", .num point.y)]

/-- A box as an object; a side that nothing reached is no number. -/
def Bounds.toJson (bounds : Bounds Float) : Json :=
  let side (range : Option (Interval Float)) (of : Interval Float → Float) : Json :=
    Json.option (fun interval => .num (of interval)) range
  .object
    [("x_min", side bounds.x Interval.low), ("x_max", side bounds.x Interval.high),
     ("y_min", side bounds.y Interval.low), ("y_max", side bounds.y Interval.high)]

/-- The options of a node that are set. -/
def NodeOptions.jsonFields (options : NodeOptions) : List (String × Json) :=
  Json.field? "color" (options.color.map Json.text) ++
  Json.field? "label" (options.label.map Json.text) ++
  Json.field? "font" (options.font.map Json.text) ++
  Json.field? "font_size" (options.fontSize.map Json.text)

/-- The options of an edge that are set. -/
def EdgeOptions.jsonFields (options : EdgeOptions) : List (String × Json) :=
  Json.field? "color" (options.color.map Json.text) ++
  Json.field? "line_width" (options.lineWidth.map Json.text)

/-- A node with its options beside its own fields. -/
def NodeSnapshot.toJson (node : NodeSnapshot Float) : Json :=
  .object <|
    [("id", .text node.id), ("position", node.position.toJson)] ++ node.options.jsonFields

/-- An edge with its options beside its own fields. -/
def EdgeSnapshot.toJson (edge : EdgeSnapshot Float) : Json :=
  .object <|
    [("tail", .text edge.tail), ("head", .text edge.head), ("directed", .bool edge.directed)] ++
    edge.options.jsonFields ++
    [("polyline", .list (edge.path.toList.map Point.toJson))]

/-- A snapshot as an object. -/
def Snapshot.toJson (snapshot : Snapshot Float) : Json :=
  .object
    [("name", .text snapshot.name), ("parameters", snapshot.parameters.toJson),
     ("bounds", Json.option Bounds.toJson snapshot.bounds),
     ("nodes", .list (snapshot.nodes.map NodeSnapshot.toJson)),
     ("edges", .list (snapshot.edges.map EdgeSnapshot.toJson))]

end NodeLink
