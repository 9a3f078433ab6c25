import NodeLink.Drawing.Fit

/-! # Drawing commands and hit tests

A drawing is a list of commands: an edge is a line between the circles of its ends, or a
path if the edges are bundled; a node is a circle.  All edges come first, then all nodes,
then the end of the drawing.

A hit test says which nodes lie under a point or a rectangle.  Nodes are drawn in order, so under a
point the last one counts. -/

namespace NodeLink

/-- One step of a drawing. -/
inductive DrawCommand (α : Type) where
  | circle (center : Point α) (radius : α) (options : NodeOptions)
  | line (tail head : Point α) (options : EdgeOptions)
  | polyline (points : List (Point α)) (options : EdgeOptions)
  | finish
  deriving DecidableEq, Repr, Inhabited

/-- Whether a command draws a circle. -/
def DrawCommand.isCircle {α : Type} : DrawCommand α → Bool
  | circle .. => true
  | _ => false

/-- Whether a command ends the drawing. -/
def DrawCommand.isFinish {α : Type} : DrawCommand α → Bool
  | finish => true
  | _ => false

variable {α : Type} [Scalar α]

/-- The rounded point at which the segment from a circle's centre to another point leaves the
circle; the centre itself if the points coincide. -/
@[specialize] def circleExit (center toward : Point α) (radius : α) : Point α :=
  let offset : Vec α := toward - center
  let length := offset.norm
  if Scalar.eq length Scalar.zero then center
  else Point.round (center + offset * (radius / length))

namespace Graph

/-- The command for an edge: its path in whole pixels if the edges are bundled, else the line
between the circles of its ends. -/
def edgeCommand (graph : Graph α) (radius : α) (edge : Edge α) (index : Nat) : DrawCommand α :=
  if graph.parameters.bundle then
    .polyline ((graph.edgePath index).toList.map Point.round) edge.options
  else
    let tail := graph.position edge.tail
    let head := graph.position edge.head
    .line (circleExit tail head radius) (circleExit head tail radius) edge.options

/-- The commands that draw the graph where it is. -/
def commands (graph : Graph α) (radius : α) : List (DrawCommand α) :=
  (graph.indexedEdges.map fun (edge, index) => graph.edgeCommand radius edge index) ++
  (graph.nodes.toList.map fun node => .circle node.position radius node.options) ++
  [.finish]

/-- Fits the graph to a surface and draws it: the graph as it is then, and the commands. -/
@[specialize] def draw (graph : Graph α) (frame : Frame α) (bundling : BundlingParameters α) :
    Graph α × List (DrawCommand α) :=
  let fitted := graph.fit frame bundling
  (fitted, fitted.commands frame.radius)

end Graph

/-! ### Hit tests -/

/-- A rectangle given by two opposite corners. -/
structure Rectangle (α : Type) where
  corner : Point α
  opposite : Point α
  deriving DecidableEq, Repr, Inhabited

/-- The point of a rectangle that is nearest to a point. -/
@[specialize] def Rectangle.nearest (rectangle : Rectangle α) (point : Point α) : Point α :=
  let a := rectangle.corner
  let b := rectangle.opposite
  { x := Scalar.min (Scalar.max point.x (Scalar.min a.x b.x)) (Scalar.max a.x b.x)
    y := Scalar.min (Scalar.max point.y (Scalar.min a.y b.y)) (Scalar.max a.y b.y) }

namespace Graph

/-- The last node whose circle of a radius holds a point. -/
@[specialize] def hit? (graph : Graph α) (point : Point α) (radius : α) : Option String :=
  (graph.nodes.toList.reverse.find? fun node =>
    Scalar.le (node.position.distance point) radius).map Node.id

/-- All nodes whose circle of a radius meets a rectangle, in order. -/
@[specialize] def hitRectangle (graph : Graph α) (rectangle : Rectangle α) (radius : α) :
    List String :=
  (graph.nodes.toList.filter fun node =>
    Scalar.le ((rectangle.nearest node.position).distance node.position) radius).map Node.id

end Graph

end NodeLink
