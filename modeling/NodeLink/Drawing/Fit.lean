import NodeLink.Graph.Basic

/-! # Fitting a layout to a surface

A layout has its coordinates in units of its own.  Before it is drawn, every axis is
stretched so that the extreme nodes lie a node radius from the border, coordinates are
rounded to whole pixels, and the whole is moved to the centre of the surface.  An axis without
a proper extent puts all nodes at the centre.  Edges are bundled afterwards, in pixels. -/

namespace NodeLink

/-- A surface to draw on, with the radius of the circles for nodes. -/
structure Frame (α : Type) where
  width : α
  height : α
  radius : α
  deriving DecidableEq, Repr, Inhabited

variable {α : Type} [Scalar α]

/-- The radius of the circles unless another one is asked for. -/
@[inline] def defaultRadius : α := Scalar.ofNat 12

/-- Half of a size, rounded. -/
@[inline] def roundedHalf (size : α) : α := Scalar.round (size / Scalar.ofNat 2)

/-- A coordinate in pixels on an axis of a size, given the range of the layout there. -/
@[specialize] def fitAxis (radius size : α) (range : Option (Interval α)) (value : α) : α :=
  match range with
  | none => roundedHalf size
  | some interval =>
    let extent := interval.high - interval.low
    if Scalar.lt Scalar.zero extent && Scalar.isFinite extent then
      let scale := (size - Scalar.ofNat 2 * radius) / extent
      Scalar.round ((value - interval.low) * scale + radius)
    else roundedHalf size

/-- How far an axis is moved so that the middle of its range is the middle of the size. -/
@[specialize] def centringShift (size : α) (range : Option (Interval α)) : α :=
  match range with
  | none => Scalar.zero
  | some interval => roundedHalf size - roundedHalf (interval.low + interval.high)

namespace Frame

/-- A point in pixels, given the box around the layout. -/
@[specialize] def place (frame : Frame α) (bounds : Bounds α) (point : Point α) : Point α where
  x := fitAxis frame.radius frame.width bounds.x point.x
  y := fitAxis frame.radius frame.height bounds.y point.y

/-- The vector that centres a box on the surface. -/
@[specialize] def centring (frame : Frame α) (bounds : Bounds α) : Vec α where
  x := centringShift frame.width bounds.x
  y := centringShift frame.height bounds.y

end Frame

namespace Graph

/-- Moves every node, and recomputes the box. -/
@[specialize] def moveNodes (graph : Graph α) (move : Point α → Point α) : Graph α :=
  let nodes := graph.nodes.map fun node => { node with position := move node.position }
  { graph with nodes }.recomputeBounds

/-- Places every node on a surface. -/
@[specialize] def placeOn (graph : Graph α) (frame : Frame α) : Graph α :=
  let bounds := Bounds.ofPoints graph.positions
  graph.moveNodes (frame.place bounds)

/-- Moves the graph to the centre of a surface. -/
@[specialize] def centreOn (graph : Graph α) (frame : Frame α) : Graph α :=
  let shift := frame.centring graph.bounds
  graph.moveNodes fun point => point + shift

/-- Fits the graph to a surface, and bundles its edges there if its parameters say so. -/
@[specialize] def fit (graph : Graph α) (frame : Frame α)
    (bundling : BundlingParameters α) : Graph α :=
  let fitted :=
    if graph.nodes.isEmpty then graph else (graph.placeOn frame).centreOn frame
  if fitted.parameters.bundle then fitted.bundleEdges bundling else fitted

end Graph

end NodeLink
