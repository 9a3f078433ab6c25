import NodeLink.Drawing.Command
import NodeLink.Proofs.Bundling.Finiteness
import NodeLink.Proofs.Bundling.Sizes
import NodeLink.Proofs.Double.Whole
import NodeLink.Proofs.Graph.Attachment
import NodeLink.Proofs.Graph.Content

/-! # What is drawn

Drawing a graph issues one command for every edge, then a circle for every node, then the end of
the drawing (`Graph.draw_commands`).  Fitted positions are whole pixels unless they overflow
(`Graph.isWhole_position_fit`), and rounding a path to whole pixels leaves its ends where they are
(`Point.IsWhole.same_round`).  So the path of a bundled edge runs from the centre of one circle to
the centre of the other, also when it was not bundled because its ends coincide. -/

namespace NodeLink

open Double (IsWhole)

/-! ### Whole pixels -/

/-- Both coordinates are whole. -/
structure Point.IsWhole (point : Point Float) : Prop where
  x : Double.IsWhole point.x
  y : Double.IsWhole point.y

theorem Point.IsFinite.isNumber {point : Point Float} (h : point.IsFinite) : point.IsNumber :=
  ⟨Double.isNaN_eq_false h.1, Double.isNaN_eq_false h.2⟩

/-- A point that compares equal to one in whole pixels still does so when it is rounded. -/
theorem Point.IsWhole.same_round {p q : Point Float} (hq : q.IsWhole) (h : p.same q = true) :
    p.round.same q = true := by
  have hround : ∀ {x y : Float}, Double.IsWhole y → (x == y) = true →
      (roundHalfAway x == y) = true := by
    intro x y hy hxy
    have hx := hy.of_beq hxy
    have hrounded := Double.roundHalfAway_beq hx
    have hfinite := Double.isFinite_of_beq hrounded hx.isFinite
    rw [Double.beq_iff hfinite hy.isFinite, (Double.beq_iff hfinite hx.isFinite).mp hrounded,
      (Double.beq_iff hx.isFinite hy.isFinite).mp hxy]
  obtain ⟨hx, hy⟩ := Bool.and_eq_true_iff.mp h
  exact Bool.and_eq_true_iff.mpr ⟨hround hq.x hx, hround hq.y hy⟩

theorem isWhole_fitAxis {radius size value : Float} {range : Option (Interval Float)}
    (h : (fitAxis radius size range value).isFinite = true) :
    IsWhole (fitAxis radius size range value) := by
  unfold fitAxis at h ⊢
  split at h
  · exact Double.isWhole_roundHalfAway h
  · dsimp only at h ⊢
    split_ifs at h ⊢ <;> exact Double.isWhole_roundHalfAway h

theorem isWhole_centringShift {size : Float} {range : Option (Interval Float)}
    (h : (centringShift size range).isFinite = true) : IsWhole (centringShift size range) := by
  unfold centringShift at h ⊢
  split at h
  · obtain ⟨hfinite, hreal⟩ := Double.real_ofNat (n := 0) (by norm_num)
    exact ⟨hfinite, 0, by exact_mod_cast hreal⟩
  · obtain ⟨hsize, hmiddle⟩ := Double.isFinite_of_sub h
    exact Double.isWhole_sub (Double.isWhole_roundHalfAway hsize)
      (Double.isWhole_roundHalfAway hmiddle) h

/-- A point that is placed on a surface and centred is in whole pixels, unless it overflows. -/
theorem Frame.isWhole_place {frame : Frame Float} {placing centring : Bounds Float}
    {point : Point Float}
    (h : (frame.place placing point + frame.centring centring : Point Float).IsFinite) :
    (frame.place placing point + frame.centring centring : Point Float).IsWhole := by
  have hsum : ∀ {a b : Float}, (a.isFinite = true → IsWhole a) → (b.isFinite = true → IsWhole b) →
      (a + b).isFinite = true → IsWhole (a + b) := by
    intro a b ha hb hab
    obtain ⟨hfiniteA, hfiniteB⟩ := Double.isFinite_of_add hab
    exact Double.isWhole_add (ha hfiniteA) (hb hfiniteB) hab
  exact ⟨hsum isWhole_fitAxis isWhole_centringShift h.1,
    hsum isWhole_fitAxis isWhole_centringShift h.2⟩

namespace Graph

theorem nodes_bundleEdges_ite (graph : Graph Float) (bundling : BundlingParameters Float) :
    (if graph.parameters.bundle then graph.bundleEdges bundling else graph).nodes =
      graph.nodes := by
  split_ifs <;> rfl

/-- Fitted positions are in whole pixels, unless they overflow. -/
theorem isWhole_position_fit {graph : Graph Float} {frame : Frame Float}
    {bundling : BundlingParameters Float} {node : Node Float}
    (hnode : node ∈ (graph.fit frame bundling).nodes) (hfinite : node.position.IsFinite) :
    node.position.IsWhole := by
  unfold fit at hnode
  dsimp only at hnode
  rw [nodes_bundleEdges_ite] at hnode
  split_ifs at hnode with hempty
  · rw [Array.isEmpty_iff.mp hempty] at hnode
    exact absurd hnode (Array.not_mem_empty node)
  · obtain ⟨placed, hplaced, rfl⟩ := Array.mem_map.mp hnode
    obtain ⟨earlier, -, rfl⟩ := Array.mem_map.mp hplaced
    exact Frame.isWhole_place hfinite

/-! ### Paths that were just bundled -/

variable {graph : Graph Float} {bundling : BundlingParameters Float} {index : Nat}
  {edge : Edge Float}

theorem endsUnmoved_refl (graph : Graph Float) (edge : Edge Float) :
    EndsUnmoved graph graph edge :=
  ⟨Bundling.stays_refl _, Bundling.stays_refl _⟩

theorem attached_bundleEdges (hedge : graph.edges[index]? = some edge) :
    (graph.bundleEdges bundling).Attached index edge := by
  cases hpath : (graph.bundleEdges bundling).storedPath? index with
  | none => exact attached_of_storedPath?_eq_none hedge hpath
  | some path =>
    have hstored : (graph.bundleEdges bundling).paths =
        some (Bundling.bundle bundling graph.segments) := rfl
    have hunmoved : EndsUnmoved graph (graph.bundleEdges bundling) edge := endsUnmoved_refl _ _
    exact (attached_iff_endsUnmoved hstored rfl hedge hpath).mpr hunmoved

theorem two_le_size_edgePath (hedge : graph.edges[index]? = some edge) :
    2 ≤ ((graph.bundleEdges bundling).edgePath index).size := by
  rw [size_edgePath_bundleEdges bundling hedge]
  split_ifs
  · exact le_rfl
  · exact bundling.two_le_pointCount

/-! ### The commands of a drawing -/

/-- The circles of a drawing, one a node. -/
def circles (graph : Graph Float) (radius : Float) : List (DrawCommand Float) :=
  graph.nodes.toList.map fun node => .circle node.position radius node.options

/-- A point of a path is the centre of the circle of a node, if that centre is finite. -/
def AtCentre (circles : List (DrawCommand Float)) (node : Nat) (point : Option (Point Float)) :
    Prop :=
  ∀ {center : Point Float} {radius : Float} {options : NodeOptions},
    circles[node]? = some (.circle center radius options) → center.IsFinite →
      ∃ p, point = some p ∧ p.same center = true

/-- What is drawn for an edge among the circles: a line, or if edges are bundled a path from the
centre of one circle to the centre of the other. -/
inductive DrawnEdge (circles : List (DrawCommand Float)) :
    Bool → Edge Float → DrawCommand Float → Prop where
  | line (edge : Edge Float) (tail head : Point Float) :
    DrawnEdge circles false edge (.line tail head edge.options)
  | polyline {edge : Edge Float} {points : List (Point Float)} (size : 2 ≤ points.length)
    (tail : AtCentre circles edge.tail points.head?)
    (head : AtCentre circles edge.head points.getLast?) :
    DrawnEdge circles true edge (.polyline points edge.options)

/-- Where nodes are in whole pixels, a point that is where a node is stays there when it is
rounded. -/
theorem atCentre_round {radius : Float} {node : Nat} {point : Option (Point Float)}
    (hwhole : ∀ drawn ∈ graph.nodes, drawn.position.IsFinite → drawn.position.IsWhole)
    (h : (graph.position node).IsNumber →
      ∃ p, point = some p ∧ p.same (graph.position node) = true) :
    AtCentre (graph.circles radius) node (point.map Point.round) := by
  intro center drawnRadius options hcircle hfinite
  unfold circles at hcircle
  rw [List.getElem?_map, Array.getElem?_toList, Option.map_eq_some_iff] at hcircle
  obtain ⟨drawn, hdrawn, hcircle⟩ := hcircle
  obtain rfl : drawn.position = center := (DrawCommand.circle.inj hcircle).1
  have hposition : graph.position node = drawn.position := by
    unfold position
    rw [hdrawn]
  rw [hposition] at h
  obtain ⟨p, rfl, hsame⟩ := h hfinite.isNumber
  exact ⟨p.round, rfl,
    (hwhole drawn (Array.mem_of_getElem? hdrawn) hfinite).same_round hsame⟩

theorem drawnEdge_edgeCommand {frame : Frame Float}
    (hedge : (graph.fit frame bundling).edges[index]? = some edge) :
    DrawnEdge ((graph.fit frame bundling).circles frame.radius)
      (graph.fit frame bundling).parameters.bundle edge
      ((graph.fit frame bundling).edgeCommand frame.radius edge index) := by
  unfold edgeCommand
  cases hbundle : (graph.fit frame bundling).parameters.bundle with
  | false => exact .line ..
  | true =>
    have hwhole := fun drawn (hdrawn : drawn ∈ (graph.fit frame bundling).nodes) =>
      isWhole_position_fit hdrawn
    obtain ⟨placed, -, -, hfit⟩ := graph.fit_eq frame bundling
    rw [← (graph.sameContent_fit frame bundling).parameters, if_pos hbundle] at hfit
    rw [hfit] at hedge hwhole ⊢
    have hattached : (placed.bundleEdges bundling).Attached index edge :=
      attached_bundleEdges hedge
    obtain ⟨hfirst, hlast⟩ := hattached
    refine .polyline ?_ ?_ ?_
    · rw [List.length_map, Array.length_toList]
      exact two_le_size_edgePath hedge
    · rw [List.head?_map, List.head?_eq_getElem?, Array.getElem?_toList]
      exact atCentre_round hwhole hfirst
    · rw [List.getLast?_map, Array.getLast?_toList]
      exact atCentre_round hwhole hlast

/-- A drawing keeps the content of the graph, and issues a command for every edge in their order,
a circle for every node where it is then, and the end. -/
theorem draw_commands (graph : Graph Float) (frame : Frame Float)
    (bundling : BundlingParameters Float) :
    graph.SameContent (graph.draw frame bundling).1 ∧
      ∃ drawn : List (DrawCommand Float),
        (graph.draw frame bundling).2 =
          drawn ++ (graph.draw frame bundling).1.circles frame.radius ++ [.finish] ∧
        List.Forall₂
          (DrawnEdge ((graph.draw frame bundling).1.circles frame.radius)
            graph.parameters.bundle) graph.edges.toList drawn := by
  have hcontent := graph.sameContent_fit frame bundling
  refine ⟨hcontent, _, rfl, List.forall₂_iff_get.mpr ⟨?_, fun index hedge hdrawn => ?_⟩⟩
  · rw [List.length_map, indexedEdges, List.length_zipIdx, hcontent.edges]
  · have hfitted : (graph.fit frame bundling).edges[index]? =
        some (graph.edges.toList.get ⟨index, hedge⟩) := by
      rw [hcontent.edges, ← Array.getElem?_toList, List.getElem?_eq_getElem hedge]
      rfl
    have hcommand := drawnEdge_edgeCommand hfitted
    rw [hcontent.parameters] at hcommand
    show DrawnEdge ((graph.fit frame bundling).circles frame.radius) _ _ _
    simpa [indexedEdges, hcontent.edges] using hcommand

end Graph

end NodeLink
