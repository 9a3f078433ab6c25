import NodeLink.Drawing.Command
import NodeLink.Proofs.Bundling.Shape
import NodeLink.Proofs.Double.Commuting
import NodeLink.Proofs.Exact.Plane
import NodeLink.Proofs.Graph.FirstDeclarations
import NodeLink.Proofs.Sequences

/-! # Hits

A point hits the node whose circle is drawn last among those that the point lies in
(`Graph.hit?_eq_some_iff`), and none if it lies in no circle that is drawn.  As a rectangle without
extent it hits all nodes whose circles it lies in, the topmost one last
(`Graph.hit?_eq_getLast?`): the nearest point of such a rectangle is the point itself, also for a
node whose position is no number, and distances do not depend on their direction.

In exact arithmetic the nearest point of a rectangle is at most as far away as any other point of
it (`Rectangle.distance_nearest_le`).  So a rectangle hits the nodes that are within the radius of
one of its points, in their order (`Graph.hitRectangle_meeting`). -/

namespace NodeLink

open NodeLink.Random (Stream)

/-! ### The topmost circle -/

section Topmost

variable {α : Type} [Scalar α]

/-- Whether a command draws a circle that a point lies in, the border included. -/
def DrawCommand.covers (point : Point α) : DrawCommand α → Bool
  | circle center radius _ => Scalar.le (center.distance point) radius
  | _ => false

namespace Graph

/-- Among the commands of a drawing, the last circle that a point lies in is that of a node: as many
circles are drawn below it as there are nodes before the node. -/
inductive Topmost (graph : Graph α) (point : Point α) (radius : α) (node : Node α) :
    List (DrawCommand α) → Prop where
  | intro {below above : List (DrawCommand α)}
      (hnode : graph.nodes[below.countP DrawCommand.isCircle]? = some node)
      (hcovers : (DrawCommand.circle node.position radius node.options).covers point = true)
      (habove : ∀ command ∈ above, command.covers point = false) :
      Topmost graph point radius node
        (below ++ .circle node.position radius node.options :: above)

variable (graph : Graph α) (point : Point α) (radius : α)

theorem isCircle_edgeCommand (edge : Edge α) (index : Nat) :
    (graph.edgeCommand radius edge index).isCircle = false := by
  unfold edgeCommand
  split <;> rfl

theorem commands_eq :
    graph.commands radius =
      graph.indexedEdges.map (fun found => graph.edgeCommand radius found.1 found.2) ++
        graph.nodes.toList.map (fun node => .circle node.position radius node.options) ++
          [.finish] :=
  rfl

theorem filter_isCircle_commands :
    (graph.commands radius).filter DrawCommand.isCircle =
      graph.nodes.toList.map fun node => .circle node.position radius node.options := by
  have hedges : (graph.indexedEdges.map fun found =>
      graph.edgeCommand radius found.1 found.2).filter DrawCommand.isCircle = [] := by
    rw [List.filter_eq_nil_iff]
    intro command hcommand
    obtain ⟨found, -, rfl⟩ := List.mem_map.mp hcommand
    exact Bool.eq_false_iff.mp (graph.isCircle_edgeCommand radius found.1 found.2)
  have hcircles : (graph.nodes.toList.map fun node =>
      DrawCommand.circle node.position radius node.options).filter DrawCommand.isCircle =
        graph.nodes.toList.map fun node => .circle node.position radius node.options := by
    rw [List.filter_eq_self]
    intro command hcommand
    obtain ⟨node, -, rfl⟩ := List.mem_map.mp hcommand
    rfl
  rw [commands_eq, List.filter_append, List.filter_append, hedges, hcircles]
  exact List.append_nil _

theorem covers_of_not_isCircle {command : DrawCommand α} (h : command.isCircle = false) :
    command.covers point = false := by
  cases command with
  | circle => cases h
  | _ => rfl

section Node

variable {graph point radius} {node : Node α}

theorem topmost_of_nodes {before after : List (Node α)}
    (hnodes : graph.nodes.toList = before ++ node :: after)
    (hcovers : Scalar.le (node.position.distance point) radius = true)
    (hafter : ∀ later ∈ after, Scalar.le (later.position.distance point) radius = false) :
    graph.Topmost point radius node (graph.commands radius) := by
  have hcircles := graph.filter_isCircle_commands radius
  -- the circle of the node among the circles, and then among all commands
  rw [hnodes, List.map_append, List.map_cons, List.filter_eq_append_iff] at hcircles
  obtain ⟨lower, upper, hcommands, hlower, hupper⟩ := hcircles
  obtain ⟨between, above, rfl, hbetween, -, habove⟩ := List.filter_eq_cons_iff.mp hupper
  have hnone : between.countP DrawCommand.isCircle = 0 := List.countP_eq_zero.mpr hbetween
  rw [hcommands, ← List.append_assoc]
  refine .intro ?_ hcovers fun command hcommand => ?_
  · rw [List.countP_append, hnone, Nat.add_zero, List.countP_eq_length_filter, hlower,
      List.length_map, ← Array.getElem?_toList, hnodes, List.getElem?_append_right le_rfl,
      Nat.sub_self, List.getElem?_cons_zero]
  · cases hcircle : command.isCircle with
    | false => exact covers_of_not_isCircle point hcircle
    | true =>
      have hmem := List.mem_filter.mpr ⟨hcommand, hcircle⟩
      rw [habove] at hmem
      obtain ⟨later, hlater, rfl⟩ := List.mem_map.mp hmem
      exact hafter later hlater

theorem nodes_of_topmost (h : graph.Topmost point radius node (graph.commands radius)) :
    Scalar.le (node.position.distance point) radius = true ∧
      ∃ before after, graph.nodes.toList = before ++ node :: after ∧
        ∀ later ∈ after, Scalar.le (later.position.distance point) radius = false := by
  have hcircles := graph.filter_isCircle_commands radius
  generalize hcommands : graph.commands radius = commands at h
  obtain ⟨hnode, hcovers, habove⟩ := h
  rw [hcommands, List.filter_append, List.filter_cons_of_pos rfl, eq_comm,
    List.map_eq_append_iff] at hcircles
  obtain ⟨before, rest, hnodes, hbefore, hrest⟩ := hcircles
  obtain ⟨found, after, rfl, -, hafter⟩ := List.map_eq_cons_iff.mp hrest
  rw [List.countP_eq_length_filter, ← hbefore, List.length_map, ← Array.getElem?_toList, hnodes,
    List.getElem?_append_right le_rfl, Nat.sub_self, List.getElem?_cons_zero] at hnode
  obtain rfl := Option.some.inj hnode
  refine ⟨hcovers, before, after, hnodes, fun later hlater => ?_⟩
  have hmem := List.mem_map_of_mem
    (f := fun node : Node α => DrawCommand.circle node.position radius node.options) hlater
  rw [hafter] at hmem
  exact habove _ (List.mem_of_mem_filter hmem)

end Node

/-- A point hits the node of the topmost circle that it lies in. -/
theorem hit?_eq_some_iff {id : String} :
    graph.hit? point radius = some id ↔
      ∃ node, graph.Topmost point radius node (graph.commands radius) ∧ node.id = id := by
  unfold hit?
  rw [Option.map_eq_some_iff]
  refine exists_congr fun node => and_congr_left fun _ => ?_
  rw [find?_reverse_eq_some_iff]
  constructor
  · rintro ⟨hcovers, before, after, hnodes, hafter⟩
    exact topmost_of_nodes hnodes hcovers hafter
  · exact nodes_of_topmost

theorem hit?_eq_none_iff :
    graph.hit? point radius = none ↔
      ∀ command ∈ graph.commands radius, command.covers point = false := by
  have hcircles := graph.filter_isCircle_commands radius
  unfold hit?
  rw [Option.map_eq_none_iff, List.find?_eq_none]
  constructor
  · intro h command hcommand
    by_cases hcircle : command.isCircle = true
    · have hmem := List.mem_filter.mpr ⟨hcommand, hcircle⟩
      rw [hcircles] at hmem
      obtain ⟨node, hnode, rfl⟩ := List.mem_map.mp hmem
      exact Bool.eq_false_iff.mpr (h node (List.mem_reverse.mpr hnode))
    · exact covers_of_not_isCircle point (Bool.eq_false_iff.mpr hcircle)
  · intro h node hnode
    have hmem : DrawCommand.circle node.position radius node.options ∈ graph.commands radius := by
      refine List.mem_of_mem_filter (p := DrawCommand.isCircle) ?_
      rw [hcircles]
      exact List.mem_map_of_mem (List.mem_reverse.mp hnode)
    exact Bool.eq_false_iff.mp (h _ hmem)

end Graph

end Topmost

/-! ### Rectangles without extent -/

theorem min_max_self {x : Float} (hx : x.isNaN = false) (y : Float) :
    Scalar.min (Scalar.max y (Scalar.min x x)) (Scalar.max x x) = x := by
  have hmin : Scalar.min x x = x := ite_self x
  have hmax : Scalar.max x x = x := ite_self x
  rw [hmin, hmax]
  cases hy : y.isNaN with
  | true => rw [Double.max_of_isNaN hy, hmin]
  | false =>
    rcases Double.max_of_isNumber hy hx with ⟨-, h⟩ | ⟨hlt, h⟩
    · rw [h, hmin]
    · rw [h]
      rcases Double.min_of_isNumber hy hx with ⟨-, h'⟩ | ⟨hgt, -⟩
      · exact h'
      · exact absurd hgt hlt.asymm

theorem Rectangle.nearest_self {point : Point Float} (h : point.IsNumber) (p : Point Float) :
    (Rectangle.mk point point).nearest p = point := by
  unfold Rectangle.nearest
  dsimp only
  rw [min_max_self h.1, min_max_self h.2]

namespace Graph

theorem hit?_eq_getLast? {point : Point Float} (h : point.IsNumber) (graph : Graph Float)
    (radius : Float) :
    graph.hit? point radius = (graph.hitRectangle ⟨point, point⟩ radius).getLast? := by
  unfold hit? hitRectangle
  simp only [Rectangle.nearest_self h, Point.distance_comm point]
  rw [List.getLast?_map, ← List.head?_reverse, ← List.filter_reverse, List.head?_filter]

/-- **Hits agree with what is drawn**: a point hits the node of the topmost circle of the drawing
that it lies in, and nothing if it lies in no circle; and a point that is a number hits the last of
the nodes that it hits as a rectangle. -/
theorem hit?_drawn {point : Point Float} (h : point.IsNumber) :
    (∀ (graph : Graph Float) (frame : Frame Float) (bundling : BundlingParameters Float),
      (∀ id, (graph.draw frame bundling).1.hit? point frame.radius = some id ↔
        ∃ node, (graph.draw frame bundling).1.Topmost point frame.radius node
          (graph.draw frame bundling).2 ∧ node.id = id) ∧
      ((graph.draw frame bundling).1.hit? point frame.radius = none ↔
        ∀ command ∈ (graph.draw frame bundling).2, command.covers point = false)) ∧
    ∀ (graph : Graph Float) (radius : Float),
      graph.hit? point radius = (graph.hitRectangle ⟨point, point⟩ radius).getLast? :=
  ⟨fun graph frame bundling =>
    ⟨fun _ => (graph.fit frame bundling).hit?_eq_some_iff point frame.radius,
      (graph.fit frame bundling).hit?_eq_none_iff point frame.radius⟩,
    hit?_eq_getLast? h⟩

/-- Three nodes whose circles overlap when they are drawn on a small surface. -/
def cluster : Graph Float :=
  { (empty "g" .default (Stream.ofSeed 1) : Graph Float) with
    nodes := #[.placed "A" ⟨0, 0⟩ {}, .placed "B" ⟨1, 0⟩ {}, .placed "C" ⟨0, 1⟩ {}] }

/-- Two of the three circles hold the point, and the later one of them is above the other. -/
theorem hit?_cluster :
    (⟨20, 12⟩ : Point Float).IsNumber ∧
      (∃ node, (cluster.draw ⟨40, 40, 12⟩ .default).1.Topmost ⟨20, 12⟩ 12 node
        (cluster.draw ⟨40, 40, 12⟩ .default).2 ∧ node.id = "B") ∧
      ((cluster.draw ⟨40, 40, 12⟩ .default).1.hitRectangle ⟨⟨20, 12⟩, ⟨20, 12⟩⟩ 12).getLast? =
        some "B" := by
  have hnumber : (⟨20, 12⟩ : Point Float).IsNumber := by
    unfold Point.IsNumber
    decide +kernel
  have hhit : (cluster.draw ⟨40, 40, 12⟩ .default).1.hit? ⟨20, 12⟩ 12 = some "B" := by
    decide +kernel
  obtain ⟨hdrawn, hreduced⟩ := hit?_drawn hnumber
  exact ⟨hnumber, ((hdrawn cluster ⟨40, 40, 12⟩ .default).1 "B").mp hhit,
    (hreduced _ _).symm.trans hhit⟩

end Graph

/-! ### Nodes by their indices -/

theorem Graph.exists_indices {α : Type} (graph : Graph α) (p : Node α → Bool) :
    ∃ hits : List ℕ, hits.Pairwise (· < ·) ∧
      (graph.nodes.toList.filter p).map Node.id = hits.map graph.idAt ∧
      ∀ index, index ∈ hits ↔ ∃ node, graph.nodes[index]? = some node ∧ p node = true := by
  have hid : graph.idAt = fun index => (graph.nodes.toList[index]?.map Node.id).getD "" := by
    funext index
    rw [Array.getElem?_toList]
    rfl
  have hfound := congrArg (List.map fun found => (Option.map Node.id found).getD "")
    (map_positionsWhere p graph.nodes.toList)
  rw [List.map_map, List.map_map] at hfound
  refine ⟨positionsWhere p graph.nodes.toList, pairwise_positionsWhere .., ?_, fun index => ?_⟩
  · rw [hid]
    exact hfound.symm
  · rw [mem_positionsWhere, Array.getElem?_toList]

/-! ### The nearest number between two limits -/

theorem clamp_mem_uIcc (a b v : ℝ) : min (max v (min a b)) (max a b) ∈ Set.uIcc a b :=
  Set.mem_Icc.mpr ⟨le_min (le_max_right _ _) min_le_max, min_le_right _ _⟩

/-- Of all numbers between two limits none is nearer than the clamped one. -/
theorem abs_clamp_sub_le {a b u : ℝ} (h : u ∈ Set.uIcc a b) (v : ℝ) :
    |min (max v (min a b)) (max a b) - v| ≤ |u - v| := by
  obtain ⟨hlow, hhigh⟩ := Set.mem_Icc.mp h
  rcases le_total v (min a b) with hbelow | hbelow
  · rw [max_eq_right hbelow, min_eq_left min_le_max, abs_of_nonneg (sub_nonneg.mpr hbelow)]
    exact (sub_le_sub_right hlow v).trans (le_abs_self _)
  rw [max_eq_left hbelow]
  rcases le_total v (max a b) with habove | habove
  · rw [min_eq_left habove, sub_self, abs_zero]
    exact abs_nonneg _
  · rw [min_eq_right habove, abs_sub_comm, abs_of_nonneg (sub_nonneg.mpr habove), abs_sub_comm u]
    exact (sub_le_sub_left hhigh v).trans (le_abs_self _)

/-! ### Rectangles in exact arithmetic -/

section Exact

open scoped Exact

variable [DivisionByZero]

namespace Rectangle

/-- Whether a point belongs to a rectangle, its border included.  Any two opposite corners may be
given, in any order. -/
def Holds (rectangle : Rectangle ℝ) (point : Point ℝ) : Prop :=
  point.x ∈ Set.uIcc rectangle.corner.x rectangle.opposite.x ∧
    point.y ∈ Set.uIcc rectangle.corner.y rectangle.opposite.y

theorem nearest_eq (rectangle : Rectangle ℝ) (point : Point ℝ) :
    rectangle.nearest point =
      ⟨min (max point.x (min rectangle.corner.x rectangle.opposite.x))
          (max rectangle.corner.x rectangle.opposite.x),
        min (max point.y (min rectangle.corner.y rectangle.opposite.y))
          (max rectangle.corner.y rectangle.opposite.y)⟩ := by
  unfold nearest
  simp only [Scalar.max_real, Scalar.min_real]

variable {rectangle : Rectangle ℝ}

theorem holds_nearest (point : Point ℝ) : rectangle.Holds (rectangle.nearest point) := by
  rw [nearest_eq]
  exact ⟨clamp_mem_uIcc _ _ _, clamp_mem_uIcc _ _ _⟩

/-- No point of a rectangle is nearer than the nearest one. -/
theorem distance_nearest_le {q : Point ℝ} (h : rectangle.Holds q) (point : Point ℝ) :
    (rectangle.nearest point).distance point ≤ q.distance point := by
  have hx := abs_clamp_sub_le h.1 point.x
  have hy := abs_clamp_sub_le h.2 point.y
  rw [nearest_eq, Point.distance_eq, Point.distance_eq]
  refine Real.sqrt_le_sqrt (add_le_add ?_ ?_)
  · exact abs_le_iff_mul_self_le.mp hx
  · exact abs_le_iff_mul_self_le.mp hy

theorem distance_nearest_le_iff {point : Point ℝ} {radius : ℝ} :
    (rectangle.nearest point).distance point ≤ radius ↔
      ∃ q, rectangle.Holds q ∧ q.distance point ≤ radius :=
  ⟨fun h => ⟨_, holds_nearest point, h⟩,
    fun ⟨_, hq, h⟩ => (distance_nearest_le hq point).trans h⟩

end Rectangle

namespace Graph

/-- Whether the circle of a node meets a rectangle, as it is computed. -/
theorem le_distance_nearest_iff {rectangle : Rectangle ℝ} {point : Point ℝ} {radius : ℝ} :
    Scalar.le ((rectangle.nearest point).distance point) radius = true ↔
      ∃ q, rectangle.Holds q ∧ q.distance point ≤ radius := by
  rw [Scalar.le_real, decide_eq_true_iff, Rectangle.distance_nearest_le_iff]

/-- **A rectangle hits the nodes that are within the radius of one of its points**, each of them
once and in their order; it hits none if the radius is negative. -/
theorem hitRectangle_meeting (graph : Graph ℝ) (rectangle : Rectangle ℝ) (radius : ℝ) :
    (∃ hits : List ℕ, hits.Pairwise (· < ·) ∧
      graph.hitRectangle rectangle radius = hits.map graph.idAt ∧
      ∀ index, index ∈ hits ↔ ∃ node, graph.nodes[index]? = some node ∧
        ∃ q, rectangle.Holds q ∧ q.distance node.position ≤ radius) ∧
    (graph.ids.Nodup → (graph.hitRectangle rectangle radius).Nodup) ∧
    (radius < 0 → graph.hitRectangle rectangle radius = []) := by
  obtain ⟨hits, hascending, hids, hmem⟩ := graph.exists_indices fun node =>
    Scalar.le ((rectangle.nearest node.position).distance node.position) radius
  refine ⟨⟨hits, hascending, hids, fun index => (hmem index).trans ?_⟩, fun hnodup => ?_,
    fun hradius => ?_⟩
  · exact exists_congr fun node => and_congr_right fun _ => le_distance_nearest_iff
  · exact hnodup.sublist (List.filter_sublist.map Node.id)
  · unfold hitRectangle
    rw [List.map_eq_nil_iff, List.filter_eq_nil_iff]
    intro node _ hmeets
    obtain ⟨q, -, hq⟩ := le_distance_nearest_iff.mp hmeets
    exact absurd (hq.trans_lt hradius) (Point.distance_nonneg q node.position).not_gt

end Graph

end Exact

end NodeLink
