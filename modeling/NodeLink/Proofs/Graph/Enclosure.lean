import NodeLink.Proofs.Bundling.Shape
import NodeLink.Proofs.Double.Order
import NodeLink.Proofs.Graph.Reachable
import NodeLink.Proofs.Graph.Ticks

/-! # The box around the nodes

The box of a graph is kept in several ways: it grows with every node that is added, it grows from
nothing while a tick moves the nodes, and it is recomputed after a graph was built or fitted to a
surface.  Whatever is done to a graph, it stays the box that covering the places of the nodes one
after another makes of nothing (`Graph.Reachable.bounds_eq`).  Where no coordinate fails to be a
number, such a box encloses the nodes tightly (`Bounds.encloses_ofPoints`): it contains all of them,
each of its sides is a coordinate of one of them, and it is empty only if there are none. -/

namespace NodeLink

open NodeLink.Random (Stream)

/-! ### The range of an axis -/

namespace Interval

open NodeLink.Double (rank)

/-- The least range around some numbers, none if there are no numbers. -/
def Spans (range : Option (Interval Float)) (values : List Float) : Prop :=
  match range with
  | none => values = []
  | some interval =>
    interval.low ∈ values ∧ interval.high ∈ values ∧
      ∀ value ∈ values, rank interval.low ≤ rank value ∧ rank value ≤ rank interval.high

theorem Spans.cover {range : Option (Interval Float)} {values : List Float} {value : Float}
    (h : Spans range values) (hvalues : ∀ v ∈ values, v.isNaN = false)
    (hvalue : value.isNaN = false) : Spans (Interval.cover range value) (values ++ [value]) := by
  cases range with
  | none =>
      obtain rfl : values = [] := h
      have hcover : Interval.cover none value = some ⟨value, value⟩ :=
        if_pos (Double.scalar_eq_self hvalue)
      rw [hcover]
      refine ⟨List.mem_singleton_self _, List.mem_singleton_self _, fun v hv => ?_⟩
      obtain rfl : v = value := List.mem_singleton.mp hv
      exact ⟨le_rfl, le_rfl⟩
  | some interval =>
      obtain ⟨hlow, hhigh, hbetween⟩ := h
      have hlow' := hvalues _ hlow
      have hhigh' := hvalues _ hhigh
      have hmem {v : Float} (hv : v ∈ values) : v ∈ values ++ [value] := List.mem_append_left _ hv
      have hlast : value ∈ values ++ [value] := List.mem_append_right _ (List.mem_singleton_self _)
      have hmin : Scalar.min interval.low value ∈ values ++ [value] ∧
          rank (Scalar.min interval.low value) ≤ rank interval.low ∧
          rank (Scalar.min interval.low value) ≤ rank value := by
        rcases Double.min_of_isNumber hlow' hvalue with ⟨hle, heq⟩ | ⟨hlt, heq⟩
        · rw [heq]
          exact ⟨hlast, hle, le_rfl⟩
        · rw [heq]
          exact ⟨hmem hlow, le_rfl, hlt.le⟩
      have hmax : Scalar.max interval.high value ∈ values ++ [value] ∧
          rank interval.high ≤ rank (Scalar.max interval.high value) ∧
          rank value ≤ rank (Scalar.max interval.high value) := by
        rcases Double.max_of_isNumber hhigh' hvalue with ⟨hle, heq⟩ | ⟨hlt, heq⟩
        · rw [heq]
          exact ⟨hlast, hle, le_rfl⟩
        · rw [heq]
          exact ⟨hmem hhigh, le_rfl, hlt.le⟩
      refine ⟨hmin.1, hmax.1, fun v hv => ?_⟩
      rcases List.mem_append.mp hv with hv | hv
      · obtain ⟨h₁, h₂⟩ := hbetween v hv
        exact ⟨hmin.2.1.trans h₁, h₂.trans hmax.2.1⟩
      · obtain rfl : v = value := List.mem_singleton.mp hv
        exact ⟨hmin.2.2, hmax.2.2⟩

theorem spans_foldl (values : List Float) (h : ∀ v ∈ values, v.isNaN = false) :
    Spans (values.foldl Interval.cover none) values := by
  induction values using List.reverseRecOn with
  | nil => rfl
  | append_singleton values value ih =>
      have hvalues : ∀ v ∈ values, v.isNaN = false :=
        fun v hv => h v (List.mem_append_left _ hv)
      have hvalue : value.isNaN = false := h value (by simp)
      rw [List.foldl_concat]
      exact (ih hvalues).cover hvalues hvalue

section Spans

variable {range : Option (Interval Float)} {values : List Float}

theorem Spans.contains (h : Spans range values) (hvalues : ∀ v ∈ values, v.isNaN = false)
    {value : Float} (hvalue : value ∈ values) : Interval.contains range value = true := by
  cases range with
  | none =>
      obtain rfl : values = [] := h
      cases hvalue
  | some interval =>
      obtain ⟨hlow, hhigh, hbetween⟩ := h
      obtain ⟨h₁, h₂⟩ := hbetween value hvalue
      have hle := (Double.scalar_le_iff (hvalues _ hlow) (hvalues _ hvalue)).mpr h₁
      have hge := (Double.scalar_le_iff (hvalues _ hvalue) (hvalues _ hhigh)).mpr h₂
      show (Scalar.le interval.low value && Scalar.le value interval.high) = true
      rw [hle, hge]
      rfl

theorem Spans.exists_interval (h : Spans range values) (hne : values ≠ []) :
    ∃ interval, range = some interval ∧ interval.low ∈ values ∧ interval.high ∈ values := by
  cases range with
  | none => exact absurd h hne
  | some interval => exact ⟨interval, rfl, h.1, h.2.1⟩

theorem Spans.isEmpty_iff (h : Spans range values) (hvalues : ∀ v ∈ values, v.isNaN = false) :
    Interval.isEmpty range = true ↔ values = [] := by
  cases range with
  | none => exact iff_of_true rfl h
  | some interval =>
      obtain ⟨hlow, hhigh, hbetween⟩ := h
      refine iff_of_false (fun hlt => ?_) (List.ne_nil_of_mem hlow)
      have hrank := (Double.scalar_lt_iff (hvalues _ hhigh) (hvalues _ hlow)).mp hlt
      exact absurd (hbetween _ hlow).2 (not_le.mpr hrank)

end Spans

end Interval

/-! ### Boxes -/

namespace Bounds

/-- A box is made of what its axes make of the coordinates. -/
theorem ofPoints_eq {α : Type} [Scalar α] (points : List (Point α)) :
    ofPoints points =
      { x := (points.map Point.x).foldl Interval.cover none
        y := (points.map Point.y).foldl Interval.cover none } := by
  have hfold : ∀ (points : List (Point α)) (bounds : Bounds α),
      points.foldl cover bounds =
        { x := (points.map Point.x).foldl Interval.cover bounds.x
          y := (points.map Point.y).foldl Interval.cover bounds.y } := by
    intro points
    induction points with
    | nil => exact fun _ => rfl
    | cons point points ih => exact fun bounds => ih (bounds.cover point)
  exact hfold points empty

theorem ofPoints_concat {α : Type} [Scalar α] (points : List (Point α)) (point : Point α) :
    ofPoints (points ++ [point]) = (ofPoints points).cover point :=
  List.foldl_concat ..

/-- A box contains some points, and is no greater than it must be. -/
structure Encloses (bounds : Bounds Float) (points : List (Point Float)) : Prop where
  /-- Every point lies in the box. -/
  contains : ∀ point ∈ points, bounds.contains point = true
  /-- Each side is a coordinate of a point. -/
  attained : points ≠ [] → ∃ x y : Interval Float, bounds = ⟨some x, some y⟩ ∧
    (∃ point ∈ points, point.x = x.low) ∧ (∃ point ∈ points, point.x = x.high) ∧
    (∃ point ∈ points, point.y = y.low) ∧ ∃ point ∈ points, point.y = y.high
  /-- The box is empty only if there is no point. -/
  isEmpty : bounds.isEmpty = true ↔ points = []

/-- The box that grows from nothing by covering points encloses them. -/
theorem encloses_ofPoints {points : List (Point Float)} (h : ∀ point ∈ points, point.IsNumber) :
    (ofPoints points).Encloses points := by
  have hx : ∀ v ∈ points.map Point.x, v.isNaN = false := by
    intro v hv
    obtain ⟨point, hpoint, rfl⟩ := List.mem_map.mp hv
    exact (h point hpoint).1
  have hy : ∀ v ∈ points.map Point.y, v.isNaN = false := by
    intro v hv
    obtain ⟨point, hpoint, rfl⟩ := List.mem_map.mp hv
    exact (h point hpoint).2
  have hspanX := Interval.spans_foldl _ hx
  have hspanY := Interval.spans_foldl _ hy
  rw [ofPoints_eq]
  refine ⟨fun point hpoint => ?_, fun hne => ?_, ?_⟩
  · have hinX := hspanX.contains hx (List.mem_map_of_mem hpoint)
    have hinY := hspanY.contains hy (List.mem_map_of_mem hpoint)
    unfold contains
    rw [hinX, hinY]
    rfl
  · obtain ⟨x, heqX, hlowX, hhighX⟩ := hspanX.exists_interval (by simpa using hne)
    obtain ⟨y, heqY, hlowY, hhighY⟩ := hspanY.exists_interval (by simpa using hne)
    rw [heqX, heqY]
    exact ⟨x, y, rfl, List.mem_map.mp hlowX, List.mem_map.mp hhighX, List.mem_map.mp hlowY,
      List.mem_map.mp hhighY⟩
  · unfold isEmpty
    rw [Bool.or_eq_true, hspanX.isEmpty_iff hx, hspanY.isEmpty_iff hy, List.map_eq_nil_iff,
      List.map_eq_nil_iff, or_self]

end Bounds

/-! ### Operations -/

namespace Graph

variable {α : Type} [Scalar α]

/-- The box is the one around the places of the nodes, covered in their order. -/
def BoundsFit (graph : Graph α) : Prop := graph.bounds = Bounds.ofPoints graph.positions

theorem boundsFit_recomputeBounds (graph : Graph α) : graph.recomputeBounds.BoundsFit := rfl

theorem boundsFit_tick (graph : Graph α) : graph.tick.BoundsFit := by
  rw [tick_eq]
  exact boundsFit_recomputeBounds _

theorem BoundsFit.addNode {graph : Graph α} (h : graph.BoundsFit) (node : Node α) :
    (graph.addNode node).2.BoundsFit := by
  unfold Graph.addNode
  split
  · exact h
  · have hpositions : (graph.nodes.push node).toList.map Node.position =
        graph.positions ++ [node.position] := by
      rw [Array.toList_push, List.map_append]
      rfl
    show graph.bounds.cover node.position =
      Bounds.ofPoints ((graph.nodes.push node).toList.map Node.position)
    rw [hpositions, Bounds.ofPoints_concat, ← h]

theorem BoundsFit.addEdge? {graph next : Graph α} {edge : Edge α} {index : Nat}
    (h : graph.BoundsFit) (hadd : graph.addEdge? edge = some (index, next)) :
    next.BoundsFit := by
  unfold Graph.addEdge? at hadd
  split at hadd
  · cases hadd
    exact h
  · cases hadd

theorem BoundsFit.layout {graph : Graph α} (h : graph.BoundsFit) : graph.layout.BoundsFit :=
  repeat_preserves (fun now _ => boundsFit_tick now) graph.parameters.maxTicks h

theorem BoundsFit.fit {graph : Graph α} (h : graph.BoundsFit) (frame : Frame α)
    (bundling : BundlingParameters α) : (graph.fit frame bundling).BoundsFit := by
  have hbundled {fitted : Graph α} (hfitted : fitted.BoundsFit) :
      (if fitted.parameters.bundle then fitted.bundleEdges bundling else fitted).BoundsFit := by
    split <;> exact hfitted
  unfold Graph.fit
  apply hbundled
  split
  · exact h
  · -- centring moves the nodes last, and recomputes the box
    exact boundsFit_recomputeBounds _

theorem BoundsFit.next {graph next : Graph α} {operation : Operation α} (h : graph.BoundsFit)
    (hnext : operation.next? graph = some next) : next.BoundsFit := by
  cases operation with
  | addNode node => exact Option.some.inj hnext ▸ h.addNode node
  | addEdge edge =>
      obtain ⟨⟨index, added⟩, hadd, rfl⟩ := Option.map_eq_some_iff.mp hnext
      exact h.addEdge? hadd
  | tick => exact Option.some.inj hnext ▸ boundsFit_tick graph
  | layout => exact Option.some.inj hnext ▸ h.layout
  | recomputeBounds => exact Option.some.inj hnext ▸ boundsFit_recomputeBounds graph
  | bundleEdges bundling => exact Option.some.inj hnext ▸ h
  | fit frame bundling => exact Option.some.inj hnext ▸ h.fit frame bundling

/-- The last thing that building does is to recompute the box. -/
theorem boundsFit_of_build {document : Document} {parameters : Parameters α} {stream : Stream}
    {graph : Graph α} (h : build document parameters stream = .ok graph) : graph.BoundsFit := by
  cases hplaces : drawPlaces parameters document.nodeDeclarations.length stream with
  | error error =>
      simp only [build, hplaces] at h
      cases h
  | ok drawn =>
      simp only [build, hplaces] at h
      obtain ⟨declared, -, hgraph⟩ := map_eq_ok_iff.mp (h : Except.map recomputeBounds _ = _)
      exact hgraph ▸ boundsFit_recomputeBounds declared

theorem Reachable.boundsFit {graph : Graph α} (h : graph.Reachable) : graph.BoundsFit := by
  induction h with
  | empty name parameters stream => rfl
  | built h => exact boundsFit_of_build h
  | @compiled source overrides seed graph h =>
      obtain ⟨document, built, -, hbuilt, rfl⟩ := exists_build_of_compile h
      exact (boundsFit_of_build hbuilt).layout
  | step operation _ hnext ih => exact ih.next hnext

/-- **The box of a reachable graph is the least one around its nodes**: it is what covering the
places of the nodes in their order makes, and if all coordinates are numbers it encloses the nodes
tightly. -/
theorem Reachable.bounds_eq {graph : Graph Float} (h : graph.Reachable) :
    graph.bounds = Bounds.ofPoints graph.positions ∧
      ((∀ point ∈ graph.positions, point.IsNumber) → graph.bounds.Encloses graph.positions) := by
  have hfit : graph.bounds = Bounds.ofPoints graph.positions := h.boundsFit
  refine ⟨hfit, fun hnumbers => ?_⟩
  rw [hfit]
  exact Bounds.encloses_ofPoints hnumbers

/-- Two nodes, one of them added twice, moved by a tick, joined and fitted to a surface. -/
def tickedThenFitted : List (Operation Float) :=
  [.addNode (.placed "A" ⟨0, 0⟩ {}), .addNode (.placed "B" ⟨1, 0⟩ {}),
    .addNode (.placed "A" ⟨5, 5⟩ {}), .tick,
    .addEdge { tail := 0, head := 1, directed := true, attraction := 1, options := {} },
    .fit ⟨100, 50, 12⟩ .default]

/-- The box after adding nodes, a tick and a fitting. -/
theorem bounds_eq_tickedThenFitted :
    ∃ graph : Graph Float,
      Operation.run? tickedThenFitted (empty "g" .default (Stream.ofSeed 1)) = some graph ∧
        graph.Reachable ∧ graph.positions = [⟨12, 25⟩, ⟨88, 25⟩] ∧
        graph.bounds = Bounds.ofPoints graph.positions ∧
        graph.bounds.Encloses graph.positions := by
  have hrun : (Operation.run? tickedThenFitted (empty "g" .default (Stream.ofSeed 1))).map
      positions = some [⟨12, 25⟩, ⟨88, 25⟩] := by decide +kernel
  obtain ⟨graph, hgraph, hpositions⟩ := Option.map_eq_some_iff.mp hrun
  have hreachable : graph.Reachable :=
    (Reachable.empty "g" .default (Stream.ofSeed 1)).run hgraph
  have hnumbers : ∀ point ∈ graph.positions, point.IsNumber := by
    rw [hpositions]
    unfold Point.IsNumber
    decide +kernel
  obtain ⟨hbounds, hencloses⟩ := Reachable.bounds_eq hreachable
  exact ⟨graph, hgraph, hreachable, hpositions, hbounds, hencloses hnumbers⟩

end Graph

end NodeLink
