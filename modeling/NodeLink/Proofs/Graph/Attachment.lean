import NodeLink.Proofs.Bundling.Shape
import NodeLink.Proofs.Bundling.Sizes
import NodeLink.Proofs.Graph.Reachable

/-! # Where stored paths end

The path of an edge should run from where its tail is to where its head is (`Graph.Attached`).
Bundling stores paths that do, and so does every operation that drops them; but a tick, and a
fitting without bundling, move nodes and leave the stored paths as they are.  In a reachable
graph an edge is attached exactly if it has no stored path, or its ends compare equal to where
they stood when the paths were stored (`Graph.Reachable.attached_iff`).  A fitting can leave
paths behind that no longer meet their nodes (`Graph.fit_leaves_path_behind`). -/

namespace NodeLink

open NodeLink.Random (Stream)

/-! ### Ends in every comparison -/

/-- The points compare alike with every point. -/
def Point.Alike (p q : Point Float) : Prop := ∀ r : Point Float, p.same r = q.same r

theorem Point.Alike.add_zero (p q : Point Float) (h : p.Alike q) :
    (p + (Vec.zero : Vec Float)).Alike q := by
  intro r
  rw [← h r]
  show ((p.x + Scalar.zero == r.x) && (p.y + Scalar.zero == r.y)) = ((p.x == r.x) && (p.y == r.y))
  rw [Double.add_zero_beq, Double.add_zero_beq]

/-! ### Attached paths -/

/-- The path starts and ends at two points, as far as these can compare equal to anything. -/
structure Meets (path : Array (Point Float)) (tail head : Point Float) : Prop where
  first : tail.IsNumber → ∃ point, path[0]? = some point ∧ point.same tail = true
  last : head.IsNumber → ∃ point, path.back? = some point ∧ point.same head = true

theorem meets_straight (tail head : Point Float) : Meets #[tail, head] tail head where
  first h := ⟨tail, rfl, Bundling.stays_refl tail h⟩
  last h := ⟨head, rfl, Bundling.stays_refl head h⟩

theorem Bundling.Spans.meets_iff {segment : Segment Float} {count : Nat}
    {path : Array (Point Float)} (h : Spans Point.Alike segment count path)
    (tail head : Point Float) :
    Meets path tail head ↔
      (tail.IsNumber → segment.tail.same tail = true) ∧
        (head.IsNumber → segment.head.same head = true) := by
  obtain ⟨first, inner, last, hpath, -, hfirst, hlast⟩ := h
  have hzero : path[0]? = some first := by
    rw [← Array.getElem?_toList, hpath]
    rfl
  have hback : path.back? = some last := by
    rw [← Array.getLast?_toList, hpath, ← List.cons_append, List.getLast?_concat]
  constructor
  · rintro ⟨htail, hhead⟩
    refine ⟨fun hnumber => ?_, fun hnumber => ?_⟩
    · obtain ⟨point, hpoint, hsame⟩ := htail hnumber
      rw [← hfirst tail, Option.some.inj (hzero.symm.trans hpoint)]
      exact hsame
    · obtain ⟨point, hpoint, hsame⟩ := hhead hnumber
      rw [← hlast head, Option.some.inj (hback.symm.trans hpoint)]
      exact hsame
  · rintro ⟨htail, hhead⟩
    exact ⟨fun hnumber => ⟨first, hzero, (hfirst tail).trans (htail hnumber)⟩,
      fun hnumber => ⟨last, hback, (hlast head).trans (hhead hnumber)⟩⟩

namespace Graph

/-- The path of an edge runs from where its tail is to where its head is. -/
def Attached (graph : Graph Float) (index : Nat) (edge : Edge Float) : Prop :=
  Meets (graph.edgePath index) (graph.position edge.tail) (graph.position edge.head)

/-- The ends of an edge compare equal to where they stood in an earlier graph. -/
def EndsUnmoved (earlier graph : Graph Float) (edge : Edge Float) : Prop :=
  ((graph.position edge.tail).IsNumber →
      (earlier.position edge.tail).same (graph.position edge.tail) = true) ∧
    ((graph.position edge.head).IsNumber →
      (earlier.position edge.head).same (graph.position edge.head) = true)

theorem attached_of_storedPath?_eq_none {graph : Graph Float} {index : Nat} {edge : Edge Float}
    (hedge : graph.edges[index]? = some edge) (h : graph.storedPath? index = none) :
    graph.Attached index edge := by
  unfold Attached
  rw [edgePath_of_storedPath?_eq_none hedge h]
  exact meets_straight _ _

/-- A path that was bundled at an earlier graph is attached as long as its ends do not move. -/
theorem attached_iff_endsUnmoved {earlier graph : Graph Float}
    {bundling : BundlingParameters Float}
    (hpaths : graph.paths = some (Bundling.bundle bundling earlier.segments))
    (hedges : graph.edges = earlier.edges) {index : Nat} {edge : Edge Float}
    (hedge : graph.edges[index]? = some edge) {path : Array (Point Float)}
    (hpath : graph.storedPath? index = some path) :
    graph.Attached index edge ↔ EndsUnmoved earlier graph edge := by
  have hspans := List.forall₂_iff_zip.mp (Bundling.forall₂_spans_bundle (fun _ _ => rfl)
    Point.Alike.add_zero bundling earlier.segments)
  have hsegment : earlier.segments[index]? = some (earlier.segment edge) :=
    getElem?_segments (hedges ▸ hedge)
  unfold storedPath? at hpath
  rw [hpaths, Option.bind_some, Option.filter_eq_some_iff] at hpath
  rcases hspans.2 (List.mem_of_getElem? (List.getElem?_zip_eq_some.mpr ⟨hsegment, hpath.1⟩))
    with hempty | ⟨count, hspan⟩
  · rw [hempty] at hpath
    simp at hpath
  · have hdrawn : graph.edgePath index = path := by
      unfold edgePath storedPath?
      rw [hpaths, Option.bind_some, Option.filter_eq_some_iff.mpr hpath]
    unfold Attached
    rw [hdrawn]
    exact hspan.meets_iff _ _

/-- **An edge of a reachable graph is attached exactly if it has no stored path or its ends have
not moved since the paths were stored.** -/
theorem Reachable.attached_iff {graph : Graph Float} (h : graph.Reachable) :
    ∃ earlier : Graph Float, earlier.Reachable ∧ earlier.PathsUpToDate ∧
      Relation.ReflTransGen KeepingStep earlier graph ∧
      ∀ {index : Nat} {edge : Edge Float}, graph.edges[index]? = some edge →
        (graph.Attached index edge ↔
          graph.storedPath? index = none ∨ EndsUnmoved earlier graph edge) := by
  obtain ⟨earlier, hearlier, hupToDate, hsteps⟩ := h.exists_upToDate
  obtain ⟨hpaths, hedges⟩ := paths_edges_of_steps hsteps
  refine ⟨earlier, hearlier, hupToDate, hsteps, fun {index edge} hedge => ?_⟩
  cases hpath : graph.storedPath? index with
  | none => exact iff_of_true (attached_of_storedPath?_eq_none hedge hpath) (Or.inl rfl)
  | some path =>
      -- a stored path was stored by the last bundling, at the earlier graph
      rcases hupToDate with hnone | ⟨bundling, hsome⟩
      · unfold storedPath? at hpath
        rw [hpaths, hnone] at hpath
        cases hpath
      · rw [attached_iff_endsUnmoved (hpaths.trans hsome) hedges hedge hpath]
        exact ⟨Or.inr, fun h => h.resolve_left nofun⟩

/-! ### A path left behind -/

/-- An edge between the first two nodes. -/
def link : Edge Float where
  tail := 0
  head := 1
  directed := false
  attraction := 1
  options := {}

/-- Two nodes at unit distance and an edge, bundled straight and then fitted to a surface. -/
def bundledThenFitted : List (Operation Float) :=
  [.addNode (.placed "A" ⟨0, 0⟩ {}), .addNode (.placed "B" ⟨1, 0⟩ {}), .addEdge link,
    .bundleEdges { BundlingParameters.default with cycleCount := 0 },
    .fit ⟨100, 100, 12⟩ .default]

/-- A graph without nodes that does not ask for bundled edges. -/
def unbundled : Graph Float := empty "g" .default (Stream.ofSeed 1)

theorem exists_bundledThenFitted :
    ∃ graph : Graph Float, Operation.run? bundledThenFitted unbundled = some graph ∧
      graph.edges[0]? = some link ∧ graph.edgePath 0 = #[⟨0, 0⟩, ⟨1, 0⟩] ∧
      graph.position link.tail = ⟨12, 50⟩ ∧ graph.position link.head = ⟨88, 50⟩ := by
  have hrun : (Operation.run? bundledThenFitted unbundled).map
      (fun graph => (graph.edges[0]?, graph.edgePath 0, graph.position link.tail,
        graph.position link.head)) =
        some (some link, #[⟨0, 0⟩, ⟨1, 0⟩], ⟨12, 50⟩, ⟨88, 50⟩) := by
    decide +kernel
  obtain ⟨graph, hgraph, hfacts⟩ := Option.map_eq_some_iff.mp hrun
  simp only [Prod.mk.injEq] at hfacts
  exact ⟨graph, hgraph, hfacts⟩

theorem reachable_unbundled : unbundled.Reachable := .empty _ _ _

/-- What decides whether the edge is attached after the fitting. -/
theorem attached_iff_bundledThenFitted :
    ∃ graph : Graph Float, Operation.run? bundledThenFitted unbundled = some graph ∧
      graph.Reachable ∧ ∃ earlier : Graph Float, earlier.Reachable ∧ earlier.PathsUpToDate ∧
        Relation.ReflTransGen KeepingStep earlier graph ∧
        (graph.Attached 0 link ↔ graph.storedPath? 0 = none ∨ EndsUnmoved earlier graph link) := by
  obtain ⟨graph, hrun, hedge, -⟩ := exists_bundledThenFitted
  have hgraph := reachable_unbundled.run hrun
  obtain ⟨earlier, hearlier, hupToDate, hsteps, hiff⟩ := Reachable.attached_iff hgraph
  exact ⟨graph, hrun, hgraph, earlier, hearlier, hupToDate, hsteps, hiff hedge⟩

/-- A fitting without bundling leaves a path behind that its nodes have left. -/
theorem fit_leaves_path_behind :
    ∃ graph : Graph Float, Operation.run? bundledThenFitted unbundled = some graph ∧
      graph.Reachable ∧ graph.edges[0]? = some link ∧ ¬ graph.Attached 0 link := by
  obtain ⟨graph, hrun, hedge, hpath, htail, -⟩ := exists_bundledThenFitted
  refine ⟨graph, hrun, reachable_unbundled.run hrun, hedge, fun hattached => ?_⟩
  unfold Attached at hattached
  rw [hpath, htail] at hattached
  have hnumber : (⟨12, 50⟩ : Point Float).IsNumber := by
    unfold Point.IsNumber
    decide +kernel
  have hapart : (⟨0, 0⟩ : Point Float).same ⟨12, 50⟩ = false := by decide +kernel
  obtain ⟨point, hpoint, hsame⟩ := hattached.first hnumber
  have hfirst : (⟨0, 0⟩ : Point Float) = point := Option.some.inj hpoint
  rw [← hfirst, hapart] at hsame
  cases hsame

end Graph

end NodeLink
