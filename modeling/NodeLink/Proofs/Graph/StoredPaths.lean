import NodeLink.Proofs.Bundling.Sizes
import NodeLink.Proofs.Graph.Content

/-! # Which paths are stored

A graph stores no paths, or one for every edge in the order of the edges, and each of them is empty
or has two points at least.  Bundling stores as many as there are edges, and an edge that comes
later drops them all, so what is stored always goes with the edges that there are.

Which of the paths are empty was decided when they were stored.  `Graph.Since` remembers, beside a
graph, the graph as it stood then.  An edge is drawn straight exactly if no paths are stored, or its
ends coincided there (`Graph.Reachable.storesPaths`); where the nodes have gone since does not
count. -/

namespace NodeLink

open NodeLink.Random (Stream)

variable {α : Type} [Scalar α]

/-! ### Where the stored paths come from -/

/-- The graph that stood when the paths were stored which an operation leaves behind: the one it
leaves if it bundles, none if it drops them, and else the earlier one. -/
def Operation.origin? (operation : Operation α) (before after : Graph α)
    (origin? : Option (Graph α)) : Option (Graph α) :=
  match operation with
  | addEdge _ => none
  | bundleEdges _ => some after
  | fit _ _ => if before.parameters.bundle then some after else origin?
  | _ => origin?

namespace Graph

/-- The graphs that operations come to, each with the graph that stood when its edges were bundled
for the last time; there is none if they were not, or an edge was added since. -/
inductive Since : Option (Graph α) → Graph α → Prop where
  | empty (name : String) (parameters : Parameters α) (stream : Stream) :
      Since none (empty name parameters stream)
  | built {document : Document} {parameters : Parameters α} {stream : Stream} {graph : Graph α}
      (h : build document parameters stream = .ok graph) : Since none graph
  | compiled {source : String} {options : CompileOptions α} {fresh : Stream} {graph : Graph α}
      (h : compile source options fresh = .ok graph) : Since none graph
  | step {origin? : Option (Graph α)} {graph next : Graph α} (operation : Operation α)
      (h : Since origin? graph) (hnext : operation.next? graph = some next) :
      Since (operation.origin? graph next origin?) next

theorem Reachable.exists_since {graph : Graph α} (h : graph.Reachable) :
    ∃ origin?, Since origin? graph := by
  induction h with
  | empty name parameters stream => exact ⟨none, .empty name parameters stream⟩
  | built h => exact ⟨none, .built h⟩
  | compiled h => exact ⟨none, .compiled h⟩
  | step operation h hnext ih =>
      obtain ⟨origin?, hsince⟩ := ih
      exact ⟨_, hsince.step operation hnext⟩

/-- The stored paths are those of the edges that there are, bundled at the origin. -/
def StoredAt (origin? : Option (Graph α)) (graph : Graph α) : Prop :=
  match origin? with
  | none => graph.paths = none
  | some origin => origin.edges = graph.edges ∧
      ∃ bundling, graph.paths = some (Bundling.bundle bundling origin.segments)

theorem StoredAt.of_eq {origin? : Option (Graph α)} {graph next : Graph α}
    (h : StoredAt origin? graph) (hpaths : next.paths = graph.paths)
    (hedges : next.edges = graph.edges) : StoredAt origin? next := by
  cases origin? with
  | none => exact hpaths.trans h
  | some origin =>
      obtain ⟨horigin, bundling, hbundled⟩ := h
      exact ⟨horigin.trans hedges.symm, bundling, hpaths.trans hbundled⟩

theorem storedAt_bundleEdges (graph : Graph α) (bundling : BundlingParameters α) :
    StoredAt (some (graph.bundleEdges bundling)) (graph.bundleEdges bundling) :=
  ⟨rfl, bundling, rfl⟩

/-- One operation keeps the stored paths and their origin together. -/
theorem StoredAt.step {origin? : Option (Graph α)} {graph next : Graph α}
    (h : StoredAt origin? graph) {operation : Operation α}
    (hnext : operation.next? graph = some next) :
    StoredAt (operation.origin? graph next origin?) next := by
  cases operation with
  | addNode node =>
      obtain ⟨hpaths, hedges⟩ := addNode_paths_edges graph node
      obtain rfl := Option.some.inj hnext
      exact h.of_eq hpaths hedges
  | addEdge edge =>
      obtain ⟨⟨index, added⟩, hadd, rfl⟩ := Option.map_eq_some_iff.mp hnext
      obtain ⟨-, -, rfl⟩ := addEdge?_eq_some hadd
      rfl
  | tick =>
      obtain rfl := Option.some.inj hnext
      exact h.of_eq rfl rfl
  | layout =>
      obtain ⟨hpaths, hedges⟩ := ticks_paths_edges graph graph.parameters.maxTicks
      obtain rfl := Option.some.inj hnext
      exact h.of_eq hpaths hedges
  | recomputeBounds =>
      obtain rfl := Option.some.inj hnext
      exact h.of_eq rfl rfl
  | bundleEdges bundling =>
      obtain rfl := Option.some.inj hnext
      exact storedAt_bundleEdges graph bundling
  | fit frame bundling =>
      obtain ⟨fitted, hpaths, hedges, hfit⟩ := fit_eq graph frame bundling
      have hafter : next =
          if graph.parameters.bundle then fitted.bundleEdges bundling else fitted :=
        (Option.some.inj hnext).symm.trans hfit
      unfold Operation.origin?
      dsimp only
      split_ifs at hafter ⊢
      · subst hafter
        exact storedAt_bundleEdges fitted bundling
      · subst hafter
        exact h.of_eq hpaths hedges

theorem Since.storedAt {origin? : Option (Graph α)} {graph : Graph α} (h : Since origin? graph) :
    StoredAt origin? graph := by
  induction h with
  | empty name parameters stream => rfl
  | built h => exact paths_of_build h
  | compiled h => exact paths_of_compile h
  | step operation h hnext ih => exact ih.step hnext

/-! ### What is stored -/

/-- The edge was left out of the last bundling, as its ends coincided there. -/
def CoincidedAt (origin? : Option (Graph α)) (edge : Edge α) : Prop :=
  ∃ origin ∈ origin?, (origin.segment edge).isDegenerate = true

/-- No paths are stored, or one for every edge, empty or of at least two points. -/
def PathsFitEdges (graph : Graph α) : Prop :=
  ∀ paths ∈ graph.paths,
    paths.length = graph.edges.size ∧ ∀ path ∈ paths, path.isEmpty = true ∨ 2 ≤ path.size

/-- How the path of an edge is found, given where the stored paths come from. -/
structure FindsPath (origin? : Option (Graph α)) (graph : Graph α) (index : Nat)
    (edge : Edge α) : Prop where
  /-- There are two points at least. -/
  two_le : 2 ≤ (graph.edgePath index).size
  /-- The edge has no path of its own exactly if none is stored or its ends coincided. -/
  storedPath?_eq_none_iff :
    graph.storedPath? index = none ↔ graph.paths = none ∨ CoincidedAt origin? edge
  /-- Without one, it is drawn straight between its ends. -/
  straight : graph.storedPath? index = none →
    graph.edgePath index = #[graph.position edge.tail, graph.position edge.head]
  /-- With one, that is what is drawn. -/
  stored : ∀ path, graph.storedPath? index = some path →
    graph.edgePath index = path ∧ ∃ paths, graph.paths = some paths ∧ paths[index]? = some path

section StoredAt

variable {origin? : Option (Graph α)} {graph : Graph α}

theorem StoredAt.pathsFitEdges (h : StoredAt origin? graph) : graph.PathsFitEdges := by
  intro paths hpaths
  rw [Option.mem_def] at hpaths
  cases origin? with
  | none => cases hpaths.symm.trans h
  | some origin =>
      obtain ⟨hedges, bundling, hbundled⟩ := h
      obtain rfl := Option.some.inj (hbundled.symm.trans hpaths)
      have hlength : (Bundling.bundle bundling origin.segments).length = graph.edges.size := by
        rw [← (Bundling.forall₂_size_bundle bundling origin.segments).length_eq, segments,
          List.length_map, Array.length_toList, hedges]
      refine ⟨hlength, fun path hpath => ?_⟩
      -- the path is that of an edge, at the same index
      obtain ⟨index, hindex⟩ := List.mem_iff_getElem?.mp hpath
      have hlt : index < origin.edges.size := by
        rw [hedges, ← hlength]
        exact (List.getElem?_eq_some_iff.mp hindex).1
      obtain ⟨bundled, hpath', hsize⟩ :=
        exists_getElem?_bundle bundling (Array.getElem?_eq_getElem hlt)
      obtain rfl := Option.some.inj (hpath'.symm.trans hindex)
      have htwo := bundling.two_le_pointCount
      rw [Array.isEmpty_iff_size_eq_zero]
      split_ifs at hsize
      · exact .inl hsize
      · exact .inr (hsize ▸ htwo)

/-- The origin decides which edges have a path of their own. -/
theorem StoredAt.storedPath?_eq_none_iff (h : StoredAt origin? graph) {index : Nat}
    {edge : Edge α} (hedge : graph.edges[index]? = some edge) :
    graph.storedPath? index = none ↔ graph.paths = none ∨ CoincidedAt origin? edge := by
  cases origin? with
  | none =>
      have hnone : graph.paths = none := h
      have hstored : graph.storedPath? index = none := by
        unfold storedPath?
        rw [hnone]
        rfl
      exact iff_of_true hstored (.inl hnone)
  | some origin =>
      obtain ⟨hedges, bundling, hbundled⟩ := h
      obtain ⟨path, hpath, hsize⟩ := exists_getElem?_bundle bundling (hedges ▸ hedge)
      have hempty : path.isEmpty = true ↔ (origin.segment edge).isDegenerate = true := by
        have htwo := bundling.two_le_pointCount
        rw [Array.isEmpty_iff_size_eq_zero]
        split_ifs at hsize with hd
        · exact iff_of_true hsize hd
        · exact iff_of_false (by omega) hd
      rw [storedPath?_of_getElem? hbundled hpath, hbundled]
      simp [CoincidedAt, hempty]

theorem StoredAt.findsPath (h : StoredAt origin? graph) {index : Nat} {edge : Edge α}
    (hedge : graph.edges[index]? = some edge) : FindsPath origin? graph index edge where
  two_le := by
    cases hstored : graph.storedPath? index with
    | none =>
        rw [edgePath_of_storedPath?_eq_none hedge hstored]
        exact Nat.le_refl 2
    | some path =>
        obtain ⟨hsome, hnonempty⟩ := Option.filter_eq_some_iff.mp hstored
        obtain ⟨paths, hpaths, hpath⟩ := Option.bind_eq_some_iff.mp hsome
        rw [edgePath_of_storedPath?_eq_some hstored]
        exact ((h.pathsFitEdges paths hpaths).2 path (List.mem_of_getElem? hpath)).resolve_left
          (by simpa using hnonempty)
  storedPath?_eq_none_iff := h.storedPath?_eq_none_iff hedge
  straight := edgePath_of_storedPath?_eq_none hedge
  stored := by
    intro path hstored
    obtain ⟨hsome, -⟩ := Option.filter_eq_some_iff.mp hstored
    exact ⟨edgePath_of_storedPath?_eq_some hstored, Option.bind_eq_some_iff.mp hsome⟩

end StoredAt

/-- **A reachable graph stores no paths, or one for every edge**, and an edge is drawn straight
exactly if none are stored or its ends coincided when they were. -/
theorem Reachable.storesPaths {graph : Graph α} (h : graph.Reachable) :
    graph.PathsFitEdges ∧ (∃ origin?, Since origin? graph) ∧
      ∀ origin?, Since origin? graph → StoredAt origin? graph ∧
        ∀ (index : Nat) (edge : Edge α), graph.edges[index]? = some edge →
          FindsPath origin? graph index edge := by
  obtain ⟨origin?, hsince⟩ := h.exists_since
  exact ⟨hsince.storedAt.pathsFitEdges, ⟨origin?, hsince⟩,
    fun _ hsince => ⟨hsince.storedAt, fun _ _ hedge => hsince.storedAt.findsPath hedge⟩⟩

/-- Two nodes with an edge and a loop, bundled, and then a tick that moves the nodes. -/
def bundledThenTicked : List (Operation Float) :=
  let node (id : String) (position : Point Float) : Operation Float :=
    .addNode (Node.placed id position {})
  let edge (tail head : Nat) : Operation Float :=
    .addEdge { tail, head, directed := false, attraction := Scalar.one, options := {} }
  [node "A" ⟨0, 0⟩, node "B" ⟨3, 0⟩, edge 0 1, edge 0 0,
    .bundleEdges { BundlingParameters.default with cycleCount := 1, initialIterationCount := 1 },
    .tick]

/-- The loop has an empty path, and so it is drawn straight. -/
theorem storesPaths_bundledThenTicked :
    ∃ graph : Graph Float, Operation.run? bundledThenTicked
        (empty "g" Parameters.default (Stream.ofSeed 1)) = some graph ∧
      graph.paths.map (List.map Array.size) = some [4, 0] ∧ graph.Reachable ∧
      graph.PathsFitEdges ∧ (∃ origin?, Since origin? graph) ∧
      ∀ origin?, Since origin? graph → StoredAt origin? graph ∧
        ∀ (index : Nat) (edge : Edge Float), graph.edges[index]? = some edge →
          FindsPath origin? graph index edge := by
  have hrun : (Operation.run? bundledThenTicked
      (empty "g" Parameters.default (Stream.ofSeed 1))).map
        (fun graph => graph.paths.map (List.map Array.size)) = some (some [4, 0]) := by
    decide +kernel
  obtain ⟨graph, hgraph, hsizes⟩ := Option.map_eq_some_iff.mp hrun
  have hreachable := (Reachable.empty "g" Parameters.default (Stream.ofSeed 1)).run hgraph
  exact ⟨graph, hgraph, hsizes, hreachable, Reachable.storesPaths hreachable⟩

end Graph

end NodeLink
