import NodeLink.Drawing.Fit
import NodeLink.Proofs.Graph.FirstDeclarations
import Mathlib.Logic.Relation

/-! # Reachable graphs

What can be done to a graph (`Operation`), and the graphs that come of it (`Graph.Reachable`),
starting from a graph without nodes, the graph of a document or that of a source.

An operation either leaves the stored paths of the edges and the edges themselves as they are, or
the paths after it are up to date: none are stored, or those of a bundling where the nodes stand
(`Operation.upToDate`).  So every reachable graph comes from one with paths up to date by
operations that leave paths as they are (`Graph.Reachable.exists_upToDate`). -/

namespace NodeLink

open NodeLink.Random (Stream)

variable {α : Type} [Scalar α]

/-! ### Operations -/

/-- What can be done to a graph. -/
inductive Operation (α : Type) where
  | addNode (node : Node α)
  | addEdge (edge : Edge α)
  | tick
  | layout
  | recomputeBounds
  | bundleEdges (bundling : BundlingParameters α)
  | fit (frame : Frame α) (bundling : BundlingParameters α)

namespace Operation

/-- The graph after an operation; an edge can only be added between nodes of the graph. -/
def next? : Operation α → Graph α → Option (Graph α)
  | addNode node, graph => some (graph.addNode node).2
  | addEdge edge, graph => (graph.addEdge? edge).map Prod.snd
  | tick, graph => some graph.tick
  | layout, graph => some graph.layout
  | recomputeBounds, graph => some graph.recomputeBounds
  | bundleEdges bundling, graph => some (graph.bundleEdges bundling)
  | fit frame bundling, graph => some (graph.fit frame bundling)

/-- The graph after some operations, one after another. -/
def run? (operations : List (Operation α)) (graph : Graph α) : Option (Graph α) :=
  operations.foldlM (fun graph operation => operation.next? graph) graph

/-- Whether an operation leaves the stored paths of a graph as they are. -/
def KeepsPaths : Operation α → Graph α → Prop
  | addEdge _, _ => False
  | bundleEdges _, _ => False
  | fit _ _, graph => graph.parameters.bundle = false
  | _, _ => True

end Operation

namespace Graph

/-- The graphs that operations come to. -/
inductive Reachable : Graph α → Prop where
  | empty (name : String) (parameters : Parameters α) (stream : Stream) :
      Reachable (empty name parameters stream)
  | built {document : Document} {parameters : Parameters α} {stream : Stream} {graph : Graph α}
      (h : build document parameters stream = .ok graph) : Reachable graph
  | compiled {source : String} {options : CompileOptions α} {fresh : Stream} {graph : Graph α}
      (h : compile source options fresh = .ok graph) : Reachable graph
  | step {graph next : Graph α} (operation : Operation α) (h : Reachable graph)
      (hnext : operation.next? graph = some next) : Reachable next

theorem Reachable.run {operations : List (Operation α)} {graph last : Graph α}
    (h : graph.Reachable) (hlast : Operation.run? operations graph = some last) : last.Reachable :=
  foldlM_preserves (fun h hnext => h.step _ hnext) operations h hlast

/-! ### Stored paths -/

/-- Either no paths are stored, or those of a bundling where the nodes stand. -/
def PathsUpToDate (graph : Graph α) : Prop :=
  graph.paths = none ∨
    ∃ bundling, graph.paths = some (Bundling.bundle bundling graph.segments)

/-- One operation leads from a graph to another and leaves the stored paths as they are. -/
def KeepingStep (graph next : Graph α) : Prop :=
  ∃ operation : Operation α, operation.KeepsPaths graph ∧ operation.next? graph = some next

theorem addNode_paths_edges (graph : Graph α) (node : Node α) :
    (graph.addNode node).2.paths = graph.paths ∧ (graph.addNode node).2.edges = graph.edges := by
  unfold addNode
  split <;> exact ⟨rfl, rfl⟩

theorem ticks_paths_edges (graph : Graph α) (count : Nat) :
    (graph.ticks count).paths = graph.paths ∧ (graph.ticks count).edges = graph.edges :=
  repeat_preserves (f := tick)
    (P := fun now : Graph α => now.paths = graph.paths ∧ now.edges = graph.edges)
    (fun _ h => h) count ⟨rfl, rfl⟩

/-- The graph as it is fitted to a surface, before its edges may be bundled. -/
theorem fit_eq (graph : Graph α) (frame : Frame α) (bundling : BundlingParameters α) :
    ∃ fitted : Graph α, fitted.paths = graph.paths ∧ fitted.edges = graph.edges ∧
      graph.fit frame bundling =
        if graph.parameters.bundle then fitted.bundleEdges bundling else fitted := by
  unfold fit
  split
  · exact ⟨graph, rfl, rfl, rfl⟩
  · exact ⟨(graph.placeOn frame).centreOn frame, rfl, rfl, rfl⟩

theorem pathsUpToDate_bundleEdges (graph : Graph α) (bundling : BundlingParameters α) :
    (graph.bundleEdges bundling).PathsUpToDate :=
  Or.inr ⟨bundling, rfl⟩

theorem KeepingStep.paths_edges {graph next : Graph α} (h : KeepingStep graph next) :
    next.paths = graph.paths ∧ next.edges = graph.edges := by
  obtain ⟨operation, hkeeps, hnext⟩ := h
  cases operation with
  | addNode node => exact Option.some.inj hnext ▸ addNode_paths_edges graph node
  | addEdge edge => cases hkeeps
  | tick => exact Option.some.inj hnext ▸ ⟨rfl, rfl⟩
  | layout => exact Option.some.inj hnext ▸ ticks_paths_edges graph _
  | recomputeBounds => exact Option.some.inj hnext ▸ ⟨rfl, rfl⟩
  | bundleEdges bundling => cases hkeeps
  | fit frame bundling =>
      obtain ⟨fitted, hpaths, hedges, hfit⟩ := fit_eq graph frame bundling
      have hoff : graph.parameters.bundle = false := hkeeps
      rw [hoff, if_neg (by simp)] at hfit
      exact Option.some.inj hnext ▸ hfit ▸ ⟨hpaths, hedges⟩

end Graph

/-- After an operation that does not leave the stored paths as they are, they are up to date. -/
theorem Operation.upToDate {operation : Operation α} {graph next : Graph α}
    (hkeeps : ¬ operation.KeepsPaths graph) (hnext : operation.next? graph = some next) :
    next.PathsUpToDate := by
  cases operation with
  | addNode node => exact absurd trivial hkeeps
  | addEdge edge =>
      obtain ⟨⟨index, added⟩, hadd, rfl⟩ := Option.map_eq_some_iff.mp hnext
      unfold Graph.addEdge? at hadd
      split at hadd
      · cases hadd
        exact Or.inl rfl
      · cases hadd
  | tick => exact absurd trivial hkeeps
  | layout => exact absurd trivial hkeeps
  | recomputeBounds => exact absurd trivial hkeeps
  | bundleEdges bundling =>
      exact Option.some.inj hnext ▸ Graph.pathsUpToDate_bundleEdges graph bundling
  | fit frame bundling =>
      obtain ⟨fitted, -, -, hfit⟩ := Graph.fit_eq graph frame bundling
      have hon : graph.parameters.bundle = true := Bool.not_eq_false _ |>.mp hkeeps
      rw [if_pos hon] at hfit
      exact Option.some.inj hnext ▸ hfit ▸ Graph.pathsUpToDate_bundleEdges fitted bundling

namespace Graph

theorem paths_of_build {document : Document} {parameters : Parameters α} {stream : Stream}
    {graph : Graph α} (h : build document parameters stream = .ok graph) : graph.paths = none := by
  obtain ⟨placement, -, -, rfl⟩ := exists_eq_ofFirsts_of_build h
  rfl

theorem paths_of_compile {source : String} {options : CompileOptions α} {fresh : Stream}
    {graph : Graph α} (h : compile source options fresh = .ok graph) : graph.paths = none := by
  obtain ⟨document, built, -, hbuilt, rfl⟩ := exists_build_of_compile h
  exact (ticks_paths_edges built _).1.trans (paths_of_build hbuilt)

/-- **A reachable graph comes from one with paths up to date**, by operations that leave the
stored paths as they are. -/
theorem Reachable.exists_upToDate {graph : Graph α} (h : graph.Reachable) :
    ∃ earlier : Graph α, earlier.Reachable ∧ earlier.PathsUpToDate ∧
      Relation.ReflTransGen KeepingStep earlier graph := by
  induction h with
  | empty name parameters stream =>
      exact ⟨_, .empty name parameters stream, Or.inl rfl, .refl⟩
  | built h => exact ⟨_, .built h, Or.inl (paths_of_build h), .refl⟩
  | compiled h => exact ⟨_, .compiled h, Or.inl (paths_of_compile h), .refl⟩
  | @step graph next operation h hnext ih =>
      by_cases hkeeps : operation.KeepsPaths graph
      · obtain ⟨earlier, hearlier, hpaths, hsteps⟩ := ih
        exact ⟨earlier, hearlier, hpaths, hsteps.tail ⟨operation, hkeeps, hnext⟩⟩
      · exact ⟨next, h.step operation hnext, Operation.upToDate hkeeps hnext, .refl⟩

/-- Steps that leave the stored paths as they are leave the edges as they are, too. -/
theorem paths_edges_of_steps {earlier graph : Graph α}
    (h : Relation.ReflTransGen KeepingStep earlier graph) :
    graph.paths = earlier.paths ∧ graph.edges = earlier.edges := by
  induction h with
  | refl => exact ⟨rfl, rfl⟩
  | tail _ hstep ih =>
      obtain ⟨hpaths, hedges⟩ := hstep.paths_edges
      exact ⟨hpaths.trans ih.1, hedges.trans ih.2⟩

end Graph

end NodeLink
