import NodeLink.Proofs.Graph.Content
import NodeLink.Proofs.Graph.Displacement
import NodeLink.Proofs.Graph.Enclosure
import NodeLink.Proofs.Graph.Safety
import NodeLink.Proofs.Random.Draws

/-! # Graphs that come of documents

A graph that is built from a document is well formed (`Graph.wellFormed_of_build`): no two nodes
share an identifier, every edge has its ends, the box is the one around the nodes, and places are
numbers.  A tick keeps all of this if its limit is finite, without a finite limit everything but the
last (`Graph.WellFormed.tick`), and so does a layout. -/

namespace NodeLink

open NodeLink.Random (Stream)

/-! ### First places -/

namespace Placement

/-- The least coordinate that a placement can draw. -/
def lowest : Placement Float → Float
  | range low _ => low
  | fixed value => value

theorem isFinite_lowest {a b : Float} {placement : Placement Float}
    (h : between? a b = some placement) : placement.lowest.isFinite = true := by
  unfold between? at h
  dsimp only at h
  split_ifs at h with hproper hdifference hlow
  · cases h
    exact (Bool.and_eq_true_iff.mp (Bool.and_eq_true_iff.mp hproper).1).2
  · cases h
    exact hlow
  · cases h
    decide

theorem isNaN_draw {placement : Placement Float} (h : placement.lowest.isNaN = false)
    (stream : Stream) : (placement.draw stream).1.isNaN = false := by
  cases placement with
  | range low high => exact Random.isNaN_drawBelow h high _ _ stream
  | fixed value => exact h

theorem isNumber_pointAt {placement : Placement Float} (h : placement.lowest.isNaN = false)
    (stream : Stream) (n : Nat) : (placement.pointAt stream n).IsNumber :=
  ⟨isNaN_draw h _, isNaN_draw h _⟩

end Placement

namespace Graph

/-! ### Graphs of first declarations -/

section FirstDeclarations

variable {document : Document} {parameters : Parameters Float} {placement : Placement Float}
  {stream : Stream}

theorem nodup_ids_ofFirsts : (ofFirsts document parameters placement stream).ids.Nodup := by
  have hids : (ofFirsts document parameters placement stream).ids =
      (firsts NodeDeclaration.identifier document.nodeDeclarations).map
        fun declared => declared.1.identifier := by
    unfold ids ofFirsts Document.firstNodes
    rw [List.map_map]
    rfl
  rw [hids]
  exact nodup_keys_firsts document.nodeDeclarations

theorem allNumbers_ofFirsts (h : document.nodeDeclarations ≠ [] →
      Placement.between? parameters.placementRange.1 parameters.placementRange.2 =
        some placement) :
    (ofFirsts document parameters placement stream).AllNumbers := by
  intro node hnode
  have hfirst : node ∈ document.firstNodes (placement.pointAt stream) := hnode
  obtain ⟨declared, hdeclared, rfl⟩ := List.mem_map.mp hfirst
  have hne : document.nodeDeclarations ≠ [] :=
    List.ne_nil_of_mem (List.fst_mem_of_mem_zipIdx (List.mem_filter.mp hdeclared).1)
  have hlowest := Double.isNaN_eq_false (Placement.isFinite_lowest (h hne))
  exact Placement.isNumber_pointAt hlowest stream declared.2

end FirstDeclarations

/-! ### Well-formed graphs -/

/-- What a graph of a document with some parameters has, before and after its layout. -/
structure WellFormed (parameters : Parameters Float) (graph : Graph Float) : Prop where
  /-- The parameters stay. -/
  parameters_eq : graph.parameters = parameters
  /-- No two nodes share an identifier. -/
  nodup : graph.ids.Nodup
  /-- Every edge has its ends. -/
  ends : graph.EndsExist
  /-- The box is the one around the nodes. -/
  bounds : graph.BoundsFit
  /-- With a finite limit on how far a tick moves a node, places are numbers. -/
  numbers : parameters.maxVertexDisplacement.isFinite = true → graph.AllNumbers

variable {document : Document} {parameters : Parameters Float} {graph : Graph Float}

/-- What is built from a document is well formed. -/
theorem wellFormed_of_build {stream : Stream}
    (h : build document parameters stream = .ok graph) : graph.WellFormed parameters := by
  obtain ⟨placement, hplacement, hends, rfl⟩ := exists_eq_ofFirsts_of_build h
  exact
    { parameters_eq := rfl
      nodup := nodup_ids_ofFirsts
      ends := endsExist_ofFirsts parameters placement stream hends
      bounds := boundsFit_of_build h
      numbers := fun _ => allNumbers_ofFirsts hplacement }

/-- A tick keeps a graph well formed. -/
theorem WellFormed.tick (h : graph.WellFormed parameters) : graph.tick.WellFormed parameters where
  parameters_eq := h.parameters_eq
  nodup := by
    rw [graph.sameContent_tick.ids]
    exact h.nodup
  ends := h.ends.tick
  bounds := boundsFit_tick graph
  numbers hlimit := by
    have hlimit' : graph.parameters.maxVertexDisplacement.isFinite = true := by
      rwa [h.parameters_eq]
    exact (tick_moves_within hlimit' (h.numbers hlimit)).allNumbers

theorem WellFormed.layout (h : graph.WellFormed parameters) :
    graph.layout.WellFormed parameters :=
  repeat_preserves (f := Graph.tick) (fun _ h => h.tick) graph.parameters.maxTicks h

theorem WellFormed.bundleEdges (h : graph.WellFormed parameters)
    (bundling : BundlingParameters Float) : (graph.bundleEdges bundling).WellFormed parameters :=
  ⟨h.parameters_eq, h.nodup, h.ends, h.bounds, h.numbers⟩

theorem wellFormed_of_compile {source : String} {options : CompileOptions Float} {fresh : Stream}
    (h : compile source options fresh = .ok graph) :
    ∃ document, parse source = .ok document ∧
      graph.WellFormed (Parameters.resolve document options.parameters) := by
  obtain ⟨document, built, hparse, hbuilt, rfl⟩ := exists_build_of_compile h
  exact ⟨document, hparse, (wellFormed_of_build hbuilt).layout⟩

/-- If places are numbers, the box is empty only without nodes. -/
theorem WellFormed.isEmpty_bounds (h : graph.WellFormed parameters)
    (hlimit : parameters.maxVertexDisplacement.isFinite = true) :
    graph.bounds.isEmpty = true ↔ graph.nodes.toList = [] := by
  have hnumbers : ∀ point ∈ graph.positions, point.IsNumber := by
    intro point hpoint
    obtain ⟨node, hnode, rfl⟩ := List.mem_map.mp hpoint
    exact h.numbers hlimit node hnode
  have hempty := (Bounds.encloses_ofPoints hnumbers).isEmpty
  rwa [← h.bounds, positions, List.map_eq_nil_iff] at hempty

end Graph

end NodeLink
