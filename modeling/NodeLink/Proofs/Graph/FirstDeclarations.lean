import NodeLink.Graph.Build
import NodeLink.Proofs.Sequences
import Mathlib.Data.Sym.Sym2

/-! # Graphs of first declarations

A document has a graph exactly when its nodes can be placed and the ends of all its edges are
declared, and then the graph is made of first declarations alone (`build_eq_ok_iff`).  The nodes
are the first declarations of their identifiers and stand at the points drawn for these; a point
is drawn for every declaration, also for one that is dropped later on.  The edges are the first
declarations of their pairs of ends, in either direction. -/

namespace NodeLink

open NodeLink.Random (Stream)

variable {α : Type}

/-! ### Look-up by identifier -/

namespace Graph

/-- The identifiers of the nodes, in their order. -/
def ids (graph : Graph α) : List String := graph.nodes.toList.map Node.id

theorem indexOf?_eq_idxOf? (graph : Graph α) (id : String) :
    graph.indexOf? id = graph.ids.idxOf? id := by
  have hmap : (graph.nodes.toList.map Node.id).findIdx? (· == id) =
      graph.nodes.toList.findIdx? ((· == id) ∘ Node.id) := List.findIdx?_map
  unfold indexOf? ids
  rw [List.idxOf?, hmap, ← List.findIdx?_toArray]
  rfl

theorem indexOf?_eq_none_iff {graph : Graph α} {id : String} :
    graph.indexOf? id = none ↔ id ∉ graph.ids := by
  rw [indexOf?_eq_idxOf?, List.idxOf?_eq_none_iff]

theorem indexOf?_of_mem {graph : Graph α} {id : String} (h : id ∈ graph.ids) :
    graph.indexOf? id = some (graph.ids.idxOf id) := by
  rw [indexOf?_eq_idxOf?]
  exact List.findIdx?_eq_some_iff_findIdx_eq.mpr ⟨List.idxOf_lt_length_of_mem h, rfl⟩

theorem idxOf_lt_size {graph : Graph α} {id : String} (h : id ∈ graph.ids) :
    graph.ids.idxOf id < graph.nodes.size := by
  have hlt := List.idxOf_lt_length_of_mem h
  unfold ids at hlt ⊢
  rwa [List.length_map, Array.length_toList] at hlt

end Graph

variable [Scalar α]

/-! ### The points that are drawn -/

/-- The stream after a number of points were drawn. -/
def Placement.after (placement : Placement α) : Nat → Stream → Stream
  | 0, stream => stream
  | n + 1, stream => placement.after n (placement.drawPoint stream).2

/-- The point that is drawn after a number of others. -/
def Placement.pointAt (placement : Placement α) (stream : Stream) (n : Nat) : Point α :=
  (placement.drawPoint (placement.after n stream)).1

theorem Placement.drawPoints_eq (placement : Placement α) : ∀ (n : Nat) (stream : Stream),
    placement.drawPoints n stream =
      ((List.range n).map (placement.pointAt stream), placement.after n stream)
  | 0, _ => rfl
  | n + 1, stream => by
      have htail := placement.drawPoints_eq n (placement.drawPoint stream).2
      rw [List.range_succ_eq_map, List.map_cons, List.map_map]
      unfold Placement.drawPoints
      simp only [htail]
      rfl

/-! ### The graph that is meant -/

/-- The node of a declaration: its own identifier and options, at the point of its position. -/
def declaredNode (point : Nat → Point α) (declared : NodeDeclaration × Nat) : Node α where
  id := declared.1.identifier
  position := point declared.2
  force := Vec.zero
  options :=
    { color := declared.1.attributes.bind Attributes.color
      label := declared.1.attributes.bind Attributes.label
      font := declared.1.attributes.bind Attributes.font
      fontSize := declared.1.attributes.bind Attributes.fontSize }

/-- The edge of a declaration between nodes with the given identifiers: its own direction and
options, with weight one. -/
def declaredEdge (ids : List String) (declared : EdgeDeclaration × Nat) : Edge α where
  tail := ids.idxOf declared.1.tail
  head := ids.idxOf declared.1.head
  directed := declared.1.directed
  attraction := Scalar.one
  options :=
    { color := declared.1.attributes.bind Attributes.color
      lineWidth := declared.1.attributes.bind Attributes.lineWidth }

/-- The two ends of an edge declaration, in no order. -/
def EdgeDeclaration.ends (declared : EdgeDeclaration) : Sym2 String :=
  s(declared.tail, declared.head)

/-- Every end of an edge is declared as a node, before or after the edge. -/
def Document.EndsDeclared (document : Document) : Prop :=
  ∀ e ∈ document.edgeDeclarations,
    e.tail ∈ document.nodeDeclarations.map NodeDeclaration.identifier ∧
      e.head ∈ document.nodeDeclarations.map NodeDeclaration.identifier

/-- The declared identifiers, in the order of their first declarations. -/
def Document.identifiers (document : Document) : List String :=
  (firsts NodeDeclaration.identifier document.nodeDeclarations).map fun d => d.1.identifier

/-- The nodes of the first declarations of a document. -/
def Document.firstNodes (document : Document) (point : Nat → Point α) : List (Node α) :=
  (firsts NodeDeclaration.identifier document.nodeDeclarations).map (declaredNode point)

/-- The edges of the first declarations of a document. -/
def Document.firstEdges (document : Document) : List (Edge α) :=
  (firsts EdgeDeclaration.ends document.edgeDeclarations).map (declaredEdge document.identifiers)

/-- The graph of the first declarations of a document. -/
def Graph.ofFirsts (document : Document) (parameters : Parameters α) (placement : Placement α)
    (stream : Stream) : Graph α where
  name := document.graphName
  nodes := (document.firstNodes (placement.pointAt stream)).toArray
  edges := document.firstEdges.toArray
  parameters
  bounds := Bounds.ofPoints
    ((document.firstNodes (placement.pointAt stream)).map Node.position)
  paths := none
  stream := placement.after document.nodeDeclarations.length stream

theorem NodeOptions.ofAttributes_eq (attributes : Option Attributes) :
    NodeOptions.ofAttributes attributes =
      { color := attributes.bind Attributes.color
        label := attributes.bind Attributes.label
        font := attributes.bind Attributes.font
        fontSize := attributes.bind Attributes.fontSize } := by
  cases attributes with
  | none => rfl
  | some attributes => rfl

theorem EdgeOptions.ofAttributes_eq (attributes : Option Attributes) :
    EdgeOptions.ofAttributes attributes =
      { color := attributes.bind Attributes.color
        lineWidth := attributes.bind Attributes.lineWidth } := by
  cases attributes with
  | none => rfl
  | some attributes => rfl

namespace Graph

/-! ### Nodes -/

theorem declareNode_of_mem (graph : Graph α) (point : Nat → Point α) (d : NodeDeclaration × Nat)
    (h : d.1.identifier ∈ graph.ids) : graph.declareNode (d.1, point d.2) = graph := by
  have hindex := indexOf?_of_mem h
  unfold declareNode addNode Node.placed
  rw [hindex]

theorem declareNode_of_not_mem (graph : Graph α) (point : Nat → Point α)
    (d : NodeDeclaration × Nat) (h : d.1.identifier ∉ graph.ids) :
    graph.declareNode (d.1, point d.2) =
      { graph with
        nodes := graph.nodes.push (declaredNode point d)
        bounds := graph.bounds.cover (point d.2) } := by
  have hindex := indexOf?_eq_none_iff.mpr h
  unfold declareNode addNode Node.placed
  rw [hindex, NodeOptions.ofAttributes_eq]
  rfl

theorem foldl_declareNode (point : Nat → Point α) {graph : Graph α} (hnodes : graph.nodes = #[])
    (declarations : List NodeDeclaration) :
    ∃ bounds, (declarations.zipIdx.map fun d => (d.1, point d.2)).foldl declareNode graph =
      { graph with
        nodes := ((firsts NodeDeclaration.identifier declarations).map
          (declaredNode point)).toArray
        bounds } := by
  induction declarations using List.reverseRecOn with
  | nil => exact ⟨graph.bounds, by rw [firsts_nil]; cases graph; cases hnodes; rfl⟩
  | append_singleton declarations d ih =>
      obtain ⟨bounds, hfold⟩ := ih
      have hids : d.identifier ∈ ({ graph with
          nodes := ((firsts NodeDeclaration.identifier declarations).map
            (declaredNode point)).toArray
          bounds } : Graph α).ids ↔ d.identifier ∈ declarations.map NodeDeclaration.identifier := by
        rw [← mem_keys_firsts declarations]
        unfold ids
        rw [List.map_map]
        rfl
      rw [List.zipIdx_append, List.map_append, List.foldl_append, hfold, firsts_concat,
        Nat.zero_add, List.zipIdx_singleton, List.map_singleton, List.foldl_cons, List.foldl_nil]
      by_cases hd : d.identifier ∈ declarations.map NodeDeclaration.identifier
      · rw [declareNode_of_mem _ point (d, _) (hids.mpr hd), if_pos hd, List.append_nil]
        exact ⟨bounds, rfl⟩
      · rw [declareNode_of_not_mem _ point (d, _) (hids.not.mpr hd), if_neg hd, List.map_append]
        exact ⟨_, by rw [List.push_toArray]; rfl⟩

/-! ### Edges -/

theorem mem_joins (graph : Graph α) (es : List EdgeDeclaration) (e : EdgeDeclaration)
    (hedges : graph.edges = ((firsts EdgeDeclaration.ends es).map
      (declaredEdge graph.ids)).toArray)
    (hes : ∀ e ∈ es, e.tail ∈ graph.ids ∧ e.head ∈ graph.ids) :
    graph.joins (graph.ids.idxOf e.tail) (graph.ids.idxOf e.head) = true ↔
      e.ends ∈ es.map EdgeDeclaration.ends := by
  have hpair : ∀ d ∈ firsts EdgeDeclaration.ends es,
      ((graph.ids.idxOf d.1.tail = graph.ids.idxOf e.tail ∧
        graph.ids.idxOf d.1.head = graph.ids.idxOf e.head) ∨
      (graph.ids.idxOf d.1.tail = graph.ids.idxOf e.head ∧
        graph.ids.idxOf d.1.head = graph.ids.idxOf e.tail)) ↔ d.1.ends = e.ends := by
    intro d hd
    have hmem : d.1 ∈ es := List.fst_mem_of_mem_zipIdx (List.mem_filter.mp hd).1
    obtain ⟨htail, hhead⟩ := hes d.1 hmem
    unfold EdgeDeclaration.ends
    rw [List.idxOf_inj htail, List.idxOf_inj htail, List.idxOf_inj hhead, List.idxOf_inj hhead,
      Sym2.eq_iff]
  rw [← mem_keys_firsts es]
  unfold joins
  rw [hedges, List.any_toArray, List.any_map, List.any_eq_true, List.mem_map]
  simp only [Function.comp_apply, Bool.or_eq_true, Bool.and_eq_true, decide_eq_true_eq]
  constructor
  · rintro ⟨d, hd, hjoin⟩
    exact ⟨d, hd, (hpair d hd).mp hjoin⟩
  · rintro ⟨d, hd, hends⟩
    exact ⟨d, hd, (hpair d hd).mpr hends⟩

theorem addEdge?_declaredEdge {graph : Graph α} {e : EdgeDeclaration} (n : Nat)
    (htail : e.tail ∈ graph.ids) (hhead : e.head ∈ graph.ids) :
    graph.addEdge? (declaredEdge graph.ids (e, n)) =
      some (graph.edges.size,
        { graph with
          edges := graph.edges.push (declaredEdge graph.ids (e, n))
          paths := none }) := by
  unfold addEdge?
  rw [if_pos ⟨idxOf_lt_size htail, idxOf_lt_size hhead⟩]

theorem declareEdge_of_mem (graph : Graph α) {e : EdgeDeclaration} (n : Nat)
    (htail : e.tail ∈ graph.ids) (hhead : e.head ∈ graph.ids) :
    graph.declareEdge e = .ok
      (if graph.joins (graph.ids.idxOf e.tail) (graph.ids.idxOf e.head) = true then graph
      else
        { graph with
          edges := graph.edges.push (declaredEdge graph.ids (e, n))
          paths := none }) := by
  have hadd : graph.addDeclared (graph.ids.idxOf e.tail) (graph.ids.idxOf e.head) e =
      if graph.joins (graph.ids.idxOf e.tail) (graph.ids.idxOf e.head) = true then graph
      else ((graph.addEdge? (declaredEdge graph.ids (e, n))).map Prod.snd).getD graph := by
    unfold addDeclared
    rw [EdgeOptions.ofAttributes_eq]
    rfl
  unfold declareEdge resolve
  rw [indexOf?_of_mem htail, indexOf?_of_mem hhead]
  show Except.ok (graph.addDeclared (graph.ids.idxOf e.tail) (graph.ids.idxOf e.head) e) = _
  rw [hadd, addEdge?_declaredEdge n htail hhead]
  rfl

theorem declareEdge_of_unknown_tail {graph : Graph α} {e : EdgeDeclaration}
    (htail : e.tail ∉ graph.ids) :
    graph.declareEdge e = .error (.unknownNode e.tail e.tailLocation) := by
  unfold declareEdge resolve
  rw [indexOf?_eq_none_iff.mpr htail]
  rfl

/-- An unknown head is the error of its edge if the tail is known. -/
theorem declareEdge_of_unknown_head {graph : Graph α} {e : EdgeDeclaration}
    (htail : e.tail ∈ graph.ids) (hhead : e.head ∉ graph.ids) :
    graph.declareEdge e = .error (.unknownNode e.head e.headLocation) := by
  unfold declareEdge resolve
  rw [indexOf?_of_mem htail, indexOf?_eq_none_iff.mpr hhead]
  rfl

theorem mem_of_declareEdge {graph graph' : Graph α} {e : EdgeDeclaration}
    (h : graph.declareEdge e = .ok graph') : e.tail ∈ graph.ids ∧ e.head ∈ graph.ids := by
  by_cases htail : e.tail ∈ graph.ids
  · by_cases hhead : e.head ∈ graph.ids
    · exact ⟨htail, hhead⟩
    · rw [declareEdge_of_unknown_head htail hhead] at h
      cases h
  · rw [declareEdge_of_unknown_tail htail] at h
    cases h

/-- The graph with the edges of first declarations. -/
def withFirstEdges (graph : Graph α) (es : List EdgeDeclaration) : Graph α :=
  { graph with
    edges := ((firsts EdgeDeclaration.ends es).map (declaredEdge graph.ids)).toArray
    paths := none }

theorem declareEdge_withFirstEdges {graph : Graph α} {es : List EdgeDeclaration}
    {e : EdgeDeclaration} (hes : ∀ e ∈ es, e.tail ∈ graph.ids ∧ e.head ∈ graph.ids)
    (htail : e.tail ∈ graph.ids) (hhead : e.head ∈ graph.ids) :
    (graph.withFirstEdges es).declareEdge e = .ok (graph.withFirstEdges (es ++ [e])) := by
  have hjoins := mem_joins (graph.withFirstEdges es) es e rfl hes
  rw [declareEdge_of_mem (graph.withFirstEdges es) es.length htail hhead]
  congr 1
  by_cases he : e.ends ∈ es.map EdgeDeclaration.ends
  · rw [if_pos (hjoins.mpr he)]
    unfold withFirstEdges
    rw [firsts_concat, if_pos he, List.append_nil]
  · rw [if_neg (hjoins.not.mpr he)]
    unfold withFirstEdges
    rw [firsts_concat, if_neg he, List.map_append]
    simp only [List.push_toArray]
    rfl

/-- Declaring edges one after another adds those of the first declarations, if all ends are
declared. -/
theorem foldlM_declareEdge {graph : Graph α} (hgraph : graph.withFirstEdges [] = graph)
    (es : List EdgeDeclaration) (graph' : Graph α) :
    es.foldlM declareEdge graph = .ok graph' ↔
      (∀ e ∈ es, e.tail ∈ graph.ids ∧ e.head ∈ graph.ids) ∧
        graph' = graph.withFirstEdges es := by
  induction es using List.reverseRecOn generalizing graph' with
  | nil =>
      rw [List.foldlM_nil, hgraph]
      constructor
      · intro h
        exact ⟨fun e he => absurd he List.not_mem_nil, (Except.ok.inj h).symm⟩
      · rintro ⟨-, rfl⟩
        rfl
  | append_singleton es e ih =>
      have hstep : ∀ graph : Graph α, [e].foldlM declareEdge graph = graph.declareEdge e := by
        intro graph
        simp only [List.foldlM_cons, List.foldlM_nil, bind_pure]
      rw [List.foldlM_append]
      simp only [hstep]
      constructor
      · intro h
        cases hmid : es.foldlM declareEdge graph with
        | error error =>
            rw [hmid] at h
            cases h
        | ok mid =>
            obtain ⟨hes, rfl⟩ := (ih mid).mp hmid
            rw [hmid] at h
            have hlast : (graph.withFirstEdges es).declareEdge e = .ok graph' := h
            obtain ⟨htail, hhead⟩ := mem_of_declareEdge hlast
            rw [declareEdge_withFirstEdges hes htail hhead] at hlast
            refine ⟨?_, (Except.ok.inj hlast).symm⟩
            intro e' he'
            rcases List.mem_append.mp he' with he' | he'
            · exact hes e' he'
            · cases List.mem_singleton.mp he'
              exact ⟨htail, hhead⟩
      · rintro ⟨hes, rfl⟩
        have hes' : ∀ e ∈ es, e.tail ∈ graph.ids ∧ e.head ∈ graph.ids :=
          fun e' he' => hes e' (List.mem_append_left [e] he')
        obtain ⟨htail, hhead⟩ := hes e (List.mem_append_right es (List.mem_singleton_self e))
        rw [(ih _).mpr ⟨hes', rfl⟩]
        exact declareEdge_withFirstEdges hes' htail hhead

/-! ### The whole graph -/

/-- The nodes of a document, placed, and without edges. -/
def declareNodes (document : Document) (parameters : Parameters α) (placement : Placement α)
    (stream : Stream) : Graph α :=
  let (points, stream) := placement.drawPoints document.nodeDeclarations.length stream
  (document.nodeDeclarations.zip points).foldl declareNode
    (Graph.empty document.graphName parameters stream)

theorem drawPlaces_of_placement {parameters : Parameters α} {count : Nat} (placement : Placement α)
    (stream : Stream) (h : count ≠ 0 → Placement.between? parameters.placementRange.1
      parameters.placementRange.2 = some placement) :
    drawPlaces parameters count stream = .ok (placement.drawPoints count stream) := by
  unfold drawPlaces
  by_cases hcount : count = 0
  · rw [if_pos hcount, hcount]
    rfl
  · rw [if_neg hcount, h hcount]

theorem drawPlaces_of_overflow {parameters : Parameters α} {count : Nat} (stream : Stream)
    (hcount : count ≠ 0)
    (h : Placement.between? parameters.placementRange.1 parameters.placementRange.2 = none) :
    drawPlaces parameters count stream = .error .placementOverflow := by
  unfold drawPlaces
  rw [if_neg hcount, h]

theorem build_of_placement {document : Document} {parameters : Parameters α}
    (placement : Placement α) (stream : Stream)
    (h : document.nodeDeclarations ≠ [] → Placement.between? parameters.placementRange.1
      parameters.placementRange.2 = some placement) :
    build document parameters stream =
      (document.edgeDeclarations.foldlM declareEdge
        (declareNodes document parameters placement stream)).map recomputeBounds := by
  have hplaces := drawPlaces_of_placement placement stream fun hd =>
    h (List.ne_nil_of_length_pos (Nat.pos_of_ne_zero hd))
  simp only [build, declareNodes, hplaces]
  rfl

theorem build_of_overflow {document : Document} {parameters : Parameters α} (stream : Stream)
    (hd : document.nodeDeclarations ≠ [])
    (h : Placement.between? parameters.placementRange.1 parameters.placementRange.2 = none) :
    build document parameters stream = .error .placementOverflow := by
  have hplaces := drawPlaces_of_overflow stream
    (fun hlen => hd (List.eq_nil_of_length_eq_zero hlen)) h
  simp only [build, hplaces]
  rfl

theorem declareNodes_eq (document : Document) (parameters : Parameters α)
    (placement : Placement α) (stream : Stream) :
    ∃ bounds, declareNodes document parameters placement stream =
      { Graph.empty document.graphName parameters
          (placement.after document.nodeDeclarations.length stream) with
        nodes := (document.firstNodes (placement.pointAt stream)).toArray
        bounds } := by
  unfold declareNodes
  rw [placement.drawPoints_eq]
  simp only [zip_map_range]
  exact foldl_declareNode (placement.pointAt stream) rfl document.nodeDeclarations

theorem ids_declareNodes (document : Document) (parameters : Parameters α)
    (placement : Placement α) (stream : Stream) :
    (declareNodes document parameters placement stream).ids = document.identifiers := by
  obtain ⟨bounds, hnodes⟩ := declareNodes_eq document parameters placement stream
  rw [hnodes]
  unfold ids Document.firstNodes Document.identifiers
  rw [List.map_map]
  rfl

theorem mem_ids_declareNodes {document : Document} {parameters : Parameters α}
    {placement : Placement α} {stream : Stream} {id : String} :
    id ∈ (declareNodes document parameters placement stream).ids ↔
      id ∈ document.nodeDeclarations.map NodeDeclaration.identifier := by
  rw [ids_declareNodes]
  exact mem_keys_firsts document.nodeDeclarations

theorem declareEdges_eq_ok_iff (document : Document) (parameters : Parameters α)
    (placement : Placement α) (stream : Stream) (graph : Graph α) :
    (document.edgeDeclarations.foldlM declareEdge
      (declareNodes document parameters placement stream)).map recomputeBounds = .ok graph ↔
      document.EndsDeclared ∧ graph = ofFirsts document parameters placement stream := by
  obtain ⟨bounds, hnodes⟩ := declareNodes_eq document parameters placement stream
  have hplain : (declareNodes document parameters placement stream).withFirstEdges [] =
      declareNodes document parameters placement stream := by
    rw [hnodes]
    rfl
  have hgraph : ((declareNodes document parameters placement stream).withFirstEdges
      document.edgeDeclarations).recomputeBounds =
      ofFirsts document parameters placement stream := by
    unfold withFirstEdges
    rw [ids_declareNodes, hnodes]
    rfl
  rw [map_eq_ok_iff]
  simp only [foldlM_declareEdge hplain, mem_ids_declareNodes, Document.EndsDeclared]
  constructor
  · rintro ⟨_, ⟨hes, rfl⟩, rfl⟩
    exact ⟨hes, hgraph⟩
  · rintro ⟨hes, rfl⟩
    exact ⟨_, ⟨hes, rfl⟩, hgraph.symm⟩

/-- A graph that is built is the graph of the first declarations, for a placement that its nodes
can be drawn from. -/
theorem exists_eq_ofFirsts_of_build {document : Document} {parameters : Parameters α}
    {stream : Stream} {graph : Graph α} (h : build document parameters stream = .ok graph) :
    ∃ placement : Placement α, (document.nodeDeclarations ≠ [] →
        Placement.between? parameters.placementRange.1 parameters.placementRange.2 =
          some placement) ∧
      document.EndsDeclared ∧ graph = ofFirsts document parameters placement stream := by
  obtain ⟨placement, hp⟩ : ∃ placement : Placement α, document.nodeDeclarations ≠ [] →
      Placement.between? parameters.placementRange.1 parameters.placementRange.2 =
        some placement := by
    cases hp : Placement.between? parameters.placementRange.1 parameters.placementRange.2 with
    | some placement => exact ⟨placement, fun _ => rfl⟩
    | none =>
        refine ⟨.fixed Scalar.zero, fun hd => ?_⟩
        rw [build_of_overflow stream hd hp] at h
        cases h
  rw [build_of_placement placement stream hp, declareEdges_eq_ok_iff] at h
  exact ⟨placement, hp, h⟩

/-- **A document has a graph exactly if its nodes can be placed and the ends of its edges are
declared, and then it is the graph of the first declarations.** -/
theorem build_eq_ok_iff (document : Document) (parameters : Parameters α) (stream : Stream)
    (graph : Graph α) :
    build document parameters stream = .ok graph ↔
      ∃ placement : Placement α,
        (document.nodeDeclarations ≠ [] → Placement.between? parameters.placementRange.1
          parameters.placementRange.2 = some placement) ∧
        document.EndsDeclared ∧ graph = ofFirsts document parameters placement stream := by
  constructor
  · intro h
    by_cases hd : document.nodeDeclarations = []
    · -- any placement does, as nothing is placed
      rw [build_of_placement (.fixed Scalar.zero) stream (absurd hd),
        declareEdges_eq_ok_iff] at h
      exact ⟨_, absurd hd, h⟩
    · cases hp : Placement.between? parameters.placementRange.1 parameters.placementRange.2 with
      | none =>
          rw [build_of_overflow stream hd hp] at h
          cases h
      | some placement =>
          rw [build_of_placement placement stream (fun _ => hp), declareEdges_eq_ok_iff] at h
          exact ⟨placement, fun _ => rfl, h⟩
  · rintro ⟨placement, hp, h⟩
    rw [build_of_placement placement stream hp]
    exact (declareEdges_eq_ok_iff _ _ _ _ _).mpr h

end Graph

theorem analyze_eq_map (document : Document) (options : CompileOptions α) (fresh : Stream) :
    analyze document options fresh =
      (Graph.build document (Parameters.resolve document options.parameters)
        (options.stream fresh)).map Graph.layout := by
  unfold analyze
  cases Graph.build document (Parameters.resolve document options.parameters)
    (options.stream fresh) <;> rfl

theorem exists_build_of_compile {source : String} {options : CompileOptions α} {fresh : Stream}
    {graph : Graph α} (h : compile source options fresh = .ok graph) :
    ∃ document built, parse source = .ok document ∧
      Graph.build document (Parameters.resolve document options.parameters)
        (options.stream fresh) = .ok built ∧ graph = built.layout := by
  unfold compile at h
  cases hparse : parse source with
  | error diagnostics =>
      rw [hparse] at h
      cases h
  | ok document =>
      rw [hparse] at h
      simp only [analyze_eq_map] at h
      obtain ⟨built, hbuilt, hgraph⟩ := map_eq_ok_iff.mp h
      exact ⟨document, built, rfl, hbuilt, hgraph⟩

end NodeLink
