import NodeLink.Proofs.Graph.Reachable
import NodeLink.Proofs.Graph.Ticks

/-! # What operations leave as it was

A layout changes where the nodes stand, and with that the box, the paths and the stream.  What was
put into the graph it leaves as it was: name, parameters, edges, and the identifiers and options of
the nodes, all in their order (`Graph.SameContent`).  Adding a node or an edge puts it behind those
that are there.  So whatever is done to a graph, its content only grows at its end
(`Operation.grows`, `Operation.run?_grows`). -/

namespace NodeLink

/-! ### Nodes -/

section Nodes

variable {α : Type}

/-- The identifier and the options of a node. -/
def Node.content (node : Node α) : String × NodeOptions := (node.id, node.options)

/-- The identifiers and options of some nodes, in their order. -/
def contents (nodes : Array (Node α)) : List (String × NodeOptions) :=
  nodes.toList.map Node.content

theorem contents_push (nodes : Array (Node α)) (node : Node α) :
    contents (nodes.push node) = contents nodes ++ [node.content] := by
  rw [contents, Array.toList_push, List.map_append]
  rfl

theorem contents_map (nodes : Array (Node α)) {change : Node α → Node α}
    (hchange : ∀ node, (change node).content = node.content) :
    contents (nodes.map change) = contents nodes := by
  rw [contents, Array.toList_map, List.map_map]
  exact List.map_congr_left fun node _ => hchange node

theorem contents_eq_of_atRest [Scalar α] {nodes others : Array (Node α)}
    (h : atRest nodes = atRest others) : contents nodes = contents others := by
  have hrest (nodes : Array (Node α)) : contents (atRest nodes) = contents nodes :=
    contents_map nodes fun _ => rfl
  rw [← hrest nodes, h, hrest]

end Nodes

namespace Graph

/-! ### Graphs with the same content -/

/-- The same name, parameters and edges, and nodes of the same identifiers and options, in the same
order. -/
structure SameContent {α : Type} (before after : Graph α) : Prop where
  name : after.name = before.name
  nodes : contents after.nodes = contents before.nodes
  edges : after.edges = before.edges
  parameters : after.parameters = before.parameters

variable {α : Type}

theorem SameContent.refl (graph : Graph α) : SameContent graph graph := ⟨rfl, rfl, rfl, rfl⟩

theorem SameContent.trans {a b c : Graph α} (h : SameContent a b) (h' : SameContent b c) :
    SameContent a c :=
  ⟨h'.name.trans h.name, h'.nodes.trans h.nodes, h'.edges.trans h.edges,
    h'.parameters.trans h.parameters⟩

theorem ids_eq_contents (graph : Graph α) : graph.ids = (contents graph.nodes).map Prod.fst := by
  rw [ids, contents, List.map_map]
  rfl

theorem length_ids (graph : Graph α) : graph.ids.length = graph.nodes.size := by
  rw [ids, List.length_map, Array.length_toList]

theorem getElem?_ids_of_lt {graph : Graph α} {index : Nat} (h : index < graph.nodes.size) :
    graph.ids[index]? = some (graph.idAt index) := by
  unfold ids idAt
  rw [List.getElem?_map, Array.getElem?_toList, Array.getElem?_eq_getElem h]
  rfl

/-- Where identifiers do not repeat, only one node has an identifier. -/
theorem idAt_eq_iff {graph : Graph α} (hnodup : graph.ids.Nodup) {index node : Nat} {id : String}
    (h : index < graph.nodes.size) (hid : graph.ids[node]? = some id) :
    graph.idAt index = id ↔ index = node := by
  have hindex := getElem?_ids_of_lt h
  refine ⟨?_, ?_⟩
  · rintro rfl
    exact (List.getElem?_inj (by rwa [length_ids]) hnodup).mp (hindex.trans hid.symm)
  · rintro rfl
    exact Option.some.inj (hindex.symm.trans hid)

theorem getElem?_of_mem_indexedEdges {graph : Graph α} {placed : Edge α × Nat}
    (h : placed ∈ graph.indexedEdges) : graph.edges[placed.2]? = some placed.1 := by
  rw [← Array.getElem?_toList]
  exact List.mem_zipIdx_iff_getElem?.mp h

theorem ids_pushNode (graph : Graph α) (node : Node α) (bounds : Bounds α) :
    ids { graph with nodes := graph.nodes.push node, bounds } = graph.ids ++ [node.id] := by
  unfold ids
  rw [Array.toList_push, List.map_append]
  rfl

theorem SameContent.ids {before after : Graph α} (h : SameContent before after) :
    after.ids = before.ids := by
  rw [ids_eq_contents, ids_eq_contents, h.nodes]

theorem SameContent.size {before after : Graph α} (h : SameContent before after) :
    after.nodes.size = before.nodes.size := by
  rw [← length_ids, ← length_ids, h.ids]

/-! ### Growing graphs -/

/-- Nodes and edges come only behind those that are there, and the rest of the content stays. -/
structure Grows (before after : Graph α) : Prop where
  name : after.name = before.name
  nodes : contents before.nodes <+: contents after.nodes
  edges : before.edges.toList <+: after.edges.toList
  parameters : after.parameters = before.parameters

theorem SameContent.grows {before after : Graph α} (h : SameContent before after) :
    Grows before after :=
  ⟨h.name, h.nodes ▸ List.prefix_rfl, h.edges ▸ List.prefix_rfl, h.parameters⟩

theorem Grows.trans {a b c : Graph α} (h : Grows a b) (h' : Grows b c) : Grows a c :=
  ⟨h'.name.trans h.name, h.nodes.trans h'.nodes, h.edges.trans h'.edges,
    h'.parameters.trans h.parameters⟩

theorem Grows.getElem?_ids {before after : Graph α} (h : Grows before after) {index : Nat}
    {id : String} (hid : before.ids[index]? = some id) : after.ids[index]? = some id := by
  rw [ids_eq_contents] at hid ⊢
  obtain ⟨later, hlater⟩ := h.nodes.map Prod.fst
  obtain ⟨hlt, -⟩ := List.getElem?_eq_some_iff.mp hid
  rw [← hlater, List.getElem?_append_left hlt, hid]

theorem Grows.getElem?_edges {before after : Graph α} (h : Grows before after) {index : Nat}
    {edge : Edge α} (hedge : before.edges[index]? = some edge) :
    after.edges[index]? = some edge := by
  rw [← Array.getElem?_toList] at hedge ⊢
  obtain ⟨later, hlater⟩ := h.edges
  obtain ⟨hlt, -⟩ := List.getElem?_eq_some_iff.mp hedge
  rw [← hlater, List.getElem?_append_left hlt, hedge]

theorem grows_pushNode (graph : Graph α) (node : Node α) (bounds : Bounds α) :
    Grows graph { graph with nodes := graph.nodes.push node, bounds } :=
  ⟨rfl, contents_push graph.nodes node ▸ List.prefix_append .., List.prefix_rfl, rfl⟩

theorem addEdge?_eq_some {graph next : Graph α} {edge : Edge α} {index : Nat}
    (h : graph.addEdge? edge = some (index, next)) :
    (edge.tail < graph.nodes.size ∧ edge.head < graph.nodes.size) ∧ index = graph.edges.size ∧
      next = { graph with edges := graph.edges.push edge, paths := none } := by
  unfold addEdge? at h
  split at h
  · next hends =>
    cases h
    exact ⟨hends, rfl, rfl⟩
  · cases h

theorem getElem?_addEdge? {graph next : Graph α} {edge : Edge α} {i : Nat}
    (h : graph.addEdge? edge = some (i, next)) : next.edges[i]? = some edge := by
  obtain ⟨-, rfl, rfl⟩ := addEdge?_eq_some h
  exact Array.getElem?_push_size

theorem grows_addEdge? {graph next : Graph α} {edge : Edge α} {index : Nat}
    (h : graph.addEdge? edge = some (index, next)) : Grows graph next := by
  obtain ⟨-, -, rfl⟩ := addEdge?_eq_some h
  exact ⟨rfl, List.prefix_rfl, Array.toList_push ▸ List.prefix_append .., rfl⟩

/-! ### What is done to a graph -/

variable [Scalar α]

theorem sameContent_recomputeBounds (graph : Graph α) : SameContent graph graph.recomputeBounds :=
  ⟨rfl, rfl, rfl, rfl⟩

theorem sameContent_bundleEdges (graph : Graph α) (bundling : BundlingParameters α) :
    SameContent graph (graph.bundleEdges bundling) :=
  ⟨rfl, rfl, rfl, rfl⟩

theorem sameContent_tick (graph : Graph α) : SameContent graph graph.tick := by
  have hgathered := contents_eq_of_atRest graph.atRest_gathered
  have hsettled : contents (graph.gathered.1.map (Node.settle graph.parameters)) =
      contents graph.gathered.1 := contents_map _ fun _ => rfl
  rw [tick_eq]
  exact ⟨rfl, hsettled.trans hgathered, rfl, rfl⟩

theorem sameContent_layout (graph : Graph α) : SameContent graph graph.layout :=
  repeat_preserves (f := tick) (fun now h => SameContent.trans h now.sameContent_tick)
    graph.parameters.maxTicks (SameContent.refl graph)

theorem sameContent_moveNodes (graph : Graph α) (move : Point α → Point α) :
    SameContent graph (graph.moveNodes move) := by
  have hmove : contents (graph.nodes.map fun node => { node with position := move node.position }) =
      contents graph.nodes := contents_map graph.nodes fun _ => rfl
  exact ⟨rfl, hmove, rfl, rfl⟩

theorem sameContent_fit (graph : Graph α) (frame : Frame α) (bundling : BundlingParameters α) :
    SameContent graph (graph.fit frame bundling) := by
  have hfitted : SameContent graph
      (if graph.nodes.isEmpty then graph else (graph.placeOn frame).centreOn frame) := by
    split
    · exact SameContent.refl graph
    · have hplaced : SameContent graph (graph.placeOn frame) := graph.sameContent_moveNodes _
      have hcentred : SameContent (graph.placeOn frame) ((graph.placeOn frame).centreOn frame) :=
        (graph.placeOn frame).sameContent_moveNodes fun point =>
          point + frame.centring (graph.placeOn frame).bounds
      exact hplaced.trans hcentred
  have hbundled {fitted : Graph α} (h : SameContent graph fitted) :
      SameContent graph
        (if fitted.parameters.bundle then fitted.bundleEdges bundling else fitted) := by
    split
    · exact h.trans (fitted.sameContent_bundleEdges bundling)
    · exact h
  exact hbundled hfitted

theorem grows_addNode (graph : Graph α) (node : Node α) :
    Grows graph (graph.addNode node).2 := by
  unfold addNode
  split
  · exact (SameContent.refl graph).grows
  · exact grows_pushNode graph node _

end Graph

/-! ### Operations -/

namespace Operation

variable {α : Type} [Scalar α]

/-- Whether an operation puts something into a graph. -/
def Adds : Operation α → Prop
  | addNode _ => True
  | addEdge _ => True
  | _ => False

/-- Nothing but adding an edge can be refused. -/
theorem exists_next? {operation : Operation α} (hadds : ¬ operation.Adds) (graph : Graph α) :
    ∃ next, operation.next? graph = some next := by
  cases operation with
  | addNode node => exact absurd trivial hadds
  | addEdge edge => exact absurd trivial hadds
  | _ => exact ⟨_, rfl⟩

/-- **Only adding changes the content of a graph.** -/
theorem sameContent {operation : Operation α} (hadds : ¬ operation.Adds) {graph next : Graph α}
    (h : operation.next? graph = some next) : graph.SameContent next := by
  cases operation with
  | addNode node => exact absurd trivial hadds
  | addEdge edge => exact absurd trivial hadds
  | tick => exact Option.some.inj h ▸ graph.sameContent_tick
  | layout => exact Option.some.inj h ▸ graph.sameContent_layout
  | recomputeBounds => exact Option.some.inj h ▸ graph.sameContent_recomputeBounds
  | bundleEdges bundling => exact Option.some.inj h ▸ graph.sameContent_bundleEdges bundling
  | fit frame bundling => exact Option.some.inj h ▸ graph.sameContent_fit frame bundling

/-- One operation lets the content grow at its end. -/
theorem grows {operation : Operation α} {graph next : Graph α}
    (h : operation.next? graph = some next) : graph.Grows next := by
  cases operation with
  | addNode node => exact Option.some.inj h ▸ graph.grows_addNode node
  | addEdge edge =>
      obtain ⟨⟨index, added⟩, hadd, rfl⟩ := Option.map_eq_some_iff.mp h
      exact Graph.grows_addEdge? hadd
  | _ => exact (sameContent (by simp [Adds]) h).grows

/-- Operations let the content grow at its end. -/
theorem run?_grows {operations : List (Operation α)} {graph last : Graph α}
    (h : run? operations graph = some last) : graph.Grows last :=
  foldlM_preserves (P := graph.Grows) (fun h hnext => h.trans (grows hnext)) operations
    (Graph.SameContent.refl graph).grows h

end Operation

end NodeLink
