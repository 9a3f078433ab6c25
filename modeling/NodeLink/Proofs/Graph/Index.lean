import NodeLink.Graph.Index
import NodeLink.Proofs.Graph.Content
import NodeLink.Proofs.Graph.Ticks

/-! # Indices that last

The table of an indexed graph and its nodes say the same (`Graph.Indexed.Consistent`): the table
has the identifiers of the nodes and no others, each with the index of its node.  Adding a node
keeps this, for a known identifier adds nothing and a new one gets the next index; anything else
keeps the identifiers.  So looking a node up in the table is searching the nodes for it, and what is
done to an indexed graph is what is done to the graph alone (`Graph.Indexed.compile_answers`,
`Graph.Indexed.Consistent.map_nextIndexed?`): the same graphs are reached with a table and without
one (`Graph.Indexed.exists_reachable`).  Since content only grows, an index that was given out keeps
its meaning (`Graph.Indexed.Reachable.keepsIndices`). -/

namespace NodeLink

open NodeLink.Random (Stream)

variable {α : Type}

namespace Graph.Indexed

/-! ### Table and nodes -/

/-- The table has the identifiers of the nodes and no others, each with the index of its node, and
edges are between nodes. -/
structure Consistent (indexed : Indexed α) : Prop where
  nodup : indexed.graph.ids.Nodup
  index : ∀ id i, indexed.index.get? id = some i ↔ indexed.graph.ids[i]? = some id
  ends : indexed.graph.EndsExist

theorem consistent_empty (name : String) (parameters : Parameters α) (stream : Stream) :
    (empty name parameters stream).Consistent :=
  ⟨List.nodup_nil, fun _ _ => iff_of_false nofun nofun, fun _ hedge => nomatch hedge⟩

section Lookup

variable {indexed : Indexed α} (h : indexed.Consistent)

include h

theorem Consistent.get?_eq_none_iff {id : String} :
    indexed.index.get? id = none ↔ id ∉ indexed.graph.ids := by
  rw [Option.eq_none_iff_forall_not_mem, List.mem_iff_getElem?, not_exists]
  exact forall_congr' fun i => not_congr (h.index id i)

/-- Looking an identifier up in the table is searching the nodes for it. -/
theorem Consistent.get?_eq (id : String) :
    indexed.index.get? id = indexed.graph.indexOf? id := by
  by_cases hid : id ∈ indexed.graph.ids
  · rw [indexOf?_of_mem hid]
    exact (h.index id _).mpr (List.getElem?_idxOf hid)
  · rw [indexOf?_eq_none_iff.mpr hid]
    exact h.get?_eq_none_iff.mpr hid

theorem Consistent.of_sameContent {graph : Graph α} (hsame : SameContent indexed.graph graph) :
    Consistent { indexed with graph } := by
  refine ⟨?_, fun id i => ?_, fun edge hedge => ?_⟩
  · rw [hsame.ids]
    exact h.nodup
  · rw [hsame.ids]
    exact h.index id i
  · rw [hsame.size]
    exact h.ends edge (hsame.edges ▸ hedge)

theorem Consistent.of_addEdge? {edge : Edge α} {i : Nat} {graph : Graph α}
    (hadd : indexed.graph.addEdge? edge = some (i, graph)) :
    Consistent { indexed with graph } := by
  obtain ⟨hends, -, rfl⟩ := addEdge?_eq_some hadd
  refine ⟨h.nodup, h.index, fun other hother => ?_⟩
  rcases Array.mem_push.mp hother with hother | rfl
  · exact h.ends other hother
  · exact hends

theorem Consistent.resolve_eq (identifier : String) (location : Source.Location) :
    indexed.resolve identifier location = indexed.graph.resolve identifier location := by
  unfold resolve Graph.resolve
  cases hknown : indexed.graph.indexOf? identifier with
  | some known => rw [h.get?_eq, hknown]
  | none => rw [h.get?_eq, hknown]

end Lookup

/-! ### Answers -/

/-- What is answered with a table: the same error, or a graph whose table goes with it. -/
inductive Answers : Except CompileError (Indexed α) → Except CompileError (Graph α) → Prop
  | ok {indexed : Indexed α} (h : indexed.Consistent) : Answers (.ok indexed) (.ok indexed.graph)
  | error (error : CompileError) : Answers (.error error) (.error error)

theorem Answers.bind {result : Except CompileError (Indexed α)}
    {plain : Except CompileError (Graph α)} (h : Answers result plain)
    {f : Indexed α → Except CompileError (Indexed α)} {g : Graph α → Except CompileError (Graph α)}
    (hnext : ∀ {indexed : Indexed α}, indexed.Consistent → Answers (f indexed) (g indexed.graph)) :
    Answers (result.bind f) (plain.bind g) := by
  cases h with
  | ok h => exact hnext h
  | error error => exact .error error

theorem Answers.map_graph {result : Except CompileError (Indexed α)}
    {plain : Except CompileError (Graph α)} (h : Answers result plain) :
    result.map Indexed.graph = plain := by
  cases h with
  | ok h => rfl
  | error error => rfl

theorem Answers.exists_ok {result : Except CompileError (Indexed α)} {graph : Graph α}
    (h : Answers result (.ok graph)) : ∃ index, result = .ok { graph, index } := by
  cases h with
  | @ok indexed h => exact ⟨indexed.index, rfl⟩

theorem Answers.consistent {indexed : Indexed α} {plain : Except CompileError (Graph α)}
    (h : Answers (.ok indexed) plain) : indexed.Consistent := by
  cases h with
  | ok h => exact h

variable [Scalar α]

/-! ### Nodes -/

section Nodes

variable {indexed : Indexed α} (h : indexed.Consistent)

include h

theorem Consistent.addNode_known {node : Node α} {i : Nat}
    (hid : indexed.graph.ids[i]? = some node.id) : indexed.addNode node = (i, indexed) := by
  unfold addNode
  rw [(h.index node.id i).mpr hid]

theorem Consistent.addNode_new {node : Node α} (hid : node.id ∉ indexed.graph.ids) :
    indexed.addNode node =
      (indexed.graph.nodes.size,
       { graph :=
           { indexed.graph with
             nodes := indexed.graph.nodes.push node
             bounds := indexed.graph.bounds.cover node.position }
         index := indexed.index.insert node.id indexed.graph.nodes.size }) := by
  unfold addNode
  rw [h.get?_eq_none_iff.mpr hid]

theorem Consistent.addNode (node : Node α) : (indexed.addNode node).2.Consistent := by
  by_cases hid : node.id ∈ indexed.graph.ids
  · obtain ⟨i, hi⟩ := List.mem_iff_getElem?.mp hid
    rw [h.addNode_known hi]
    exact h
  · rw [h.addNode_new hid]
    refine ⟨?_, fun id i => ?_, fun edge hedge => ?_⟩
    · rw [ids_pushNode]
      refine List.nodup_append.mpr ⟨h.nodup, List.nodup_singleton _, fun other hother id heq => ?_⟩
      rintro rfl
      exact hid (List.mem_singleton.mp heq ▸ hother)
    · rw [ids_pushNode, getElem?_concat_eq_some_iff, NodeIndex.get?_insert, length_ids]
      by_cases heq : id = node.id
      · subst heq
        have hnone : ¬ indexed.graph.ids[i]? = some node.id :=
          fun hi => hid (List.mem_of_getElem? hi)
        rw [if_pos rfl, Option.some.injEq, eq_comm]
        simp [hnone]
      · rw [if_neg heq, h.index id i]
        simp [Ne.symm heq]
    · obtain ⟨htail, hhead⟩ := h.ends edge hedge
      rw [Array.size_push]
      exact ⟨Nat.lt_succ_of_lt htail, Nat.lt_succ_of_lt hhead⟩

theorem Consistent.addNode_graph (node : Node α) :
    (indexed.addNode node).1 = (indexed.graph.addNode node).1 ∧
      (indexed.addNode node).2.graph = (indexed.graph.addNode node).2 := by
  unfold Indexed.addNode Graph.addNode
  rw [h.get?_eq]
  cases indexed.graph.indexOf? node.id with
  | some known => exact ⟨rfl, rfl⟩
  | none => exact ⟨rfl, rfl⟩

end Nodes

/-! ### Documents -/

theorem Consistent.foldl_declareNode : ∀ (declarations : List (NodeDeclaration × Point α))
    {indexed : Indexed α}, indexed.Consistent →
      (declarations.foldl declareNode indexed).graph =
          declarations.foldl Graph.declareNode indexed.graph ∧
        (declarations.foldl declareNode indexed).Consistent
  | [], _, h => ⟨rfl, h⟩
  | declared :: declarations, indexed, h => by
      have hgraph : (indexed.declareNode declared).graph = indexed.graph.declareNode declared :=
        (h.addNode_graph _).2
      rw [List.foldl_cons, List.foldl_cons, ← hgraph]
      exact (h.addNode _).foldl_declareNode declarations

theorem Consistent.declareEdge_eq {indexed : Indexed α} (h : indexed.Consistent)
    (declared : EdgeDeclaration) :
    indexed.declareEdge declared =
      (indexed.graph.declareEdge declared).map fun graph => { indexed with graph } := by
  unfold declareEdge Graph.declareEdge
  rw [h.resolve_eq, h.resolve_eq]
  cases indexed.graph.resolve declared.tail declared.tailLocation with
  | error error => rfl
  | ok tail =>
      cases indexed.graph.resolve declared.head declared.headLocation with
      | error error => rfl
      | ok head => rfl

theorem Consistent.of_declareEdge {indexed : Indexed α} (h : indexed.Consistent)
    {declared : EdgeDeclaration} {graph : Graph α}
    (hedge : indexed.graph.declareEdge declared = .ok graph) :
    Consistent { indexed with graph } := by
  obtain ⟨htail, hhead⟩ := mem_of_declareEdge hedge
  rw [declareEdge_of_mem indexed.graph 0 htail hhead] at hedge
  obtain rfl := Except.ok.inj hedge
  split
  · exact h
  · exact h.of_addEdge? (addEdge?_declaredEdge 0 htail hhead)

theorem Consistent.declareEdge_answers {indexed : Indexed α} (h : indexed.Consistent)
    (declared : EdgeDeclaration) :
    Answers (indexed.declareEdge declared) (indexed.graph.declareEdge declared) := by
  rw [h.declareEdge_eq]
  cases hedge : indexed.graph.declareEdge declared with
  | error error => exact .error error
  | ok graph => exact .ok (h.of_declareEdge hedge)

theorem Consistent.foldlM_declareEdge : ∀ (declarations : List EdgeDeclaration)
    {indexed : Indexed α}, indexed.Consistent →
      Answers (declarations.foldlM declareEdge indexed)
        (declarations.foldlM Graph.declareEdge indexed.graph)
  | [], _, h => .ok h
  | declared :: declarations, _, h =>
      (h.declareEdge_answers declared).bind fun h => h.foldlM_declareEdge declarations

theorem build_answers (document : Document) (parameters : Parameters α) (stream : Stream) :
    Answers (build document parameters stream) (Graph.build document parameters stream) := by
  cases hplaces : drawPlaces parameters document.nodeDeclarations.length stream with
  | error error =>
      simp only [build, Graph.build, hplaces]
      exact .error error
  | ok drawn =>
      obtain ⟨points, rest⟩ := drawn
      obtain ⟨hgraph, hnodes⟩ :=
        (consistent_empty document.graphName parameters rest).foldl_declareNode
          (document.nodeDeclarations.zip points)
      have hedges := hnodes.foldlM_declareEdge document.edgeDeclarations
      rw [hgraph] at hedges
      simp only [build, Graph.build, hplaces]
      exact hedges.bind fun h => .ok (h.of_sameContent (sameContent_recomputeBounds _))

/-- A source compiles to the same graph with a table. -/
theorem compile_answers (source : String) (options : CompileOptions α) (fresh : Stream) :
    Answers (compile source options fresh) (NodeLink.compile source options fresh) := by
  unfold compile NodeLink.compile
  cases parse source with
  | error diagnostics => exact .error _
  | ok document =>
      exact (build_answers document _ _).bind fun h =>
        .ok (h.of_sameContent (sameContent_layout _))

end Graph.Indexed

/-! ### Operations -/

namespace Operation

variable [Scalar α]

/-- The graph after an operation, with its table; only adding a node looks at the table. -/
def nextIndexed? : Operation α → Graph.Indexed α → Option (Graph.Indexed α)
  | addNode node, indexed => some (indexed.addNode node).2
  | addEdge edge, indexed => (indexed.addEdge? edge).map Prod.snd
  | operation, indexed =>
    (operation.next? indexed.graph).map fun graph => { indexed with graph }

/-- The graph after some operations, one after another, with its table. -/
def runIndexed? (operations : List (Operation α)) (indexed : Graph.Indexed α) :
    Option (Graph.Indexed α) :=
  operations.foldlM (fun indexed operation => operation.nextIndexed? indexed) indexed

theorem nextIndexed?_of_not_adds {operation : Operation α} (hadds : ¬ operation.Adds)
    (indexed : Graph.Indexed α) :
    operation.nextIndexed? indexed =
      (operation.next? indexed.graph).map fun graph => { indexed with graph } := by
  cases operation with
  | addNode node => exact absurd trivial hadds
  | addEdge edge => exact absurd trivial hadds
  | _ => rfl

end Operation

namespace Graph.Indexed

variable [Scalar α]

/-- An operation with a table is that on the graph alone. -/
theorem Consistent.map_nextIndexed? {indexed : Indexed α} (h : indexed.Consistent)
    (operation : Operation α) :
    (operation.nextIndexed? indexed).map Indexed.graph = operation.next? indexed.graph := by
  by_cases hadds : operation.Adds
  · cases operation with
    | addNode node => exact congrArg some (h.addNode_graph node).2
    | addEdge edge =>
        unfold Operation.nextIndexed? Operation.next? Indexed.addEdge?
        rw [Option.map_map, Option.map_map]
        rfl
    | _ => cases hadds
  · rw [Operation.nextIndexed?_of_not_adds hadds, Option.map_map]
    exact Option.map_id' ..

theorem Consistent.next {indexed next : Indexed α} (h : indexed.Consistent)
    {operation : Operation α} (hnext : operation.nextIndexed? indexed = some next) :
    next.Consistent := by
  by_cases hadds : operation.Adds
  · cases operation with
    | addNode node => exact Option.some.inj hnext ▸ h.addNode node
    | addEdge edge =>
        obtain ⟨⟨i, added⟩, hadd, rfl⟩ := Option.map_eq_some_iff.mp hnext
        obtain ⟨⟨j, graph⟩, hplain, heq⟩ := Option.map_eq_some_iff.mp hadd
        obtain ⟨rfl, rfl⟩ := Prod.mk.inj heq
        exact h.of_addEdge? hplain
    | _ => cases hadds
  · rw [Operation.nextIndexed?_of_not_adds hadds] at hnext
    obtain ⟨graph, hgraph, rfl⟩ := Option.map_eq_some_iff.mp hnext
    exact h.of_sameContent (Operation.sameContent hadds hgraph)

theorem Consistent.run : ∀ {operations : List (Operation α)} {indexed last : Indexed α},
    indexed.Consistent → Operation.runIndexed? operations indexed = some last →
      last.Consistent ∧ Operation.run? operations indexed.graph = some last.graph
  | [], _, _, h, hlast => by
      obtain rfl := Option.some.inj hlast
      exact ⟨h, rfl⟩
  | operation :: operations, indexed, last, h, hlast => by
      unfold Operation.runIndexed? at hlast
      unfold Operation.run?
      rw [List.foldlM_cons] at hlast ⊢
      obtain ⟨next, hnext, hrest⟩ := Option.bind_eq_some_iff.mp hlast
      rw [← h.map_nextIndexed?, hnext]
      exact (h.next hnext).run hrest

/-! ### Reachable graphs with their tables -/

/-- The graphs that operations come to, with their tables. -/
inductive Reachable : Indexed α → Prop where
  | empty (name : String) (parameters : Parameters α) (stream : Stream) :
      Reachable (empty name parameters stream)
  | built {document : Document} {parameters : Parameters α} {stream : Stream}
      {indexed : Indexed α} (h : build document parameters stream = .ok indexed) :
      Reachable indexed
  | compiled {source : String} {options : CompileOptions α} {fresh : Stream} {indexed : Indexed α}
      (h : compile source options fresh = .ok indexed) : Reachable indexed
  | step {indexed next : Indexed α} (operation : Operation α) (h : Reachable indexed)
      (hnext : operation.nextIndexed? indexed = some next) : Reachable next

theorem Reachable.consistent {indexed : Indexed α} (h : indexed.Reachable) :
    indexed.Consistent := by
  induction h with
  | empty name parameters stream => exact consistent_empty name parameters stream
  | built h => exact (h ▸ build_answers _ _ _).consistent
  | compiled h => exact (h ▸ compile_answers _ _ _).consistent
  | step operation h hnext ih => exact ih.next hnext

theorem Reachable.graph {indexed : Indexed α} (h : indexed.Reachable) :
    indexed.graph.Reachable := by
  induction h with
  | empty name parameters stream => exact .empty name parameters stream
  | built h => exact .built (h ▸ build_answers _ _ _).map_graph.symm
  | compiled h => exact .compiled (h ▸ compile_answers _ _ _).map_graph.symm
  | step operation h hnext ih =>
      refine ih.step operation ?_
      rw [← h.consistent.map_nextIndexed?, hnext]
      rfl

/-- A graph that is reached without a table is reached with one. -/
theorem exists_reachable {graph : Graph α} (h : graph.Reachable) :
    ∃ index, Reachable { graph, index } := by
  induction h with
  | empty name parameters stream => exact ⟨{}, .empty name parameters stream⟩
  | built h =>
      obtain ⟨index, hindex⟩ := (h ▸ build_answers _ _ _).exists_ok
      exact ⟨index, .built hindex⟩
  | compiled h =>
      obtain ⟨index, hindex⟩ := (h ▸ compile_answers _ _ _).exists_ok
      exact ⟨index, .compiled hindex⟩
  | step operation h hnext ih =>
      obtain ⟨index, hreachable⟩ := ih
      rw [← hreachable.consistent.map_nextIndexed?] at hnext
      obtain ⟨next, hindexed, rfl⟩ := Option.map_eq_some_iff.mp hnext
      exact ⟨next.index, hreachable.step operation hindexed⟩

theorem nodup_ids_of_reachable {graph : Graph α} (h : graph.Reachable) : graph.ids.Nodup := by
  obtain ⟨index, hreachable⟩ := exists_reachable h
  exact hreachable.consistent.nodup

theorem endsExist_of_reachable {graph : Graph α} (h : graph.Reachable) : graph.EndsExist := by
  obtain ⟨index, hreachable⟩ := exists_reachable h
  exact hreachable.consistent.ends

/-! ### Indices -/

/-- What an indexed graph keeps, whatever is done to it: table and nodes say the same, edges are
between nodes, a known identifier changes nothing, a new node and a new edge come last, all else
leaves the content and the table as they are, and an index keeps its node or its edge. -/
structure KeepsIndices (indexed : Indexed α) : Prop where
  nodup : indexed.graph.ids.Nodup
  index : ∀ id i, indexed.index.get? id = some i ↔ indexed.graph.ids[i]? = some id
  ends : ∀ edge ∈ indexed.graph.edges,
    edge.tail < indexed.graph.nodes.size ∧ edge.head < indexed.graph.nodes.size
  known : ∀ (node : Node α) (i : Nat), indexed.graph.ids[i]? = some node.id →
    indexed.addNode node = (i, indexed)
  newNode : ∀ node : Node α, node.id ∉ indexed.graph.ids →
    (indexed.addNode node).1 = indexed.graph.nodes.size ∧
      ∃ bounds, (indexed.addNode node).2.graph =
        { indexed.graph with nodes := indexed.graph.nodes.push node, bounds }
  newEdge : ∀ edge : Edge α,
    edge.tail < indexed.graph.nodes.size → edge.head < indexed.graph.nodes.size →
      indexed.addEdge? edge = some (indexed.graph.edges.size,
        { indexed with
          graph :=
            { indexed.graph with edges := indexed.graph.edges.push edge, paths := none } })
  others : ∀ operation : Operation α, ¬ operation.Adds →
    ∃ graph, operation.nextIndexed? indexed = some { indexed with graph } ∧
      SameContent indexed.graph graph
  grows : ∀ (operations : List (Operation α)) (last : Indexed α),
    Operation.runIndexed? operations indexed = some last → Grows indexed.graph last.graph
  nodeIndex : ∀ (node : Node α) (operations : List (Operation α)) (last : Indexed α),
    Operation.runIndexed? operations (indexed.addNode node).2 = some last →
      last.graph.ids[(indexed.addNode node).1]? = some node.id
  edgeIndex : ∀ (edge : Edge α) (i : Nat) (next : Indexed α) (operations : List (Operation α))
    (last : Indexed α), indexed.addEdge? edge = some (i, next) →
      Operation.runIndexed? operations next = some last → last.graph.edges[i]? = some edge

theorem Consistent.getElem?_addNode {indexed : Indexed α} (h : indexed.Consistent)
    (node : Node α) :
    (indexed.addNode node).2.graph.ids[(indexed.addNode node).1]? = some node.id := by
  by_cases hid : node.id ∈ indexed.graph.ids
  · obtain ⟨i, hi⟩ := List.mem_iff_getElem?.mp hid
    rwa [h.addNode_known hi]
  · rw [h.addNode_new hid, ids_pushNode, getElem?_concat_eq_some_iff]
    exact .inr ⟨(length_ids _).symm, rfl⟩

/-- **An index keeps its meaning**: every reachable graph keeps the indices of its nodes and
edges. -/
theorem Reachable.keepsIndices {indexed : Indexed α} (h : indexed.Reachable) :
    indexed.KeepsIndices where
  nodup := h.consistent.nodup
  index := h.consistent.index
  ends := h.consistent.ends
  known _ _ hid := h.consistent.addNode_known hid
  newNode node hid := by
    rw [h.consistent.addNode_new hid]
    exact ⟨rfl, _, rfl⟩
  newEdge edge htail hhead := by
    unfold Indexed.addEdge? Graph.addEdge?
    rw [if_pos ⟨htail, hhead⟩]
    rfl
  others operation hadds := by
    obtain ⟨graph, hgraph⟩ := Operation.exists_next? hadds indexed.graph
    refine ⟨graph, ?_, Operation.sameContent hadds hgraph⟩
    rw [Operation.nextIndexed?_of_not_adds hadds, hgraph]
    rfl
  grows _ _ hrun := Operation.run?_grows (h.consistent.run hrun).2
  nodeIndex node _ _ hrun :=
    (Operation.run?_grows ((h.consistent.addNode node).run hrun).2).getElem?_ids
      (h.consistent.getElem?_addNode node)
  edgeIndex edge i next operations last hadd hrun := by
    obtain ⟨⟨j, graph⟩, hplain, heq⟩ := Option.map_eq_some_iff.mp hadd
    obtain ⟨rfl, rfl⟩ := Prod.mk.inj heq
    exact (Operation.run?_grows ((h.consistent.of_addEdge? hplain).run hrun).2).getElem?_edges
      (getElem?_addEdge? hplain)

theorem Reachable.run {operations : List (Operation α)} {indexed last : Indexed α}
    (h : indexed.Reachable) (hlast : Operation.runIndexed? operations indexed = some last) :
    last.Reachable :=
  foldlM_preserves (fun h hnext => h.step _ hnext) operations h hlast

/-- Two nodes, one of them added twice, with a loop and two edges between them, and a tick. -/
def twoNodes : List (Operation Float) :=
  let node (id : String) : Operation Float := .addNode (Node.placed id Point.origin {})
  let edge (tail head : Nat) : Operation Float :=
    .addEdge { tail, head, directed := true, attraction := Scalar.one, options := {} }
  [node "A", node "B", node "A", edge 0 0, edge 0 1, edge 1 0, .tick]

/-- Loops, parallel edges and repeated nodes keep all indices. -/
theorem keepsIndices_twoNodes :
    ∃ indexed : Indexed Float,
      Operation.runIndexed? twoNodes
          (empty "g" Parameters.default (Stream.ofSeed 1)) = some indexed ∧
        indexed.Reachable ∧ indexed.KeepsIndices := by
  have hsome : (Operation.runIndexed? twoNodes
      (empty "g" Parameters.default (Stream.ofSeed 1))).isSome := by decide +kernel
  obtain ⟨indexed, hrun⟩ := Option.isSome_iff_exists.mp hsome
  have hreachable := (Reachable.empty "g" Parameters.default (Stream.ofSeed 1)).run hrun
  exact ⟨indexed, hrun, hreachable, hreachable.keepsIndices⟩

end Graph.Indexed

end NodeLink
