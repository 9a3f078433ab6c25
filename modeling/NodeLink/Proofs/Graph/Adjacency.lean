import NodeLink.Graph.Adjacency
import NodeLink.Proofs.Graph.Index
import Mathlib.Data.Sym.Sym2

/-! # Edges at nodes

One pass over the edges of a graph lists every edge under the identifiers of its ends.  What an
edge adds under an identifier (`Graph.views`) does not depend on what is listed already, so in the
end an identifier has the views of all edges, in the order of the edges (`Graph.get?_adjacency`).

If no two nodes share an identifier and edges are between nodes, then this is one view for each edge
at the node and nothing else (`Graph.adjacency_listsEdges`).  Every reachable graph is like that
(`Graph.Indexed.nodup_ids_of_reachable`, `Graph.Indexed.endsExist_of_reachable`). -/

namespace NodeLink

open NodeLink.Random (Stream)

variable {α : Type}

/-! ### Entries -/

namespace Adjacency

/-- One more edge comes behind those that are listed under its identifier; other lists stay. -/
theorem get?_add_of_eq_some {adjacency : Adjacency α} {id : String} {listed : List (Incidence α)}
    (h : adjacency.get? id = some listed.toArray) (key : String) (seen : Incidence α) :
    (adjacency.add key seen).get? id =
      some (listed ++ if key = id then [seen] else []).toArray := by
  rw [get?_add, h]
  by_cases hkey : key = id
  · rw [if_pos hkey.symm, if_pos hkey, Option.getD_some, List.push_toArray]
  · rw [if_neg (Ne.symm hkey), if_neg hkey, List.append_nil]

theorem get?_foldl_clear (id : String) : ∀ (nodes : List (Node α)) (adjacency : Adjacency α),
    (nodes.foldl (fun adjacency node => adjacency.clear node.id) adjacency).get? id =
      if id ∈ nodes.map Node.id then some #[] else adjacency.get? id
  | [], _ => rfl
  | node :: later, adjacency => by
      rw [List.foldl_cons, get?_foldl_clear id later, get?_clear]
      by_cases hlater : id ∈ later.map Node.id
      · simp only [List.map_cons, List.mem_cons, hlater, if_true, or_true]
      · simp only [List.map_cons, List.mem_cons, hlater, if_false, or_false]

theorem keys_foldl_clear : ∀ (nodes : List (Node α)) (adjacency : Adjacency α),
    (adjacency.keys ++ nodes.map Node.id).Nodup →
      (nodes.foldl (fun adjacency node => adjacency.clear node.id) adjacency).keys =
        adjacency.keys ++ nodes.map Node.id
  | [], adjacency, _ => (List.append_nil _).symm
  | node :: later, adjacency, h => by
      have hnew : node.id ∉ adjacency.keys := fun hmem =>
        (List.disjoint_of_nodup_append h) hmem List.mem_cons_self
      have hkeys : (adjacency.clear node.id).keys = adjacency.keys ++ [node.id] := by
        rw [keys_clear, if_neg hnew]
      have hsplit : adjacency.keys ++ (node :: later).map Node.id =
          (adjacency.clear node.id).keys ++ later.map Node.id := by
        rw [hkeys, List.map_cons, List.append_assoc, List.singleton_append]
      rw [List.foldl_cons, hsplit]
      exact keys_foldl_clear later _ (hsplit ▸ h)

end Adjacency

/-! ### Views of an edge -/

/-- Whether a node is one of the ends of an edge. -/
def Edge.Touches (edge : Edge α) (node : Nat) : Prop := edge.tail = node ∨ edge.head = node

instance (edge : Edge α) (node : Nat) : Decidable (edge.Touches node) :=
  inferInstanceAs (Decidable (_ ∨ _))

namespace Graph

variable [Scalar α]

/-- How an edge is seen from the node at one of its ends: it leads from there to the other end,
along its path or the reverse of it, and it is reversed if the node is the head and not the tail. -/
structure SeenFrom (graph : Graph α) (node : Nat) (edge : Edge α) (index : Nat)
    (seen : Incidence α) : Prop where
  tail : seen.tail = node
  ends : s(node, seen.head) = s(edge.tail, edge.head)
  directed : seen.directed = edge.directed
  options : seen.options = edge.options
  reversed : seen.reversed = true ↔ edge.head = node ∧ edge.tail ≠ edge.head
  path : seen.path =
    if seen.reversed then (graph.edgePath index).reverse else graph.edgePath index

variable {graph : Graph α} {edge : Edge α} {index : Nat}

theorem seenFrom_tail (graph : Graph α) (edge : Edge α) (index : Nat) :
    graph.SeenFrom edge.tail edge index (graph.incidence edge index) where
  tail := rfl
  ends := rfl
  directed := rfl
  options := rfl
  reversed := iff_of_false Bool.false_ne_true fun h => h.2 h.1.symm
  path := rfl

theorem seenFrom_head (graph : Graph α) (index : Nat) (hloop : edge.tail ≠ edge.head) :
    graph.SeenFrom edge.head edge index (graph.incidence edge index).turned where
  tail := rfl
  ends := Sym2.eq_swap
  directed := rfl
  options := rfl
  reversed := iff_of_true rfl ⟨rfl, hloop⟩
  path := rfl

theorem SeenFrom.path_eq_reverse {there back : Incidence α} (hloop : edge.tail ≠ edge.head)
    (hthere : graph.SeenFrom edge.tail edge index there)
    (hback : graph.SeenFrom edge.head edge index back) :
    there.path = back.path.reverse ∧ back.path = there.path.reverse := by
  have hforward : there.path = graph.edgePath index := by
    rw [hthere.path, if_neg fun h => hloop (hthere.reversed.mp h).1.symm]
  have hreverse : back.path = (graph.edgePath index).reverse := by
    rw [hback.path, if_pos (hback.reversed.mpr ⟨rfl, hloop⟩)]
  rw [hforward, hreverse, Array.reverse_reverse]
  exact ⟨rfl, rfl⟩

/-! ### One edge -/

/-- What an edge adds to the list under an identifier. -/
def views (graph : Graph α) (id : String) (edge : Edge α) (index : Nat) : List (Incidence α) :=
  let seen := graph.incidence edge index
  (if edge.tail ≠ edge.head ∧ graph.idAt edge.head = id then [seen.turned] else []) ++
    if graph.idAt edge.tail = id then [seen] else []

theorem get?_listEdge {adjacency : Adjacency α} {id : String} {listed : List (Incidence α)}
    (h : adjacency.get? id = some listed.toArray) (edge : Edge α) (index : Nat) :
    (graph.listEdge adjacency edge index).get? id =
      some (listed ++ graph.views id edge index).toArray := by
  unfold listEdge views
  by_cases hloop : edge.tail = edge.head
  · simp only [hloop, ne_eq, not_true_eq_false, false_and, if_false, List.nil_append]
    exact Adjacency.get?_add_of_eq_some h _ _
  · simp only [ne_eq, hloop, not_false_eq_true, true_and, if_true]
    have hhead := Adjacency.get?_add_of_eq_some h (graph.idAt edge.head)
      (graph.incidence edge index).turned
    rw [Adjacency.get?_add_of_eq_some hhead, List.append_assoc]

theorem keys_listEdge {adjacency : Adjacency α} (htail : graph.idAt edge.tail ∈ adjacency.keys)
    (hhead : graph.idAt edge.head ∈ adjacency.keys) (index : Nat) :
    (graph.listEdge adjacency edge index).keys = adjacency.keys := by
  unfold listEdge
  dsimp only
  split
  · rw [Adjacency.keys_add, Adjacency.keys_add, if_pos hhead, if_pos htail]
  · rw [Adjacency.keys_add, if_pos htail]

theorem exists_views_eq (hids : graph.ids.Nodup) {node : Nat} {id : String}
    (hid : graph.ids[node]? = some id) (htail : edge.tail < graph.nodes.size)
    (hhead : edge.head < graph.nodes.size) (h : edge.Touches node) (index : Nat) :
    ∃ seen, graph.views id edge index = [seen] ∧ graph.SeenFrom node edge index seen := by
  simp only [views, idAt_eq_iff hids htail hid, idAt_eq_iff hids hhead hid]
  by_cases htouch : edge.tail = node
  · -- the view from the tail; that from the head is another node's, or left out for a loop
    subst htouch
    have hsecond : ¬ (edge.tail ≠ edge.head ∧ edge.head = edge.tail) := fun h => h.1 h.2.symm
    rw [if_neg hsecond, if_pos rfl]
    exact ⟨_, rfl, graph.seenFrom_tail edge index⟩
  · obtain rfl : edge.head = node := h.resolve_left htouch
    rw [if_pos ⟨htouch, rfl⟩, if_neg htouch]
    exact ⟨_, rfl, graph.seenFrom_head index htouch⟩

theorem views_eq_nil (hids : graph.ids.Nodup) {node : Nat} {id : String}
    (hid : graph.ids[node]? = some id) (htail : edge.tail < graph.nodes.size)
    (hhead : edge.head < graph.nodes.size) (h : ¬ edge.Touches node) (index : Nat) :
    graph.views id edge index = [] := by
  simp only [views, idAt_eq_iff hids htail hid, idAt_eq_iff hids hhead hid]
  rw [if_neg fun hloop => h (.inr hloop.2), if_neg fun hend => h (.inl hend), List.nil_append]

/-! ### All edges -/

theorem get?_foldl_listEdge {id : String} : ∀ (edges : List (Edge α × Nat))
    {adjacency : Adjacency α} {listed : List (Incidence α)},
      adjacency.get? id = some listed.toArray →
        (edges.foldl (fun adjacency (edge, index) => graph.listEdge adjacency edge index)
            adjacency).get? id =
          some (listed ++ edges.flatMap fun (edge, index) => graph.views id edge index).toArray
  | [], _, listed, h => by rwa [List.flatMap_nil, List.append_nil]
  | (edge, index) :: later, _, listed, h => by
      rw [List.foldl_cons, get?_foldl_listEdge later (get?_listEdge h edge index),
        List.flatMap_cons, List.append_assoc]

theorem keys_foldl_listEdge : ∀ (edges : List (Edge α × Nat)) (adjacency : Adjacency α),
    (∀ placed ∈ edges, graph.idAt placed.1.tail ∈ adjacency.keys ∧
      graph.idAt placed.1.head ∈ adjacency.keys) →
      (edges.foldl (fun adjacency (edge, index) => graph.listEdge adjacency edge index)
          adjacency).keys = adjacency.keys
  | [], _, _ => rfl
  | (edge, index) :: later, adjacency, h => by
      obtain ⟨htail, hhead⟩ := h _ List.mem_cons_self
      have hkeys := keys_listEdge htail hhead index
      rw [List.foldl_cons, keys_foldl_listEdge later _ fun placed hplaced => ?_, hkeys]
      rw [hkeys]
      exact h placed (List.mem_cons_of_mem _ hplaced)

/-- An identifier of a node has the views of all edges, in the order of the edges. -/
theorem get?_adjacency (graph : Graph α) {id : String} (hid : id ∈ graph.ids) :
    graph.adjacency.get? id =
      some (graph.indexedEdges.flatMap fun (edge, index) => graph.views id edge index).toArray := by
  have hempty : (graph.nodes.toList.foldl (fun adjacency node => adjacency.clear node.id)
      ({} : Adjacency α)).get? id = some ([] : List (Incidence α)).toArray := by
    rw [Adjacency.get?_foldl_clear]
    exact if_pos hid
  exact get?_foldl_listEdge graph.indexedEdges hempty

theorem keys_adjacency (hids : graph.ids.Nodup) (hends : graph.EndsExist) :
    graph.adjacency.keys = graph.ids := by
  have hunlisted := Adjacency.keys_foldl_clear graph.nodes.toList ({} : Adjacency α) hids
  unfold adjacency
  dsimp only
  rw [keys_foldl_listEdge, hunlisted]
  · rfl
  · intro placed hplaced
    obtain ⟨htail, hhead⟩ := hends _ (Array.mem_of_getElem? (getElem?_of_mem_indexedEdges hplaced))
    rw [hunlisted]
    exact ⟨List.mem_of_getElem? (getElem?_ids_of_lt htail),
      List.mem_of_getElem? (getElem?_ids_of_lt hhead)⟩

/-- What is listed for a node: one view from the node of each edge at it, in the order of the
edges. -/
def ListsEdgesAt (graph : Graph α) (node : Nat) (listed : List (Incidence α)) : Prop :=
  List.Forall₂ (fun (edge, index) seen => graph.SeenFrom node edge index seen)
    (graph.indexedEdges.filter fun (edge, _) => edge.Touches node) listed

/-- The views that an identifier has of some edges are those of the edges at its node. -/
theorem forall₂_views (hids : graph.ids.Nodup) {node : Nat} {id : String}
    (hid : graph.ids[node]? = some id) : ∀ {edges : List (Edge α × Nat)},
      (∀ placed ∈ edges, placed.1.tail < graph.nodes.size ∧ placed.1.head < graph.nodes.size) →
      List.Forall₂ (fun (edge, index) seen => graph.SeenFrom node edge index seen)
        (edges.filter fun (edge, _) => edge.Touches node)
        (edges.flatMap fun (edge, index) => graph.views id edge index)
  | [], _ => .nil
  | (edge, index) :: later, hends => by
      obtain ⟨htail, hhead⟩ := hends _ List.mem_cons_self
      have hlater := forall₂_views hids hid fun placed hplaced =>
        hends placed (List.mem_cons_of_mem _ hplaced)
      simp only [List.filter_cons, List.flatMap_cons]
      by_cases h : edge.Touches node
      · obtain ⟨seen, hviews, hseen⟩ := exists_views_eq hids hid htail hhead h index
        rw [if_pos (decide_eq_true h), hviews]
        exact .cons hseen hlater
      · rw [if_neg (by simpa using h), views_eq_nil hids hid htail hhead h, List.nil_append]
        exact hlater

/-- **Every node has an entry with exactly the edges at it**, each seen once from the node and in
the order of the edges, and the two views of an edge have paths that are each other's reverses. -/
theorem adjacency_listsEdges (hids : graph.ids.Nodup) (hends : graph.EndsExist) :
    graph.adjacency.keys = graph.ids ∧
      (∀ (node : Nat) (id : String), graph.ids[node]? = some id →
        ∃ listed, graph.adjacency.get? id = some listed ∧
          graph.ListsEdgesAt node listed.toList) ∧
      ∀ (edge : Edge α) (index : Nat) (there back : Incidence α), edge.tail ≠ edge.head →
        graph.SeenFrom edge.tail edge index there → graph.SeenFrom edge.head edge index back →
          there.path = back.path.reverse ∧ back.path = there.path.reverse := by
  refine ⟨keys_adjacency hids hends, fun node id hid => ?_, fun _ _ _ _ => SeenFrom.path_eq_reverse⟩
  refine ⟨_, graph.get?_adjacency (List.mem_of_getElem? hid), forall₂_views hids hid ?_⟩
  exact fun placed hplaced =>
    hends _ (Array.mem_of_getElem? (getElem?_of_mem_indexedEdges hplaced))

/-- Three nodes, a loop and two edges between the first two, bundled. -/
def bundledLoop : List (Operation Float) :=
  let node (id : String) (position : Point Float) : Operation Float :=
    .addNode (Node.placed id position {})
  let edge (tail head : Nat) : Operation Float :=
    .addEdge { tail, head, directed := true, attraction := Scalar.one, options := {} }
  [node "A" ⟨0, 0⟩, node "B" ⟨1, 0⟩, node "C" ⟨2, 0⟩, edge 0 0, edge 0 1, edge 1 0,
    .bundleEdges { BundlingParameters.default with cycleCount := 0 }]

/-- The loop is listed once, the last node has no edges. -/
theorem adjacency_listsEdges_bundledLoop :
    ∃ graph : Graph Float,
      Operation.run? bundledLoop (empty "g" Parameters.default (Stream.ofSeed 1)) = some graph ∧
      graph.adjacency.entries.map (fun (id, listed) => (id, listed.toList.map (·.reversed))) =
        [("A", [false, false, true]), ("B", [true, false]), ("C", [])] ∧
      graph.ids.Nodup ∧ graph.EndsExist ∧ graph.adjacency.keys = graph.ids ∧
      (∀ (node : Nat) (id : String), graph.ids[node]? = some id →
        ∃ listed, graph.adjacency.get? id = some listed ∧
          graph.ListsEdgesAt node listed.toList) ∧
      ∀ (edge : Edge Float) (index : Nat) (there back : Incidence Float), edge.tail ≠ edge.head →
        graph.SeenFrom edge.tail edge index there → graph.SeenFrom edge.head edge index back →
          there.path = back.path.reverse ∧ back.path = there.path.reverse := by
  have hrun : (Operation.run? bundledLoop (empty "g" Parameters.default (Stream.ofSeed 1))).map
      (fun graph => graph.adjacency.entries.map fun (id, listed) =>
        (id, listed.toList.map (·.reversed))) =
      some [("A", [false, false, true]), ("B", [true, false]), ("C", [])] := by
    decide +kernel
  obtain ⟨graph, hgraph, hlisted⟩ := Option.map_eq_some_iff.mp hrun
  have hreachable := (Reachable.empty "g" Parameters.default (Stream.ofSeed 1)).run hgraph
  have hids := Indexed.nodup_ids_of_reachable hreachable
  have hends := Indexed.endsExist_of_reachable hreachable
  exact ⟨graph, hgraph, hlisted, hids, hends, adjacency_listsEdges hids hends⟩

end Graph

end NodeLink
