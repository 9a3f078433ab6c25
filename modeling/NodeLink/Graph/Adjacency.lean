import NodeLink.Graph.Basic

/-! # Adjacency

For every node the edges at it, each seen from that node: a path that starts there, and
whether the edge was declared the other way round.  One pass over the edges lists every edge
under the identifiers of both its ends, first under that of its head; a loop is listed once. -/

namespace NodeLink

/-- An edge as seen from the node at one of its ends, by node index. -/
structure Incidence (α : Type) where
  /-- The node that the edge is seen from. -/
  tail : Nat
  /-- The node at the other end. -/
  head : Nat
  /-- The path of the edge from `tail` to `head`. -/
  path : Array (Point α)
  options : EdgeOptions
  directed : Bool
  /-- Whether the edge was declared from `head` to `tail`. -/
  reversed : Bool
  deriving DecidableEq, Repr, Inhabited

/-- The same edge as seen from its other end. -/
def Incidence.turned {α : Type} (incidence : Incidence α) : Incidence α :=
  { incidence with
    tail := incidence.head
    head := incidence.tail
    path := incidence.path.reverse
    reversed := !incidence.reversed }

/-! ### What is listed under identifiers -/

/-- Edges as seen from nodes, listed by the identifiers of the nodes. -/
structure Adjacency (α : Type) where
  entries : List (String × Array (Incidence α)) := []
  deriving DecidableEq, Repr, Inhabited

namespace Adjacency

variable {α : Type}

/-- What is listed under an identifier. -/
def get? (adjacency : Adjacency α) (id : String) : Option (Array (Incidence α)) :=
  adjacency.entries.lookup id

/-- The identifiers with an entry. -/
def keys (adjacency : Adjacency α) : List String :=
  adjacency.entries.map Prod.fst

/-- Changes what is listed under an identifier; if it has no entry, it gets one behind the others,
which is changed from the empty list. -/
def alterIn (id : String) (change : Array (Incidence α) → Array (Incidence α)) :
    List (String × Array (Incidence α)) → List (String × Array (Incidence α))
  | [] => [(id, change #[])]
  | (known, listed) :: rest =>
    if known = id then (known, change listed) :: rest
    else (known, listed) :: alterIn id change rest

/-- Lists nothing under an identifier. -/
def clear (adjacency : Adjacency α) (id : String) : Adjacency α :=
  { entries := alterIn id (fun _ => #[]) adjacency.entries }

/-- Lists one more edge under an identifier, behind those that are listed. -/
def add (adjacency : Adjacency α) (id : String) (incidence : Incidence α) : Adjacency α :=
  { entries := alterIn id (·.push incidence) adjacency.entries }

theorem lookup_alterIn (id : String) (change : Array (Incidence α) → Array (Incidence α))
    (other : String) : ∀ entries : List (String × Array (Incidence α)),
      (alterIn id change entries).lookup other =
        if other = id then some (change ((entries.lookup other).getD #[]))
        else entries.lookup other
  | [] => by
      unfold alterIn
      rw [List.lookup_cons]
      by_cases h : other = id
      · simp [h]
      · simp [h, beq_eq_false_iff_ne.mpr h]
  | (known, listed) :: rest => by
      unfold alterIn
      split
      · next hknown =>
        subst hknown
        rw [List.lookup_cons, List.lookup_cons]
        by_cases h : other = known
        · simp [h]
        · simp [h, beq_eq_false_iff_ne.mpr h]
      · next hknown =>
        rw [List.lookup_cons, List.lookup_cons, lookup_alterIn id change other rest]
        by_cases h : other = known
        · simp [h, hknown]
        · simp [beq_eq_false_iff_ne.mpr h]

theorem map_fst_alterIn (id : String) (change : Array (Incidence α) → Array (Incidence α)) :
    ∀ entries : List (String × Array (Incidence α)),
      (alterIn id change entries).map Prod.fst =
        if id ∈ entries.map Prod.fst then entries.map Prod.fst
        else entries.map Prod.fst ++ [id]
  | [] => rfl
  | (known, listed) :: rest => by
      unfold alterIn
      split
      · next hknown => simp [hknown]
      · next hknown =>
        have hne : id ≠ known := fun h => hknown h.symm
        simp only [List.map_cons, map_fst_alterIn id change rest, List.mem_cons, hne, false_or]
        split <;> rfl

theorem get?_clear (adjacency : Adjacency α) (id other : String) :
    (adjacency.clear id).get? other = if other = id then some #[] else adjacency.get? other :=
  lookup_alterIn id _ other adjacency.entries

theorem get?_add (adjacency : Adjacency α) (id : String) (incidence : Incidence α)
    (other : String) :
    (adjacency.add id incidence).get? other =
      if other = id then some (((adjacency.get? other).getD #[]).push incidence)
      else adjacency.get? other :=
  lookup_alterIn id _ other adjacency.entries

theorem keys_clear (adjacency : Adjacency α) (id : String) :
    (adjacency.clear id).keys =
      if id ∈ adjacency.keys then adjacency.keys else adjacency.keys ++ [id] :=
  map_fst_alterIn id _ adjacency.entries

theorem keys_add (adjacency : Adjacency α) (id : String) (incidence : Incidence α) :
    (adjacency.add id incidence).keys =
      if id ∈ adjacency.keys then adjacency.keys else adjacency.keys ++ [id] :=
  map_fst_alterIn id _ adjacency.entries

end Adjacency

/-! ### The edges of a graph -/

namespace Graph

variable {α : Type} [Scalar α]

/-- An edge as seen from its tail. -/
def incidence (graph : Graph α) (edge : Edge α) (index : Nat) : Incidence α :=
  { tail := edge.tail, head := edge.head, path := graph.edgePath index, options := edge.options,
    directed := edge.directed, reversed := false }

/-- Lists an edge under its head, unless it is a loop, and under its tail. -/
def listEdge (graph : Graph α) (adjacency : Adjacency α) (edge : Edge α) (index : Nat) :
    Adjacency α :=
  let seen := graph.incidence edge index
  let adjacency :=
    if edge.tail ≠ edge.head then adjacency.add (graph.idAt edge.head) seen.turned else adjacency
  adjacency.add (graph.idAt edge.tail) seen

/-- The edges at every node, listed under the identifier of the node. -/
def adjacency (graph : Graph α) : Adjacency α :=
  let unlisted := graph.nodes.toList.foldl (fun adjacency node => adjacency.clear node.id) {}
  graph.indexedEdges.foldl (fun adjacency (edge, index) => graph.listEdge adjacency edge index)
    unlisted

end Graph

end NodeLink
