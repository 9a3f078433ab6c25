import NodeLink.Graph.Layout
import NodeLink.Proofs.Sequences

/-! # Ticks go through

A tick reads nodes by their indices, those of every pair and those of the ends of every edge, and
it draws small random vectors.  Neither can fail in a graph whose edges have their ends: at every
moment of every tick the nodes are there, and the range of the small vectors is a proper one
(`Graph.EndsExist.canTick`).  What the tick computes does not matter for this, so the constants of
the layout may be any. -/

namespace NodeLink

/-- Numbers can be drawn from a range that is not empty and not wider than the greatest double. -/
def Random.Proper (low high : Float) : Prop :=
  Scalar.lt low high = true ∧ Scalar.isFinite (high - low) = true

theorem Random.proper_jitter : Random.Proper (Scalar.ratio 1 10) (Scalar.ratio 2 10) := by
  unfold Random.Proper
  decide

/-- What it takes to separate two nodes: the nodes, and a range for the small vector that may
stand for their offset. -/
structure CanSeparate (nodes : Array (Node Float)) (first second : Nat) : Prop where
  first : first < nodes.size
  second : second < nodes.size
  range : Random.Proper (Scalar.ratio 1 10) (Scalar.ratio 2 10)

theorem mem_indexPairs {count : Nat} {pair : Nat × Nat} (h : pair ∈ indexPairs count) :
    pair.1 < count ∧ pair.2 < count := by
  obtain ⟨i, hi, hpair⟩ := List.mem_flatMap.mp h
  obtain ⟨j, hj, rfl⟩ := List.mem_map.mp hpair
  rw [List.mem_range] at hi hj
  exact ⟨hi, Nat.lt_trans hj hi⟩

/-! ### Gathering forces -/

section Gathering

variable {α : Type} [Scalar α]

/-- A node with its force spent. -/
def Node.atRest (node : Node α) : Node α := { node with force := Vec.zero }

/-- Nodes with their forces spent. -/
def atRest (nodes : Array (Node α)) : Array (Node α) := nodes.map Node.atRest

theorem size_eq_of_atRest {nodes others : Array (Node α)} (h : atRest nodes = atRest others) :
    nodes.size = others.size := by
  have hsize := congrArg Array.size h
  unfold atRest at hsize
  rwa [Array.size_map, Array.size_map] at hsize

theorem atRest_modify (nodes : Array (Node α)) (index : Nat) {change : Node α → Node α}
    (h : ∀ node, (change node).atRest = node.atRest) :
    atRest (nodes.modify index change) = atRest nodes := by
  refine Array.ext_getElem? fun i => ?_
  unfold atRest
  rw [Array.getElem?_map, Array.getElem?_map, Array.getElem?_modify]
  split
  · rw [Option.map_map]
    exact congrArg (Option.map · nodes[i]?) (funext h)
  · rfl

theorem atRest_addForce (nodes : Array (Node α)) (index : Nat) (v : Vec α) :
    atRest (addForce nodes index v) = atRest nodes :=
  atRest_modify nodes index fun _ => rfl

theorem atRest_subForce (nodes : Array (Node α)) (index : Nat) (v : Vec α) :
    atRest (subForce nodes index v) = atRest nodes :=
  atRest_modify nodes index fun _ => rfl

theorem atRest_pushApart (parameters : Parameters α) (nodes : Array (Node α)) (pair : Nat × Nat)
    (offset : Vec α) (distance : α) :
    atRest (pushApart parameters nodes pair offset distance) = atRest nodes := by
  unfold pushApart
  split
  · exact (atRest_subForce ..).trans (atRest_addForce ..)
  · rfl

theorem atRest_pullTogether (parameters : Parameters α) (nodes : Array (Node α)) (edge : Edge α)
    (offset : Vec α) (distance : α) :
    atRest (pullTogether parameters nodes edge offset distance) = atRest nodes :=
  (atRest_addForce ..).trans (atRest_subForce ..)

theorem atRest_repel (parameters : Parameters α) (state : Gathering α) (pair : Nat × Nat) :
    atRest (repel parameters state pair).1 = atRest state.1 :=
  atRest_pushApart ..

theorem atRest_attract (parameters : Parameters α) (state : Gathering α) (edge : Edge α) :
    atRest (attract parameters state edge).1 = atRest state.1 :=
  atRest_pullTogether ..

theorem atRest_repelAll (parameters : Parameters α) (state : Gathering α) :
    atRest (repelAll parameters state).1 = atRest state.1 :=
  List.foldlRecOn (motive := fun now : Gathering α => atRest now.1 = atRest state.1)
    (indexPairs state.1.size) (repel parameters) rfl
    fun now h pair _ => (atRest_repel parameters now pair).trans h

theorem atRest_attractAll (parameters : Parameters α) (edges : List (Edge α))
    (state : Gathering α) : atRest (attractAll parameters edges state).1 = atRest state.1 :=
  List.foldlRecOn (motive := fun now : Gathering α => atRest now.1 = atRest state.1)
    edges (attract parameters) rfl
    fun now h edge _ => (atRest_attract parameters now edge).trans h

/-- The nodes with the forces of a tick, and the stream after them. -/
def Graph.gathered (graph : Graph α) : Gathering α :=
  attractAll graph.parameters graph.edges.toList
    (repelAll graph.parameters (graph.nodes, graph.stream))

theorem Graph.atRest_gathered (graph : Graph α) : atRest graph.gathered.1 = atRest graph.nodes :=
  (atRest_attractAll ..).trans (atRest_repelAll ..)

end Gathering

/-! ### Moving the nodes -/

section Settling

variable {α : Type} [Scalar α]

theorem foldl_settleNext (parameters : Parameters α) (nodes : List (Node α)) :
    ∀ settled : Array (Node α) × Bounds α,
      nodes.foldl (settleNext parameters) settled =
        (settled.1 ++ nodes.map (Node.settle parameters),
          ((nodes.map (Node.settle parameters)).map Node.position).foldl Bounds.cover
            settled.2) := by
  induction nodes with
  | nil => simp
  | cons node nodes ih =>
      intro settled
      rw [List.foldl_cons, ih]
      simp [settleNext]

/-- The nodes are moved each by its own force, and the box that grows on the way is the least one
around where they come to lie. -/
theorem settleAll_eq (parameters : Parameters α) (nodes : Array (Node α)) :
    settleAll parameters nodes =
      (nodes.map (Node.settle parameters),
        Bounds.ofPoints ((nodes.map (Node.settle parameters)).toList.map Node.position)) := by
  unfold settleAll
  rw [← Array.foldl_toList, foldl_settleNext]
  refine Prod.ext (Array.toList_inj.mp ?_) ?_
  · simp
  · simp [Bounds.ofPoints]

/-- A tick moves every node by the force gathered for it, and recomputes the box. -/
theorem Graph.tick_eq (graph : Graph α) :
    graph.tick =
      { graph with
        nodes := graph.gathered.1.map (Node.settle graph.parameters)
        stream := graph.gathered.2 }.recomputeBounds := by
  show { graph with
    nodes := (settleAll graph.parameters graph.gathered.1).1
    bounds := (settleAll graph.parameters graph.gathered.1).2
    stream := graph.gathered.2 } = _
  rw [settleAll_eq]
  rfl

end Settling

namespace Graph

section Ends

variable {α : Type}

/-- Every edge of the graph has its two ends among the nodes. -/
def EndsExist (graph : Graph α) : Prop :=
  ∀ edge ∈ graph.edges, edge.tail < graph.nodes.size ∧ edge.head < graph.nodes.size

variable [Scalar α]

theorem size_repel (parameters : Parameters α) (state : Gathering α) (pair : Nat × Nat) :
    (repel parameters state pair).1.size = state.1.size :=
  size_eq_of_atRest (atRest_repel parameters state pair)

theorem size_attract (parameters : Parameters α) (state : Gathering α) (edge : Edge α) :
    (attract parameters state edge).1.size = state.1.size :=
  size_eq_of_atRest (atRest_attract parameters state edge)

theorem size_tick (graph : Graph α) : graph.tick.nodes.size = graph.nodes.size := by
  have hgathered := size_eq_of_atRest graph.atRest_gathered
  rw [tick_eq]
  exact Array.size_map.trans hgathered

theorem EndsExist.tick {graph : Graph α} (h : graph.EndsExist) : graph.tick.EndsExist := by
  intro edge hedge
  rw [size_tick]
  exact h edge hedge

theorem EndsExist.ticks {graph : Graph α} (h : graph.EndsExist) (n : Nat) :
    (graph.ticks n).EndsExist :=
  repeat_preserves (fun _ h => EndsExist.tick h) n h

end Ends

/-- Every push and every pull of a tick can be made in the state that those before it leave. -/
structure CanTick (graph : Graph Float) : Prop where
  push : Along (fun state pair => CanSeparate state.1 pair.1 pair.2) (repel graph.parameters)
    (graph.nodes, graph.stream) (indexPairs graph.nodes.size)
  pull : Along (fun state edge => CanSeparate state.1 edge.tail edge.head)
    (attract graph.parameters) (repelAll graph.parameters (graph.nodes, graph.stream))
    graph.edges.toList

/-- A graph whose edges have their ends can tick, whatever its parameters. -/
theorem EndsExist.canTick {graph : Graph Float} (h : graph.EndsExist) : graph.CanTick where
  push := by
    refine along_of_invariant (I := fun state => state.1.size = graph.nodes.size)
      (fun state pair hstate => (size_repel _ state pair).trans hstate) _ rfl ?_
    intro state hstate pair hpair
    obtain ⟨hfirst, hsecond⟩ := mem_indexPairs hpair
    rw [← hstate] at hfirst hsecond
    exact ⟨hfirst, hsecond, Random.proper_jitter⟩
  pull := by
    refine along_of_invariant (I := fun state => state.1.size = graph.nodes.size)
      (fun state edge hstate => (size_attract _ state edge).trans hstate) _
      (size_eq_of_atRest (atRest_repelAll graph.parameters (graph.nodes, graph.stream))) ?_
    intro state hstate edge hedge
    obtain ⟨htail, hhead⟩ := h edge (Array.mem_toList_iff.mp hedge)
    rw [← hstate] at htail hhead
    exact ⟨htail, hhead, Random.proper_jitter⟩

end Graph

end NodeLink
