import NodeLink.Proofs.Exact.Scalar
import NodeLink.Proofs.Graph.Ticks

/-! # Forces in balance

In a tick every push and every pull acts on two nodes alike, in opposite directions: what is added
to the force of one is taken from the force of the other.  So with exact sums the forces of all
nodes have the same sum after it as before, and with that after all of them
(`Graph.netForce_balanced`).  The two nodes may be one and the same, as those of a loop are.

This does not depend on how a vector between two nodes is come by, on what is drawn for it, or on
what counts as its length, so all of these are parameters here (`Gauge`). -/

namespace NodeLink

open NodeLink.Random (Stream)

/-! ### Exact sums -/

/-- Sums and differences are exact: they are those of a commutative group. -/
class ExactSums (α : Type) [Scalar α] : Prop where
  add_assoc (a b c : α) : a + b + c = a + (b + c)
  add_comm (a b : α) : a + b = b + a
  zero_add (a : α) : Scalar.zero + a = a
  sub_add_cancel (a b : α) : a - b + b = a

/-- Sums of real numbers are exact. -/
instance [DivisionByZero] : ExactSums ℝ where
  add_assoc := add_assoc
  add_comm := add_comm
  zero_add a := by
    rw [Scalar.zero_real]
    exact zero_add a
  sub_add_cancel := sub_add_cancel

variable {α : Type} [Scalar α]

namespace Vec

section ExactSums

variable [ExactSums α] (a b c : Vec α)

theorem add_assoc_exact : a + b + c = a + (b + c) :=
  congrArg₂ Vec.mk (ExactSums.add_assoc ..) (ExactSums.add_assoc ..)

theorem add_comm_exact : a + b = b + a :=
  congrArg₂ Vec.mk (ExactSums.add_comm ..) (ExactSums.add_comm ..)

theorem zero_add_exact : zero + a = a :=
  congrArg₂ Vec.mk (ExactSums.zero_add ..) (ExactSums.zero_add ..)

theorem sub_add_cancel_exact : a - b + b = a :=
  congrArg₂ Vec.mk (ExactSums.sub_add_cancel ..) (ExactSums.sub_add_cancel ..)

theorem add_right_comm_exact : a + b + c = a + c + b := by
  rw [add_assoc_exact, add_comm_exact b, ← add_assoc_exact]

variable {a b c}

theorem add_right_cancel_exact (h : a + c = b + c) : a = b := by
  have hzero : c + (zero - c) = zero := by
    rw [add_comm_exact, sub_add_cancel_exact]
  have hcancel (v : Vec α) : v + c + (zero - c) = v := by
    rw [add_assoc_exact, hzero, add_comm_exact, zero_add_exact]
  rw [← hcancel a, h, hcancel]

end ExactSums

end Vec

/-! ### The sum of all forces -/

/-- The sum of the forces of some nodes. -/
def netForce (nodes : Array (Node α)) : Vec α :=
  nodes.foldl (fun sum node => sum + node.force) Vec.zero

section Exchange

variable [ExactSums α]

/-- What is summed up before some nodes may as well be added after them. -/
theorem foldl_add_force (nodes : List (Node α)) (start v : Vec α) :
    nodes.foldl (fun sum node => sum + node.force) (start + v) =
      nodes.foldl (fun sum node => sum + node.force) start + v := by
  induction nodes generalizing start with
  | nil => rfl
  | cons node nodes ih =>
      rw [List.foldl_cons, List.foldl_cons, Vec.add_right_comm_exact, ih]

theorem foldl_force_modify {change : Node α → Node α} {v : Vec α}
    (hchange : ∀ node, (change node).force = node.force + v) (nodes : List (Node α)) :
    ∀ {index : Nat} (start : Vec α), index < nodes.length →
      (nodes.modify index change).foldl (fun sum node => sum + node.force) start =
        nodes.foldl (fun sum node => sum + node.force) start + v := by
  induction nodes with
  | nil => exact fun _ hlt => absurd hlt (Nat.not_lt_zero _)
  | cons node nodes ih =>
      intro index start hlt
      cases index with
      | zero =>
          rw [List.modify_zero_cons, List.foldl_cons, List.foldl_cons, hchange,
            ← Vec.add_assoc_exact, foldl_add_force]
      | succ index =>
          rw [List.modify_succ_cons, List.foldl_cons, List.foldl_cons]
          exact ih _ (Nat.lt_of_succ_lt_succ hlt)

variable {nodes : Array (Node α)} {index : Nat}

theorem netForce_addForce (hlt : index < nodes.size) (v : Vec α) :
    netForce (addForce nodes index v) = netForce nodes + v := by
  unfold netForce addForce
  rw [← Array.foldl_toList, ← Array.foldl_toList, Array.toList_modify]
  exact foldl_force_modify (fun _ => rfl) nodes.toList Vec.zero hlt

theorem addForce_subForce (nodes : Array (Node α)) (index : Nat) (v : Vec α) :
    addForce (subForce nodes index v) index v = nodes := by
  refine Array.ext_getElem? fun i => ?_
  unfold addForce subForce
  rw [Array.getElem?_modify, Array.getElem?_modify]
  split
  · cases nodes[i]? with
    | none => rfl
    | some node =>
        simp only [Option.map_some, Vec.sub_add_cancel_exact]
  · rfl

/-- What is taken from the force of one node is missing in the sum. -/
theorem netForce_subForce_add (hlt : index < nodes.size) (v : Vec α) :
    netForce (subForce nodes index v) + v = netForce nodes := by
  have hsize : index < (subForce nodes index v).size := by
    unfold subForce
    rwa [Array.size_modify]
  rw [← netForce_addForce hsize, addForce_subForce]

theorem netForce_pushApart (parameters : Parameters α) {pair : Nat × Nat}
    (hfirst : pair.1 < nodes.size) (hsecond : pair.2 < nodes.size) (offset : Vec α)
    (distance : α) :
    netForce (pushApart parameters nodes pair offset distance) = netForce nodes := by
  unfold pushApart
  split
  · have hsize (v : Vec α) : pair.1 < (addForce nodes pair.2 v).size := by
      unfold addForce
      rwa [Array.size_modify]
    exact Vec.add_right_cancel_exact
      ((netForce_subForce_add (hsize _) _).trans (netForce_addForce hsecond _))
  · rfl

theorem netForce_pullTogether (parameters : Parameters α) {edge : Edge α}
    (htail : edge.tail < nodes.size) (hhead : edge.head < nodes.size) (offset : Vec α)
    (distance : α) :
    netForce (pullTogether parameters nodes edge offset distance) = netForce nodes := by
  have hsize (v : Vec α) : edge.tail < (subForce nodes edge.head v).size := by
    unfold subForce
    rwa [Array.size_modify]
  exact (netForce_addForce (hsize _) _).trans (netForce_subForce_add hhead _)

end Exchange

/-! ### Any way of measuring -/

/-- A way of measuring: which vector separates two places, with a state for what is drawn, and how
long a vector is. -/
structure Gauge (σ α : Type) where
  separate : Point α → Point α → σ → Vec α × σ
  length : Vec α → α

namespace Gauge

/-- How ticks measure: offsets or small random vectors, and lengths by square roots. -/
def ofTicks : Gauge Stream α := ⟨separation, Vec.norm⟩

variable {σ : Type} (gauge : Gauge σ α) (parameters : Parameters α)

/-- Pushes two nodes apart, if they are close enough. -/
def repel (state : Array (Node α) × σ) (pair : Nat × Nat) : Array (Node α) × σ :=
  let measured :=
    gauge.separate (positionIn state.1 pair.1) (positionIn state.1 pair.2) state.2
  (pushApart parameters state.1 pair measured.1 (gauge.length measured.1), measured.2)

/-- Pulls the ends of an edge together. -/
def attract (state : Array (Node α) × σ) (edge : Edge α) : Array (Node α) × σ :=
  let measured :=
    gauge.separate (positionIn state.1 edge.tail) (positionIn state.1 edge.head) state.2
  (pullTogether parameters state.1 edge measured.1 (gauge.length measured.1), measured.2)

/-- Pushes every pair of nodes apart. -/
def repelAll (state : Array (Node α) × σ) : Array (Node α) × σ :=
  (indexPairs state.1.size).foldl (gauge.repel parameters) state

/-- Pulls the ends of every edge together. -/
def attractAll (edges : List (Edge α)) (state : Array (Node α) × σ) : Array (Node α) × σ :=
  edges.foldl (gauge.attract parameters) state

theorem repelAll_ofTicks (state : Gathering α) :
    ofTicks.repelAll parameters state = NodeLink.repelAll parameters state := rfl

theorem attractAll_ofTicks (edges : List (Edge α)) (state : Gathering α) :
    ofTicks.attractAll parameters edges state = NodeLink.attractAll parameters edges state := rfl

/-- What pushes and pulls are to keep: the number of nodes and the sum of their forces. -/
def Balanced (before : Array (Node α)) (state : Array (Node α) × σ) : Prop :=
  state.1.size = before.size ∧ netForce state.1 = netForce before

variable {gauge parameters} [ExactSums α] {before : Array (Node α)} {state : Array (Node α) × σ}

theorem Balanced.repel (h : Balanced before state) {pair : Nat × Nat}
    (hpair : pair ∈ indexPairs before.size) :
    Balanced before (gauge.repel parameters state pair) := by
  obtain ⟨hfirst, hsecond⟩ := mem_indexPairs hpair
  rw [← h.1] at hfirst hsecond
  exact ⟨(size_eq_of_atRest (atRest_pushApart ..)).trans h.1,
    (netForce_pushApart parameters hfirst hsecond _ _).trans h.2⟩

theorem Balanced.attract (h : Balanced before state) {edge : Edge α}
    (hends : edge.tail < before.size ∧ edge.head < before.size) :
    Balanced before (gauge.attract parameters state edge) := by
  rw [← h.1] at hends
  exact ⟨(size_eq_of_atRest (atRest_pullTogether ..)).trans h.1,
    (netForce_pullTogether parameters hends.1 hends.2 _ _).trans h.2⟩

theorem balanced_repelAll (state : Array (Node α) × σ) :
    Balanced state.1 (gauge.repelAll parameters state) :=
  List.foldlRecOn (motive := Balanced state.1) (indexPairs state.1.size)
    (gauge.repel parameters) ⟨rfl, rfl⟩ fun _ h _ hpair => h.repel hpair

theorem Balanced.attractAll (h : Balanced before state) {edges : List (Edge α)}
    (hends : ∀ edge ∈ edges, edge.tail < before.size ∧ edge.head < before.size) :
    Balanced before (gauge.attractAll parameters edges state) :=
  List.foldlRecOn (motive := Balanced before) edges (gauge.attract parameters) h
    fun _ h edge hedge => h.attract (hends edge hedge)

end Gauge

namespace Graph

/-- **The forces of a tick are in balance**: with exact sums the forces of all nodes have the same
sum after all pushes, and after all pulls, as before, however vectors and lengths are measured; and
so it is as ticks measure them. -/
theorem netForce_balanced [ExactSums α] {graph : Graph α} (h : graph.EndsExist) {σ : Type}
    (gauge : Gauge σ α) (state : σ) :
    netForce (gauge.repelAll graph.parameters (graph.nodes, state)).1 = netForce graph.nodes ∧
      netForce (gauge.attractAll graph.parameters graph.edges.toList
        (gauge.repelAll graph.parameters (graph.nodes, state))).1 = netForce graph.nodes ∧
      netForce graph.gathered.1 = netForce graph.nodes := by
  have hends : ∀ edge ∈ graph.edges.toList,
      edge.tail < graph.nodes.size ∧ edge.head < graph.nodes.size :=
    fun edge hedge => h edge (Array.mem_toList_iff.mp hedge)
  have hpushed {σ : Type} (gauge : Gauge σ α) (state : σ) :
      Gauge.Balanced graph.nodes (gauge.repelAll graph.parameters (graph.nodes, state)) :=
    Gauge.balanced_repelAll (graph.nodes, state)
  have hpulled {σ : Type} (gauge : Gauge σ α) (state : σ) :
      Gauge.Balanced graph.nodes (gauge.attractAll graph.parameters graph.edges.toList
        (gauge.repelAll graph.parameters (graph.nodes, state))) :=
    (hpushed gauge state).attractAll hends
  refine ⟨(hpushed gauge state).2, (hpulled gauge state).2, ?_⟩
  rw [gathered, ← Gauge.repelAll_ofTicks, ← Gauge.attractAll_ofTicks]
  exact (hpulled Gauge.ofTicks graph.stream).2

/-- Three nodes in one place, of which one has a force, with a loop and two edges between the same
nodes. -/
noncomputable def tangle [DivisionByZero] : Graph ℝ where
  name := "tangle"
  nodes := #[⟨"A", ⟨0, 0⟩, ⟨1, 0⟩, {}⟩, .placed "B" ⟨0, 0⟩ {}, .placed "C" ⟨0, 0⟩ {}]
  edges := #[⟨0, 0, true, 1, {}⟩, ⟨0, 1, false, 1, {}⟩, ⟨1, 0, true, 1, {}⟩]
  parameters := .default
  bounds := .empty
  paths := none
  stream := .ofSeed 1

/-- Small random vectors, a loop and parallel edges leave the sum as it is. -/
theorem netForce_balanced_tangle :
    letI := DivisionByZero.zero
    tangle.EndsExist ∧
      netForce (Gauge.ofTicks.repelAll tangle.parameters (tangle.nodes, tangle.stream)).1 =
        netForce tangle.nodes ∧
      netForce (Gauge.ofTicks.attractAll tangle.parameters tangle.edges.toList
        (Gauge.ofTicks.repelAll tangle.parameters (tangle.nodes, tangle.stream))).1 =
          netForce tangle.nodes ∧
      netForce tangle.gathered.1 = netForce tangle.nodes := by
  let := DivisionByZero.zero
  have hends : tangle.EndsExist := by
    intro edge hedge
    simp only [tangle, List.mem_toArray, List.mem_cons, List.not_mem_nil, or_false] at hedge
    rcases hedge with rfl | rfl | rfl <;> exact ⟨by decide, by decide⟩
  exact ⟨hends, netForce_balanced hends Gauge.ofTicks tangle.stream⟩

end Graph

end NodeLink
