import NodeLink.Proofs.Bundling.Shape
import NodeLink.Proofs.Double.Operations
import NodeLink.Proofs.Graph.Ticks

/-! # How far a tick moves a node

Forces can be anything: distances may be zero, weights and constants infinite or no numbers.  But
the share of a force that moves a node is clamped, axis by axis, and the clamp has a finite value
within the limit for every double, also for what is not a number (`clampAxis_within`).  So if the
limit is finite, a tick adds to every node a displacement within the limit, and coordinates that
are numbers stay numbers, tick after tick (`Graph.ticks_move_within`). -/

namespace NodeLink

open NodeLink.Double

/-! ### The clamp -/

theorem max_of_number (x : Float) {y : Float} (hy : y.isNaN = false) :
    (Scalar.max x y).isNaN = false ∧ rank y ≤ rank (Scalar.max x y) := by
  cases hx : x.isNaN with
  | true =>
      rw [max_of_isNaN hx]
      exact ⟨hy, le_rfl⟩
  | false =>
      rcases max_of_isNumber hx hy with ⟨-, heq⟩ | ⟨hlt, heq⟩
      · rw [heq]
        exact ⟨hy, le_rfl⟩
      · rw [heq]
        exact ⟨hx, hlt.le⟩

/-- A value clamped to a finite limit is finite, and within the limit. -/
theorem clampAxis_within (value : Float) {limit : Float} (h : limit.isFinite = true) :
    (clampAxis value limit).isFinite = true ∧ |real (clampAxis value limit)| ≤ |real limit| := by
  have hhigh : limit.abs.isFinite = true := isFinite_abs h
  have hlow : (-limit.abs).isFinite = true := isFinite_neg hhigh
  have hhigh' := isNaN_eq_false hhigh
  have hlow' := isNaN_eq_false hlow
  have hrankHigh : rank limit.abs = ((|real limit| : ℝ) : EReal) := by
    rw [rank_of_isFinite hhigh, real_abs]
  have hrankLow : rank (-limit.abs) = ((-|real limit| : ℝ) : EReal) := by
    rw [rank_of_isFinite hlow, real_neg, real_abs]
  obtain ⟨hmax, hmaxLow⟩ := max_of_number value hlow'
  -- the value is between the limits, whichever of them takes its place
  have hbetween : (clampAxis value limit).isNaN = false ∧
      rank (-limit.abs) ≤ rank (clampAxis value limit) ∧
      rank (clampAxis value limit) ≤ rank limit.abs := by
    have horder : rank (-limit.abs) ≤ rank limit.abs := by
      rw [hrankLow, hrankHigh, EReal.coe_le_coe_iff]
      have := abs_nonneg (real limit)
      linarith
    show (Scalar.min (Scalar.max value (-limit.abs)) limit.abs).isNaN = false ∧
      rank (-limit.abs) ≤ rank (Scalar.min (Scalar.max value (-limit.abs)) limit.abs) ∧
      rank (Scalar.min (Scalar.max value (-limit.abs)) limit.abs) ≤ rank limit.abs
    rcases min_of_isNumber hmax hhigh' with ⟨-, heq⟩ | ⟨hlt, heq⟩
    · rw [heq]
      exact ⟨hhigh', horder, le_rfl⟩
    · rw [heq]
      exact ⟨hmax, hmaxLow, hlt.le⟩
  obtain ⟨hnumber, hge, hle⟩ := hbetween
  have hfinite : (clampAxis value limit).isFinite = true := by
    rw [isFinite_iff_rank hnumber]
    constructor
    · exact lt_of_lt_of_le (hrankLow ▸ EReal.bot_lt_coe _) hge
    · exact lt_of_le_of_lt hle (hrankHigh ▸ EReal.coe_lt_top _)
  rw [rank_of_isFinite hfinite, hrankLow, EReal.coe_le_coe_iff] at hge
  rw [rank_of_isFinite hfinite, hrankHigh, EReal.coe_le_coe_iff] at hle
  exact ⟨hfinite, abs_le.mpr ⟨hge, hle⟩⟩

/-! ### One coordinate -/

/-- A coordinate is moved by an amount within a limit, and stays a number. -/
structure MovedWithin (limit before after : Float) : Prop where
  /-- What was added is within the limit. -/
  displaced : ∃ d : Float, after = before + d ∧ -limit.abs ≤ d ∧ d ≤ limit.abs
  /-- The coordinate is a number. -/
  isNaN : after.isNaN = false
  /-- It is not below what taking the limit away would give. -/
  low : before - limit.abs ≤ after
  /-- It is not above what adding the limit would give. -/
  high : after ≤ before + limit.abs

theorem movedWithin_clampAxis {before : Float} (hbefore : before.isNaN = false) (value : Float)
    {limit : Float} (h : limit.isFinite = true) :
    MovedWithin limit before (before + clampAxis value limit) := by
  obtain ⟨hfinite, hwithin⟩ := clampAxis_within value h
  obtain ⟨hlow, hhigh⟩ := abs_le.mp hwithin
  have hlimit : limit.abs.isFinite = true := isFinite_abs h
  have hnumber := isNaN_eq_false hfinite
  refine ⟨⟨_, rfl, ?_, ?_⟩, isNaN_add hbefore hfinite, ?_, ?_⟩
  · rw [le_iff (isNaN_eq_false (isFinite_neg hlimit)) hnumber,
      rank_of_isFinite (isFinite_neg hlimit), rank_of_isFinite hfinite, EReal.coe_le_coe_iff,
      real_neg, real_abs]
    exact hlow
  · rw [le_iff hnumber (isNaN_eq_false hlimit), rank_of_isFinite hfinite,
      rank_of_isFinite hlimit, EReal.coe_le_coe_iff, real_abs]
    exact hhigh
  · apply sub_le_add hbefore hlimit hfinite
    rw [real_abs]
    exact hlow
  · apply Double.add_le_add hbefore hfinite hlimit
    rw [real_abs]
    exact hhigh

/-! ### Nodes -/

/-- A node is moved on each axis by an amount within a limit, and stays the same node. -/
structure Node.MovedWithin (limit : Float) (before after : Node Float) : Prop where
  id : after.id = before.id
  x : NodeLink.MovedWithin limit before.position.x after.position.x
  y : NodeLink.MovedWithin limit before.position.y after.position.y

theorem Node.movedWithin_settle {parameters : Parameters Float} {before gathered : Node Float}
    (hlimit : parameters.maxVertexDisplacement.isFinite = true)
    (hgathered : gathered.atRest = before.atRest) (hbefore : before.position.IsNumber) :
    before.MovedWithin parameters.maxVertexDisplacement (gathered.settle parameters) := by
  have hid : gathered.atRest.id = before.atRest.id := congrArg Node.id hgathered
  have hposition : gathered.atRest.position = before.atRest.position :=
    congrArg Node.position hgathered
  refine ⟨hid, ?_, ?_⟩
  · show NodeLink.MovedWithin _ _ (gathered.position.x + clampAxis _ _)
    rw [show gathered.position = before.position from hposition]
    exact movedWithin_clampAxis hbefore.1 _ hlimit
  · show NodeLink.MovedWithin _ _ (gathered.position.y + clampAxis _ _)
    rw [show gathered.position = before.position from hposition]
    exact movedWithin_clampAxis hbefore.2 _ hlimit

namespace Graph

/-- All coordinates are numbers. -/
def AllNumbers (graph : Graph Float) : Prop :=
  ∀ node ∈ graph.nodes.toList, node.position.IsNumber

/-- Each node of the second graph is the one of the first graph at its place, moved within the
limit. -/
def MovesWithin (limit : Float) (before after : Graph Float) : Prop :=
  List.Forall₂ (Node.MovedWithin limit) before.nodes.toList after.nodes.toList

theorem tick_moves_within {graph : Graph Float}
    (hlimit : graph.parameters.maxVertexDisplacement.isFinite = true)
    (hnumbers : graph.AllNumbers) :
    MovesWithin graph.parameters.maxVertexDisplacement graph graph.tick := by
  have hrest : graph.gathered.1.toList.map Node.atRest = graph.nodes.toList.map Node.atRest := by
    have h := congrArg Array.toList graph.atRest_gathered
    unfold atRest at h
    rwa [Array.toList_map, Array.toList_map] at h
  unfold MovesWithin
  rw [tick_eq]
  show List.Forall₂ _ _ (graph.gathered.1.map (Node.settle graph.parameters)).toList
  rw [Array.toList_map]
  unfold AllNumbers at hnumbers
  generalize graph.gathered.1.toList = gathered at hrest
  generalize graph.nodes.toList = nodes at hrest hnumbers
  -- the nodes with their forces stand in the same order, each at the place of its own
  induction nodes generalizing gathered with
  | nil =>
      obtain rfl : gathered = [] := List.map_eq_nil_iff.mp hrest
      exact .nil
  | cons node nodes ih =>
      obtain ⟨first, rest, rfl, hfirst, hrest⟩ := List.map_eq_cons_iff.mp hrest
      exact .cons (Node.movedWithin_settle hlimit hfirst (hnumbers node List.mem_cons_self))
        (ih rest hrest fun other hother => hnumbers other (List.mem_cons_of_mem node hother))

theorem MovesWithin.allNumbers {limit : Float} {before after : Graph Float}
    (h : MovesWithin limit before after) : after.AllNumbers := by
  have hboth : List.Forall₂ (fun new old => new.position.IsNumber ∧
      Node.MovedWithin limit old new) after.nodes.toList before.nodes.toList :=
    List.Forall₂.flip
      (List.Forall₂.imp (fun _ _ hmoved => ⟨⟨hmoved.x.isNaN, hmoved.y.isNaN⟩, hmoved⟩) h)
  exact (List.forall₂_and_left _ _).mp hboth |>.1

/-- **No tick moves a node by more than the limit**: if the limit is finite and all coordinates are
numbers, they are numbers after any number of ticks, and the next tick adds to every node a
displacement within the limit on both axes, whatever the forces, the weights of the edges and the
other constants are. -/
theorem ticks_move_within {graph : Graph Float}
    (hlimit : graph.parameters.maxVertexDisplacement.isFinite = true)
    (hnumbers : graph.AllNumbers) (count : ℕ) :
    (graph.ticks count).AllNumbers ∧
      MovesWithin graph.parameters.maxVertexDisplacement (graph.ticks count)
        (graph.ticks (count + 1)) := by
  have hinvariant : (graph.ticks count).parameters = graph.parameters ∧
      (graph.ticks count).AllNumbers := by
    refine repeat_preserves (f := tick)
      (P := fun now : Graph Float => now.parameters = graph.parameters ∧ now.AllNumbers)
      (fun now h => ⟨h.1, ?_⟩) count ⟨rfl, hnumbers⟩
    have hnow : now.parameters.maxVertexDisplacement.isFinite = true := h.1 ▸ hlimit
    exact (tick_moves_within hnow h.2).allNumbers
  obtain ⟨hparameters, hcount⟩ := hinvariant
  have hnow : (graph.ticks count).parameters.maxVertexDisplacement.isFinite = true :=
    hparameters ▸ hlimit
  have hmoves := tick_moves_within hnow hcount
  rw [hparameters] at hmoves
  exact ⟨hcount, hmoves⟩

/-- Two nodes at one place with forces that are infinite or no numbers, an edge whose weight is no
number, and constants that divide by zero. -/
def wildForces : Graph Float where
  name := "g"
  nodes := #[⟨"A", ⟨0, 0⟩, ⟨1 / 0, 0 / 0⟩, {}⟩, ⟨"B", ⟨0, 0⟩, ⟨0 / 0, -1 / 0⟩, {}⟩]
  edges := #[⟨0, 1, true, 0 / 0, {}⟩]
  parameters := { (Parameters.default : Parameters Float) with
    optimalDistance := 0
    damping := 1 / 0 }
  bounds := Bounds.empty
  paths := none
  stream := Random.Stream.ofSeed 1

/-- Even then the nodes move within half a unit. -/
theorem ticks_move_within_wildForces :
    wildForces.parameters.maxVertexDisplacement.isFinite = true ∧ wildForces.AllNumbers ∧
      (wildForces.ticks 3).AllNumbers ∧
      MovesWithin wildForces.parameters.maxVertexDisplacement (wildForces.ticks 3)
        (wildForces.ticks 4) := by
  have hlimit : wildForces.parameters.maxVertexDisplacement.isFinite = true := by decide +kernel
  have hnumbers : wildForces.AllNumbers := by
    unfold AllNumbers Point.IsNumber
    decide +kernel
  exact ⟨hlimit, hnumbers, ticks_move_within hlimit hnumbers 3⟩

end Graph

end NodeLink
