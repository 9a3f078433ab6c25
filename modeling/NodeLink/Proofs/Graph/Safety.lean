import NodeLink.Proofs.Double.Finite
import NodeLink.Proofs.Graph.Ticks
import NodeLink.Proofs.Graph.UnknownEnds

/-! # What a document can come to

With finite overrides a document becomes a laid-out graph, or an end of an edge is unknown, or
the range of first places is wider than the greatest double (`analyze_outcome`).  The last case
is met exactly when a node is declared and the two ends of the range, both finite, have no finite
difference.  Once the graph is built nothing more can fail: its edges have their ends, and so every
tick goes through. -/

namespace NodeLink

open NodeLink.Random (Stream)

/-! ### Documents with a placement -/

namespace Graph

theorem endsExist_ofFirsts {α : Type} [Scalar α] {document : Document} (parameters : Parameters α)
    (placement : Placement α) (stream : Stream) (h : document.EndsDeclared) :
    (ofFirsts document parameters placement stream).EndsExist := by
  have hlt : ∀ id ∈ document.nodeDeclarations.map NodeDeclaration.identifier,
      document.identifiers.idxOf id <
        (ofFirsts document parameters placement stream).nodes.size := by
    intro id hid
    have := List.idxOf_lt_length_of_mem ((mem_keys_firsts document.nodeDeclarations).mpr hid)
    simpa [ofFirsts, Document.firstNodes, Document.identifiers] using this
  intro edge hedge
  obtain ⟨d, hd, rfl⟩ := List.mem_map.mp (List.mem_toArray.mp hedge)
  obtain ⟨htail, hhead⟩ := h d.1 (List.fst_mem_of_mem_zipIdx (List.mem_filter.mp hd).1)
  exact ⟨hlt _ htail, hlt _ hhead⟩

section Build

variable {α : Type} [Scalar α] {document : Document} {parameters : Parameters α}
  {placement : Placement α}

theorem exists_build (stream : Stream) (h : document.nodeDeclarations ≠ [] →
      Placement.between? parameters.placementRange.1 parameters.placementRange.2 = some placement)
    (hends : document.EndsDeclared) :
    ∃ graph, build document parameters stream = .ok graph ∧ graph.EndsExist := by
  refine ⟨_, ?_, endsExist_ofFirsts parameters placement stream hends⟩
  rw [build_of_placement placement stream h]
  exact (declareEdges_eq_ok_iff document parameters placement stream _).mpr ⟨hends, rfl⟩

theorem exists_unknownNode (stream : Stream) (h : document.nodeDeclarations ≠ [] →
      Placement.between? parameters.placementRange.1 parameters.placementRange.2 = some placement)
    (hends : ¬ document.EndsDeclared) :
    ∃ identifier location,
      build document parameters stream = .error (.unknownNode identifier location) := by
  obtain ⟨reference, hreference⟩ :=
    Option.ne_none_iff_exists'.mp fun hnone => hends (Document.unknownEnd?_eq_none_iff.mp hnone)
  exact ⟨_, _, build_of_unknownEnd stream h hreference⟩

end Build

end Graph

/-! ### Ranges that are drawn from -/

/-- Two finite ends leave one value if they are equal, a proper range if their difference is
finite, and nothing to draw from if it is not. -/
theorem Placement.between?_of_isFinite {a b : Float} (ha : a.isFinite = true)
    (hb : b.isFinite = true) :
    (Scalar.max a b = Scalar.min a b ∧
      Placement.between? a b = some (.fixed (Scalar.min a b))) ∨
    (Random.Proper (Scalar.min a b) (Scalar.max a b) ∧
      Placement.between? a b = some (.range (Scalar.min a b) (Scalar.max a b))) ∨
    (Scalar.isFinite (Scalar.max a b - Scalar.min a b) = false ∧
      Placement.between? a b = none) := by
  obtain ⟨hlow, hhigh, horder⟩ := Double.min_max_of_isFinite ha hb
  have hlow' : Scalar.isFinite (Scalar.min a b) = true := hlow
  have hhigh' : Scalar.isFinite (Scalar.max a b) = true := hhigh
  unfold Placement.between?
  rcases horder with hlt | heq
  · right
    have hlt' : Scalar.lt (Scalar.min a b) (Scalar.max a b) = true := decide_eq_true hlt
    simp only [hlow', hhigh', hlt', Bool.and_self, if_true]
    cases hdiff : Scalar.isFinite (Scalar.max a b - Scalar.min a b) with
    | false => exact Or.inr ⟨rfl, rfl⟩
    | true => exact Or.inl ⟨⟨hlt', hdiff⟩, rfl⟩
  · left
    have hlt' : Scalar.lt (Scalar.min a b) (Scalar.max a b) = false := by
      rw [heq]
      exact decide_eq_false (Double.not_lt_self _)
    simp only [hlow', hlt', Bool.false_and, if_true]
    exact ⟨heq, rfl⟩

/-! ### Finite ends of the range -/

/-- The smaller end of the range of first places. -/
def Parameters.low (parameters : Parameters Float) : Float :=
  Scalar.min parameters.placementRange.1 parameters.placementRange.2

/-- The greater end of the range of first places. -/
def Parameters.high (parameters : Parameters Float) : Float :=
  Scalar.max parameters.placementRange.1 parameters.placementRange.2

/-- Where first places are drawn from. -/
def Parameters.placement? (parameters : Parameters Float) : Option (Placement Float) :=
  Placement.between? parameters.placementRange.1 parameters.placementRange.2

/-- The ends of the range of first places are farther apart than the greatest double. -/
def Parameters.TooWide (parameters : Parameters Float) : Prop :=
  Scalar.isFinite (parameters.high - parameters.low) = false

/-- First places are at the one end that there is, or drawn from a proper range. -/
def Parameters.Placeable (parameters : Parameters Float) : Prop :=
  (parameters.high = parameters.low ∧ parameters.placement? = some (.fixed parameters.low)) ∨
    (Random.Proper parameters.low parameters.high ∧
      parameters.placement? = some (.range parameters.low parameters.high))

/-- Both ends of the range of first places are finite. -/
def Parameters.FiniteRange (parameters : Parameters Float) : Prop :=
  parameters.placementRange.1.isFinite = true ∧ parameters.placementRange.2.isFinite = true

theorem Parameters.FiniteRange.placeable {parameters : Parameters Float}
    (h : parameters.FiniteRange) (hn : ¬ parameters.TooWide) : parameters.Placeable := by
  rcases Placement.between?_of_isFinite h.1 h.2 with hfixed | hrange | hnone
  · exact Or.inl hfixed
  · exact Or.inr hrange
  · exact absurd hnone.1 hn

theorem Parameters.FiniteRange.placement?_eq_none {parameters : Parameters Float}
    (h : parameters.FiniteRange) (hwide : parameters.TooWide) : parameters.placement? = none := by
  unfold Parameters.TooWide Parameters.high Parameters.low at hwide
  rcases Placement.between?_of_isFinite h.1 h.2 with hfixed | hrange | hnone
  · have hlow := (Double.min_max_of_isFinite h.1 h.2).1
    have hdiff : Scalar.isFinite (Scalar.min parameters.placementRange.1
        parameters.placementRange.2 - Scalar.min parameters.placementRange.1
        parameters.placementRange.2) = true := Double.isFinite_sub_self hlow
    rw [hfixed.1, hdiff] at hwide
    cases hwide
  · rw [hrange.1.2] at hwide
    cases hwide
  · exact hnone.2

/-- The overrides of the caller are finite. -/
structure Overrides.Finite (overrides : Overrides Float) : Prop where
  maxRepulsiveDistance : ∀ x ∈ overrides.maxRepulsiveDistance, x.isFinite = true
  optimalDistance : ∀ x ∈ overrides.optimalDistance, x.isFinite = true
  damping : ∀ x ∈ overrides.damping, x.isFinite = true
  maxVertexDisplacement : ∀ x ∈ overrides.maxVertexDisplacement, x.isFinite = true
  initialSpread : ∀ x ∈ overrides.initialSpread, x.isFinite = true

theorem Parameters.isFinite_default :
    (Parameters.default : Parameters Float).maxRepulsiveDistance.isFinite = true ∧
      (Parameters.default : Parameters Float).maxVertexDisplacement.isFinite = true := by
  decide

theorem Overrides.Finite.resolve {overrides : Overrides Float} (h : overrides.Finite)
    (document : Document) : (Parameters.resolve document overrides).FiniteRange := by
  have hgetD : ∀ {given : Option Float} {base : Float}, (∀ x ∈ given, x.isFinite = true) →
      base.isFinite = true → (given.getD base).isFinite = true := by
    intro given base hgiven hbase
    cases given with
    | none => exact hbase
    | some x => exact hgiven x rfl
  have hdistance : (Parameters.resolve document overrides).maxRepulsiveDistance.isFinite = true :=
    hgetD h.maxRepulsiveDistance Parameters.isFinite_default.1
  have hdisplacement :
      (Parameters.resolve document overrides).maxVertexDisplacement.isFinite = true :=
    hgetD h.maxVertexDisplacement Parameters.isFinite_default.2
  have hspread : (Parameters.resolve document overrides).initialSpread =
      overrides.initialSpread := Option.or_none
  unfold Parameters.FiniteRange Parameters.placementRange
  rw [hspread]
  cases hs : overrides.initialSpread with
  | none => exact ⟨Double.isFinite_neg hdistance, hdisplacement⟩
  | some spread =>
      have habs := Double.isFinite_abs (h.initialSpread spread hs)
      exact ⟨Double.isFinite_neg habs, habs⟩

/-! ### The outcome -/

/-- Something is to be placed, but the range of first places is too wide. -/
def Overflows (document : Document) (parameters : Parameters Float) : Prop :=
  document.nodeDeclarations ≠ [] ∧ parameters.TooWide

/-- What a document comes to under some parameters and random numbers. -/
structure Outcome (document : Document) (parameters : Parameters Float) (stream : Stream)
    (answer : Except CompileError (Graph Float)) : Prop where
  /-- The range is the error exactly if something is to be placed in one that is too wide. -/
  overflow : answer = .error .placementOverflow ↔ Overflows document parameters
  /-- A range that is not too wide gives first places. -/
  placeable : ¬ parameters.TooWide → parameters.Placeable
  /-- If all ends of edges are declared the graph of the document is laid out, and every tick on
  the way goes through. -/
  laidOut : ¬ Overflows document parameters → document.EndsDeclared →
    ∃ graph, Graph.build document parameters stream = .ok graph ∧ answer = .ok graph.layout ∧
      ∀ n, (graph.ticks n).EndsExist ∧ (graph.ticks n).CanTick
  /-- If not, an unknown end is the error. -/
  unknown : ¬ Overflows document parameters → ¬ document.EndsDeclared →
    ∃ identifier location, answer = .error (.unknownNode identifier location)

section Outcome

variable {document : Document} {parameters : Parameters Float}

/-- Unless the range is too wide there is a placement, if anything is to be placed. -/
theorem Parameters.FiniteRange.exists_placement (h : parameters.FiniteRange)
    (hn : ¬ Overflows document parameters) :
    ∃ placement : Placement Float,
      document.nodeDeclarations ≠ [] → parameters.placement? = some placement := by
  by_cases hd : document.nodeDeclarations = []
  · exact ⟨.fixed Scalar.zero, absurd hd⟩
  · rcases h.placeable (fun hwide => hn ⟨hd, hwide⟩) with hfixed | hrange
    · exact ⟨_, fun _ => hfixed.2⟩
    · exact ⟨_, fun _ => hrange.2⟩

theorem Parameters.FiniteRange.build_of_overflows (h : parameters.FiniteRange)
    (ho : Overflows document parameters) (stream : Stream) :
    Graph.build document parameters stream = .error .placementOverflow :=
  Graph.build_of_overflow stream ho.1 (h.placement?_eq_none ho.2)

theorem Parameters.FiniteRange.build_ne_overflow (h : parameters.FiniteRange)
    (hn : ¬ Overflows document parameters) (stream : Stream) :
    Graph.build document parameters stream ≠ .error .placementOverflow := by
  obtain ⟨placement, hp⟩ := h.exists_placement hn
  by_cases hends : document.EndsDeclared
  · obtain ⟨graph, hbuild, -⟩ := Graph.exists_build stream hp hends
    rw [hbuild]
    exact nofun
  · obtain ⟨identifier, location, hbuild⟩ := Graph.exists_unknownNode stream hp hends
    rw [hbuild]
    exact nofun

end Outcome

/-- **With finite overrides a document has a laid-out graph, or an unknown end of an edge, unless
it declares a node and the range of first places is wider than the greatest double.** -/
theorem analyze_outcome (document : Document) {options : CompileOptions Float}
    (h : options.parameters.Finite) (fresh : Stream) :
    Outcome document (Parameters.resolve document options.parameters) (options.stream fresh)
      (analyze document options fresh) := by
  have hrange := h.resolve document
  rw [analyze_eq_map]
  constructor
  case overflow =>
    constructor
    · intro hoverflow
      by_contra hn
      refine hrange.build_ne_overflow hn (options.stream fresh) ?_
      cases hbuild : Graph.build document (Parameters.resolve document options.parameters)
        (options.stream fresh) with
      | ok graph =>
          rw [hbuild] at hoverflow
          cases hoverflow
      | error error =>
          rw [hbuild] at hoverflow
          cases hoverflow
          rfl
    · intro ho
      rw [hrange.build_of_overflows ho]
      rfl
  case placeable => exact hrange.placeable
  case laidOut =>
    intro hn hends
    obtain ⟨placement, hp⟩ := hrange.exists_placement hn
    obtain ⟨graph, hbuild, hgraph⟩ := Graph.exists_build _ hp hends
    refine ⟨graph, hbuild, by rw [hbuild]; rfl, fun n => ?_⟩
    exact ⟨hgraph.ticks n, (hgraph.ticks n).canTick⟩
  case unknown =>
    intro hn hends
    obtain ⟨placement, hp⟩ := hrange.exists_placement hn
    obtain ⟨identifier, location, hbuild⟩ := Graph.exists_unknownNode _ hp hends
    exact ⟨identifier, location, by rw [hbuild]; rfl⟩

/-- A node, and an edge from it to one that is not declared. -/
def danglingEdge : Document where
  nodeDeclarations := [⟨"A", ⟨1, 1⟩, none⟩]
  edgeDeclarations := [⟨"A", ⟨2, 1⟩, "Z", ⟨2, 6⟩, false, none⟩]

/-- A compilation with a seed, for which only the spread of first places is given. -/
def spreadOptions (spread : Float) : CompileOptions Float where
  parameters := { initialSpread := some spread }
  seed := some 1

/-- A spread of first places that is small and finite. -/
theorem outcome_small_spread :
    (spreadOptions 5).parameters.Finite ∧
      Outcome danglingEdge (Parameters.resolve danglingEdge { initialSpread := some 5 })
        (Stream.ofSeed 1) (analyze danglingEdge (spreadOptions 5) (Stream.ofSeed 0)) := by
  have hfinite : (spreadOptions 5).parameters.Finite := by
    refine ⟨nofun, nofun, nofun, nofun, ?_⟩
    intro x hx
    cases hx
    decide
  exact ⟨hfinite, analyze_outcome _ hfinite (Stream.ofSeed 0)⟩

/-- A finite spread can be too wide: there is neither a graph nor an unknown end then. -/
theorem overflow_wide_spread :
    (spreadOptions 1e308).parameters.Finite ∧
      analyze danglingEdge (spreadOptions 1e308) (Stream.ofSeed 0) =
        .error .placementOverflow := by
  have hspread : (1e308 : Float).isFinite = true := by decide +kernel
  have hdiff : Scalar.isFinite (Scalar.max (-(Scalar.abs (1e308 : Float))) (Scalar.abs 1e308) -
      Scalar.min (-(Scalar.abs (1e308 : Float))) (Scalar.abs 1e308)) = false := by
    decide +kernel
  -- from here on only the two facts about the spread count, not its digits
  generalize (1e308 : Float) = spread at *
  have hfinite : (spreadOptions spread).parameters.Finite := by
    refine ⟨nofun, nofun, nofun, nofun, ?_⟩
    intro x hx
    cases hx
    exact hspread
  refine ⟨hfinite, ?_⟩
  rw [analyze_eq_map, (hfinite.resolve danglingEdge).build_of_overflows
    ⟨List.cons_ne_nil _ _, hdiff⟩]
  rfl

end NodeLink
