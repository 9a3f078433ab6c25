import NodeLink.Proofs.Graph.Interning
import NodeLink.Proofs.Graph.Ticks
import Mathlib.Data.Set.Function
import Mathlib.Logic.Equiv.Basic

/-! # Renaming identifiers

Identifiers matter through equality alone.  If a renaming keeps the identifiers of a document
apart, the renamed document is laid out like the document itself, with the names of its nodes
changed and nothing else; and where the one has an end of an edge that is not declared, the other
has its renamed end (`analyzeIn_rename`).  The tables of identifiers with which the two documents
are compiled have no part in this.

While nodes and edges are declared, identifiers are compared, and the renaming must keep them
apart.  A tick does not look at identifiers, and commutes with every renaming. -/

namespace NodeLink

open NodeLink.Random (Stream)

variable {α : Type}

/-! ### What is renamed -/

/-- A node declaration with another identifier. -/
def NodeDeclaration.rename (f : String → String) (declared : NodeDeclaration) :
    NodeDeclaration :=
  { declared with identifier := f declared.identifier }

/-- An edge declaration with other ends. -/
def EdgeDeclaration.rename (f : String → String) (declared : EdgeDeclaration) :
    EdgeDeclaration :=
  { declared with tail := f declared.tail, head := f declared.head }

namespace Document

/-- A document with other identifiers; the name of the graph is none. -/
def rename (f : String → String) (document : Document) : Document :=
  { document with
    nodeDeclarations := document.nodeDeclarations.map (NodeDeclaration.rename f)
    edgeDeclarations := document.edgeDeclarations.map (EdgeDeclaration.rename f) }

/-- The identifiers that a document declares or refers to. -/
def mentioned (document : Document) : Set String :=
  {id | (∃ declared ∈ document.nodeDeclarations, declared.identifier = id) ∨
    ∃ declared ∈ document.edgeDeclarations, declared.tail = id ∨ declared.head = id}

end Document

/-- A node with another identifier. -/
def Node.rename (f : String → String) (node : Node α) : Node α :=
  { node with id := f node.id }

/-- A graph with other identifiers of its nodes. -/
def Graph.rename (f : String → String) (graph : Graph α) : Graph α :=
  { graph with nodes := graph.nodes.map (Node.rename f) }

/-- An error about another identifier. -/
def CompileError.rename (f : String → String) : CompileError → CompileError
  | invalid diagnostics => .invalid diagnostics
  | unknownNode identifier location => .unknownNode (f identifier) location
  | placementOverflow => .placementOverflow

/-- What a document comes to, with other identifiers. -/
def renameOutcome (f : String → String) :
    Except CompileError (Graph α) → Except CompileError (Graph α)
  | .ok graph => .ok (graph.rename f)
  | .error error => .error (error.rename f)

/-! ### Ticks do not look at identifiers -/

section Ticks

variable (f : String → String)

/-- Nodes with other identifiers, with the forces gathered so far, and the stream. -/
def Gathering.rename (state : Gathering α) : Gathering α :=
  (state.1.map (Node.rename f), state.2)

theorem modify_rename (nodes : Array (Node α)) (index : Nat) {change : Node α → Node α}
    (h : ∀ node, change (node.rename f) = (change node).rename f) :
    (nodes.map (Node.rename f)).modify index change =
      (nodes.modify index change).map (Node.rename f) := by
  refine Array.ext_getElem? fun i => ?_
  rw [Array.getElem?_modify, Array.getElem?_map, Array.getElem?_map, Array.getElem?_modify]
  split
  · cases nodes[i]? with
    | none => rfl
    | some node => exact congrArg some (h node)
  · rfl

variable [Scalar α]

theorem addForce_rename (nodes : Array (Node α)) (index : Nat) (v : Vec α) :
    addForce (nodes.map (Node.rename f)) index v =
      (addForce nodes index v).map (Node.rename f) :=
  modify_rename f nodes index fun _ => rfl

theorem subForce_rename (nodes : Array (Node α)) (index : Nat) (v : Vec α) :
    subForce (nodes.map (Node.rename f)) index v =
      (subForce nodes index v).map (Node.rename f) :=
  modify_rename f nodes index fun _ => rfl

theorem positionIn_rename (nodes : Array (Node α)) (index : Nat) :
    positionIn (nodes.map (Node.rename f)) index = positionIn nodes index := by
  unfold positionIn
  rw [Array.getElem?_map]
  cases nodes[index]? <;> rfl

theorem pushApart_rename (parameters : Parameters α) (nodes : Array (Node α)) (pair : Nat × Nat)
    (offset : Vec α) (distance : α) :
    pushApart parameters (nodes.map (Node.rename f)) pair offset distance =
      (pushApart parameters nodes pair offset distance).map (Node.rename f) := by
  unfold pushApart
  split
  · simp only [addForce_rename, subForce_rename]
  · rfl

theorem pullTogether_rename (parameters : Parameters α) (nodes : Array (Node α)) (edge : Edge α)
    (offset : Vec α) (distance : α) :
    pullTogether parameters (nodes.map (Node.rename f)) edge offset distance =
      (pullTogether parameters nodes edge offset distance).map (Node.rename f) := by
  simp only [pullTogether, subForce_rename, addForce_rename]

theorem repel_rename (parameters : Parameters α) (state : Gathering α) (pair : Nat × Nat) :
    repel parameters (state.rename f) pair = (repel parameters state pair).rename f := by
  obtain ⟨nodes, stream⟩ := state
  simp only [repel, Gathering.rename, positionIn_rename, pushApart_rename]

theorem attract_rename (parameters : Parameters α) (state : Gathering α) (edge : Edge α) :
    attract parameters (state.rename f) edge = (attract parameters state edge).rename f := by
  obtain ⟨nodes, stream⟩ := state
  simp only [attract, Gathering.rename, positionIn_rename, pullTogether_rename]

theorem repelAll_rename (parameters : Parameters α) (state : Gathering α) :
    repelAll parameters (state.rename f) = (repelAll parameters state).rename f := by
  have hsize : (state.rename f).1.size = state.1.size := Array.size_map
  unfold repelAll
  rw [hsize]
  exact List.foldl_hom (Gathering.rename f) (repel_rename f parameters)

theorem attractAll_rename (parameters : Parameters α) (edges : List (Edge α))
    (state : Gathering α) :
    attractAll parameters edges (state.rename f) =
      (attractAll parameters edges state).rename f :=
  List.foldl_hom (Gathering.rename f) (attract_rename f parameters)

namespace Graph

theorem recomputeBounds_rename (graph : Graph α) :
    (graph.rename f).recomputeBounds = graph.recomputeBounds.rename f := by
  have hplaces : (graph.rename f).positions = graph.positions := by
    unfold positions rename
    rw [Array.toList_map, List.map_map]
    rfl
  unfold recomputeBounds
  rw [hplaces]
  rfl

theorem gathered_rename (graph : Graph α) :
    (graph.rename f).gathered = graph.gathered.rename f := by
  unfold gathered
  rw [← attractAll_rename, ← repelAll_rename]
  rfl

theorem tick_rename (graph : Graph α) : (graph.rename f).tick = graph.tick.rename f := by
  have hsettle : (graph.gathered.1.map (Node.rename f)).map (Node.settle graph.parameters) =
      (graph.gathered.1.map (Node.settle graph.parameters)).map (Node.rename f) := by
    rw [Array.map_map, Array.map_map]
    rfl
  rw [tick_eq, tick_eq, ← recomputeBounds_rename, gathered_rename]
  unfold Gathering.rename rename
  simp only [hsettle]

theorem layout_rename (graph : Graph α) : (graph.rename f).layout = graph.layout.rename f :=
  repeat_related (f := tick) (g := tick) (R := fun renamed graph => renamed = graph.rename f)
    (fun _ graph h => h ▸ graph.tick_rename f) graph.parameters.maxTicks rfl

end Graph

end Ticks

/-! ### Declarations compare identifiers -/

namespace Graph

section Declarations

variable {f : String → String} {names : Set String}

/-- The index of a renamed identifier, among names that the renaming keeps apart. -/
theorem indexOf?_rename (hf : names.InjOn f) {graph : Graph α}
    (hids : ∀ id ∈ graph.ids, id ∈ names) {id : String} (hid : id ∈ names) :
    (graph.rename f).indexOf? (f id) = graph.indexOf? id := by
  have hrenamed : (graph.rename f).ids = graph.ids.map f := by
    unfold ids rename
    rw [Array.toList_map, List.map_map, List.map_map]
    rfl
  rw [indexOf?_eq_idxOf?, indexOf?_eq_idxOf?, hrenamed]
  generalize graph.ids = known at hids
  induction known with
  | nil => rfl
  | cons first known ih =>
      have hfirst : first ∈ names := hids first List.mem_cons_self
      have hrest := ih fun other hother => hids other (List.mem_cons_of_mem first hother)
      rw [List.map_cons, List.idxOf?_cons, List.idxOf?_cons, hrest]
      by_cases heq : first = id
      · rw [heq, beq_self_eq_true, beq_self_eq_true]
      · rw [beq_false_of_ne heq, beq_false_of_ne fun h => heq (hf hfirst hid h)]

theorem resolve_rename (hf : names.InjOn f) {graph : Graph α}
    (hids : ∀ id ∈ graph.ids, id ∈ names) {id : String} (hid : id ∈ names)
    (location : Source.Location) :
    (graph.rename f).resolve (f id) location =
      (graph.resolve id location).mapError (CompileError.rename f) := by
  unfold resolve
  rw [indexOf?_rename hf hids hid]
  cases graph.indexOf? id <;> rfl

variable [Scalar α]

theorem declareNode_rename (hf : names.InjOn f) {graph : Graph α}
    (hids : ∀ id ∈ graph.ids, id ∈ names) {declared : NodeDeclaration × Point α}
    (hdeclared : declared.1.identifier ∈ names) :
    (graph.rename f).declareNode (declared.1.rename f, declared.2) =
      (graph.declareNode declared).rename f := by
  have hindex : (graph.rename f).indexOf? (f declared.1.identifier) =
      graph.indexOf? declared.1.identifier := indexOf?_rename hf hids hdeclared
  unfold declareNode addNode Node.placed NodeDeclaration.rename
  simp only [hindex]
  cases graph.indexOf? declared.1.identifier with
  | some index => rfl
  | none =>
      show ({ graph with nodes := _, bounds := _ } : Graph α) =
        { graph with nodes := _, bounds := _ }
      rw [Array.map_push]
      rfl

theorem ids_declareNode_mem {graph : Graph α} (hids : ∀ id ∈ graph.ids, id ∈ names)
    {declared : NodeDeclaration × Point α} (hdeclared : declared.1.identifier ∈ names) :
    ∀ id ∈ (graph.declareNode declared).ids, id ∈ names := by
  cases hindex : graph.indexOf? declared.1.identifier with
  | some index =>
      rw [declareNode_of_indexOf?_eq_some hindex]
      exact hids
  | none =>
      intro id hid
      rw [ids_declareNode_of_indexOf?_eq_none hindex] at hid
      rcases List.mem_append.mp hid with hid | hid
      · exact hids id hid
      · exact List.mem_singleton.mp hid ▸ hdeclared

theorem foldl_declareNode_rename (hf : names.InjOn f) :
    ∀ (declarations : List (NodeDeclaration × Point α)) {graph : Graph α},
      (∀ id ∈ graph.ids, id ∈ names) →
      (∀ declared ∈ declarations, declared.1.identifier ∈ names) →
      (declarations.map (Prod.map (NodeDeclaration.rename f) id)).foldl declareNode
          (graph.rename f) =
        (declarations.foldl declareNode graph).rename f ∧
      ∀ id ∈ (declarations.foldl declareNode graph).ids, id ∈ names
  | [], _, hids, _ => ⟨rfl, hids⟩
  | declared :: declarations, graph, hids, hdeclared => by
      have hfirst := hdeclared declared List.mem_cons_self
      have hnext := ids_declareNode_mem hids hfirst
      obtain ⟨hfold, hnames⟩ := foldl_declareNode_rename hf declarations hnext
        fun other hother => hdeclared other (List.mem_cons_of_mem declared hother)
      refine ⟨?_, hnames⟩
      rw [List.map_cons, List.foldl_cons, List.foldl_cons, ← hfold,
        ← declareNode_rename hf hids hfirst]
      rfl

theorem addDeclared_rename (graph : Graph α) (tail head : Nat) (declared : EdgeDeclaration) :
    (graph.rename f).addDeclared tail head (declared.rename f) =
      (graph.addDeclared tail head declared).rename f := by
  have hjoins : (graph.rename f).joins tail head = graph.joins tail head := rfl
  have hsize : (graph.rename f).nodes.size = graph.nodes.size := Array.size_map
  unfold addDeclared addEdge?
  rw [hjoins, hsize]
  split
  · rfl
  · by_cases hends : tail < graph.nodes.size ∧ head < graph.nodes.size
    · simp only [hends, and_self, if_true]
      rfl
    · simp only [hends, if_false]
      rfl

theorem declareEdge_rename (hf : names.InjOn f) {graph : Graph α}
    (hids : ∀ id ∈ graph.ids, id ∈ names) {declared : EdgeDeclaration}
    (htail : declared.tail ∈ names) (hhead : declared.head ∈ names) :
    (graph.rename f).declareEdge (declared.rename f) =
      renameOutcome f (graph.declareEdge declared) := by
  have htail' := resolve_rename hf hids htail declared.tailLocation
  have hhead' := resolve_rename hf hids hhead declared.headLocation
  unfold declareEdge
  show ((graph.rename f).resolve (f declared.tail) declared.tailLocation >>= fun tail =>
    (graph.rename f).resolve (f declared.head) declared.headLocation >>= fun head =>
      pure ((graph.rename f).addDeclared tail head (declared.rename f))) = _
  rw [htail', hhead']
  cases graph.resolve declared.tail declared.tailLocation with
  | error error => rfl
  | ok tail =>
      cases graph.resolve declared.head declared.headLocation with
      | error error => rfl
      | ok head => exact congrArg Except.ok (addDeclared_rename graph tail head declared)

theorem foldlM_declareEdge_rename (hf : names.InjOn f) :
    ∀ (declarations : List EdgeDeclaration) {graph : Graph α}, (∀ id ∈ graph.ids, id ∈ names) →
      (∀ declared ∈ declarations, declared.tail ∈ names ∧ declared.head ∈ names) →
      (declarations.map (EdgeDeclaration.rename f)).foldlM declareEdge (graph.rename f) =
        renameOutcome f (declarations.foldlM declareEdge graph)
  | [], _, _, _ => rfl
  | declared :: declarations, graph, hids, hdeclared => by
      obtain ⟨htail, hhead⟩ := hdeclared declared List.mem_cons_self
      rw [List.map_cons, List.foldlM_cons, List.foldlM_cons,
        declareEdge_rename hf hids htail hhead]
      cases hedge : graph.declareEdge declared with
      | error error => rfl
      | ok next =>
          have hnext : ∀ id ∈ next.ids, id ∈ names := by
            rw [ids_of_declareEdge hedge]
            exact hids
          exact foldlM_declareEdge_rename hf declarations hnext
            fun other hother => hdeclared other (List.mem_cons_of_mem declared hother)

end Declarations

theorem build_rename [Scalar α] {f : String → String} {document : Document}
    (hf : document.mentioned.InjOn f) (parameters : Parameters α) (stream : Stream) :
    build (document.rename f) parameters stream =
      renameOutcome f (build document parameters stream) := by
  have hlength : (document.rename f).nodeDeclarations.length =
      document.nodeDeclarations.length := List.length_map _
  cases hplaces : drawPlaces parameters document.nodeDeclarations.length stream with
  | error error =>
      have herror : error = .placementOverflow := by
        unfold drawPlaces at hplaces
        split at hplaces
        · cases hplaces
        · split at hplaces
          · cases hplaces
          · cases hplaces
            rfl
      simp only [build, hlength, hplaces, herror]
      rfl
  | ok drawn =>
      obtain ⟨points, rest⟩ := drawn
      have hnodes : ∀ declared ∈ document.nodeDeclarations.zip points,
          declared.1.identifier ∈ document.mentioned := fun declared hmem =>
        Or.inl ⟨declared.1, (List.of_mem_zip hmem).1, rfl⟩
      have hedges : ∀ declared ∈ document.edgeDeclarations,
          declared.tail ∈ document.mentioned ∧ declared.head ∈ document.mentioned :=
        fun declared hmem =>
          ⟨Or.inr ⟨declared, hmem, Or.inl rfl⟩, Or.inr ⟨declared, hmem, Or.inr rfl⟩⟩
      have hempty : ∀ id ∈ (empty document.graphName parameters rest : Graph α).ids,
          id ∈ document.mentioned := fun id hid => absurd hid List.not_mem_nil
      have hstart : (empty document.graphName parameters rest : Graph α).rename f =
          empty document.graphName parameters rest := by
        simp [rename, empty]
      obtain ⟨hfold, hids⟩ := foldl_declareNode_rename hf _ hempty hnodes
      have hbuild := foldlM_declareEdge_rename hf document.edgeDeclarations hids hedges
      rw [← hfold, ← List.zip_map_left, hstart] at hbuild
      simp only [build, hlength, hplaces]
      show ((document.edgeDeclarations.map (EdgeDeclaration.rename f)).foldlM declareEdge
        (((document.nodeDeclarations.map (NodeDeclaration.rename f)).zip points).foldl declareNode
          (empty document.graphName parameters rest)) >>= fun graph =>
            pure graph.recomputeBounds) = renameOutcome f
        (document.edgeDeclarations.foldlM declareEdge
          ((document.nodeDeclarations.zip points).foldl declareNode
            (empty document.graphName parameters rest)) >>= fun graph =>
              pure graph.recomputeBounds)
      rw [hbuild]
      cases document.edgeDeclarations.foldlM declareEdge
        ((document.nodeDeclarations.zip points).foldl declareNode
          (empty document.graphName parameters rest)) with
      | error error => rfl
      | ok graph => exact congrArg Except.ok (recomputeBounds_rename f graph)

end Graph

/-! ### Documents -/

/-- **Identifiers matter through equality alone**: with any two tables, a document whose
identifiers a renaming keeps apart and the renamed document come to the same, up to the
renaming. -/
theorem analyzeIn_rename [Scalar α] {σ κ τ ι : Type} [DecidableEq κ] [DecidableEq ι]
    (names : Interning σ κ) (table : σ) (others : Interning τ ι) (other : τ)
    {document : Document} {f : String → String} (hf : document.mentioned.InjOn f)
    (options : CompileOptions α) (fresh : Stream) :
    (analyzeIn others other (document.rename f) options fresh).1 =
      renameOutcome f (analyzeIn names table document options fresh).1 := by
  have hparameters : Parameters.resolve (document.rename f) options.parameters =
      Parameters.resolve document options.parameters := rfl
  rw [analyzeIn_fst, analyzeIn_fst, analyze_eq_map, analyze_eq_map, hparameters,
    Graph.build_rename hf]
  cases Graph.build document (Parameters.resolve document options.parameters)
    (options.stream fresh) with
  | error error => rfl
  | ok graph => exact congrArg Except.ok (graph.layout_rename f)

/-- Two nodes and an edge from the one to the other. -/
def joinedPair : Document where
  nodeDeclarations := [⟨"A", ⟨1, 1⟩, none⟩, ⟨"B", ⟨2, 1⟩, none⟩]
  edgeDeclarations := [⟨"A", ⟨3, 1⟩, "B", ⟨3, 6⟩, true, none⟩]

/-- Exchanging two names exchanges them in the result, also where one of them is known from an
earlier compilation. -/
theorem analyzeIn_swap_joinedPair :
    joinedPair.mentioned.InjOn (Equiv.swap "A" "B") ∧
      (analyzeIn Interner.interning { texts := #["B"] } (joinedPair.rename (Equiv.swap "A" "B"))
        ({ seed := some 1 } : CompileOptions Float) (Stream.ofSeed 0)).1 =
      renameOutcome (Equiv.swap "A" "B")
        (analyzeIn Interner.interning {} joinedPair { seed := some 1 } (Stream.ofSeed 0)).1 := by
  have hinjective : joinedPair.mentioned.InjOn (Equiv.swap "A" "B") :=
    (Equiv.swap "A" "B").injective.injOn
  exact ⟨hinjective, analyzeIn_rename Interner.interning {} Interner.interning
    { texts := #["B"] } hinjective { seed := some 1 } (Stream.ofSeed 0)⟩

end NodeLink
