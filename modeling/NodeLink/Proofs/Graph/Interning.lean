import NodeLink.Graph.Interner
import NodeLink.Proofs.Graph.FirstDeclarations

/-! # What a table of identifiers has no part in

Whatever a table holds from earlier compilations, a source compiles with it to what it compiles to
by the texts of its identifiers alone (`compileIn_fst`).  While a graph is built, its nodes have
the keys that the table has for their identifiers (`Graph.Keyed.Matches`): adding further texts
does not change these keys, so looking up the key of an identifier among those of the nodes is
looking up its text. -/

namespace NodeLink

open NodeLink.Random (Stream)

variable {α : Type} {σ κ : Type}

namespace Graph

section Declarations

variable [Scalar α]

theorem ids_of_declareEdge {graph graph' : Graph α} {declared : EdgeDeclaration}
    (h : graph.declareEdge declared = .ok graph') : graph'.ids = graph.ids := by
  obtain ⟨htail, hhead⟩ := mem_of_declareEdge h
  rw [declareEdge_of_mem graph 0 htail hhead] at h
  cases h
  split <;> rfl

theorem declareNode_of_indexOf?_eq_some {graph : Graph α} {declared : NodeDeclaration × Point α}
    {index : Nat} (h : graph.indexOf? declared.1.identifier = some index) :
    graph.declareNode declared = graph := by
  unfold declareNode addNode Node.placed
  rw [h]

theorem ids_declareNode_of_indexOf?_eq_none {graph : Graph α}
    {declared : NodeDeclaration × Point α} (h : graph.indexOf? declared.1.identifier = none) :
    (graph.declareNode declared).ids = graph.ids ++ [declared.1.identifier] := by
  unfold declareNode addNode Node.placed
  rw [h]
  simp [ids]

end Declarations

namespace Keyed

/-- Every node has the key that the table has for its identifier. -/
def Matches (names : Interning σ κ) (table : σ) (keyed : Keyed κ α) : Prop :=
  keyed.keys.toList.map some = keyed.graph.ids.map (names.get? table)

section Matches

variable {names : Interning σ κ} {table : σ} {keyed : Keyed κ α}

theorem Matches.exists_key (h : Matches names table keyed) {identifier : String}
    (hid : identifier ∈ keyed.graph.ids) : ∃ key, names.get? table identifier = some key := by
  have hmem : names.get? table identifier ∈ keyed.keys.toList.map some :=
    h ▸ List.mem_map_of_mem hid
  obtain ⟨key, -, hkey⟩ := List.mem_map.mp hmem
  exact ⟨key, hkey.symm⟩

theorem Matches.intern (h : Matches names table keyed) (text : String) :
    Matches names (names.intern table text).2 keyed := by
  unfold Matches
  rw [h]
  refine List.map_congr_left fun id hid => ?_
  by_cases htext : id = text
  · obtain ⟨key, hkey⟩ := h.exists_key hid
    rw [← htext, names.intern_of_get? hkey]
  · exact (names.get?_intern_of_ne table htext).symm

variable [DecidableEq κ]

/-- The node with the key of an identifier is the node with the identifier. -/
theorem Matches.indexOf?_eq (h : Matches names table keyed) {identifier : String} {key : κ}
    (hkey : names.get? table identifier = some key) :
    keyed.indexOf? key = keyed.graph.indexOf? identifier := by
  have hsame : ∀ id, names.get? table id = some key ↔ id = identifier :=
    fun id => ⟨fun hid => names.eq_of_get? hid hkey, fun hid => hid ▸ hkey⟩
  have hkeys : keyed.indexOf? key =
      (keyed.keys.toList.map some).findIdx? fun known => known = some key := by
    unfold indexOf?
    rw [List.findIdx?_map, ← List.findIdx?_toArray]
    simp [Function.comp_def]
  have hids : (keyed.graph.ids.map (names.get? table)).findIdx? (fun known => known = some key) =
      keyed.graph.ids.idxOf? identifier := by
    rw [List.findIdx?_map, List.idxOf?]
    congr 1
    funext id
    rw [Function.comp_apply, beq_eq_decide]
    exact decide_eq_decide.mpr (hsame id)
  rw [hkeys, h, hids, indexOf?_eq_idxOf?]

theorem Matches.resolve_eq (h : Matches names table keyed) (identifier : String)
    (location : Source.Location) :
    keyed.resolve names table identifier location =
      keyed.graph.resolve identifier location := by
  unfold resolve Graph.resolve
  cases hkey : names.get? table identifier with
  | none =>
      have hid : identifier ∉ keyed.graph.ids := by
        intro hid
        obtain ⟨key, hsome⟩ := h.exists_key hid
        rw [hkey] at hsome
        cases hsome
      rw [indexOf?_eq_none_iff.mpr hid]
      rfl
  | some key =>
      have hindex : (some key).bind keyed.indexOf? = keyed.graph.indexOf? identifier :=
        h.indexOf?_eq hkey
      cases hknown : keyed.graph.indexOf? identifier with
      | none => rw [hindex, hknown]
      | some index => rw [hindex, hknown]

variable [Scalar α]

theorem Matches.declareNode (h : Matches names table keyed)
    (declared : NodeDeclaration × Point α) :
    (Keyed.declareNode names (keyed, table) declared).1.graph = keyed.graph.declareNode declared ∧
      Matches names (Keyed.declareNode names (keyed, table) declared).2
        (Keyed.declareNode names (keyed, table) declared).1 := by
  -- the key is looked up among the nodes in the table that has it, which still matches
  have hkey := names.get?_intern table declared.1.identifier
  have hmatches := h.intern declared.1.identifier
  have hindex := hmatches.indexOf?_eq hkey
  unfold Keyed.declareNode
  simp only [hindex]
  cases hknown : keyed.graph.indexOf? declared.1.identifier with
  | some index => exact ⟨(declareNode_of_indexOf?_eq_some hknown).symm, hmatches⟩
  | none =>
      refine ⟨rfl, ?_⟩
      unfold Matches at hmatches ⊢
      simp only [ids_declareNode_of_indexOf?_eq_none hknown]
      rw [Array.toList_push, List.map_append, List.map_append, hmatches, List.map_singleton,
        List.map_singleton, hkey]

theorem Matches.foldl_declareNode : ∀ (declarations : List (NodeDeclaration × Point α)) {table : σ}
    {keyed : Keyed κ α}, Matches names table keyed →
      (declarations.foldl (Keyed.declareNode names) (keyed, table)).1.graph =
          declarations.foldl Graph.declareNode keyed.graph ∧
        Matches names (declarations.foldl (Keyed.declareNode names) (keyed, table)).2
          (declarations.foldl (Keyed.declareNode names) (keyed, table)).1
  | [], _, _, h => ⟨rfl, h⟩
  | declared :: declarations, table, keyed, h => by
      obtain ⟨hgraph, hmatches⟩ := h.declareNode declared
      rw [List.foldl_cons, List.foldl_cons, ← hgraph]
      exact hmatches.foldl_declareNode declarations

theorem Matches.declareEdge (h : Matches names table keyed) (declared : EdgeDeclaration) :
    keyed.declareEdge names table declared =
      (keyed.graph.declareEdge declared).map fun graph => { keyed with graph } := by
  unfold Keyed.declareEdge Graph.declareEdge
  rw [h.resolve_eq, h.resolve_eq]
  cases keyed.graph.resolve declared.tail declared.tailLocation with
  | error error => rfl
  | ok tail =>
      cases keyed.graph.resolve declared.head declared.headLocation with
      | error error => rfl
      | ok head => rfl

theorem Matches.foldlM_declareEdge : ∀ (declarations : List EdgeDeclaration) {keyed : Keyed κ α},
    Matches names table keyed →
      declarations.foldlM (Keyed.declareEdge names table) keyed =
        (declarations.foldlM Graph.declareEdge keyed.graph).map fun graph => { keyed with graph }
  | [], _, _ => rfl
  | declared :: declarations, keyed, h => by
      rw [List.foldlM_cons, List.foldlM_cons, h.declareEdge]
      cases hedge : keyed.graph.declareEdge declared with
      | error error => rfl
      | ok graph =>
          have hmatches : Matches names table { keyed with graph } := by
            unfold Matches
            rw [ids_of_declareEdge hedge]
            exact h
          exact hmatches.foldlM_declareEdge declarations

end Matches

end Keyed

variable [Scalar α] [DecidableEq κ]

theorem buildIn_fst (names : Interning σ κ) (table : σ) (document : Document)
    (parameters : Parameters α) (stream : Stream) :
    (buildIn names table document parameters stream).1 = build document parameters stream := by
  cases hplaces : drawPlaces parameters document.nodeDeclarations.length stream with
  | error error =>
      simp only [buildIn, build, hplaces]
      rfl
  | ok drawn =>
      obtain ⟨points, rest⟩ := drawn
      let start : Keyed κ α := { graph := empty document.graphName parameters rest }
      have hstart : Keyed.Matches names table start := rfl
      obtain ⟨hgraph, hmatches⟩ :=
        hstart.foldl_declareNode (document.nodeDeclarations.zip points)
      have hedges := hmatches.foldlM_declareEdge document.edgeDeclarations
      rw [hgraph] at hedges
      simp only [buildIn, build, hplaces]
      rw [hedges]
      show _ = Except.bind ((document.edgeDeclarations.foldlM Graph.declareEdge
        ((document.nodeDeclarations.zip points).foldl Graph.declareNode start.graph)))
        fun graph => .ok graph.recomputeBounds
      cases document.edgeDeclarations.foldlM Graph.declareEdge
        ((document.nodeDeclarations.zip points).foldl Graph.declareNode start.graph) <;> rfl

end Graph

variable [Scalar α] [DecidableEq κ]

theorem analyzeIn_fst (names : Interning σ κ) (table : σ) (document : Document)
    (options : CompileOptions α) (fresh : Stream) :
    (analyzeIn names table document options fresh).1 = analyze document options fresh := by
  unfold analyzeIn
  simp only [analyze_eq_map, Graph.buildIn_fst]

/-- **A source compiles to the same graph or the same error with any table.** -/
theorem compileIn_fst (names : Interning σ κ) (table : σ) (source : String)
    (options : CompileOptions α) (fresh : Stream) :
    (compileIn names table source options fresh).1 = compile source options fresh := by
  unfold compileIn compile
  cases parse source with
  | error diagnostics => rfl
  | ok document => exact analyzeIn_fst names table document options fresh

end NodeLink
