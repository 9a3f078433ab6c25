import NodeLink.CommandLine.Execute
import NodeLink.Proofs.Bundling.Sizes
import NodeLink.Proofs.Document.Derivation
import NodeLink.Proofs.Graph.Interning
import NodeLink.Proofs.Graph.WellFormed

/-! # What a compilation writes out

A compilation that is not asked for a drawing writes out the snapshot of the graph of its source
(`CommandLine.execute_eq_json`).  The snapshot shows this graph, node by node and edge by edge
(`Snapshot.Shows`), it goes together (`Snapshot.Consistent`), and its edges are bundled if the
arguments, the config file or the source ask for it, in this order (`CommandLine.execute_json`). -/

namespace NodeLink

open NodeLink.Source
open NodeLink.Random (Stream)

/-! ### The switch in the source -/

namespace Grammar

/-- Whether a pair asks for bundled edges. -/
def Pair.isBundle : Pair → Bool
  | bundle _ => true
  | _ => false

/-- Whether a pair of a list asks for bundled edges. -/
def AttributeList.hasBundle : AttributeList → Bool
  | empty _ _ => false
  | pairs _ first later _ => first.isBundle || later.any fun (_, pair) => pair.isBundle

/-- Whether bundled edges are asked for before the body of a sentence. -/
def Sentence.hasBundle (sentence : Sentence) : Bool :=
  sentence.attributes.any AttributeList.hasBundle

theorem lastValues_bundle (entries : List Attribute) :
    (lastValues entries).bundle.getD false = decide (Attribute.bundle ∈ entries) := by
  induction entries using List.reverseRecOn with
  | nil => rfl
  | append_singleton entries last ih =>
      unfold lastValues at ih ⊢
      dsimp only at ih ⊢
      rw [List.filterMap_append, List.getLast?_append]
      cases last with
      | bundle => simp
      | _ => simpa using ih

theorem Pair.entry_eq_bundle_iff (pair : Pair) :
    pair.entry = .bundle ↔ pair.isBundle = true := by
  cases pair <;> simp [entry, isBundle]

theorem AttributeList.bundle_attributes (list : AttributeList) :
    list.attributes.bundle.getD false = list.hasBundle := by
  cases list with
  | empty opening closing => rfl
  | pairs opening first later closing =>
      rw [Bool.eq_iff_iff]
      unfold attributes hasBundle
      rw [lastValues_bundle, decide_eq_true_iff, Bool.or_eq_true, List.any_eq_true, List.mem_cons,
        List.mem_map, eq_comm, Pair.entry_eq_bundle_iff]
      exact or_congr_right (exists_congr fun pair => and_congr_right fun _ =>
        Pair.entry_eq_bundle_iff _)

theorem Sentence.bundle_document (sentence : Sentence) :
    sentence.document.bundle = sentence.hasBundle := by
  unfold Document.bundle document hasBundle
  cases sentence.attributes with
  | none => rfl
  | some list => exact list.bundle_attributes

end Grammar

open NodeLink.Grammar (Sentence)

/-! ### Snapshots that go together -/

/-- The number of points on the path of an edge between two places: two if edges are not bundled,
without cycles, or if the places coincide, else the ends and the capped number of inner points. -/
def pathSize (bundle : Bool) (bundling : BundlingParameters Float) (tail head : Point Float) :
    Nat :=
  if bundle = false ∨ bundling.cycleCount = 0 ∨ tail.same head = true then 2
  else min (bundling.initialSubdivision * bundling.subdivisionRate ^ bundling.cycleCount) 4096 + 2

/-- If edges are bundled, those whose ends differ have as many points as the parameters decide. -/
theorem pathSize_true (bundling : BundlingParameters Float) (segment : Segment Float) :
    pathSize true bundling segment.tail segment.head =
      if segment.isDegenerate then 2 else bundling.pointCount := by
  unfold pathSize BundlingParameters.pointCount Segment.isDegenerate
  by_cases hcycles : bundling.cycleCount = 0
  · simp [hcycles]
  · simp [hcycles, Bundling.maxSubdivision]

/-- The parts of a snapshot agree with each other. -/
structure Snapshot.Consistent (bundling : BundlingParameters Float) (snapshot : Snapshot Float) :
    Prop where
  /-- No two nodes share an identifier. -/
  nodup : (snapshot.nodes.map NodeSnapshot.id).Nodup
  /-- Every edge is between nodes of the snapshot. -/
  ends : ∀ edge ∈ snapshot.edges, edge.tail ∈ snapshot.nodes.map NodeSnapshot.id ∧
    edge.head ∈ snapshot.nodes.map NodeSnapshot.id
  /-- With a finite limit on how far a tick moves a node, only a snapshot without nodes has no
  box. -/
  bounds : snapshot.parameters.maxVertexDisplacement.isFinite = true →
    (snapshot.bounds = none ↔ snapshot.nodes = [])
  /-- The path of an edge has as many points as it should have between its ends. -/
  size : ∀ edge ∈ snapshot.edges, ∀ tail ∈ snapshot.nodes, ∀ head ∈ snapshot.nodes,
    tail.id = edge.tail → head.id = edge.head →
      edge.path.size =
        pathSize snapshot.parameters.bundle bundling tail.position head.position

/-- A node of a snapshot shows a node: its identifier, where it is, and its options. -/
structure NodeSnapshot.Shows (shown : NodeSnapshot Float) (node : Node Float) : Prop where
  id : shown.id = node.id
  position : shown.position = node.position
  options : shown.options = node.options

/-- An edge of a snapshot shows the edge of a graph at an index: the identifiers of its ends, its
direction and options, and its path. -/
structure EdgeSnapshot.Shows (graph : Graph Float) (shown : EdgeSnapshot Float)
    (placed : Edge Float × Nat) : Prop where
  tail : graph.ids[placed.1.tail]? = some shown.tail
  head : graph.ids[placed.1.head]? = some shown.head
  directed : shown.directed = placed.1.directed
  options : shown.options = placed.1.options
  path : shown.path = graph.edgePath placed.2

/-- A snapshot shows a graph: its name and parameters, its box if it is not empty, and all nodes and
edges in their order. -/
structure Snapshot.Shows (snapshot : Snapshot Float) (graph : Graph Float) : Prop where
  name : snapshot.name = graph.name
  parameters : snapshot.parameters = graph.parameters
  bounds : ∀ box, snapshot.bounds = some box ↔ graph.bounds.isEmpty = false ∧ graph.bounds = box
  nodes : List.Forall₂ NodeSnapshot.Shows snapshot.nodes graph.nodes.toList
  edges : List.Forall₂ (EdgeSnapshot.Shows graph) snapshot.edges graph.indexedEdges

namespace Graph

variable {graph : Graph Float} {parameters : Parameters Float}

theorem EndsExist.shows_snapshot (h : graph.EndsExist) : graph.snapshot.Shows graph where
  name := rfl
  parameters := rfl
  bounds box := by
    unfold snapshot
    cases hbounds : graph.bounds.isEmpty <;> simp
  nodes := List.forall₂_map_left_iff.mpr
    (List.forall₂_same.mpr fun node _ => ⟨rfl, rfl, rfl⟩)
  edges := by
    refine List.forall₂_map_left_iff.mpr (List.forall₂_same.mpr fun placed hplaced => ?_)
    obtain ⟨htail, hhead⟩ := h _ (Array.mem_of_getElem? (getElem?_of_mem_indexedEdges hplaced))
    exact ⟨getElem?_ids_of_lt htail, getElem?_ids_of_lt hhead, rfl, rfl, rfl⟩

end Graph

namespace Snapshot.Shows

variable {snapshot : Snapshot Float} {graph : Graph Float} {parameters : Parameters Float}

theorem ids (h : snapshot.Shows graph) : snapshot.nodes.map NodeSnapshot.id = graph.ids :=
  List.forall₂_eq_eq_eq ▸ List.forall₂_map_left_iff.mpr
    (List.forall₂_map_right_iff.mpr (h.nodes.imp fun _ _ hnode => hnode.id))

theorem position_of_mem (h : snapshot.Shows graph) (hnodup : graph.ids.Nodup)
    {shown : NodeSnapshot Float} (hmem : shown ∈ snapshot.nodes) {index : Nat}
    (hid : graph.ids[index]? = some shown.id) : shown.position = graph.position index := by
  obtain ⟨i, hi, rfl⟩ := List.mem_iff_getElem.mp hmem
  have hlt : i < graph.nodes.toList.length := h.nodes.length_eq ▸ hi
  have hnode : (snapshot.nodes[i]).Shows (graph.nodes.toList[i]) := h.nodes.get hi hlt
  have hids : graph.ids[i]? = some (snapshot.nodes[i]).id := by
    rw [Graph.ids, List.getElem?_map, List.getElem?_eq_getElem hlt, hnode.id]
    rfl
  -- no two nodes share the identifier
  obtain rfl : index = i :=
    (List.getElem?_inj (List.getElem?_eq_some_iff.mp hid).1 hnodup).mp (hid.trans hids.symm)
  rw [hnode.position, Graph.position, ← Array.getElem?_toList, List.getElem?_eq_getElem hlt]

theorem exists_edge (h : snapshot.Shows graph) {shown : EdgeSnapshot Float}
    (hmem : shown ∈ snapshot.edges) :
    ∃ placed ∈ graph.indexedEdges, shown.Shows graph placed := by
  obtain ⟨i, hi, rfl⟩ := List.mem_iff_getElem.mp hmem
  have hlt : i < graph.indexedEdges.length := h.edges.length_eq ▸ hi
  exact ⟨_, List.getElem_mem hlt, h.edges.get hi hlt⟩

/-- A snapshot of a well-formed graph goes together if its paths have the right sizes. -/
theorem consistent (h : snapshot.Shows graph) (hgraph : graph.WellFormed parameters)
    {bundling : BundlingParameters Float}
    (hsize : ∀ {index : Nat} {edge : Edge Float}, graph.edges[index]? = some edge →
      (graph.edgePath index).size = pathSize graph.parameters.bundle bundling
        (graph.position edge.tail) (graph.position edge.head)) :
    snapshot.Consistent bundling where
  nodup := by
    rw [h.ids]
    exact hgraph.nodup
  ends shown hshown := by
    obtain ⟨placed, -, hedge⟩ := h.exists_edge hshown
    rw [h.ids]
    exact ⟨List.mem_of_getElem? hedge.tail, List.mem_of_getElem? hedge.head⟩
  bounds hlimit := by
    rw [h.parameters, hgraph.parameters_eq] at hlimit
    have hnodes : snapshot.nodes = [] ↔ graph.nodes.toList = [] := by
      rw [← List.length_eq_zero_iff, h.nodes.length_eq, List.length_eq_zero_iff]
    rw [hnodes, ← hgraph.isEmpty_bounds hlimit, Option.eq_none_iff_forall_ne_some]
    constructor
    · intro hnone
      by_contra hempty
      exact hnone graph.bounds ((h.bounds _).mpr ⟨Bool.eq_false_iff.mpr hempty, rfl⟩)
    · intro hempty box hbox
      exact Bool.eq_false_iff.mp ((h.bounds box).mp hbox).1 hempty
  size shown hshown tail htail head hhead htailId hheadId := by
    obtain ⟨placed, hplaced, hedge⟩ := h.exists_edge hshown
    rw [hedge.path, hsize (Graph.getElem?_of_mem_indexedEdges hplaced), h.parameters,
      h.position_of_mem hgraph.nodup htail (htailId ▸ hedge.tail),
      h.position_of_mem hgraph.nodup hhead (hheadId ▸ hedge.head)]

end Snapshot.Shows

/-! ### Compilations -/

namespace CommandLine

variable {options : Options} {source : String} {config : Config} {fresh : Stream} {text : String}
  {graph : Graph Float} {parameters : Parameters Float}

/-- A compilation without a drawing writes out the snapshot of the graph of its source. -/
theorem execute_eq_json (h : execute options source config fresh = .ok (.json text)) :
    ∃ graph : Graph Float, compile source (compileOptions options config) fresh = .ok graph ∧
      text = (bundled graph config).snapshot.toJson.pretty := by
  unfold execute at h
  dsimp only at h
  rw [compileIn_fst] at h
  cases hgraph : compile source (compileOptions options config) fresh with
  | error error =>
      rw [hgraph] at h
      cases h
  | ok graph =>
      rw [hgraph] at h
      refine ⟨graph, rfl, ?_⟩
      have houtput : (if options.svg.isSome then
            Output.svg (Svg.render (frame options config).width (frame options config).height none
              (graph.draw (frame options config) config.bundling).2)
          else .json (bundled graph config).snapshot.toJson.pretty) = .json text := by
        rw [← Except.ok.injEq, ← h]
        split_ifs <;> rfl
      split_ifs at houtput
      exact (Output.json.inj houtput).symm

/-- Arguments go before the config file, and the config file before the source. -/
theorem bundle_resolve (options : Options) (config : Config) (document : Document) :
    (Parameters.resolve document (overrides options config)).bundle =
      if options.bundle then true else config.parameters.bundle.getD document.bundle := by
  unfold overrides
  split_ifs <;> rfl

theorem ids_bundled (graph : Graph Float) (config : Config) :
    (bundled graph config).ids = graph.ids := by
  unfold bundled
  split_ifs <;> rfl

theorem edges_bundled (graph : Graph Float) (config : Config) :
    (bundled graph config).edges = graph.edges := by
  unfold bundled
  split_ifs <;> rfl

theorem bundled_wellFormed (h : graph.WellFormed parameters) (config : Config) :
    (bundled graph config).WellFormed parameters := by
  unfold bundled
  split_ifs
  · exact h.bundleEdges config.bundling
  · exact h

theorem size_edgePath_bundled (hpaths : graph.paths = none) (config : Config) {index : Nat}
    {edge : Edge Float} (hedge : (bundled graph config).edges[index]? = some edge) :
    ((bundled graph config).edgePath index).size =
      pathSize (bundled graph config).parameters.bundle config.bundling
        ((bundled graph config).position edge.tail)
        ((bundled graph config).position edge.head) := by
  cases hbundle : graph.parameters.bundle with
  | false =>
      have hsame : bundled graph config = graph := by
        unfold bundled
        rw [hbundle]
        rfl
      have hstored : graph.storedPath? index = none := by
        unfold Graph.storedPath?
        rw [hpaths]
        rfl
      rw [hsame] at hedge ⊢
      rw [Graph.edgePath_of_storedPath?_eq_none hedge hstored, hbundle]
      rfl
  | true =>
      have hbundled : bundled graph config = graph.bundleEdges config.bundling := by
        unfold bundled
        rw [hbundle]
        rfl
      rw [hbundled] at hedge ⊢
      have hon : (graph.bundleEdges config.bundling).parameters.bundle = true := hbundle
      have hsame : graph.edges[index]? = some edge := hedge
      rw [Graph.size_edgePath_bundleEdges config.bundling hsame, hon]
      exact (pathSize_true config.bundling (graph.segment edge)).symm

/-- **A compilation without a drawing writes out a snapshot of its graph that goes together**, with
its edges bundled as the arguments say, else the config file, else the source. -/
theorem execute_json (h : execute options source config fresh = .ok (.json text)) :
    ∃ (sentence : Sentence) (graph : Graph Float) (snapshot : Snapshot Float),
      sentence.tokens = (tokenize source).tokens ∧
        compile source (compileOptions options config) fresh = .ok graph ∧
        snapshot.Shows (bundled graph config) ∧ text = snapshot.toJson.pretty ∧
        snapshot.parameters.bundle =
          (if options.bundle then true else config.parameters.bundle.getD sentence.hasBundle) ∧
        snapshot.Consistent config.bundling := by
  obtain ⟨graph, hgraph, rfl⟩ := execute_eq_json h
  obtain ⟨document, hparse, hwellFormed⟩ := Graph.wellFormed_of_compile hgraph
  obtain ⟨sentence, htokens, rfl⟩ := exists_sentence_of_parse hparse
  have hbundled := bundled_wellFormed hwellFormed config
  have hshows := hbundled.ends.shows_snapshot
  refine ⟨sentence, graph, _, htokens, hgraph, hshows, rfl, ?_, hshows.consistent hbundled
    fun hedge => size_edgePath_bundled (Graph.paths_of_compile hgraph) config hedge⟩
  rw [hshows.parameters, hbundled.parameters_eq, ← sentence.bundle_document]
  exact bundle_resolve options config sentence.document

/-- The text that a compilation puts out in JSON. -/
def json? : Except CompileError Output → Option String
  | .ok (.json text) => some text
  | _ => none

theorem json?_eq_some_iff {answer : Except CompileError Output} :
    json? answer = some text ↔ answer = .ok (.json text) := by
  rcases answer with error | other | other <;> simp [json?]

/-- Two nodes, an edge and a loop, with the switch for bundled edges. -/
def bundledPair : String := "graph g [bundle] \x7b A B A -- B B -> B \x7d"

/-- A config file for straight edges, and a layout of one tick. -/
def straightTick : Config where
  parameters := { bundle := some false, maxTicks := some 1 }

/-- Arguments that ask for bundled edges. -/
def bundleAsked : Options where
  input := "pair"
  bundle := true

/-- The stream of a key of zeros, in place of a seed. -/
def zeroStream : Stream := .ofKey (Vector.replicate 8 0)

/-- Without a seed, and with the arguments before the config file: a snapshot of two nodes and of
two edges, one of them a loop. -/
theorem execute_json_bundledPair :
    ∃ text, execute bundleAsked bundledPair straightTick zeroStream = .ok (.json text) ∧
      ∃ (sentence : Sentence) (graph : Graph Float) (snapshot : Snapshot Float),
        sentence.tokens = (tokenize bundledPair).tokens ∧
          compile bundledPair (compileOptions bundleAsked straightTick) zeroStream = .ok graph ∧
          snapshot.Shows (bundled graph straightTick) ∧ text = snapshot.toJson.pretty ∧
          snapshot.parameters.bundle = true ∧ snapshot.Consistent straightTick.bundling ∧
          snapshot.nodes.map NodeSnapshot.id = ["A", "B"] ∧ snapshot.edges.length = 2 := by
  have hsome : (json? (execute bundleAsked bundledPair straightTick zeroStream)).isSome = true := by
    decide +kernel
  obtain ⟨text, htext⟩ := Option.isSome_iff_exists.mp hsome
  have hexecute := json?_eq_some_iff.mp htext
  obtain ⟨sentence, graph, snapshot, htokens, hgraph, hshows, hrest⟩ := execute_json hexecute
  have hcontent : (compile bundledPair (compileOptions bundleAsked straightTick)
      zeroStream).toOption.map (fun graph => (graph.ids, graph.edges.size)) =
      some (["A", "B"], 2) := by
    decide +kernel
  rw [hgraph] at hcontent
  obtain ⟨hids, hedges⟩ := Prod.mk.inj (Option.some.inj hcontent)
  refine ⟨text, hexecute, sentence, graph, snapshot, htokens, hgraph, hshows, hrest.1, hrest.2.1,
    hrest.2.2, ?_, ?_⟩
  · rw [hshows.ids, ids_bundled, hids]
  · rw [hshows.edges.length_eq, Graph.indexedEdges, List.length_zipIdx, Array.length_toList,
      edges_bundled, hedges]

end CommandLine

end NodeLink
