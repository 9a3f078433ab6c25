import NodeLink.Proofs.Document.Mentions
import NodeLink.Proofs.Graph.Interning

/-! # Ends of edges that no node declares

A source that parses and whose nodes can be placed compiles unless an edge has an end that no
node declaration of the source declares, wherever the declarations stand
(`compileIn_unknown_end`).  The error is that of the first such end, tails before heads: later
edges are not looked at, and an edge that would be dropped as a duplicate is.  The end is an
identifier of the source, and the error has its location.  What the table of identifiers holds
from earlier compilations makes no difference. -/

namespace NodeLink

open NodeLink.Source (Location tokenize)
open NodeLink.Random (Stream)

/-! ### Ends in the order of their look-up -/

/-- The identifiers that are declared as nodes. -/
def Document.declared (document : Document) : List String :=
  document.nodeDeclarations.map NodeDeclaration.identifier

/-- The first end of an edge that is not declared as a node. -/
def Document.unknownEnd? (document : Document) : Option (String × Location) :=
  document.references.find? fun reference => reference.1 ∉ document.declared

theorem Document.unknownEnd?_eq_none_iff {document : Document} :
    document.unknownEnd? = none ↔ document.EndsDeclared := by
  unfold unknownEnd? references EndsDeclared
  rw [List.find?_eq_none]
  constructor
  · intro h e he
    have hmem : ∀ reference ∈ e.references, reference.1 ∈ document.declared := by
      intro reference hreference
      simpa using h reference (List.mem_flatMap.mpr ⟨e, he, hreference⟩)
    exact ⟨hmem _ List.mem_cons_self, hmem _ (List.mem_cons_of_mem _ List.mem_cons_self)⟩
  · intro h reference hreference
    obtain ⟨e, he, hmem⟩ := List.mem_flatMap.mp hreference
    have hends : e.tail ∈ document.declared ∧ e.head ∈ document.declared := h e he
    unfold EdgeDeclaration.references at hmem
    rcases List.mem_pair.mp hmem with rfl | rfl
    · simpa using hends.1
    · simpa using hends.2

theorem Document.not_endsDeclared_iff {document : Document} :
    ¬ document.EndsDeclared ↔ ∃ e ∈ document.edgeDeclarations,
      e.tail ∉ document.declared ∨ e.head ∉ document.declared := by
  unfold EndsDeclared declared
  simp only [not_forall, not_and_or, exists_prop]

/-! ### The ends stand in the source -/

theorem Grammar.Sentence.exists_token {sentence : Sentence} {reference : String × Location}
    (h : reference ∈ sentence.document.references) :
    ∃ token ∈ sentence.tokens, token.kind = .identifier ∧ token.text = reference.1 ∧
      token.site.location = reference.2 := by
  obtain ⟨e, he, hreference⟩ := List.mem_flatMap.mp h
  obtain ⟨statement, hstatement, hedge⟩ := List.mem_filterMap.mp he
  have htokens : ∀ token ∈ statement.tokens, token ∈ sentence.tokens := by
    intro token htoken
    unfold tokens
    simp only [List.mem_cons, List.mem_append, List.mem_flatMap]
    exact Or.inr (Or.inr (Or.inr (Or.inr (Or.inl ⟨statement, hstatement, htoken⟩))))
  cases statement with
  | node identifier attributes => cases hedge
  | edge tail operator head attributes =>
      cases hedge
      unfold EdgeDeclaration.references at hreference
      rcases List.mem_pair.mp hreference with rfl | rfl
      · exact ⟨tail.token, htokens _ (by simp [Statement.tokens]), tail.kind_eq, rfl, rfl⟩
      · exact ⟨head.token, htokens _ (by simp [Statement.tokens]), head.kind_eq, rfl, rfl⟩

theorem exists_token_of_parse {source : String} {document : Document}
    (hparse : parse source = .ok document) {reference : String × Location}
    (h : reference ∈ document.references) :
    ∃ token ∈ (tokenize source).tokens, token.kind = .identifier ∧ token.text = reference.1 ∧
      token.site.location = reference.2 := by
  obtain ⟨sentence, htokens, rfl⟩ := exists_sentence_of_parse hparse
  exact htokens ▸ sentence.exists_token h

/-! ### The error of the first unknown end -/

namespace Graph

variable {α : Type} [Scalar α]

/-- Between the nodes of a graph the first unknown end is the error. -/
theorem foldlM_declareEdge_of_unknown : ∀ (es : List EdgeDeclaration) {graph : Graph α}
    {reference : String × Location},
    (es.flatMap EdgeDeclaration.references).find? (fun r => r.1 ∉ graph.ids) = some reference →
      es.foldlM declareEdge graph = .error (.unknownNode reference.1 reference.2)
  | [], _, _, h => by cases h
  | e :: es, graph, reference, h => by
      rw [List.foldlM_cons]
      rw [List.flatMap_cons, EdgeDeclaration.references] at h
      by_cases htail : e.tail ∈ graph.ids
      · by_cases hhead : e.head ∈ graph.ids
        · have hrest : (es.flatMap EdgeDeclaration.references).find?
              (fun r => r.1 ∉ graph.ids) = some reference := by
            simpa [htail, hhead] using h
          cases hedge : graph.declareEdge e with
          | error error =>
              rw [declareEdge_of_mem graph 0 htail hhead] at hedge
              cases hedge
          | ok graph' =>
              rw [← ids_of_declareEdge hedge] at hrest
              exact foldlM_declareEdge_of_unknown es hrest
        · have hreference : (e.head, e.headLocation) = reference := by
            simpa [htail, hhead] using h
          rw [declareEdge_of_unknown_head htail hhead, ← hreference]
          rfl
      · have hreference : (e.tail, e.tailLocation) = reference := by
          simpa [htail] using h
        rw [declareEdge_of_unknown_tail htail, ← hreference]
        rfl

theorem build_of_unknownEnd {document : Document} {parameters : Parameters α}
    {placement : Placement α} (stream : Stream)
    (hplace : document.nodeDeclarations ≠ [] → Placement.between? parameters.placementRange.1
      parameters.placementRange.2 = some placement)
    {reference : String × Location} (h : document.unknownEnd? = some reference) :
    build document parameters stream = .error (.unknownNode reference.1 reference.2) := by
  have hfind : document.references.find? (fun r =>
      r.1 ∉ (declareNodes document parameters placement stream).ids) = some reference := by
    simp only [mem_ids_declareNodes]
    exact h
  rw [build_of_placement placement stream hplace, foldlM_declareEdge_of_unknown _ hfind]
  rfl

end Graph

/-! ### What a source comes to -/

section Compile

variable {α : Type} [Scalar α] {σ κ : Type} [DecidableEq κ]

/-- What a source that parses compiles to is what its document is built to, laid out. -/
theorem compileIn_of_parse (names : Interning σ κ) (table : σ) {source : String}
    {document : Document} (hparse : parse source = .ok document) (options : CompileOptions α)
    (fresh : Stream) :
    (compileIn names table source options fresh).1 =
      (Graph.build document (Parameters.resolve document options.parameters)
        (options.stream fresh)).map Graph.layout := by
  rw [compileIn_fst, compile, hparse]
  exact analyze_eq_map document options fresh

/-- **A source that parses and can be placed fails to compile exactly if an edge has an end that
is not declared**, and the error is that of the first such end, an identifier of the source. -/
theorem compileIn_unknown_end (names : Interning σ κ) (table : σ) {source : String}
    {document : Document} (hparse : parse source = .ok document) (options : CompileOptions α)
    (hplace : ∃ placement : Placement α, document.nodeDeclarations ≠ [] →
      Placement.between? (Parameters.resolve document options.parameters).placementRange.1
        (Parameters.resolve document options.parameters).placementRange.2 = some placement)
    (fresh : Stream) :
    ((∃ error, (compileIn names table source options fresh).1 = .error error) ↔
      ∃ e ∈ document.edgeDeclarations,
        e.tail ∉ document.declared ∨ e.head ∉ document.declared) ∧
    ∀ error, (compileIn names table source options fresh).1 = .error error →
      ∃ identifier location, error = .unknownNode identifier location ∧
        document.unknownEnd? = some (identifier, location) ∧
        ∃ token ∈ (tokenize source).tokens, token.kind = .identifier ∧
          token.text = identifier ∧ token.site.location = location := by
  obtain ⟨placement, hplacement⟩ := hplace
  rw [compileIn_of_parse names table hparse, ← Document.not_endsDeclared_iff,
    ← Document.unknownEnd?_eq_none_iff]
  cases hunknown : document.unknownEnd? with
  | none =>
      have hends := Document.unknownEnd?_eq_none_iff.mp hunknown
      rw [Graph.build_of_placement placement _ hplacement,
        (Graph.declareEdges_eq_ok_iff _ _ _ _ _).mpr ⟨hends, rfl⟩]
      refine ⟨iff_of_false ?_ (fun h => h rfl), fun error herror => ?_⟩
      · rintro ⟨error, herror⟩
        cases herror
      · cases herror
  | some reference =>
      have hmem : reference ∈ document.references := List.mem_of_find?_eq_some hunknown
      rw [Graph.build_of_unknownEnd (options.stream fresh) hplacement hunknown]
      refine ⟨iff_of_true ⟨_, rfl⟩ nofun, fun error herror => ?_⟩
      cases herror
      exact ⟨_, _, rfl, rfl, exists_token_of_parse hparse hmem⟩

end Compile

/-- A repeated edge, a node that is declared after its edges, and an end that no node is. -/
def strayEnd : String := "graph g \x7b A -- B B -- A A -> Z A B \x7d"

/-- The document of that source. -/
def strayEndDocument : Document where
  graphName := "g"
  nodeDeclarations := [⟨"A", ⟨1, 32⟩, none⟩, ⟨"B", ⟨1, 34⟩, none⟩]
  edgeDeclarations :=
    [⟨"A", ⟨1, 11⟩, "B", ⟨1, 16⟩, false, none⟩, ⟨"B", ⟨1, 18⟩, "A", ⟨1, 23⟩, false, none⟩,
      ⟨"A", ⟨1, 25⟩, "Z", ⟨1, 30⟩, true, none⟩]

/-- A table that has the identifier from an earlier compilation does not make it a node, here
without a seed. -/
theorem unknown_end_strayEnd :
    parse strayEnd = .ok strayEndDocument ∧
      (∃ placement : Placement Float, strayEndDocument.nodeDeclarations ≠ [] →
        Placement.between? (Parameters.resolve strayEndDocument {}).placementRange.1
          (Parameters.resolve strayEndDocument {}).placementRange.2 = some placement) ∧
      (compileIn Interner.interning { texts := #["Z", "A"] } strayEnd
        ({} : CompileOptions Float) (Stream.ofKey (Vector.replicate 8 7))).1 =
        .error (.unknownNode "Z" ⟨1, 30⟩) := by
  have hparse : parse strayEnd = .ok strayEndDocument := by
    have hsome : (parse strayEnd).toOption = some strayEndDocument := by decide +kernel
    cases hresult : parse strayEnd with
    | error diagnostics =>
        rw [hresult] at hsome
        cases hsome
    | ok document =>
        rw [hresult] at hsome
        exact congrArg Except.ok (Option.some.inj hsome)
  have hplace : ∃ placement : Placement Float, strayEndDocument.nodeDeclarations ≠ [] →
      Placement.between? (Parameters.resolve strayEndDocument {}).placementRange.1
        (Parameters.resolve strayEndDocument {}).placementRange.2 = some placement := by
    have hsome : (Placement.between?
        (Parameters.resolve strayEndDocument ({} : Overrides Float)).placementRange.1
        (Parameters.resolve strayEndDocument {}).placementRange.2).isSome = true := by
      decide +kernel
    obtain ⟨placement, hplacement⟩ := Option.isSome_iff_exists.mp hsome
    exact ⟨placement, fun _ => hplacement⟩
  refine ⟨hparse, hplace, ?_⟩
  obtain ⟨hfails, herror⟩ := compileIn_unknown_end Interner.interning
    { texts := #["Z", "A"] } hparse ({} : CompileOptions Float) hplace
    (Stream.ofKey (Vector.replicate 8 7))
  have hunknown : strayEndDocument.unknownEnd? = some ("Z", ⟨1, 30⟩) := by decide +kernel
  have hstray : (⟨"A", ⟨1, 25⟩, "Z", ⟨1, 30⟩, true, none⟩ : EdgeDeclaration) ∈
      strayEndDocument.edgeDeclarations := by decide
  obtain ⟨error, hcompile⟩ := hfails.mpr ⟨_, hstray, Or.inr (by decide)⟩
  obtain ⟨identifier, location, rfl, hend, -⟩ := herror error hcompile
  rw [hunknown] at hend
  cases hend
  exact hcompile

end NodeLink
