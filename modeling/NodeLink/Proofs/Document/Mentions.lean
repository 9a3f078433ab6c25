import NodeLink.Proofs.Document.Overflow

/-! # The identifiers that a document mentions

However broken a source is, the document that is read from it is made of its own tokens.  The parser
never goes back, so the identifiers that its declarations mention are some of the identifier tokens,
in their order (`Parse.body_names`); a declaration that is given up and the tokens that are skipped
behind it leave nothing in the document.  Since the tokens of a source stand one behind the other,
each is mentioned at most once, and nodes and edges come in the order in which they are written
(`parseTokens_madeOf`), which is that of their locations as long as these do not start again
(`mentions_farApart`). -/

namespace NodeLink

open NodeLink.Source

/-! ### Mentions -/

/-- The identifier that a node declares, with its location. -/
def NodeDeclaration.reference (declared : NodeDeclaration) : String × Location :=
  (declared.identifier, declared.location)

/-- The two ends of an edge with their locations, the tail first. -/
def EdgeDeclaration.references (declared : EdgeDeclaration) : List (String × Location) :=
  [(declared.tail, declared.tailLocation), (declared.head, declared.headLocation)]

/-- The identifiers that a declaration mentions, in the order in which they are written. -/
def Declaration.references : Declaration → List (String × Location)
  | .node declared => [declared.reference]
  | .edge declared => declared.references

/-- The ends of all edges with their locations, in the order in which they are looked up. -/
def Document.references (document : Document) : List (String × Location) :=
  document.edgeDeclarations.flatMap EdgeDeclaration.references

/-- All identifiers that a document mentions: those of its nodes, and the ends of its edges. -/
def Document.mentions (document : Document) : List (String × Location) :=
  document.nodeDeclarations.map NodeDeclaration.reference ++ document.references

/-- What a document may mention of a token. -/
def Source.Token.reference (token : Token) : String × Location :=
  (token.text, token.site.location)

/-! ### Declarations name identifiers of the source in their order -/

/-- References to some of the identifiers among some tokens, each once and in their order. -/
def Written (tokens : List Token) (references : List (String × Location)) : Prop :=
  ∃ used : List Token, used.Sublist tokens ∧ (∀ token ∈ used, token.kind = .identifier) ∧
    used.map Token.reference = references

namespace Written

variable {tokens : List Token} {references : List (String × Location)}

theorem sublist (h : Written tokens references) {others : List (String × Location)}
    (hothers : others.Sublist references) : Written tokens others := by
  obtain ⟨used, hsub, hkinds, rfl⟩ := h
  obtain ⟨kept, hkept, rfl⟩ := List.sublist_map_iff.mp hothers
  exact ⟨kept, hkept.trans hsub, fun token htoken => hkinds token (hkept.subset htoken), rfl⟩

theorem pairwise (h : Written tokens references)
    (horder : tokens.Pairwise fun a b => a.site.location.Before b.site.location) :
    references.Pairwise fun a b => a.2.Before b.2 := by
  obtain ⟨used, hsub, -, rfl⟩ := h
  exact List.pairwise_map.mpr (horder.sublist hsub)

/-- In whatever order the references are listed, each has a token of its own. -/
theorem exists_place (h : Written tokens references) (hnodup : tokens.Nodup)
    {listed : List (String × Location)} (hlisted : listed.Perm references) :
    ∃ place : Fin listed.length → Token, Function.Injective place ∧
      ∀ i, place i ∈ tokens ∧ (place i).kind = .identifier ∧
        (place i).text = listed[i].1 ∧ (place i).site.location = listed[i].2 := by
  obtain ⟨used, hsub, hkinds, rfl⟩ := h
  obtain ⟨f, hf⟩ := exists_perm_getElem? hlisted
  have hplace (i : Fin listed.length) :
      ∃ token, used[f i]? = some token ∧ token.reference = listed[i] := by
    have hlist := hf i
    rw [List.getElem?_map, List.getElem?_eq_getElem i.isLt] at hlist
    exact Option.map_eq_some_iff.mp hlist.symm
  choose place hused hreference using hplace
  refine ⟨place, fun i j hij => ?_, fun i => ?_⟩
  · have hsame : used[f i]? = used[f j]? := by rw [hused, hused, hij]
    have hlt := (List.getElem?_eq_some_iff.mp (hused i)).1
    exact Fin.ext (f.injective ((List.getElem?_inj hlt (hnodup.sublist hsub)).mp hsame))
  · have hmem := List.mem_of_getElem? (hused i)
    exact ⟨hsub.subset hmem, hkinds _ hmem, congrArg Prod.fst (hreference i),
      congrArg Prod.snd (hreference i)⟩

end Written

/-- Declarations mention some of the identifiers among some tokens, each once and in their order. -/
def Names (tokens : List Token) (declarations : List Declaration) : Prop :=
  Written tokens (declarations.flatMap Declaration.references)

theorem names_nil (tokens : List Token) : Names tokens [] :=
  ⟨[], List.nil_sublist _, nofun, rfl⟩

theorem Names.mono {tokens all : List Token} {declarations : List Declaration}
    (h : Names tokens declarations) (hall : tokens.Sublist all) : Names all declarations := by
  obtain ⟨used, hsub, hkinds, hused⟩ := h
  exact ⟨used, hsub.trans hall, hkinds, hused⟩

theorem Names.append {tokens others : List Token} {declarations later : List Declaration}
    (h : Names tokens declarations) (h' : Names others later) :
    Names (tokens ++ others) (declarations ++ later) := by
  obtain ⟨used, hsub, hkinds, hused⟩ := h
  obtain ⟨used', hsub', hkinds', hused'⟩ := h'
  refine ⟨used ++ used', hsub.append hsub', fun token htoken => ?_, ?_⟩
  · exact (List.mem_append.mp htoken).elim (hkinds token) (hkinds' token)
  · rw [List.map_append, hused, hused', List.flatMap_append]

namespace Parse

open State

theorem edgeHead_names {tail : Token} (hkind : tail.kind = .identifier) (directed : Bool)
    (s : State) :
    ∃ read, s.rest = read ++ (edgeHead tail directed s).2.rest ∧
      Names (tail :: read) (edgeHead tail directed s).1.toList := by
  cases hexpect : s.expect .identifier .edgeHead with
  | mk found t =>
      cases found with
      | none =>
          have hnone : edgeHead tail directed s = (none, t.skipUntil declarationStops) := by
            simp [edgeHead, hexpect]
          obtain ⟨read, hread⟩ := (edgeHead_reaches tail directed s).rest
          rw [hnone] at hread ⊢
          exact ⟨read, hread.symm, names_nil _⟩
      | some head =>
          obtain ⟨⟨head, hhead⟩, rfl, hrest⟩ := expect_sound hexpect
          have hsome : (edgeHead tail directed s).2 = (attributes? t).2 := by
            simp [edgeHead, hexpect]
          obtain ⟨read, hread⟩ := (attributes?_reaches t).rest
          refine ⟨head :: read, ?_, [tail, head], ?_, ?_, ?_⟩
          · rw [hsome, hrest, List.cons_append, hread]
          · exact ((List.nil_sublist read).cons_cons head).cons_cons tail
          · simp [hkind, hhead]
          · simp [edgeHead, hexpect, Declaration.references, EdgeDeclaration.references,
              Token.reference]

theorem declaration_names {identifier : Token} (hkind : identifier.kind = .identifier) (s : State) :
    ∃ read, s.rest = read ++ (declaration identifier s).2.rest ∧
      Names (identifier :: read) (declaration identifier s).1.toList := by
  cases hoperator : s.rest.head?.bind fun operator => direction? operator.kind with
  | none =>
      obtain ⟨read, hread⟩ := (declaration_reaches identifier s).rest
      refine ⟨read, hread.symm, [identifier], ?_, ?_, ?_⟩
      · exact (List.nil_sublist read).cons_cons identifier
      · simp [hkind]
      · simp [declaration, hoperator, nodeRest, Declaration.references,
          NodeDeclaration.reference, Token.reference]
  | some directed =>
      have hedge : declaration identifier s = edgeHead identifier directed s.skip := by
        simp [declaration, hoperator]
      obtain ⟨operator, -, hrest⟩ := operator_sound hoperator
      obtain ⟨read, hread, hnames⟩ := edgeHead_names hkind directed s.skip
      refine ⟨operator.token :: read, ?_, ?_⟩
      · rw [hedge, hrest, hread, List.cons_append]
      · rw [hedge]
        exact hnames.mono ((List.sublist_cons_self operator.token read).cons_cons identifier)

theorem body_names (s : State) : Names s.rest (body s).1 := by
  fun_induction body s with
  | case1 s h => exact names_nil _
  | case2 s token rest h hk u => exact names_nil _
  | case3 s token rest h hk first later t heq ih =>
      rw [heq] at ih
      have hskip : s.skip.rest = rest := by simp [skip, h]
      obtain ⟨read, hread, hnames⟩ := declaration_names hk s.skip
      rw [h, ← hskip, hread, ← List.cons_append]
      exact hnames.append ih
  | case4 s token rest h hc hi ih =>
      have hreach := (reaches_skip (s.fail .declaration)).trans
        (reaches_skipUntil _ declarationStops)
      have hsuffix := hreach.rest
      rw [rest_fail] at hsuffix
      exact ih.mono hsuffix.sublist

theorem document_names (s : State) :
    ∃ declarations, (document s).1 = (header s).1.append declarations ∧
      Names s.rest declarations := by
  have hreach := (header_reaches s).trans (openBody_reaches (header s).2)
  cases hopening : openBody (header s).2 with
  | mk found t =>
      rw [hopening] at hreach
      cases found with
      | false =>
          rw [document_of_unopened hopening]
          exact ⟨[], rfl, names_nil _⟩
      | true =>
          rw [document_of_opened hopening]
          exact ⟨(body t).1, rfl, (body_names t).mono hreach.rest.sublist⟩

end Parse

/-! ### Documents made of the tokens of a source -/

/-- A document made of the tokens of a source: each identifier that it mentions is an identifier
token of its own, nodes come in the order in which they are written, and so do the ends of edges,
the tail of an edge before its head and both before the next edge. -/
structure Document.MadeOf (document : Document) (tokens : List Token) : Prop where
  mentioned : ∃ place : Fin document.mentions.length → Token, Function.Injective place ∧
    ∀ i, place i ∈ tokens ∧ (place i).kind = .identifier ∧
      (place i).text = document.mentions[i].1 ∧
      (place i).site.location = document.mentions[i].2
  nodes : Written tokens (document.nodeDeclarations.map NodeDeclaration.reference)
  edges : Written tokens document.references

/-- Nodes and edges come in the order of their locations, the tail of an edge before its head and
both before the next edge. -/
structure Document.InOrder (document : Document) : Prop where
  nodes : document.nodeDeclarations.Pairwise fun a b => a.location.Before b.location
  ends : ∀ edge ∈ document.edgeDeclarations, edge.tailLocation.Before edge.headLocation
  edges : document.edgeDeclarations.Pairwise fun a b => a.headLocation.Before b.tailLocation

theorem references_perm (declarations : List Declaration) :
    ((declarations.filterMap Declaration.node?).map NodeDeclaration.reference ++
      (declarations.filterMap Declaration.edge?).flatMap EdgeDeclaration.references).Perm
      (declarations.flatMap Declaration.references) := by
  induction declarations with
  | nil => exact .nil
  | cons declaration declarations ih =>
      cases declaration with
      | node declared => exact ih.cons _
      | edge declared =>
          exact (List.perm_append_comm_assoc ..).trans (ih.append_left declared.references)

theorem nodes_references_sublist (declarations : List Declaration) :
    ((declarations.filterMap Declaration.node?).map NodeDeclaration.reference).Sublist
      (declarations.flatMap Declaration.references) := by
  induction declarations with
  | nil => exact .slnil
  | cons declaration declarations ih =>
      cases declaration with
      | node declared => exact ih.cons_cons _
      | edge declared => exact ih.trans (List.sublist_append_right _ _)

theorem edges_references_sublist (declarations : List Declaration) :
    ((declarations.filterMap Declaration.edge?).flatMap EdgeDeclaration.references).Sublist
      (declarations.flatMap Declaration.references) := by
  induction declarations with
  | nil => exact .slnil
  | cons declaration declarations ih =>
      cases declaration with
      | node declared => exact ih.trans (List.sublist_append_right _ _)
      | edge declared => exact (List.Sublist.refl _).append ih

theorem Names.madeOf {tokens : List Token} {declarations : List Declaration}
    (h : Names tokens declarations) (hnodup : tokens.Nodup) {document : Document}
    (hnodes : document.nodeDeclarations = declarations.filterMap Declaration.node?)
    (hedges : document.edgeDeclarations = declarations.filterMap Declaration.edge?) :
    document.MadeOf tokens := by
  have hmentions : document.mentions.Perm (declarations.flatMap Declaration.references) := by
    unfold Document.mentions Document.references
    rw [hnodes, hedges]
    exact references_perm declarations
  refine ⟨Written.exists_place h hnodup hmentions, ?_, ?_⟩
  · rw [hnodes]
    exact Written.sublist h (nodes_references_sublist declarations)
  · unfold Document.references
    rw [hedges]
    exact Written.sublist h (edges_references_sublist declarations)

theorem Document.MadeOf.inOrder {document : Document} {tokens : List Token}
    (h : document.MadeOf tokens)
    (horder : tokens.Pairwise fun a b => a.site.location.Before b.site.location) :
    document.InOrder := by
  obtain ⟨hends, hbetween⟩ := List.pairwise_flatMap.mp (h.edges.pairwise horder)
  have hnodes := List.pairwise_map.mp (h.nodes.pairwise horder)
  refine ⟨hnodes, fun edge hedge => ?_,
    hbetween.imp fun {a b} hab => ?_⟩
  · have hpair := hends edge hedge
    rw [EdgeDeclaration.references, List.pairwise_pair] at hpair
    exact hpair
  · exact hab (a.head, a.headLocation) (by simp [EdgeDeclaration.references])
      (b.tail, b.tailLocation) (by simp [EdgeDeclaration.references])

theorem nodup_tokens {source : String} {lexed : Lexed} (h : lexed.Alike (tokenize source)) :
    lexed.tokens.Nodup := by
  have hspans := (List.pairwise_append.mp (pairwise_spans h)).1
  refine (List.pairwise_map.mp hspans).imp fun {a b} hlt hab => ?_
  rw [hab] at hlt
  exact Nat.lt_irrefl _ hlt

theorem pairwise_tokens (source : String) :
    (tokenize source).tokens.Pairwise fun a b => a.site.location.Before b.site.location := by
  have hsites : ((tokenize source).tokens.map Token.site).Sublist (sites source) :=
    (sites_tokens source).trans (List.sublist_append_left _ _)
  exact (List.pairwise_map.mp ((pairwise_sites source).sublist hsites)).imp fun h => h.location

/-- **A document is made of the tokens of its source**, whether or not the source is well formed,
and within 32 bits its parts are in the order of their locations. -/
theorem parseTokens_madeOf {source : String} {lexed : Lexed}
    (h : track? false source = some lexed) :
    (parseTokens source lexed.tokens).1.MadeOf lexed.tokens ∧
      (source.length < 2 ^ 32 → (parseTokens source lexed.tokens).1.InOrder) := by
  obtain ⟨declarations, hdocument, hnames⟩ :=
    Parse.document_names ⟨lexed.tokens, [], Site.atEnd source⟩
  have hparsed : (parseTokens source lexed.tokens).1 =
      (Parse.header ⟨lexed.tokens, [], Site.atEnd source⟩).1.append declarations :=
    hdocument
  rw [Document.append_eq] at hparsed
  have hmade : (parseTokens source lexed.tokens).1.MadeOf lexed.tokens := by
    refine hnames.madeOf (nodup_tokens (track?_alike h)) ?_ ?_
    · rw [hparsed]
      rfl
    · rw [hparsed]
      rfl
  refine ⟨hmade, fun hlength => hmade.inOrder ?_⟩
  obtain rfl : tokenize source = lexed := Option.some.inj ((track?_eq hlength false).symm.trans h)
  exact pairwise_tokens source

/-- An edge without a head, and one with attributes that are not closed. -/
def brokenEdges : String := "graph g \x7b A -- , B A -> C [ D"

/-- The document of that source has the node `B` and the edge from the second `A`. -/
theorem madeOf_brokenEdges :
    track? false brokenEdges = some (tokenize brokenEdges) ∧
      (parseTokens brokenEdges (tokenize brokenEdges).tokens).1.mentions =
        [("B", ⟨1, 18⟩), ("A", ⟨1, 20⟩), ("C", ⟨1, 25⟩)] ∧
      (parseTokens brokenEdges (tokenize brokenEdges).tokens).1.MadeOf
        (tokenize brokenEdges).tokens ∧
      (parseTokens brokenEdges (tokenize brokenEdges).tokens).1.InOrder := by
  have hlength : brokenEdges.length < 2 ^ 32 := by decide +kernel
  have htrack := track?_eq hlength false
  have hmade := parseTokens_madeOf htrack
  exact ⟨htrack, by decide +kernel, hmade.1, hmade.2 hlength⟩

/-- Behind 2 ^ 32 characters of a line its columns start again, so the second of these two nodes
stands at the location of the first one. -/
theorem mentions_farApart :
    ∃ lexed, track? false (farApart 4294967293) = some lexed ∧
      ¬ (parseTokens (farApart 4294967293) lexed.tokens).1.nodeDeclarations.Pairwise
        fun a b => a.location.Before b.location := by
  have hsign : next32? ((4294967293 + 3) % wordBound) = some 1 := by decide
  have hname : next32? ((4294967293 + 4) % wordBound) = some 2 := by decide
  refine ⟨_, track?_farApart hsign hname, fun h => ?_⟩
  rw [parseTokens_farApart] at h
  exact Location.Before.irrefl ⟨1, 2⟩ (List.rel_of_pairwise_cons h List.mem_cons_self)

end NodeLink
