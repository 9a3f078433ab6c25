import NodeLink.Proofs.Document.Diagnostics

/-! # What the parser reads of a token

The parser looks at the kinds of tokens and at the texts of identifiers and strings, and at
nothing else that it could decide by.  Two sources whose tokens say the same (`Token.gist`),
however they are laid out, are parsed to one document, places aside, with as many errors that
expect the same at the same tokens (`parseTokens_gist`).

One decision does look at places: a failure adds no error where the last error stands at the same
bytes.  So two runs are held in step (`InStep`) together with where they are among the places of
all tokens: the tokens of one source cover different bytes, and then the bytes are the same exactly
if the index is.  What is read does not depend on it (`document_unplaced`). -/

namespace NodeLink

open NodeLink.Source

/-! ### Tokens and documents without their places -/

/-- What a token says, wherever it stands: its kind, and the text of an identifier or a string. -/
def Source.Token.gist (token : Token) : TokenKind × Option String :=
  (token.kind,
    if token.kind = .identifier ∨ token.kind = .string then some token.text else none)

theorem kind_of_gist {a b : Token} (h : a.gist = b.gist) : a.kind = b.kind :=
  congrArg Prod.fst h

theorem text_of_gist {a b : Token} (h : a.gist = b.gist)
    (hkind : a.kind = .identifier ∨ a.kind = .string) : a.text = b.text := by
  have htext := congrArg Prod.snd h
  have hkind' := hkind
  rw [kind_of_gist h] at hkind'
  simpa [Token.gist, hkind, hkind'] using htext

/-- A node declaration without its location. -/
def NodeDeclaration.unplaced (declared : NodeDeclaration) : NodeDeclaration :=
  { declared with location := {} }

/-- An edge declaration without the locations of its ends. -/
def EdgeDeclaration.unplaced (declared : EdgeDeclaration) : EdgeDeclaration :=
  { declared with tailLocation := {}, headLocation := {} }

/-- A declaration without its locations. -/
def Declaration.unplaced : Declaration → Declaration
  | .node declared => .node declared.unplaced
  | .edge declared => .edge declared.unplaced

/-- A document without the locations of its declarations. -/
def Document.unplaced (document : Document) : Document :=
  { document with
    nodeDeclarations := document.nodeDeclarations.map NodeDeclaration.unplaced
    edgeDeclarations := document.edgeDeclarations.map EdgeDeclaration.unplaced }

theorem unplaced_push (document : Document) (declaration : Declaration) :
    (document.push declaration).unplaced = document.unplaced.push declaration.unplaced := by
  cases declaration <;> simp [Document.push, Document.unplaced, Declaration.unplaced]

theorem unplaced_append (document : Document) (declarations : List Declaration) :
    (document.append declarations).unplaced =
      document.unplaced.append (declarations.map Declaration.unplaced) := by
  induction declarations generalizing document with
  | nil => rfl
  | cons declaration declarations ih =>
      have hstep : document.append (declaration :: declarations) =
          (document.push declaration).append declarations := rfl
      rw [hstep, ih, unplaced_push]
      rfl

namespace Parse

open State

/-! ### Two runs in step -/

/-- Two lists of as many places, where no bytes are covered twice. -/
structure Lanes (all others : List Site) : Prop where
  length_eq : all.length = others.length
  nodup : (all.map Site.span).Nodup
  nodup_others : (others.map Site.span).Nodup

/-- Two errors that expect the same and stand at one index among the places of their runs. -/
def SamePlace (all others : List Site) (e e' : SyntaxError) : Prop :=
  e.expected = e'.expected ∧ ∃ i : ℕ, all[i]? = some e.site ∧ others[i]? = some e'.site

theorem SamePlace.span_eq_iff {all others : List Site} {e e' last last' : SyntaxError}
    (h : SamePlace all others e e') (hlanes : Lanes all others)
    (hlast : SamePlace all others last last') :
    e.site.span = last.site.span ↔ e'.site.span = last'.site.span := by
  obtain ⟨-, i, hi, hi'⟩ := h
  obtain ⟨-, j, hj, hj'⟩ := hlast
  have hindex {sites : List Site} {site site' : Site} (hnodup : (sites.map Site.span).Nodup)
      (hi : sites[i]? = some site) (hj : sites[j]? = some site') :
      site.span = site'.span ↔ i = j := by
    have hspan : (sites.map Site.span)[i]? = some site.span := by rw [List.getElem?_map, hi]; rfl
    have hspan' : (sites.map Site.span)[j]? = some site'.span := by rw [List.getElem?_map, hj]; rfl
    have hlt := (List.getElem?_eq_some_iff.mp hspan).1
    rw [← List.getElem?_inj hlt hnodup, hspan, hspan', Option.some.injEq]
  rw [hindex hlanes.nodup hi hj, hindex hlanes.nodup_others hi' hj']

/-- Two runs that have come equally far over tokens that say the same.  They have as many errors at
the same places, unless some bytes are covered twice. -/
structure InStep (all others : List Site) (s t : State) : Prop where
  gists : s.rest.map Token.gist = t.rest.map Token.gist
  places : s.places <:+ all
  places_others : t.places <:+ others
  errors : Lanes all others → List.Forall₂ (SamePlace all others) s.errors t.errors

/-- Results of two runs in step that look the same. -/
structure Agree {α β : Type} (all others : List Site) (view : α → β) (x y : α × State) : Prop where
  view_eq : view x.1 = view y.1
  inStep : InStep all others x.2 y.2

variable {all others : List Site} {s t : State}

namespace InStep

theorem exists_index (h : InStep all others s t) (hlanes : Lanes all others) :
    ∃ n : ℕ, all[n]? = some s.here ∧ others[n]? = some t.here := by
  obtain ⟨before, hbefore⟩ := h.places
  obtain ⟨before', hbefore'⟩ := h.places_others
  obtain ⟨later, hlater⟩ := s.places_eq_cons
  obtain ⟨later', hlater'⟩ := t.places_eq_cons
  have hlength : before.length = before'.length := by
    have hrest := congrArg List.length h.gists
    have hall := congrArg List.length hbefore
    have hothers := congrArg List.length hbefore'
    have hsame := hlanes.length_eq
    simp only [State.places, List.length_append, List.length_map, List.length_singleton] at *
    omega
  refine ⟨before.length, ?_, ?_⟩
  · simp [← hbefore, hlater]
  · simp [← hbefore', hlater', hlength]

theorem problem (h : InStep all others s t) (hlanes : Lanes all others) (expected : Expectation) :
    SamePlace all others (s.problem expected) (t.problem expected) := by
  obtain ⟨n, hs, ht⟩ := h.exists_index hlanes
  refine ⟨?_, n, ?_, ?_⟩
  · unfold State.problem
    split <;> split <;> rfl
  · rw [site_problem, hs]
  · rw [site_problem, ht]

/-- A failure adds an error in both runs or in none: whether the last error stands at the same
bytes is whether it stands at the same index, for no bytes are covered twice. -/
theorem errors_fail (h : InStep all others s t) (hlanes : Lanes all others)
    (expected : Expectation) :
    List.Forall₂ (SamePlace all others) (s.fail expected).errors (t.fail expected).errors := by
  have hproblem := h.problem hlanes expected
  have herrors := h.errors hlanes
  have hfirst : (s.errors.head?.any fun last => last.site.span = (s.problem expected).site.span) =
      t.errors.head?.any fun last => last.site.span = (t.problem expected).site.span := by
    generalize s.errors = errors, t.errors = errors' at herrors
    cases herrors with
    | nil => rfl
    | cons hlast _ =>
        have hspan := hlast.span_eq_iff hlanes hproblem
        simp [hspan]
  unfold State.fail
  rw [hfirst]
  split
  · exact herrors
  · exact .cons hproblem herrors

theorem fail (h : InStep all others s t) (expected : Expectation) :
    InStep all others (s.fail expected) (t.fail expected) where
  gists := by rw [rest_fail, rest_fail, h.gists]
  places := by rw [places_fail]; exact h.places
  places_others := by rw [places_fail]; exact h.places_others
  errors hlanes := h.errors_fail hlanes expected

theorem forward (h : InStep all others s t) {rest rest' : List Token} (hs : rest <:+ s.rest)
    (ht : rest' <:+ t.rest) (hgists : rest.map Token.gist = rest'.map Token.gist) :
    InStep all others { s with rest } { t with rest := rest' } := by
  have hplaces {u : State} {later : List Token} (hlater : later <:+ u.rest) :
      State.places { u with rest := later } <:+ u.places := by
    obtain ⟨read, hread⟩ := hlater
    exact ⟨read.map Token.site, by simp [State.places, ← hread]⟩
  exact ⟨hgists, (hplaces hs).trans h.places, (hplaces ht).trans h.places_others, h.errors⟩

theorem rest_cases (h : InStep all others s t) :
    s.rest = [] ∧ t.rest = [] ∨ ∃ (a b : Token) (later later' : List Token),
      s.rest = a :: later ∧ t.rest = b :: later' ∧ a.gist = b.gist ∧
        later.map Token.gist = later'.map Token.gist := by
  have hgists := h.gists
  cases hs : s.rest with
  | nil =>
      rw [hs] at hgists
      exact .inl ⟨rfl, List.map_eq_nil_iff.mp hgists.symm⟩
  | cons a later =>
      rw [hs] at hgists
      obtain ⟨b, later', ht, hab, hlater⟩ := List.map_eq_cons_iff.mp hgists.symm
      exact .inr ⟨a, b, later, later', rfl, ht, hab.symm, hlater.symm⟩

theorem skip (h : InStep all others s t) : InStep all others s.skip t.skip :=
  h.forward (List.tail_suffix _) (List.tail_suffix _) (by
    rw [List.map_tail, List.map_tail, h.gists])

theorem skipUntil (h : InStep all others s t) (stops : List TokenKind) :
    InStep all others (s.skipUntil stops) (t.skipUntil stops) := by
  have hmap (tokens : List Token) :
      (tokens.dropWhile fun token => !stops.contains token.kind).map Token.gist =
        (tokens.map Token.gist).dropWhile fun gist => !stops.contains gist.1 := by
    rw [List.dropWhile_map]
    rfl
  refine h.forward (List.dropWhile_suffix _) (List.dropWhile_suffix _) ?_
  rw [hmap, hmap, h.gists]

theorem take? (h : InStep all others s t) (kind : TokenKind) :
    s.take? kind = none ∧ t.take? kind = none ∨
      ∃ (a b : Token) (u v : State), s.take? kind = some (a, u) ∧ t.take? kind = some (b, v) ∧
        a.kind = kind ∧ a.gist = b.gist ∧ InStep all others u v := by
  rcases h.rest_cases with ⟨hs, ht⟩ | ⟨a, b, later, later', hs, ht, hgist, hlater⟩
  · exact .inl ⟨by simp [State.take?, hs], by simp [State.take?, ht]⟩
  · have hkinds := kind_of_gist hgist
    by_cases hkind : a.kind = kind
    · refine .inr ⟨a, b, { s with rest := later }, { t with rest := later' }, ?_, ?_, hkind,
        hgist, ?_⟩
      · simp [State.take?, hs, hkind]
      · simp [State.take?, ht, ← hkinds, hkind]
      · exact h.forward (hs ▸ List.suffix_cons a later) (ht ▸ List.suffix_cons b later') hlater
    · exact .inl ⟨by simp [State.take?, hs, hkind], by simp [State.take?, ht, ← hkinds, hkind]⟩

theorem expect (h : InStep all others s t) (kind : TokenKind) (expected : Expectation) :
    InStep all others (s.expect kind expected).2 (t.expect kind expected).2 := by
  unfold State.expect
  rcases h.take? kind with ⟨hs, ht⟩ | ⟨a, b, u, v, hs, ht, -, -, hstep⟩
  · rw [hs, ht]
    exact h.fail expected
  · rw [hs, ht]
    exact hstep

theorem expect_text (h : InStep all others s t) {kind : TokenKind}
    (hkind : kind = .identifier ∨ kind = .string) (expected : Expectation) :
    (s.expect kind expected).1.map Token.text = (t.expect kind expected).1.map Token.text := by
  unfold State.expect
  rcases h.take? kind with ⟨hs, ht⟩ | ⟨a, b, u, v, hs, ht, ha, hgist, -⟩
  · rw [hs, ht]
  · rw [hs, ht]
    exact congrArg some (text_of_gist hgist (ha ▸ hkind))

end InStep

/-! ### Attribute lists -/

theorem textOf_eq (s : State) (kind : TokenKind) (expected : Expectation) :
    textOf s kind expected =
      ((s.expect kind expected).1.map Token.text, (s.expect kind expected).2) := by
  unfold textOf
  split
  · next heq => rw [heq]; rfl
  · next heq => rw [heq]; rfl

theorem textOf_inStep (h : InStep all others s t) {kind : TokenKind}
    (hkind : kind = .identifier ∨ kind = .string) (expected : Expectation) :
    Agree all others id (textOf s kind expected) (textOf t kind expected) := by
  rw [textOf_eq, textOf_eq]
  exact ⟨h.expect_text hkind expected, h.expect kind expected⟩

theorem unquotedTextOf_inStep (h : InStep all others s t) {kind : TokenKind}
    (hkind : kind = .identifier ∨ kind = .string) (expected : Expectation) :
    Agree all others id (unquotedTextOf s kind expected) (unquotedTextOf t kind expected) := by
  obtain ⟨htext, hstep⟩ := textOf_inStep h hkind expected
  exact ⟨congrArg (Option.map unquote) htext, hstep⟩

theorem stringOrIdentifier_inStep (h : InStep all others s t) :
    Agree all others id (stringOrIdentifier s) (stringOrIdentifier t) := by
  unfold stringOrIdentifier
  rcases h.take? .string with ⟨hs, ht⟩ | ⟨a, b, u, v, hs, ht, ha, hgist, hstep⟩
  · rw [hs, ht]
    exact unquotedTextOf_inStep h (.inl rfl) _
  · rw [hs, ht]
    have htext := text_of_gist hgist (.inr ha)
    exact ⟨congrArg (fun text => some (unquote text)) htext, hstep⟩

theorem assigned_inStep (h : InStep all others s t) {value : State → Option String × State}
    (hv : ∀ {u v : State}, InStep all others u v → Agree all others id (value u) (value v)) :
    Agree all others id (assigned s value) (assigned t value) := by
  unfold assigned State.expect
  rcases h.take? .equal with ⟨hs, ht⟩ | ⟨a, b, u, v, hs, ht, -, -, hstep⟩
  · rw [hs, ht]
    exact ⟨rfl, h.fail _⟩
  · rw [hs, ht]
    exact hv hstep

theorem entry_inStep (h : InStep all others s t) :
    Agree all others id (entry s) (entry t) := by
  have valued {make : String → Attribute} {value : State → Option String × State}
      (hv : ∀ {u v : State}, InStep all others u v → Agree all others id (value u) (value v)) :
      Agree all others id ((assigned s.skip value).1.map make, (assigned s.skip value).2)
        ((assigned t.skip value).1.map make, (assigned t.skip value).2) := by
    obtain ⟨htext, hstep⟩ := assigned_inStep h.skip hv
    exact ⟨congrArg (Option.map make) htext, hstep⟩
  have quoted {u v : State} (huv : InStep all others u v) :=
    unquotedTextOf_inStep huv (.inr rfl) .stringLiteral
  unfold entry
  rcases h.rest_cases with ⟨hs, ht⟩ | ⟨a, b, later, later', hs, ht, hgist, -⟩
  · rw [hs, ht]
    exact ⟨rfl, h.fail _⟩
  · rw [hs, ht]
    dsimp only
    rw [← kind_of_gist hgist]
    split
    · exact ⟨rfl, h.skip⟩
    · exact valued stringOrIdentifier_inStep
    · exact valued quoted
    · exact valued quoted
    · exact valued quoted
    · exact valued fun huv => textOf_inStep huv (.inl rfl) _
    · exact ⟨rfl, h.fail _⟩

theorem entryOrSkip_inStep (h : InStep all others s t) :
    Agree all others id (entryOrSkip s) (entryOrSkip t) := by
  obtain ⟨hfound, hstep⟩ := entry_inStep h
  unfold entryOrSkip
  cases hs : entry s with
  | mk found u =>
      cases ht : entry t with
      | mk found' v =>
          rw [hs, ht] at hfound hstep
          obtain rfl : found = found' := hfound
          cases found with
          | none => exact ⟨rfl, hstep.skipUntil entryStops⟩
          | some found => exact ⟨rfl, hstep⟩

theorem afterEntry_inStep (h : InStep all others s t) :
    (∃ u v, afterEntry s = .another u ∧ afterEntry t = .another v ∧ InStep all others u v) ∨
      ∃ u v, afterEntry s = .finished u ∧ afterEntry t = .finished v ∧ InStep all others u v := by
  have hskip := (h.fail .attributeSeparator).skipUntil entryStops
  unfold afterEntry
  rcases h.take? .comma with ⟨hs, ht⟩ | ⟨a, b, u, v, hs, ht, -, -, hstep⟩
  · rw [hs, ht]
    rcases h.take? .closeBracket with ⟨hs, ht⟩ | ⟨a, b, u, v, hs, ht, -, -, hstep⟩
    · rw [hs, ht]
      dsimp only
      rcases hskip.take? .comma with ⟨hs, ht⟩ | ⟨a, b, u, v, hs, ht, -, -, hstep⟩
      · rw [hs, ht]
        rcases hskip.take? .closeBracket with ⟨hs, ht⟩ | ⟨a, b, u, v, hs, ht, -, -, hstep⟩
        · rw [hs, ht]
          exact .inr ⟨_, _, rfl, rfl, hskip⟩
        · rw [hs, ht]
          exact .inr ⟨u, v, rfl, rfl, hstep⟩
      · rw [hs, ht]
        exact .inl ⟨u, v, rfl, rfl, hstep⟩
    · rw [hs, ht]
      exact .inr ⟨u, v, rfl, rfl, hstep⟩
  · rw [hs, ht]
    exact .inl ⟨u, v, rfl, rfl, hstep⟩

theorem entries_inStep (h : InStep all others s t) :
    Agree all others id (entries s) (entries t) := by
  fun_induction entries s generalizing t with
  | case1 s u hu later w heq ih =>
      obtain ⟨hentry, hstep⟩ := entryOrSkip_inStep h
      rcases afterEntry_inStep hstep with ⟨u', v, hu', hv, hafter⟩ | ⟨u', v, hu', -, -⟩
      · obtain rfl := AfterEntry.another.inj (hu.symm.trans hu')
        obtain ⟨hlater, hrest⟩ := ih hafter
        rw [entries_of_another hv]
        rw [heq] at hlater hrest
        exact ⟨congrArg₂ (fun found later => found.toList ++ later) hentry hlater, hrest⟩
      · cases hu.symm.trans hu'
  | case2 s u hu =>
      obtain ⟨hentry, hstep⟩ := entryOrSkip_inStep h
      rcases afterEntry_inStep hstep with ⟨u', v, hu', -, -⟩ | ⟨u', v, hu', hv, hafter⟩
      · cases hu.symm.trans hu'
      · obtain rfl := AfterEntry.finished.inj (hu.symm.trans hu')
        rw [entries_of_finished hv]
        exact ⟨congrArg Option.toList hentry, hafter⟩

theorem attributes_inStep (h : InStep all others s t) :
    Agree all others id (attributes s) (attributes t) := by
  unfold attributes
  rcases h.skip.take? .closeBracket with ⟨hs, ht⟩ | ⟨a, b, u, v, hs, ht, -, -, hstep⟩
  · rw [hs, ht]
    obtain ⟨hpairs, hstep⟩ := entries_inStep h.skip
    exact ⟨congrArg Attributes.ofPairs hpairs, hstep⟩
  · rw [hs, ht]
    exact ⟨rfl, hstep⟩

theorem attributes?_inStep (h : InStep all others s t) :
    Agree all others id (attributes? s) (attributes? t) := by
  have hstart : s.startsWith .openBracket = t.startsWith .openBracket := by
    rcases h.rest_cases with ⟨hs, ht⟩ | ⟨a, b, later, later', hs, ht, hgist, -⟩
    · simp [startsWith, hs, ht]
    · simp [startsWith, hs, ht, kind_of_gist hgist]
  unfold attributes?
  rw [hstart]
  split
  · obtain ⟨hfound, hstep⟩ := attributes_inStep h
    exact ⟨congrArg some hfound, hstep⟩
  · exact ⟨rfl, h⟩

/-! ### Declarations and documents -/

theorem edgeHead_inStep (h : InStep all others s t) {tail tail' : Token}
    (htail : tail.text = tail'.text) (directed : Bool) :
    Agree all others (Option.map Declaration.unplaced) (edgeHead tail directed s)
      (edgeHead tail' directed t) := by
  unfold edgeHead State.expect
  rcases h.take? .identifier with ⟨hs, ht⟩ | ⟨a, b, u, v, hs, ht, ha, hgist, hstep⟩
  · rw [hs, ht]
    exact ⟨rfl, (h.fail .edgeHead).skipUntil declarationStops⟩
  · rw [hs, ht]
    have hhead := text_of_gist hgist (.inl ha)
    obtain ⟨hattributes, hrest⟩ := attributes?_inStep hstep
    refine ⟨?_, hrest⟩
    have hlist : (attributes? u).1 = (attributes? v).1 := hattributes
    simp only [Option.map_some, Declaration.unplaced, EdgeDeclaration.unplaced, htail, hhead, hlist]

theorem nodeRest_inStep (h : InStep all others s t) {identifier identifier' : Token}
    (htext : identifier.text = identifier'.text) :
    Agree all others Declaration.unplaced (nodeRest identifier s) (nodeRest identifier' t) := by
  obtain ⟨hattributes, hrest⟩ := attributes?_inStep h
  refine ⟨?_, hrest⟩
  have hlist : (attributes? s).1 = (attributes? t).1 := hattributes
  simp only [nodeRest, Declaration.unplaced, NodeDeclaration.unplaced, htext, hlist]

theorem declaration_inStep (h : InStep all others s t) {identifier identifier' : Token}
    (htext : identifier.text = identifier'.text) :
    Agree all others (Option.map Declaration.unplaced) (declaration identifier s)
      (declaration identifier' t) := by
  have hoperator : (s.rest.head?.bind fun operator => direction? operator.kind) =
      t.rest.head?.bind fun operator => direction? operator.kind := by
    rcases h.rest_cases with ⟨hs, ht⟩ | ⟨a, b, later, later', hs, ht, hgist, -⟩
    · rw [hs, ht]
    · simp [hs, ht, kind_of_gist hgist]
  unfold declaration
  rw [hoperator]
  split
  · exact edgeHead_inStep h.skip htext _
  · obtain ⟨hnode, hrest⟩ := nodeRest_inStep h htext
    exact ⟨congrArg some hnode, hrest⟩

theorem body_inStep {s t : State} (h : InStep all others s t) :
    Agree all others (List.map Declaration.unplaced) (body s) (body t) := by
  rcases h.rest_cases with ⟨hs, ht⟩ | ⟨a, b, later, later', hs, ht, hgist, -⟩
  · rw [body_of_nil hs, body_of_nil ht]
    exact ⟨rfl, h.fail .closeBrace⟩
  · have hkind := kind_of_gist hgist
    by_cases hclosing : a.kind = .closeBrace
    · have hempty : s.skip.rest.isEmpty = t.skip.rest.isEmpty := by
        have := congrArg List.isEmpty h.skip.gists
        rwa [List.isEmpty_map, List.isEmpty_map] at this
      rw [body_of_closeBrace hs hclosing, body_of_closeBrace ht (hkind ▸ hclosing), hempty]
      refine ⟨rfl, ?_⟩
      dsimp only
      split
      · exact h.skip
      · exact h.skip.fail .endOfInput
    · by_cases hidentifier : a.kind = .identifier
      · have htext := text_of_gist hgist (.inl hidentifier)
        obtain ⟨hfirst, hstep⟩ := declaration_inStep h.skip htext
        have hlater := body_inStep hstep
        rw [body_of_identifier hs hidentifier, body_of_identifier ht (hkind ▸ hidentifier)]
        refine ⟨?_, hlater.inStep⟩
        have hdeclarations := hlater.view_eq
        simp only [List.map_append, ← Option.toList_map, hfirst, hdeclarations]
      · rw [body_of_other hs hclosing hidentifier,
          body_of_other ht (hkind ▸ hclosing) (hkind ▸ hidentifier)]
        exact body_inStep ((h.fail .declaration).skip.skipUntil declarationStops)
termination_by s.rest.length
decreasing_by
  · refine Nat.lt_of_le_of_lt (declaration_le ..) ?_
    simp [State.skip, hs]
  · refine Nat.lt_of_le_of_lt (State.length_skipUntil_le ..) ?_
    simp [State.skip, hs]

theorem openBody_inStep (h : InStep all others s t) :
    Agree all others id (openBody s) (openBody t) := by
  have hskip := (h.fail .openBrace).skipUntil [.openBrace]
  unfold openBody State.expect
  rcases h.take? .openBrace with ⟨hs, ht⟩ | ⟨a, b, u, v, hs, ht, -, -, hstep⟩
  · rw [hs, ht]
    dsimp only
    rcases hskip.take? .openBrace with ⟨hs, ht⟩ | ⟨a, b, u, v, hs, ht, -, -, hstep⟩
    · rw [hs, ht]
      exact ⟨rfl, hskip⟩
    · rw [hs, ht]
      exact ⟨rfl, hstep⟩
  · rw [hs, ht]
    exact ⟨rfl, hstep⟩

theorem header_inStep (h : InStep all others s t) :
    Agree all others Document.unplaced (header s) (header t) := by
  have hkeyword := h.expect .graph .graphKeyword
  have hname := hkeyword.expect_text (.inl rfl) .graphName
  obtain ⟨hattributes, hstep⟩ := attributes?_inStep (hkeyword.expect .identifier .graphName)
  refine ⟨congrArg Document.unplaced ?_, hstep⟩
  have hlist : (attributes? (State.expect _ .identifier .graphName).2).1 =
      (attributes? (State.expect _ .identifier .graphName).2).1 := hattributes
  simp only [header, hname, hlist]

theorem document_inStep (h : InStep all others s t) :
    Agree all others Document.unplaced (document s) (document t) := by
  obtain ⟨hheader, hstep⟩ := header_inStep h
  obtain ⟨hopening, hopened⟩ := openBody_inStep hstep
  cases hs : openBody (header s).2 with
  | mk found u =>
      cases ht : openBody (header t).2 with
      | mk found' v =>
          rw [hs, ht] at hopening hopened
          obtain rfl : found = found' := hopening
          cases found with
          | false =>
              rw [document_of_unopened hs, document_of_unopened ht]
              exact ⟨hheader, hopened⟩
          | true =>
              obtain ⟨hbody, hrest⟩ := body_inStep hopened
              rw [document_of_opened hs, document_of_opened ht]
              refine ⟨?_, hrest⟩
              rw [unplaced_append, unplaced_append, hheader, hbody]

/-- Tokens that say the same make the same document, places aside, wherever they stand. -/
theorem document_unplaced {tokens others : List Token} {finish finish' : Site}
    (h : tokens.map Token.gist = others.map Token.gist) :
    (document ⟨tokens, [], finish⟩).1.unplaced = (document ⟨others, [], finish'⟩).1.unplaced := by
  have hstart : InStep (State.places ⟨tokens, [], finish⟩) (State.places ⟨others, [], finish'⟩)
      ⟨tokens, [], finish⟩ ⟨others, [], finish'⟩ :=
    ⟨h, List.suffix_rfl, List.suffix_rfl, fun _ => .nil⟩
  exact (document_inStep hstart).view_eq

end Parse

/-! ### Sources -/

/-- The places of the tokens of a source, and that of its end. -/
def tokenPlaces (source : String) : List Site :=
  (tokenize source).tokens.map Token.site ++ [Site.atEnd source]

theorem nodup_spans (source : String) : ((tokenPlaces source).map Site.span).Nodup := by
  have hplaces : (tokenPlaces source).Sublist (sites source) :=
    (sites_tokens source).append (List.Sublist.refl _)
  refine List.pairwise_map.mpr (((pairwise_sites source).sublist hplaces).imp ?_)
  intro a b hprecedes hspan
  have hoffset : a.span.start < b.span.start := hprecedes.offset
  rw [hspan] at hoffset
  exact Nat.lt_irrefl _ hoffset

/-- Errors of two sources that expect the same, at tokens of the same index or both at the end. -/
def StandAlike (source other : String) (error error' : SyntaxError) : Prop :=
  error.expected = error'.expected ∧
    ((∃ i : ℕ, (tokenize source).tokens[i]?.map Token.site = some error.site ∧
        (tokenize other).tokens[i]?.map Token.site = some error'.site) ∨
      error.site = Site.atEnd source ∧ error'.site = Site.atEnd other)

/-- What stands at an index of the places is a token of that index, or the end behind them all. -/
theorem mem_or_atEnd_of_getElem? {source : String} {i : ℕ} {site : Site}
    (h : (tokenPlaces source)[i]? = some site) :
    i < (tokenize source).tokens.length ∧
        (tokenize source).tokens[i]?.map Token.site = some site ∨
      i = (tokenize source).tokens.length ∧ site = Site.atEnd source := by
  unfold tokenPlaces at h
  rw [List.getElem?_append, List.length_map] at h
  split at h
  · next hlt =>
    rw [List.getElem?_map] at h
    exact .inl ⟨hlt, h⟩
  · next hge =>
    obtain ⟨hzero, hsite⟩ := List.getElem?_eq_some_iff.mp h
    simp only [List.length_singleton, Nat.lt_one_iff] at hzero
    simp only [hzero, List.getElem_cons_zero] at hsite
    exact .inr ⟨by omega, hsite.symm⟩

/-- **What a source says is parsed alike wherever it stands.** -/
theorem parseTokens_gist {source other : String}
    (h : (tokenize source).tokens.map Token.gist = (tokenize other).tokens.map Token.gist) :
    (parseTokens source (tokenize source).tokens).1.unplaced =
        (parseTokens other (tokenize other).tokens).1.unplaced ∧
      List.Forall₂ (StandAlike source other) (parseTokens source (tokenize source).tokens).2
        (parseTokens other (tokenize other).tokens).2 := by
  have hlength : (tokenize source).tokens.length = (tokenize other).tokens.length := by
    simpa using congrArg List.length h
  have hlanes : Parse.Lanes (tokenPlaces source) (tokenPlaces other) :=
    ⟨by simp [tokenPlaces, hlength], nodup_spans source, nodup_spans other⟩
  have hstart : Parse.InStep (tokenPlaces source) (tokenPlaces other)
      ⟨(tokenize source).tokens, [], Site.atEnd source⟩
      ⟨(tokenize other).tokens, [], Site.atEnd other⟩ :=
    ⟨h, List.suffix_rfl, List.suffix_rfl, fun _ => .nil⟩
  obtain ⟨hdocument, hend⟩ := Parse.document_inStep hstart
  refine ⟨hdocument, List.Forall₂.imp ?_ (List.rel_reverse (hend.errors hlanes))⟩
  rintro error error' ⟨hexpected, i, hi, hi'⟩
  refine ⟨hexpected, ?_⟩
  rcases mem_or_atEnd_of_getElem? hi with ⟨hlt, hsite⟩ | ⟨hlast, hsite⟩
  · rcases mem_or_atEnd_of_getElem? hi' with ⟨-, hsite'⟩ | ⟨hlast', -⟩
    · exact .inl ⟨i, hsite, hsite'⟩
    · omega
  · rcases mem_or_atEnd_of_getElem? hi' with ⟨hlt', -⟩ | ⟨-, hsite'⟩
    · omega
    · exact .inr ⟨hsite, hsite'⟩

/-- One text in two layouts, with a keyword in capitals and a character that is skipped: both lack
the string of the label and the other end of the edge. -/
theorem gist_twoLayouts :
    (tokenize "graph g \x7b A [label=x] // note\n B -- \x7d").tokens.map Token.gist =
        (tokenize "GRAPH g\x7bA[LABEL=x]B@--\x7d").tokens.map Token.gist ∧
      ((parseTokens "graph g \x7b A [label=x] // note\n B -- \x7d"
          (tokenize "graph g \x7b A [label=x] // note\n B -- \x7d").tokens).1.unplaced =
        (parseTokens "GRAPH g\x7bA[LABEL=x]B@--\x7d"
          (tokenize "GRAPH g\x7bA[LABEL=x]B@--\x7d").tokens).1.unplaced ∧
      List.Forall₂ (StandAlike "graph g \x7b A [label=x] // note\n B -- \x7d"
          "GRAPH g\x7bA[LABEL=x]B@--\x7d")
        (parseTokens "graph g \x7b A [label=x] // note\n B -- \x7d"
          (tokenize "graph g \x7b A [label=x] // note\n B -- \x7d").tokens).2
        (parseTokens "GRAPH g\x7bA[LABEL=x]B@--\x7d"
          (tokenize "GRAPH g\x7bA[LABEL=x]B@--\x7d").tokens).2) := by
  have hgist : (tokenize "graph g \x7b A [label=x] // note\n B -- \x7d").tokens.map Token.gist =
      (tokenize "GRAPH g\x7bA[LABEL=x]B@--\x7d").tokens.map Token.gist := by
    decide +kernel
  exact ⟨hgist, parseTokens_gist hgist⟩

end NodeLink
