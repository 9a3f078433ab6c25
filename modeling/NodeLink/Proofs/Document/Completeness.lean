import NodeLink.Proofs.Document.Soundness

/-! # What is derivable is read without errors

A function of the parser that meets the tokens of a derivation tree reads just these, gives
what the tree stands for and adds no error: `entries_complete` for attribute lists,
`body_complete` for the statements of a body, `document_complete` for a whole document.  Where
the grammar leaves something out, the parser decides by the next token alone, so each lemma
about an optional part asks for a token behind it that cannot start the part. -/

namespace NodeLink.Parse

open NodeLink.Source
open NodeLink.Grammar (Leaf Value Pair AttributeList Operator Statement Sentence laterTokens
  optionalTokens lastValues)
open State

variable {rest : List Token} {errors : List SyntaxError} {finish : Site}

/-! ### Single tokens -/

theorem take?_leaf {kind : TokenKind} (leaf : Leaf kind) :
    State.take? ⟨leaf.token :: rest, errors, finish⟩ kind =
      some (leaf.token, ⟨rest, errors, finish⟩) := by
  simp [take?, leaf.kind_eq]

theorem take?_other {token : Token} {kind : TokenKind} (h : token.kind ≠ kind) :
    State.take? ⟨token :: rest, errors, finish⟩ kind = none := by
  simp [take?, h]

theorem expect_leaf {kind : TokenKind} (leaf : Leaf kind) (expected : Expectation) :
    State.expect ⟨leaf.token :: rest, errors, finish⟩ kind expected =
      (some leaf.token, ⟨rest, errors, finish⟩) := by
  simp [expect, take?_leaf]

theorem skip_cons (token : Token) :
    State.skip ⟨token :: rest, errors, finish⟩ = ⟨rest, errors, finish⟩ := rfl

/-! ### Attribute lists -/

theorem textOf_complete {kind : TokenKind} (leaf : Leaf kind) (expected : Expectation) :
    textOf ⟨leaf.token :: rest, errors, finish⟩ kind expected =
      (some leaf.text, ⟨rest, errors, finish⟩) := by
  simp [textOf, expect_leaf, Leaf.text]

theorem quotedText_complete (leaf : Leaf .string) (expected : Expectation)
    (hq : Quoted ⟨leaf.token :: rest, errors, finish⟩) :
    unquotedTextOf ⟨leaf.token :: rest, errors, finish⟩ .string expected =
      (some leaf.content, ⟨rest, errors, finish⟩) := by
  have hc := hq.content leaf List.mem_cons_self
  simp [unquotedTextOf, textOf_complete, hc]

theorem stringOrIdentifier_complete (value : Value)
    (hq : Quoted ⟨value.token :: rest, errors, finish⟩) :
    stringOrIdentifier ⟨value.token :: rest, errors, finish⟩ =
      (some value.content, ⟨rest, errors, finish⟩) := by
  cases value with
  | string leaf =>
      have hc : unquote leaf.token.text = leaf.content :=
        hq.content leaf List.mem_cons_self
      simp [stringOrIdentifier, Value.token, take?_leaf, hc, Value.content]
  | identifier leaf =>
      have ht := hq.text leaf List.mem_cons_self
      have hk : leaf.token.kind ≠ .string := by simp [leaf.kind_eq]
      simp [stringOrIdentifier, Value.token, take?_other hk, unquotedTextOf, textOf_complete, ht,
        Value.content]

theorem assigned_complete (equal : Leaf .equal) (value : State → Option String × State) :
    assigned ⟨equal.token :: rest, errors, finish⟩ value = value ⟨rest, errors, finish⟩ := by
  simp [assigned, expect_leaf]

theorem entry_complete (pair : Pair) (hq : Quoted ⟨pair.tokens ++ rest, errors, finish⟩) :
    entry ⟨pair.tokens ++ rest, errors, finish⟩ =
      (some pair.entry, ⟨rest, errors, finish⟩) := by
  have hvalue {key equal value : Token} (h : pair.tokens = [key, equal, value]) :
      Quoted ⟨value :: rest, errors, finish⟩ := by
    refine hq.of_reaches (reaches_of_rest ?_)
    rw [h]
    exact ⟨[key, equal], rfl⟩
  cases pair with
  | bundle key => simp [entry, Pair.tokens, Pair.entry, key.kind_eq, skip_cons]
  | color key equal value =>
      simp [entry, Pair.tokens, Pair.entry, key.kind_eq, skip_cons, assigned_complete,
        stringOrIdentifier_complete value (hvalue rfl)]
  | label key equal value =>
      simp [entry, Pair.tokens, Pair.entry, key.kind_eq, skip_cons, assigned_complete,
        quotedText_complete value _ (hvalue rfl)]
  | lineWidth key equal value =>
      simp [entry, Pair.tokens, Pair.entry, key.kind_eq, skip_cons, assigned_complete,
        textOf_complete]
  | font key equal value =>
      simp [entry, Pair.tokens, Pair.entry, key.kind_eq, skip_cons, assigned_complete,
        quotedText_complete value _ (hvalue rfl)]
  | fontSize key equal value =>
      simp [entry, Pair.tokens, Pair.entry, key.kind_eq, skip_cons, assigned_complete,
        quotedText_complete value _ (hvalue rfl)]

theorem entryOrSkip_complete (pair : Pair)
    (hq : Quoted ⟨pair.tokens ++ rest, errors, finish⟩) :
    entryOrSkip ⟨pair.tokens ++ rest, errors, finish⟩ =
      (some pair.entry, ⟨rest, errors, finish⟩) := by
  simp [entryOrSkip, entry_complete pair hq]

theorem afterEntry_comma (comma : Leaf .comma) :
    afterEntry ⟨comma.token :: rest, errors, finish⟩ = .another ⟨rest, errors, finish⟩ := by
  simp [afterEntry, take?_leaf]

theorem afterEntry_closing (closing : Leaf .closeBracket) :
    afterEntry ⟨closing.token :: rest, errors, finish⟩ = .finished ⟨rest, errors, finish⟩ := by
  have hk : closing.token.kind ≠ .comma := by simp [closing.kind_eq]
  simp [afterEntry, take?_other hk, take?_leaf]

theorem entries_of_another {s t : State} (h : afterEntry (entryOrSkip s).2 = .another t) :
    entries s = ((entryOrSkip s).1.toList ++ (entries t).1, (entries t).2) := by
  rw [entries]
  split
  · next u hu =>
    rw [hu] at h
    cases h
    rfl
  · next u hu =>
    rw [hu] at h
    cases h

theorem entries_of_finished {s t : State} (h : afterEntry (entryOrSkip s).2 = .finished t) :
    entries s = ((entryOrSkip s).1.toList, t) := by
  rw [entries]
  split
  · next u hu =>
    rw [hu] at h
    cases h
  · next u hu =>
    rw [hu] at h
    cases h
    rfl

theorem laterTokens_cons (comma : Leaf .comma) (pair : Pair)
    (later : List (Leaf .comma × Pair)) :
    laterTokens ((comma, pair) :: later) =
      comma.token :: (pair.tokens ++ laterTokens later) := rfl

theorem entries_cons (first : Pair) (comma : Leaf .comma)
    (hq : Quoted ⟨first.tokens ++ comma.token :: rest, errors, finish⟩) :
    entries ⟨first.tokens ++ comma.token :: rest, errors, finish⟩ =
      (first.entry :: (entries ⟨rest, errors, finish⟩).1,
        (entries ⟨rest, errors, finish⟩).2) := by
  have hfirst := entryOrSkip_complete first hq
  rw [entries_of_another (by rw [hfirst]; exact afterEntry_comma comma), hfirst]
  rfl

theorem entries_complete (first : Pair) (later : List (Leaf .comma × Pair))
    (closing : Leaf .closeBracket)
    (hq : Quoted ⟨first.tokens ++ (laterTokens later ++ closing.token :: rest), errors, finish⟩) :
    entries ⟨first.tokens ++ (laterTokens later ++ closing.token :: rest), errors, finish⟩ =
      (first.entry :: later.map (fun (_, pair) => pair.entry), ⟨rest, errors, finish⟩) := by
  induction later generalizing first with
  | nil =>
      have hfirst := entryOrSkip_complete first hq
      rw [entries_of_finished (by rw [hfirst]; exact afterEntry_closing closing), hfirst]
      rfl
  | cons second later ih =>
      obtain ⟨comma, second⟩ := second
      rw [laterTokens_cons, List.cons_append, List.append_assoc] at hq ⊢
      have hrest : Quoted
          ⟨second.tokens ++ (laterTokens later ++ closing.token :: rest), errors, finish⟩ :=
        hq.mono ((List.suffix_cons _ _).trans (List.suffix_append _ _))
      rw [entries_cons first comma hq, ih second hrest]
      rfl

theorem head?_pair (pair : Pair) (later : List Token) :
    ∀ token ∈ (pair.tokens ++ later).head?, token.kind ≠ .closeBracket := by
  cases pair <;> simp [Pair.tokens, Leaf.kind_eq]

/-- A list that does not close at once is read entry by entry. -/
theorem attributes_of_entries (opening : Leaf .openBracket) {later : List Token}
    (hlater : ∀ token ∈ later.head?, token.kind ≠ .closeBracket) :
    attributes ⟨opening.token :: later, errors, finish⟩ =
      (lastValues (entries ⟨later, errors, finish⟩).1, (entries ⟨later, errors, finish⟩).2) := by
  have hnone : State.take? ⟨later, errors, finish⟩ .closeBracket = none := by
    cases later with
    | nil => rfl
    | cons token later => exact take?_other (hlater token rfl)
  simp [attributes, skip_cons, hnone, ofPairs_eq_lastValues]

theorem attributes_complete (list : AttributeList)
    (hq : Quoted ⟨list.tokens ++ rest, errors, finish⟩) :
    attributes ⟨list.tokens ++ rest, errors, finish⟩ =
      (list.attributes, ⟨rest, errors, finish⟩) := by
  cases list with
  | empty opening closing =>
      simp [attributes, AttributeList.tokens, skip_cons, take?_leaf, AttributeList.attributes]
  | pairs opening first later closing =>
      have htokens : (AttributeList.pairs opening first later closing).tokens ++ rest =
          opening.token :: (first.tokens ++ (laterTokens later ++ closing.token :: rest)) := by
        simp [AttributeList.tokens]
      rw [htokens] at hq ⊢
      have hbody := entries_complete first later closing (hq.of_reaches (reaches_skip _))
      rw [attributes_of_entries opening (head?_pair first _), hbody]
      rfl

theorem exists_openBracket (list : AttributeList) :
    ∃ (opening : Leaf .openBracket) (later : List Token),
      list.tokens = opening.token :: later := by
  cases list with
  | empty opening closing => exact ⟨opening, _, rfl⟩
  | pairs opening first later closing => exact ⟨opening, _, rfl⟩

/-- The next token, if there is one, opens no attribute list. -/
def NoBracket (tokens : List Token) : Prop :=
  ∀ token ∈ tokens.head?, token.kind ≠ .openBracket

theorem attributes?_of_opening (opening : Leaf .openBracket) (later : List Token) :
    attributes? ⟨opening.token :: later, errors, finish⟩ =
      (some (attributes ⟨opening.token :: later, errors, finish⟩).1,
        (attributes ⟨opening.token :: later, errors, finish⟩).2) := by
  simp [attributes?, startsWith, opening.kind_eq]

theorem attributes?_complete (list : Option AttributeList) (hrest : NoBracket rest)
    (hq : Quoted ⟨optionalTokens list ++ rest, errors, finish⟩) :
    attributes? ⟨optionalTokens list ++ rest, errors, finish⟩ =
      (list.map AttributeList.attributes, ⟨rest, errors, finish⟩) := by
  cases list with
  | none =>
      have hstart : State.startsWith ⟨rest, errors, finish⟩ .openBracket = false := by
        cases rest with
        | nil => rfl
        | cons token rest =>
            have := hrest token rfl
            simpa [startsWith] using this
      simp [attributes?, optionalTokens, hstart]
  | some list =>
      have hlist := attributes_complete list hq
      obtain ⟨opening, later, h⟩ := exists_openBracket list
      simp only [optionalTokens, h, List.cons_append] at hlist ⊢
      rw [attributes?_of_opening, hlist]
      rfl

/-! ### Statements -/

/-- What may follow a statement: another one, or the end of the body. -/
def AfterStatement (tokens : List Token) : Prop :=
  ∃ token later, tokens = token :: later ∧
    (token.kind = .identifier ∨ token.kind = .closeBrace)

/-- The next token, if there is one, goes on with no statement: it is neither an operator nor the
opening of an attribute list. -/
def Detached (tokens : List Token) : Prop :=
  ∀ token ∈ tokens.head?, token.kind ∉ [.openBracket, .undirectedEdge, .directedEdge]

theorem AfterStatement.detached {tokens : List Token} (h : AfterStatement tokens) :
    Detached tokens := by
  obtain ⟨token, later, rfl, hk⟩ := h
  intro next hnext
  obtain rfl := Option.some.inj hnext
  rcases hk with hk | hk <;> simp [hk]

theorem Detached.noBracket {tokens : List Token} (h : Detached tokens) : NoBracket tokens :=
  fun token htoken hbracket => h token htoken (by simp [hbracket])

theorem Detached.noOperator {tokens : List Token} (h : Detached tokens) :
    (tokens.head?.bind fun token => direction? token.kind) = none := by
  refine Option.bind_eq_none_iff.mpr fun token htoken => ?_
  have hk := h token htoken
  cases hd : direction? token.kind with
  | none => rfl
  | some directed => rcases direction?_eq_some hd with ⟨hk', -⟩ | ⟨hk', -⟩ <;> simp [hk'] at hk

theorem afterStatement_tokens (statement : Statement) (tokens : List Token) :
    AfterStatement (statement.tokens ++ tokens) := by
  cases statement with
  | node identifier list => exact ⟨identifier.token, _, rfl, .inl identifier.kind_eq⟩
  | edge tail operator head list => exact ⟨tail.token, _, rfl, .inl tail.kind_eq⟩

theorem direction?_operator (operator : Operator) :
    direction? operator.token.kind = some operator.isArrow := by
  cases operator with
  | undirected leaf => simp [Operator.token, leaf.kind_eq, direction?, Operator.isArrow]
  | directed leaf => simp [Operator.token, leaf.kind_eq, direction?, Operator.isArrow]

theorem declaration_of_node {s t : State} {list : Option Attributes} (identifier : Leaf .identifier)
    (hoperator : (s.rest.head?.bind fun token => direction? token.kind) = none)
    (hlist : attributes? s = (list, t)) :
    declaration identifier.token s =
      (some (.node
        { identifier := identifier.text, location := identifier.token.site.location
          attributes := list }), t) := by
  simp [declaration, hoperator, nodeRest, hlist, Leaf.text]

theorem declaration_of_edge {later : List Token} {t : State} {list : Option Attributes}
    (tail : Leaf .identifier) (operator : Operator) (head : Leaf .identifier)
    (hlist : attributes? ⟨later, errors, finish⟩ = (list, t)) :
    declaration tail.token ⟨operator.token :: head.token :: later, errors, finish⟩ =
      (some (.edge
        { tail := tail.text, tailLocation := tail.token.site.location
          head := head.text, headLocation := head.token.site.location
          directed := operator.isArrow, attributes := list }), t) := by
  simp [declaration, direction?_operator, skip_cons, edgeHead, expect_leaf, hlist, Leaf.text]

theorem noOperator_openBracket (opening : Leaf .openBracket) (later : List Token) :
    ((opening.token :: later).head?.bind fun token => direction? token.kind) = none := by
  simp [opening.kind_eq, direction?]

theorem declaration_complete (statement : Statement) (hrest : Detached rest)
    (hq : Quoted ⟨statement.tokens ++ rest, errors, finish⟩) :
    ∃ (identifier : Leaf .identifier) (later : List Token),
      statement.tokens ++ rest = identifier.token :: later ∧
      declaration identifier.token ⟨later, errors, finish⟩ =
        (declarationOf statement, ⟨rest, errors, finish⟩) := by
  cases statement with
  | node identifier list =>
      refine ⟨identifier, optionalTokens list ++ rest, rfl, ?_⟩
      refine declaration_of_node identifier ?_
        (attributes?_complete list hrest.noBracket (hq.mono (List.suffix_cons _ _)))
      cases list with
      | none => exact hrest.noOperator
      | some list =>
          obtain ⟨opening, later, h⟩ := exists_openBracket list
          simp only [optionalTokens, h]
          exact noOperator_openBracket opening _
  | edge tail operator head list =>
      refine ⟨tail, operator.token :: head.token :: (optionalTokens list ++ rest), rfl, ?_⟩
      refine declaration_of_edge tail operator head
        (attributes?_complete list hrest.noBracket (hq.mono ?_))
      exact ⟨[tail.token, operator.token, head.token], rfl⟩

/-! ### Bodies and documents -/

section NextToken

variable {s : State} {token : Token} {later : List Token}

/-! The body, by its next token. -/

theorem body_of_nil (hs : s.rest = []) : body s = ([], s.fail .closeBrace) := by
  rw [body]
  split
  · rfl
  · next heq => cases hs.symm.trans heq

theorem body_of_closeBrace (hs : s.rest = token :: later) (hkind : token.kind = .closeBrace) :
    body s = ([], if s.skip.rest.isEmpty then s.skip else s.skip.fail .endOfInput) := by
  rw [body]
  split
  · next heq => cases hs.symm.trans heq
  · next heq =>
    obtain ⟨rfl, rfl⟩ := List.cons.inj (hs.symm.trans heq)
    rw [hkind]

theorem body_of_identifier (hs : s.rest = token :: later) (hkind : token.kind = .identifier) :
    body s = ((declaration token s.skip).1.toList ++ (body (declaration token s.skip).2).1,
      (body (declaration token s.skip).2).2) := by
  rw [body]
  split
  · next heq => cases hs.symm.trans heq
  · next heq =>
    obtain ⟨rfl, rfl⟩ := List.cons.inj (hs.symm.trans heq)
    rw [hkind]

theorem body_of_other (hs : s.rest = token :: later) (hclosing : token.kind ≠ .closeBrace)
    (hidentifier : token.kind ≠ .identifier) :
    body s = body ((s.fail .declaration).skip.skipUntil declarationStops) := by
  rw [body]
  split
  · next heq => cases hs.symm.trans heq
  · next heq =>
    obtain ⟨rfl, rfl⟩ := List.cons.inj (hs.symm.trans heq)
    split
    · next hk => exact absurd hk hclosing
    · next hk => exact absurd hk hidentifier
    · rfl

end NextToken

theorem afterStatement_closing (closing : Leaf .closeBrace) : AfterStatement [closing.token] :=
  ⟨closing.token, [], rfl, .inr closing.kind_eq⟩

theorem afterStatement_statements (statements : List Statement) {tokens : List Token}
    (h : AfterStatement tokens) :
    AfterStatement (statements.flatMap Statement.tokens ++ tokens) := by
  cases statements with
  | nil => exact h
  | cons statement statements =>
      rw [List.flatMap_cons, List.append_assoc]
      exact afterStatement_tokens statement _

theorem detached_statements (statements : List Statement) {tokens : List Token}
    (h : Detached tokens) : Detached (statements.flatMap Statement.tokens ++ tokens) := by
  cases statements with
  | nil => exact h
  | cons statement statements =>
      rw [List.flatMap_cons, List.append_assoc]
      exact (afterStatement_tokens statement _).detached

/-- Statements in front of what goes on with none of them are read as they are. -/
theorem body_statements (statements : List Statement) (hrest : Detached rest)
    (hq : Quoted ⟨statements.flatMap Statement.tokens ++ rest, errors, finish⟩) :
    body ⟨statements.flatMap Statement.tokens ++ rest, errors, finish⟩ =
      (declarationsOf statements ++ (body ⟨rest, errors, finish⟩).1,
        (body ⟨rest, errors, finish⟩).2) := by
  induction statements with
  | nil => rfl
  | cons statement statements ih =>
      rw [List.flatMap_cons, List.append_assoc] at hq ⊢
      obtain ⟨identifier, later, htokens, hd⟩ :=
        declaration_complete statement (detached_statements statements hrest) hq
      have hlater := ih (hq.mono (List.suffix_append _ _))
      rw [htokens, body_of_identifier rfl identifier.kind_eq, skip_cons, hd, hlater,
        ← List.append_assoc]
      rfl

theorem body_complete (statements : List Statement) (closing : Leaf .closeBrace)
    (hq : Quoted ⟨statements.flatMap Statement.tokens ++ [closing.token], errors, finish⟩) :
    body ⟨statements.flatMap Statement.tokens ++ [closing.token], errors, finish⟩ =
      (declarationsOf statements, ⟨[], errors, finish⟩) := by
  rw [body_statements statements (afterStatement_closing closing).detached hq,
    body_of_closeBrace rfl closing.kind_eq]
  exact Prod.ext (List.append_nil _) rfl

theorem openBody_complete (opening : Leaf .openBrace) :
    openBody ⟨opening.token :: rest, errors, finish⟩ = (true, ⟨rest, errors, finish⟩) := by
  simp [openBody, expect_leaf]

theorem header_of_attributes {later : List Token} {t : State} {list : Option Attributes}
    (keyword : Leaf .graph) (name : Leaf .identifier)
    (hlist : attributes? ⟨later, errors, finish⟩ = (list, t)) :
    header ⟨keyword.token :: name.token :: later, errors, finish⟩ =
      ({ graphName := name.text, graphAttributes := list.getD {} }, t) := by
  simp [header, expect_leaf, hlist, Leaf.text]

theorem document_of_header {s : State} {start : Document} (opening : Leaf .openBrace)
    (h : header s = (start, ⟨opening.token :: rest, errors, finish⟩)) :
    document s = (start.append (body ⟨rest, errors, finish⟩).1,
      (body ⟨rest, errors, finish⟩).2) := by
  have hopened : openBody (header s).2 = (true, ⟨rest, errors, finish⟩) := by
    rw [h]
    exact openBody_complete opening
  rw [document_of_opened hopened, h]

theorem noBracket_openBrace (opening : Leaf .openBrace) (later : List Token) :
    NoBracket (opening.token :: later) := by
  intro token htoken
  obtain rfl := Option.some.inj htoken
  simp [opening.kind_eq]

theorem suffix_body (keyword name opening : Token) (list inner : List Token) :
    inner <:+ keyword :: name :: (list ++ opening :: inner) :=
  ⟨keyword :: name :: (list ++ [opening]), by simp⟩

/-- Behind a header that is derivable the body decides. -/
theorem document_of_body (keyword : Leaf .graph) (name : Leaf .identifier)
    (list : Option AttributeList) (opening : Leaf .openBrace) {inner : List Token}
    (hq : Quoted ⟨keyword.token :: name.token :: (optionalTokens list ++ opening.token :: inner),
      errors, finish⟩) :
    document ⟨keyword.token :: name.token :: (optionalTokens list ++ opening.token :: inner),
        errors, finish⟩ =
      (Document.append
          { graphName := name.text
            graphAttributes := (list.map AttributeList.attributes).getD {} }
          (body ⟨inner, errors, finish⟩).1, (body ⟨inner, errors, finish⟩).2) := by
  have hlist : Quoted ⟨optionalTokens list ++ opening.token :: inner, errors, finish⟩ :=
    hq.mono ⟨[keyword.token, name.token], rfl⟩
  exact document_of_header opening (header_of_attributes keyword name
    (attributes?_complete list (noBracket_openBrace opening inner) hlist))

theorem document_complete (sentence : Sentence)
    (hq : Quoted ⟨sentence.tokens, errors, finish⟩) :
    document ⟨sentence.tokens, errors, finish⟩ = (sentence.document, ⟨[], errors, finish⟩) := by
  obtain ⟨keyword, name, list, opening, statements, closing⟩ := sentence
  have hbody : Quoted
      ⟨statements.flatMap Statement.tokens ++ [closing.token], errors, finish⟩ :=
    hq.mono (suffix_body ..)
  rw [document_eq_append, Sentence.tokens, document_of_body keyword name list opening hq,
    body_complete statements closing hbody]

end NodeLink.Parse
