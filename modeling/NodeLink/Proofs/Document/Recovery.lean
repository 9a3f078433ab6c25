import NodeLink.Proofs.Document.Lockstep

/-! # Recovery is local

A source that parses is spoiled in one place: in an attribute list, tokens that no pair starts with
take the place of one pair (`Sentence.Spoiled`), or tokens that can belong to no declaration stand
between two statements (`Sentence.Interrupted`).  Either way there is one syntax error and nothing
else is lost: of the list just that pair is missing, and of the body nothing
(`parseTokens_spoiled`).

What cannot be read is skipped up to the next token that can end it, and it holds no such token
itself.  So the reading goes on right behind it, with one error more, and from there on along the
derivation tree as if nothing had happened (`entries_unpaired`, `body_stray`). -/

namespace NodeLink

open NodeLink.Source

namespace Grammar

/-! ### Spoiled sentences -/

/-- Tokens that no pair starts with, none of which ends a pair. -/
structure Unpaired (garbage : List Token) : Prop where
  ne_nil : garbage ≠ []
  noStop : ∀ token ∈ garbage, token.kind ∉ [.comma, .closeBracket, .closeBrace]
  noPair : ∀ pair : Pair, ¬ pair.tokens <+: garbage

/-- Tokens that no declaration starts with and that do not go on with one before them. -/
structure Stray (garbage : List Token) : Prop where
  ne_nil : garbage ≠ []
  noStop : ∀ token ∈ garbage, token.kind ∉ [.identifier, .closeBrace]
  detached : ∀ token ∈ garbage.head?, token.kind ∉ [.openBracket, .undirectedEdge, .directedEdge]

/-- The tokens of an attribute list with `garbage` in the place of one pair, and the list without
this pair.  With the first pair goes the comma behind it, with any other the comma before it. -/
inductive AttributeList.Spoiled (garbage : List Token) :
    AttributeList → List Token → AttributeList → Prop
  | only (opening : Leaf .openBracket) (pair : Pair) (closing : Leaf .closeBracket) :
      Spoiled garbage (.pairs opening pair [] closing)
        (opening.token :: (garbage ++ [closing.token])) (.empty opening closing)
  | first (opening : Leaf .openBracket) (pair : Pair) (comma : Leaf .comma) (second : Pair)
      (later : List (Leaf .comma × Pair)) (closing : Leaf .closeBracket) :
      Spoiled garbage (.pairs opening pair ((comma, second) :: later) closing)
        (opening.token :: (garbage ++ laterTokens ((comma, second) :: later) ++ [closing.token]))
        (.pairs opening second later closing)
  | later (opening : Leaf .openBracket) (first : Pair) (before : List (Leaf .comma × Pair))
      (comma : Leaf .comma) (pair : Pair) (after : List (Leaf .comma × Pair))
      (closing : Leaf .closeBracket) :
      Spoiled garbage (.pairs opening first (before ++ (comma, pair) :: after) closing)
        (opening.token :: (first.tokens ++ laterTokens before ++
          comma.token :: (garbage ++ laterTokens after ++ [closing.token])))
        (.pairs opening first (before ++ after) closing)

/-- A statement whose attribute list is spoiled. -/
inductive Statement.Spoiled (garbage : List Token) : Statement → List Token → Statement → Prop
  | node (identifier : Leaf .identifier) {list remaining : AttributeList} {tokens : List Token}
      (h : list.Spoiled garbage tokens remaining) :
      Spoiled garbage (.node identifier (some list)) (identifier.token :: tokens)
        (.node identifier (some remaining))
  | edge (tail : Leaf .identifier) (operator : Operator) (head : Leaf .identifier)
      {list remaining : AttributeList} {tokens : List Token}
      (h : list.Spoiled garbage tokens remaining) :
      Spoiled garbage (.edge tail operator head (some list))
        (tail.token :: operator.token :: head.token :: tokens)
        (.edge tail operator head (some remaining))

/-- A sentence one of whose attribute lists is spoiled, be it that of the graph or that of a
statement. -/
inductive Sentence.Spoiled (garbage : List Token) : Sentence → List Token → Sentence → Prop
  | graph (sentence : Sentence) {list remaining : AttributeList} {tokens : List Token}
      (hlist : sentence.attributes = some list) (h : list.Spoiled garbage tokens remaining) :
      Spoiled garbage sentence
        (sentence.keyword.token :: sentence.name.token :: (tokens ++ sentence.opening.token ::
          (sentence.statements.flatMap Statement.tokens ++ [sentence.closing.token])))
        { sentence with attributes := some remaining }
  | statement (sentence : Sentence) (before after : List Statement)
      {statement remaining : Statement} {tokens : List Token}
      (hstatements : sentence.statements = before ++ statement :: after)
      (h : statement.Spoiled garbage tokens remaining) :
      Spoiled garbage sentence
        (sentence.keyword.token :: sentence.name.token :: (optionalTokens sentence.attributes ++
          sentence.opening.token :: (before.flatMap Statement.tokens ++
            (tokens ++ (after.flatMap Statement.tokens ++ [sentence.closing.token])))))
        { sentence with statements := before ++ remaining :: after }

/-- The tokens of a sentence with `garbage` in its body, before a statement or before the closing
brace. -/
inductive Sentence.Interrupted (garbage : List Token) : Sentence → List Token → Prop
  | body (sentence : Sentence) (before after : List Statement)
      (hstatements : sentence.statements = before ++ after) :
      Interrupted garbage sentence
        (sentence.keyword.token :: sentence.name.token :: (optionalTokens sentence.attributes ++
          sentence.opening.token :: (before.flatMap Statement.tokens ++
            (garbage ++ (after.flatMap Statement.tokens ++ [sentence.closing.token])))))

end Grammar

namespace Parse

open NodeLink.Grammar (Leaf Pair AttributeList Statement Sentence laterTokens Unpaired Stray)
open State

variable {garbage rest tokens : List Token} {errors : List SyntaxError} {finish : Site}

/-! ### Skipping -/

theorem skipUntil_append {read : List Token} {stops : List TokenKind}
    (hread : ∀ token ∈ read, token.kind ∉ stops) :
    State.skipUntil ⟨read ++ rest, errors, finish⟩ stops =
      State.skipUntil ⟨rest, errors, finish⟩ stops := by
  have hpass : ∀ token ∈ read, (!stops.contains token.kind) = true := by simpa using hread
  simp only [State.skipUntil, List.dropWhile_append_of_pos hpass]

theorem skipUntil_stop {stop : Token} {stops : List TokenKind}
    (hgarbage : ∀ token ∈ garbage, token.kind ∉ stops) (hstop : stop.kind ∈ stops) :
    State.skipUntil ⟨garbage ++ stop :: rest, errors, finish⟩ stops =
      ⟨stop :: rest, errors, finish⟩ := by
  rw [skipUntil_append hgarbage]
  simp [State.skipUntil, hstop]

theorem fail_first (rest : List Token) (finish : Site) (expected : Expectation) :
    State.fail ⟨rest, [], finish⟩ expected =
      ⟨rest, [State.problem ⟨rest, [], finish⟩ expected], finish⟩ := rfl

/-- A first failure leaves one error, and the reading goes on as from before it. -/
theorem FailsBehind.exists_error {t : State}
    (h : FailsBehind ⟨tokens, [], finish⟩ t) :
    ∃ error, t.skipUntil entryStops = State.skipUntil ⟨tokens, [error], finish⟩ entryStops := by
  obtain ⟨read, later, expected, rfl, hread, rfl⟩ := h
  refine ⟨State.problem ⟨later, [], finish⟩ expected, ?_⟩
  rw [fail_first, skipUntil_append hread]

/-! ### Attribute lists -/

theorem pair_noStop (pair : Pair) : ∀ token ∈ pair.tokens, token.kind ∉ entryStops := by
  cases pair with
  | bundle key => simp [Pair.tokens, key.kind_eq, entryStops]
  | color key equal value =>
      cases value <;> simp [Pair.tokens, Grammar.Value.token, Leaf.kind_eq, entryStops]
  | label key equal value => simp [Pair.tokens, Leaf.kind_eq, entryStops]
  | lineWidth key equal value => simp [Pair.tokens, Leaf.kind_eq, entryStops]
  | font key equal value => simp [Pair.tokens, Leaf.kind_eq, entryStops]
  | fontSize key equal value => simp [Pair.tokens, Leaf.kind_eq, entryStops]

theorem pair_before_stop {pair : Pair} {stop : Token} (hstop : stop.kind ∈ entryStops)
    (h : pair.tokens <+: garbage ++ stop :: rest) : pair.tokens <+: garbage := by
  rcases List.prefix_or_prefix_of_prefix h (List.prefix_append garbage _) with hpair | ⟨more, hmore⟩
  · exact hpair
  · cases more with
    | nil => exact ⟨[], by simpa using hmore.symm⟩
    | cons token more =>
        rw [← hmore, List.prefix_append_right_inj, List.cons_prefix_cons] at h
        have hmem : stop ∈ pair.tokens := by simp [← hmore, h.1]
        exact absurd hstop (pair_noStop pair stop hmem)

/-- Tokens that no pair starts with are skipped, at the cost of one error. -/
theorem entryOrSkip_unpaired (h : Unpaired garbage) {stop : Token} (hstop : stop.kind ∈ entryStops)
    (hq : Quoted ⟨garbage ++ stop :: rest, [], finish⟩) :
    ∃ error, entryOrSkip ⟨garbage ++ stop :: rest, [], finish⟩ =
      (none, ⟨stop :: rest, [error], finish⟩) := by
  cases hentry : entry ⟨garbage ++ stop :: rest, [], finish⟩ with
  | mk found t =>
      cases found with
      | none =>
          obtain ⟨error, hskip⟩ := (entry_none hentry).exists_error
          have hstopped : State.skipUntil ⟨garbage ++ stop :: rest, [error], finish⟩ entryStops =
              ⟨stop :: rest, [error], finish⟩ := skipUntil_stop h.noStop hstop
          exact ⟨error, by simp only [entryOrSkip, hentry, hskip, hstopped]⟩
      | some found =>
          obtain ⟨pair, -, hpair⟩ := entry_sound hq hentry
          exact absurd (pair_before_stop hstop ⟨t.rest, hpair.symm⟩) (h.noPair pair)

/-- A list that starts with what is no pair keeps all entries behind it. -/
theorem entries_unpaired (h : Unpaired garbage) (later : List (Leaf .comma × Pair))
    (closing : Leaf .closeBracket)
    (hq : Quoted ⟨garbage ++ (laterTokens later ++ closing.token :: rest), [], finish⟩) :
    ∃ error, entries ⟨garbage ++ (laterTokens later ++ closing.token :: rest), [], finish⟩ =
      (later.map (fun (_, pair) => pair.entry), ⟨rest, [error], finish⟩) := by
  cases later with
  | nil =>
      have htokens : laterTokens [] ++ closing.token :: rest = closing.token :: rest := rfl
      have hstop : closing.token.kind ∈ entryStops := by simp [closing.kind_eq, entryStops]
      rw [htokens] at hq ⊢
      obtain ⟨error, hskip⟩ := entryOrSkip_unpaired h hstop hq
      refine ⟨error, ?_⟩
      rw [entries_of_finished (by rw [hskip]; exact afterEntry_closing closing), hskip]
      rfl
  | cons second later =>
      obtain ⟨comma, second⟩ := second
      have hstop : comma.token.kind ∈ entryStops := by simp [comma.kind_eq, entryStops]
      rw [laterTokens_cons, List.cons_append, List.append_assoc] at hq ⊢
      obtain ⟨error, hskip⟩ := entryOrSkip_unpaired h hstop hq
      have hlater : Quoted
          ⟨second.tokens ++ (laterTokens later ++ closing.token :: rest), [error], finish⟩ :=
        hq.mono ((List.suffix_cons _ _).trans (List.suffix_append _ _))
      refine ⟨error, ?_⟩
      rw [entries_of_another (by rw [hskip]; exact afterEntry_comma comma), hskip,
        entries_complete second later closing hlater]
      rfl

/-- A list with what is no pair behind some entries keeps these entries and those behind it. -/
theorem entries_spoiled (h : Unpaired garbage) (first : Pair) (before : List (Leaf .comma × Pair))
    (comma : Leaf .comma) (after : List (Leaf .comma × Pair)) (closing : Leaf .closeBracket)
    (hq : Quoted ⟨first.tokens ++ (laterTokens before ++
      comma.token :: (garbage ++ (laterTokens after ++ closing.token :: rest))), [], finish⟩) :
    ∃ error, entries ⟨first.tokens ++ (laterTokens before ++
        comma.token :: (garbage ++ (laterTokens after ++ closing.token :: rest))), [], finish⟩ =
      (first.entry :: (before ++ after).map (fun (_, pair) => pair.entry),
        ⟨rest, [error], finish⟩) := by
  induction before generalizing first with
  | nil =>
      have htokens (tokens : List Token) : laterTokens [] ++ tokens = tokens := rfl
      rw [htokens] at hq ⊢
      obtain ⟨error, hlater⟩ := entries_unpaired h after closing
        (hq.mono ((List.suffix_cons _ _).trans (List.suffix_append _ _)))
      refine ⟨error, ?_⟩
      rw [entries_cons first comma hq, hlater]
      rfl
  | cons second before ih =>
      obtain ⟨comma', second⟩ := second
      rw [laterTokens_cons, List.cons_append, List.append_assoc] at hq ⊢
      obtain ⟨error, hlater⟩ := ih second
        (hq.mono ((List.suffix_cons _ _).trans (List.suffix_append _ _)))
      refine ⟨error, ?_⟩
      rw [entries_cons first comma' hq, hlater]
      rfl

theorem exists_openBracket_spoiled {list remaining : AttributeList}
    (hlist : list.Spoiled garbage tokens remaining) :
    ∃ (opening : Leaf .openBracket) (later : List Token), tokens = opening.token :: later := by
  cases hlist with
  | only opening pair closing => exact ⟨opening, _, rfl⟩
  | first opening pair comma second later closing => exact ⟨opening, _, rfl⟩
  | later opening first before comma pair after closing => exact ⟨opening, _, rfl⟩

/-- A spoiled list loses the pair that is spoiled, and costs one error. -/
theorem attributes_spoiled (h : Unpaired garbage) {list remaining : AttributeList}
    (hlist : list.Spoiled garbage tokens remaining) (hq : Quoted ⟨tokens ++ rest, [], finish⟩) :
    ∃ error, attributes ⟨tokens ++ rest, [], finish⟩ =
      (remaining.attributes, ⟨rest, [error], finish⟩) := by
  have hgarbage (later : List Token) :
      ∀ token ∈ (garbage ++ later).head?, token.kind ≠ .closeBracket := by
    intro token htoken hkind
    rw [List.head?_append_of_ne_nil _ h.ne_nil] at htoken
    exact h.noStop token (List.mem_of_mem_head? htoken) (by simp [hkind])
  cases hlist with
  | only opening pair closing =>
      simp only [List.cons_append, List.append_assoc, List.nil_append] at hq ⊢
      obtain ⟨error, hentries⟩ := entries_unpaired h [] closing (hq.mono (List.suffix_cons _ _))
      have hentries' : entries ⟨garbage ++ closing.token :: rest, [], finish⟩ =
          ([], ⟨rest, [error], finish⟩) := hentries
      exact ⟨error, by rw [attributes_of_entries opening (hgarbage _), hentries']; rfl⟩
  | first opening pair comma second later closing =>
      simp only [List.cons_append, List.append_assoc, List.nil_append] at hq ⊢
      obtain ⟨error, hentries⟩ := entries_unpaired h ((comma, second) :: later) closing
        (hq.mono (List.suffix_cons _ _))
      exact ⟨error, by rw [attributes_of_entries opening (hgarbage _), hentries]; rfl⟩
  | later opening first before comma pair after closing =>
      simp only [List.cons_append, List.append_assoc, List.nil_append] at hq ⊢
      obtain ⟨error, hentries⟩ := entries_spoiled h first before comma after closing
        (hq.mono (List.suffix_cons _ _))
      exact ⟨error, by rw [attributes_of_entries opening (head?_pair first _), hentries]; rfl⟩

theorem attributes?_spoiled (h : Unpaired garbage) {list remaining : AttributeList}
    (hlist : list.Spoiled garbage tokens remaining) (hq : Quoted ⟨tokens ++ rest, [], finish⟩) :
    ∃ error, attributes? ⟨tokens ++ rest, [], finish⟩ =
      (some remaining.attributes, ⟨rest, [error], finish⟩) := by
  obtain ⟨error, hattributes⟩ := attributes_spoiled h hlist hq
  obtain ⟨opening, later, rfl⟩ := exists_openBracket_spoiled hlist
  refine ⟨error, ?_⟩
  rw [List.cons_append] at hattributes ⊢
  rw [attributes?_of_opening, hattributes]

/-! ### Declarations and bodies -/

theorem declaration_spoiled (h : Unpaired garbage) {statement remaining : Statement}
    (hstatement : statement.Spoiled garbage tokens remaining)
    (hq : Quoted ⟨tokens ++ rest, [], finish⟩) :
    ∃ (identifier : Leaf .identifier) (later : List Token) (error : SyntaxError),
      tokens ++ rest = identifier.token :: later ∧
      declaration identifier.token ⟨later, [], finish⟩ =
        (declarationOf remaining, ⟨rest, [error], finish⟩) := by
  cases hstatement with
  | node identifier hlist =>
      obtain ⟨error, hattributes⟩ := attributes?_spoiled h hlist (hq.mono (List.suffix_cons _ _))
      obtain ⟨opening, later, rfl⟩ := exists_openBracket_spoiled hlist
      exact ⟨identifier, _, error, rfl,
        declaration_of_node identifier (noOperator_openBracket opening _) hattributes⟩
  | edge tail operator head hlist =>
      obtain ⟨error, hattributes⟩ := attributes?_spoiled h hlist
        (hq.mono ⟨[tail.token, operator.token, head.token], rfl⟩)
      exact ⟨tail, _, error, rfl, declaration_of_edge tail operator head hattributes⟩

theorem declarationsOf_append (before after : List Statement) :
    declarationsOf (before ++ after) = declarationsOf before ++ declarationsOf after :=
  List.flatMap_append

theorem body_spoiled (h : Unpaired garbage) (before : List Statement)
    {statement remaining : Statement} (after : List Statement) (closing : Leaf .closeBrace)
    (hstatement : statement.Spoiled garbage tokens remaining)
    (hq : Quoted ⟨before.flatMap Statement.tokens ++
      (tokens ++ (after.flatMap Statement.tokens ++ [closing.token])), [], finish⟩) :
    ∃ error, body ⟨before.flatMap Statement.tokens ++
        (tokens ++ (after.flatMap Statement.tokens ++ [closing.token])), [], finish⟩ =
      (declarationsOf (before ++ remaining :: after), ⟨[], [error], finish⟩) := by
  have hspoiled : Quoted ⟨tokens ++ (after.flatMap Statement.tokens ++ [closing.token]), [],
    finish⟩ := hq.mono (List.suffix_append _ _)
  obtain ⟨identifier, later, error, htokens, hdeclaration⟩ :=
    declaration_spoiled h hstatement hspoiled
  have hdetached : AfterStatement (tokens ++ (after.flatMap Statement.tokens ++ [closing.token])) :=
    ⟨identifier.token, later, htokens, .inl identifier.kind_eq⟩
  have hafter : Quoted ⟨after.flatMap Statement.tokens ++ [closing.token], [error], finish⟩ :=
    hspoiled.mono (List.suffix_append _ _)
  refine ⟨error, ?_⟩
  rw [body_statements before hdetached.detached hq, htokens,
    body_of_identifier rfl identifier.kind_eq, skip_cons, hdeclaration,
    body_complete after closing hafter, declarationsOf_append]
  rfl

/-- Stray tokens are skipped up to where a statement may go on, at the cost of one error. -/
theorem body_stray (h : Stray garbage) (hrest : AfterStatement rest) :
    ∃ error, body ⟨garbage ++ rest, [], finish⟩ = body ⟨rest, [error], finish⟩ := by
  obtain ⟨token, others, rfl⟩ := List.exists_cons_of_ne_nil h.ne_nil
  obtain ⟨hother, hothers⟩ := List.forall_mem_cons.mp h.noStop
  have hclosing : token.kind ≠ .closeBrace := fun hk => hother (by simp [hk])
  have hidentifier : token.kind ≠ .identifier := fun hk => hother (by simp [hk])
  have hskip (error : SyntaxError) :
      State.skipUntil ⟨others ++ rest, [error], finish⟩ declarationStops =
        ⟨rest, [error], finish⟩ := by
    obtain ⟨stop, later, rfl, hkind⟩ := hrest
    have hstop : stop.kind ∈ declarationStops := by
      rcases hkind with hkind | hkind <;> simp [hkind, declarationStops]
    exact skipUntil_stop hothers hstop
  rw [List.cons_append, body_of_other rfl hclosing hidentifier, fail_first, skip_cons, hskip]
  exact ⟨_, rfl⟩

theorem body_interrupted (h : Stray garbage) (before after : List Statement)
    (closing : Leaf .closeBrace)
    (hq : Quoted ⟨before.flatMap Statement.tokens ++
      (garbage ++ (after.flatMap Statement.tokens ++ [closing.token])), [], finish⟩) :
    ∃ error, body ⟨before.flatMap Statement.tokens ++
        (garbage ++ (after.flatMap Statement.tokens ++ [closing.token])), [], finish⟩ =
      (declarationsOf (before ++ after), ⟨[], [error], finish⟩) := by
  have hdetached : Detached (garbage ++ (after.flatMap Statement.tokens ++ [closing.token])) := by
    intro token htoken
    rw [List.head?_append_of_ne_nil _ h.ne_nil] at htoken
    exact h.detached token htoken
  obtain ⟨error, hstray⟩ := body_stray h
    (afterStatement_statements after (afterStatement_closing closing))
  have hafter : Quoted ⟨after.flatMap Statement.tokens ++ [closing.token], [error], finish⟩ :=
    hq.mono ((List.suffix_append _ _).trans (List.suffix_append _ _))
  refine ⟨error, ?_⟩
  rw [body_statements before hdetached hq, hstray, body_complete after closing hafter,
    declarationsOf_append]

/-! ### Documents -/

theorem document_spoiled (h : Unpaired garbage) {sentence remaining : Sentence}
    (hsentence : sentence.Spoiled garbage tokens remaining) (hq : Quoted ⟨tokens, [], finish⟩) :
    ∃ error, document ⟨tokens, [], finish⟩ = (remaining.document, ⟨[], [error], finish⟩) := by
  cases hsentence with
  | graph hlist hspoiled =>
      rename_i list remaining tokens
      have hinner : Quoted ⟨tokens ++ sentence.opening.token ::
          (sentence.statements.flatMap Statement.tokens ++ [sentence.closing.token]), [], finish⟩ :=
        hq.mono ⟨[sentence.keyword.token, sentence.name.token], rfl⟩
      obtain ⟨error, hattributes⟩ := attributes?_spoiled h hspoiled hinner
      have hbody : Quoted ⟨sentence.statements.flatMap Statement.tokens ++
          [sentence.closing.token], [error], finish⟩ :=
        hq.mono (suffix_body ..)
      refine ⟨error, ?_⟩
      rw [document_eq_append, document_of_header sentence.opening
          (header_of_attributes sentence.keyword sentence.name hattributes),
        body_complete sentence.statements sentence.closing hbody]
      rfl
  | statement before after hstatements hspoiled =>
      obtain ⟨error, hbody⟩ := body_spoiled h before after sentence.closing hspoiled
        (hq.mono (suffix_body ..))
      refine ⟨error, ?_⟩
      rw [document_eq_append, document_of_body sentence.keyword sentence.name sentence.attributes
        sentence.opening hq, hbody]

theorem document_interrupted (h : Stray garbage) {sentence : Sentence}
    (hsentence : sentence.Interrupted garbage tokens) (hq : Quoted ⟨tokens, [], finish⟩) :
    ∃ error, document ⟨tokens, [], finish⟩ = (sentence.document, ⟨[], [error], finish⟩) := by
  cases hsentence with
  | body before after hstatements =>
      obtain ⟨error, hbody⟩ := body_interrupted h before after sentence.closing
        (hq.mono (suffix_body ..))
      refine ⟨error, ?_⟩
      rw [document_eq_append, document_of_body sentence.keyword sentence.name sentence.attributes
        sentence.opening hq, hbody, hstatements]

end Parse

/-! ### Sources -/

open NodeLink.Grammar (Pair Sentence Unpaired Stray)

theorem Source.ProperQuotes.of_gist {a b : Token} (h : a.gist = b.gist)
    (hq : ProperQuotes a.kind a.text.toList) : ProperQuotes b.kind b.text.toList := by
  have hkind := kind_of_gist h
  refine ⟨fun hstring => ?_, fun hidentifier => ?_⟩
  · rw [← text_of_gist h (.inr (hkind.trans hstring))]
    exact hq.string (hkind.trans hstring)
  · rw [← text_of_gist h (.inl (hkind.trans hidentifier))]
    exact hq.identifier (hkind.trans hidentifier)

/-- A source that parses has the document of every sentence that says the same, places aside. -/
theorem unplaced_of_parse {source : String} {document : Document} {sentence : Sentence}
    (hparse : parse source = .ok document)
    (hsource : (tokenize source).tokens.map Token.gist = sentence.tokens.map Token.gist) :
    document.unplaced = sentence.document.unplaced := by
  have hparsed : (Parse.document ⟨(tokenize source).tokens, [], Site.atEnd source⟩).1 = document :=
    congrArg Prod.fst (parse_eq_ok_iff.mp hparse).2
  have hq : Parse.Quoted ⟨sentence.tokens, [], Site.atEnd source⟩ := by
    intro token htoken
    have hgist : token.gist ∈ (tokenize source).tokens.map Token.gist := by
      rw [hsource]
      exact List.mem_map_of_mem htoken
    obtain ⟨other, hother, hsame⟩ := List.mem_map.mp hgist
    exact (properQuotes_of_mem_tokenize hother).of_gist hsame
  calc document.unplaced
      = (Parse.document ⟨(tokenize source).tokens, [], Site.atEnd source⟩).1.unplaced := by
        rw [hparsed]
    _ = (Parse.document ⟨sentence.tokens, [], Site.atEnd source⟩).1.unplaced :=
        Parse.document_unplaced hsource
    _ = sentence.document.unplaced := by rw [Parse.document_complete sentence hq]

/-- **Recovery is local.**  Let a source parse and a sentence say what it says, so that the document
of the source is that of the sentence, places aside.  Another source may have the tokens of this
sentence but for one place.  Where tokens that are no pair stand for one pair of an attribute list,
there is one syntax error and the document lacks just this pair.  Where stray tokens stand before a
statement or before the closing brace, there is one syntax error and the document lacks nothing. -/
theorem parseTokens_spoiled {source : String} {document : Document} {sentence : Sentence}
    (hparse : parse source = .ok document)
    (hsource : (tokenize source).tokens.map Token.gist = sentence.tokens.map Token.gist)
    (damaged : String) (garbage : List Token) :
    document.unplaced = sentence.document.unplaced ∧
    (∀ remaining, Unpaired garbage →
      sentence.Spoiled garbage (tokenize damaged).tokens remaining →
      ∃ error, parseTokens damaged (tokenize damaged).tokens = (remaining.document, [error])) ∧
    (Stray garbage → sentence.Interrupted garbage (tokenize damaged).tokens →
      ∃ error, parseTokens damaged (tokenize damaged).tokens = (sentence.document, [error])) := by
  have hq : Parse.Quoted ⟨(tokenize damaged).tokens, [], Site.atEnd damaged⟩ :=
    fun token h => properQuotes_of_mem_tokenize h
  refine ⟨unplaced_of_parse hparse hsource, fun remaining hgarbage hspoiled => ?_,
    fun hgarbage hinterrupted => ?_⟩
  · obtain ⟨error, hdocument⟩ := Parse.document_spoiled hgarbage hspoiled hq
    exact ⟨error, by simp [parseTokens, hdocument]⟩
  · obtain ⟨error, hdocument⟩ := Parse.document_interrupted hgarbage hinterrupted hq
    exact ⟨error, by simp [parseTokens, hdocument]⟩

/-- A graph with one red node whose tokens cover some bytes of a single line. -/
def redNode (bounds : List (ℕ × ℕ)) : Sentence :=
  let site (i : ℕ) : Site :=
    let (start, stop) := bounds.getD i (0, 0)
    ⟨⟨start, stop⟩, ⟨1, start + 1⟩⟩
  { keyword := ⟨⟨.graph, "graph", site 0⟩, rfl⟩
    name := ⟨⟨.identifier, "g", site 1⟩, rfl⟩
    attributes := none
    opening := ⟨⟨.openBrace, "\x7b", site 2⟩, rfl⟩
    statements := [.node ⟨⟨.identifier, "A", site 3⟩, rfl⟩
      (some (.pairs ⟨⟨.openBracket, "[", site 4⟩, rfl⟩
        (.color ⟨⟨.color, "color", site 5⟩, rfl⟩ ⟨⟨.equal, "=", site 6⟩, rfl⟩
          (.identifier ⟨⟨.identifier, "red", site 7⟩, rfl⟩))
        [] ⟨⟨.closeBracket, "]", site 8⟩, rfl⟩))]
    closing := ⟨⟨.closeBrace, "\x7d", site 9⟩, rfl⟩ }

/-- A key and an equal sign, but no value. -/
def valueless : List Token :=
  [⟨.color, "color", ⟨⟨10, 15⟩, ⟨1, 11⟩⟩⟩, ⟨.equal, "=", ⟨⟨15, 16⟩, ⟨1, 16⟩⟩⟩]

theorem unpaired_valueless : Unpaired valueless := by
  refine ⟨by simp [valueless], by simp [valueless], fun pair hpair => ?_⟩
  have hlength := hpair.length_le
  cases pair with
  | bundle key =>
      have hkey := (List.cons_prefix_cons.mp hpair).1
      have hkind := key.kind_eq
      simp [hkey] at hkind
  | _ => simp [Pair.tokens, valueless] at hlength

/-- An equal sign in the body. -/
def strayEqual : List Token :=
  [⟨.equal, "=", ⟨⟨8, 9⟩, ⟨1, 9⟩⟩⟩]

theorem stray_strayEqual : Stray strayEqual :=
  ⟨by simp [strayEqual], by simp [strayEqual], by simp [strayEqual]⟩

/-- A red node that loses its color, and one behind an equal sign that does not belong there. -/
theorem spoiled_redNode :
    parse "graph g\x7bA[color=red]\x7d" = .ok
        { graphName := "g"
          nodeDeclarations := [⟨"A", ⟨1, 9⟩, some { color := some "red" }⟩] } ∧
      (∃ error, parseTokens "graph g\x7bA[color=]\x7d"
          (tokenize "graph g\x7bA[color=]\x7d").tokens =
        ({ graphName := "g", nodeDeclarations := [⟨"A", ⟨1, 9⟩, some {}⟩] }, [error])) ∧
      ∃ error, parseTokens "graph g\x7b=A[color=red]\x7d"
          (tokenize "graph g\x7b=A[color=red]\x7d").tokens =
        ({ graphName := "g"
           nodeDeclarations := [⟨"A", ⟨1, 10⟩, some { color := some "red" }⟩] }, [error]) := by
  have hparse : parse "graph g\x7bA[color=red]\x7d" = .ok
      { graphName := "g"
        nodeDeclarations := [⟨"A", ⟨1, 9⟩, some { color := some "red" }⟩] } :=
    parse_eq_ok_iff.mpr ⟨by decide +kernel, by decide +kernel⟩
  have hsource (bounds : List (ℕ × ℕ)) :
      (tokenize "graph g\x7bA[color=red]\x7d").tokens.map Token.gist =
        (redNode bounds).tokens.map Token.gist := by
    have hgists : (tokenize "graph g\x7bA[color=red]\x7d").tokens.map Token.gist =
        [(.graph, none), (.identifier, some "g"), (.openBrace, none), (.identifier, some "A"),
          (.openBracket, none), (.color, none), (.equal, none), (.identifier, some "red"),
          (.closeBracket, none), (.closeBrace, none)] := by
      decide +kernel
    rw [hgists]
    rfl
  refine ⟨hparse, ?_, ?_⟩
  · have hdamaged : (tokenize "graph g\x7bA[color=]\x7d").tokens =
        [⟨.graph, "graph", ⟨⟨0, 5⟩, ⟨1, 1⟩⟩⟩, ⟨.identifier, "g", ⟨⟨6, 7⟩, ⟨1, 7⟩⟩⟩,
          ⟨.openBrace, "\x7b", ⟨⟨7, 8⟩, ⟨1, 8⟩⟩⟩, ⟨.identifier, "A", ⟨⟨8, 9⟩, ⟨1, 9⟩⟩⟩,
          ⟨.openBracket, "[", ⟨⟨9, 10⟩, ⟨1, 10⟩⟩⟩, ⟨.color, "color", ⟨⟨10, 15⟩, ⟨1, 11⟩⟩⟩,
          ⟨.equal, "=", ⟨⟨15, 16⟩, ⟨1, 16⟩⟩⟩, ⟨.closeBracket, "]", ⟨⟨16, 17⟩, ⟨1, 17⟩⟩⟩,
          ⟨.closeBrace, "\x7d", ⟨⟨17, 18⟩, ⟨1, 18⟩⟩⟩] := by
      decide +kernel
    have hspoiled : (redNode [(0, 5), (6, 7), (7, 8), (8, 9), (9, 10), (10, 15), (15, 16), (16, 16),
        (16, 17), (17, 18)]).Spoiled valueless _ _ :=
      .statement _ [] [] rfl (.node _ (.only _ _ _))
    exact (parseTokens_spoiled hparse (hsource _) _ _).2.1 _ unpaired_valueless
      (hdamaged ▸ hspoiled)
  · have hdamaged : (tokenize "graph g\x7b=A[color=red]\x7d").tokens =
        [⟨.graph, "graph", ⟨⟨0, 5⟩, ⟨1, 1⟩⟩⟩, ⟨.identifier, "g", ⟨⟨6, 7⟩, ⟨1, 7⟩⟩⟩,
          ⟨.openBrace, "\x7b", ⟨⟨7, 8⟩, ⟨1, 8⟩⟩⟩, ⟨.equal, "=", ⟨⟨8, 9⟩, ⟨1, 9⟩⟩⟩,
          ⟨.identifier, "A", ⟨⟨9, 10⟩, ⟨1, 10⟩⟩⟩, ⟨.openBracket, "[", ⟨⟨10, 11⟩, ⟨1, 11⟩⟩⟩,
          ⟨.color, "color", ⟨⟨11, 16⟩, ⟨1, 12⟩⟩⟩, ⟨.equal, "=", ⟨⟨16, 17⟩, ⟨1, 17⟩⟩⟩,
          ⟨.identifier, "red", ⟨⟨17, 20⟩, ⟨1, 18⟩⟩⟩, ⟨.closeBracket, "]", ⟨⟨20, 21⟩, ⟨1, 21⟩⟩⟩,
          ⟨.closeBrace, "\x7d", ⟨⟨21, 22⟩, ⟨1, 22⟩⟩⟩] := by
      decide +kernel
    have hinterrupted : (redNode [(0, 5), (6, 7), (7, 8), (9, 10), (10, 11), (11, 16), (16, 17),
        (17, 20), (20, 21), (21, 22)]).Interrupted strayEqual _ :=
      .body _ [] _ rfl
    exact (parseTokens_spoiled hparse (hsource _) _ _).2.2 stray_strayEqual
      (hdamaged ▸ hinterrupted)

end NodeLink
