import NodeLink.Proofs.Document.Grammar

/-! # How far a sentence has come

Brackets do not nest in the grammar, so how a sentence may go on depends on one of finitely many
phases (`Phase`), and the kind of the next token says which phase comes next, or that no sentence
goes on like this (`Phase.step`).  The tokens of every sentence lead from the first phase to the
last one (`run_sentence`), and every phase has a shortest way to the last one
(`run_completion`). -/

namespace NodeLink.Grammar

open NodeLink.Source

/-! ### Phases -/

/-- What an attribute list belongs to. -/
inductive Owner where
  | graph
  | statement
  deriving DecidableEq

/-- What a pair may have as its value. -/
inductive Assigned where
  | string
  | identifier
  | either
  deriving DecidableEq

/-- How far an attribute list has come. -/
inductive ListPhase where
  /-- Behind the opening bracket: a pair or the closing bracket. -/
  | first
  /-- Behind a comma: a pair. -/
  | pair
  /-- Behind a key: the equal sign. -/
  | equal (assigned : Assigned)
  /-- Behind the equal sign: the value. -/
  | value (assigned : Assigned)
  /-- Behind a pair: a comma or the closing bracket. -/
  | next
  deriving DecidableEq

/-- How far a sentence has come. -/
inductive Phase where
  | keyword
  | name
  /-- Behind the name of the graph: its attributes or the opening brace. -/
  | named
  | opening
  /-- A statement or the closing brace. -/
  | statement
  /-- Behind the identifier of a node or the tail of an edge. -/
  | identified
  | head
  /-- Behind the head of an edge: its attributes or what follows the edge. -/
  | joined
  | list (owner : Owner) (phase : ListPhase)
  | finished
  deriving DecidableEq

/-- The kinds of tokens that may be the value of a pair. -/
def Assigned.kinds : Assigned → List TokenKind
  | .string => [.string]
  | .identifier => [.identifier]
  | .either => [.string, .identifier]

/-- The phase behind the key of a pair. -/
def ListPhase.afterKey? : TokenKind → Option ListPhase
  | .bundle => some .next
  | .color => some (.equal .either)
  | .label | .font | .fontSize => some (.equal .string)
  | .lineWidth => some (.equal .identifier)
  | _ => none

/-- The phase behind an attribute list. -/
def Owner.after : Owner → Phase
  | .graph => .opening
  | .statement => .statement

/-- The phase behind one more token of an attribute list. -/
def ListPhase.step (owner : Owner) : ListPhase → TokenKind → Option Phase
  | .first, kind =>
    if kind = .closeBracket then some owner.after
    else (afterKey? kind).map (Phase.list owner)
  | .pair, kind => (afterKey? kind).map (Phase.list owner)
  | .equal assigned, kind =>
    if kind = .equal then some (.list owner (.value assigned)) else none
  | .value assigned, kind =>
    if kind ∈ assigned.kinds then some (.list owner .next) else none
  | .next, kind =>
    match kind with
    | .comma => some (.list owner .pair)
    | .closeBracket => some owner.after
    | _ => none

namespace Phase

/-- The phase behind a token where a statement or the closing brace may stand. -/
def stepStatement? : TokenKind → Option Phase
  | .identifier => some identified
  | .closeBrace => some finished
  | _ => none

/-- The phase behind one more token; absent if no sentence goes on with its kind. -/
def step : Phase → TokenKind → Option Phase
  | keyword, kind => if kind = .graph then some name else none
  | name, kind => if kind = .identifier then some named else none
  | named, kind =>
    match kind with
    | .openBracket => some (list .graph .first)
    | .openBrace => some statement
    | _ => none
  | opening, kind => if kind = .openBrace then some statement else none
  | statement, kind => stepStatement? kind
  | identified, kind =>
    match kind with
    | .undirectedEdge | .directedEdge => some head
    | .openBracket => some (list .statement .first)
    | kind => stepStatement? kind
  | head, kind => if kind = .identifier then some joined else none
  | joined, kind =>
    match kind with
    | .openBracket => some (list .statement .first)
    | kind => stepStatement? kind
  | list owner phase, kind => phase.step owner kind
  | finished, _ => none

/-- The phase behind some tokens. -/
def run (phase : Phase) (tokens : List Token) : Option Phase :=
  tokens.foldlM (fun phase token => phase.step token.kind) phase

@[simp] theorem run_nil (phase : Phase) : phase.run [] = some phase := rfl

@[simp] theorem run_cons (phase : Phase) (token : Token) (tokens : List Token) :
    phase.run (token :: tokens) = (phase.step token.kind).bind fun next => next.run tokens := by
  unfold run
  rw [List.foldlM_cons]
  rfl

@[simp] theorem run_append (phase : Phase) (tokens others : List Token) :
    phase.run (tokens ++ others) = (phase.run tokens).bind fun next => next.run others := by
  unfold run
  rw [List.foldlM_append]
  rfl

end Phase

/-! ### Sentences -/

theorem run_pair (owner : Owner) {phase : ListPhase} (hphase : phase = .first ∨ phase = .pair)
    (pair : Pair) : (Phase.list owner phase).run pair.tokens = some (.list owner .next) := by
  cases pair with
  | bundle key =>
      simp only [Pair.tokens, Phase.run_cons, key.kind_eq]
      rcases hphase with rfl | rfl <;> rfl
  | color key equal value =>
      have hvalue : value.token.kind = .string ∨ value.token.kind = .identifier := by
        cases value with
        | string leaf => exact .inl leaf.kind_eq
        | identifier leaf => exact .inr leaf.kind_eq
      simp only [Pair.tokens, Phase.run_cons, key.kind_eq, equal.kind_eq]
      rcases hvalue with hkind | hkind <;> rw [hkind] <;> rcases hphase with rfl | rfl <;> rfl
  | label key equal value | lineWidth key equal value | font key equal value
  | fontSize key equal value =>
      simp only [Pair.tokens, Phase.run_cons, key.kind_eq, equal.kind_eq, value.kind_eq]
      rcases hphase with rfl | rfl <;> rfl

theorem run_laterTokens (owner : Owner) (later : List (Leaf .comma × Pair)) :
    (Phase.list owner .next).run (laterTokens later) = some (.list owner .next) := by
  induction later with
  | nil => rfl
  | cons entry later ih =>
      obtain ⟨comma, pair⟩ := entry
      have hcomma : (Phase.list owner .next).step comma.token.kind = some (.list owner .pair) := by
        rw [comma.kind_eq]
        rfl
      rw [laterTokens, List.flatMap_cons, List.cons_append, Phase.run_cons, hcomma,
        Option.bind_some, Phase.run_append, run_pair owner (.inr rfl), Option.bind_some]
      exact ih

theorem run_attributeList (owner : Owner) {phase : Phase}
    (hphase : phase.step .openBracket = some (.list owner .first)) (attributes : AttributeList) :
    phase.run attributes.tokens = some owner.after := by
  cases attributes with
  | empty opening closing =>
      simp only [AttributeList.tokens, Phase.run_cons, opening.kind_eq, hphase, Option.bind_some,
        closing.kind_eq]
      rfl
  | pairs opening first later closing =>
      simp only [AttributeList.tokens, Phase.run_cons, opening.kind_eq, hphase, Option.bind_some,
        Phase.run_append, run_pair owner (.inl rfl), run_laterTokens, closing.kind_eq]
      rfl

/-- Before what follows a statement, a phase is as good as that of a statement. -/
def Phase.EndsStatement (phase : Phase) : Prop :=
  phase = .statement ∨ phase = .identified ∨ phase = .joined

theorem Phase.EndsStatement.step_eq {phase : Phase} (h : phase.EndsStatement) {kind : TokenKind}
    (hkind : kind = .identifier ∨ kind = .closeBrace) :
    phase.step kind = stepStatement? kind := by
  rcases h with rfl | rfl | rfl <;> rcases hkind with rfl | rfl <;> rfl

/-- The tokens of a statement lead from the end of one statement to its own end. -/
theorem run_statement {phase : Phase} (hphase : phase.EndsStatement) (statement : Statement) :
    ∃ next : Phase, phase.run statement.tokens = some next ∧ next.EndsStatement := by
  have hidentifier : phase.step .identifier = some .identified :=
    hphase.step_eq (.inl rfl)
  have hlist {phase : Phase} (hphase : phase = .identified ∨ phase = .joined)
      (attributes : Option AttributeList) :
      ∃ next : Phase, phase.run (optionalTokens attributes) = some next ∧ next.EndsStatement := by
    cases attributes with
    | none => exact ⟨phase, rfl, .inr hphase⟩
    | some attributes =>
        refine ⟨.statement, run_attributeList .statement ?_ attributes, .inl rfl⟩
        rcases hphase with rfl | rfl <;> rfl
  cases statement with
  | node identifier attributes =>
      obtain ⟨next, hnext, hends⟩ := hlist (.inl rfl) attributes
      refine ⟨next, ?_, hends⟩
      rwa [Statement.tokens, Phase.run_cons, identifier.kind_eq, hidentifier]
  | edge tail operator head attributes =>
      obtain ⟨next, hnext, hends⟩ := hlist (.inr rfl) attributes
      have hoperator : Phase.identified.step operator.token.kind = some .head := by
        cases operator with
        | undirected leaf | directed leaf => rw [Operator.token, leaf.kind_eq]; rfl
      refine ⟨next, ?_, hends⟩
      rw [Statement.tokens, Phase.run_cons, tail.kind_eq, hidentifier, Option.bind_some,
        Phase.run_cons, hoperator, Option.bind_some, Phase.run_cons, head.kind_eq]
      exact hnext

theorem run_statements (statements : List Statement) {phase : Phase}
    (hphase : phase.EndsStatement) :
    ∃ next : Phase, phase.run (statements.flatMap Statement.tokens) = some next ∧
      next.EndsStatement := by
  induction statements generalizing phase with
  | nil => exact ⟨phase, rfl, hphase⟩
  | cons statement statements ih =>
      obtain ⟨middle, hmiddle, hends⟩ := run_statement hphase statement
      obtain ⟨next, hnext, hends⟩ := ih hends
      refine ⟨next, ?_, hends⟩
      rwa [List.flatMap_cons, Phase.run_append, hmiddle]

/-- **The tokens of a sentence lead from the first phase to the last one.** -/
theorem run_sentence (sentence : Sentence) :
    Phase.keyword.run sentence.tokens = some .finished := by
  obtain ⟨keyword, name, attributes, opening, statements, closing⟩ := sentence
  have hheader : ∃ phase : Phase, Phase.named.run (optionalTokens attributes) = some phase ∧
      phase.step .openBrace = some .statement := by
    cases attributes with
    | none => exact ⟨.named, rfl, rfl⟩
    | some attributes => exact ⟨.opening, run_attributeList .graph rfl attributes, rfl⟩
  obtain ⟨phase, hphase, hopening⟩ := hheader
  obtain ⟨last, hlast, hends⟩ := run_statements statements (.inl rfl)
  have hclosing : last.step .closeBrace = some .finished := hends.step_eq (.inr rfl)
  have hbody : Phase.named.run (optionalTokens attributes ++ opening.token ::
      (statements.flatMap Statement.tokens ++ [closing.token])) = some .finished := by
    simp [hphase, opening.kind_eq, hopening, hlast, closing.kind_eq, hclosing]
  simp only [Sentence.tokens, Phase.run_cons, keyword.kind_eq, name.kind_eq]
  exact hbody

/-! ### Completions -/

/-- The kinds of a shortest way to the end of an attribute list. -/
def ListPhase.completion : ListPhase → List TokenKind
  | .first | .next => [.closeBracket]
  | .pair => [.bundle, .closeBracket]
  | .equal assigned => .equal :: assigned.kinds.take 1 ++ [.closeBracket]
  | .value assigned => assigned.kinds.take 1 ++ [.closeBracket]

/-- The kinds of a shortest way to the end of a sentence. -/
def Phase.completion : Phase → List TokenKind
  | keyword => [.graph, .identifier, .openBrace, .closeBrace]
  | name => [.identifier, .openBrace, .closeBrace]
  | named | opening => [.openBrace, .closeBrace]
  | statement | identified | joined => [.closeBrace]
  | head => [.identifier, .closeBrace]
  | list .graph phase => phase.completion ++ [.openBrace, .closeBrace]
  | list .statement phase => phase.completion ++ [.closeBrace]
  | finished => []

/-- Some token of a kind, a string with its quotes. -/
def sample (kind : TokenKind) : Token :=
  ⟨kind, if kind = .string then "\"\"" else "", default⟩

/-- Every phase has a way to the last one. -/
theorem run_completion (phase : Phase) :
    phase.run (phase.completion.map sample) = some .finished := by
  cases phase with
  | list owner phase => cases owner <;> cases phase with
    | equal assigned | value assigned => cases assigned <;> rfl
    | _ => rfl
  | _ => rfl

end NodeLink.Grammar
