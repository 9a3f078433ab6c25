import NodeLink.Proofs.Document.Completeness
import NodeLink.Proofs.Document.Cursor

/-! # The turns of the parser

Nothing bounds the two loops of the parser that keeps a cursor.  They end because a loop is entered
over a token, the opening brace or an opening bracket, and every turn after which it goes on takes
the cursor further, be the declaration or the entry read, skipped, or read once more as a node
(`covered_turn`).  So the turns of a run and the loops that still run are together no more than the
tokens that the cursor has moved over (`covered_turns`), and a run is over after as many turns as
there are tokens, at the latest.  Then it has read what is read from the list of the tokens
(`document_leads`). -/

namespace NodeLink.Parse

open NodeLink.Source

variable {input : Input}

/-! ### Turns -/

/-- A number of turns, one after another. -/
inductive Turns (input : Input) : Nat → Parsing → Parsing → Prop where
  | refl (p : Parsing) : Turns input 0 p p
  | turn {n : Nat} {p next final : Parsing} (h : p.turn? input = some next)
      (hrest : Turns input n next final) : Turns input (n + 1) p final

theorem Turns.trans {m n : Nat} {p next final : Parsing} (h : Turns input m p next)
    (hrest : Turns input n next final) : Turns input (m + n) p final := by
  induction h with
  | refl p => rwa [Nat.zero_add]
  | turn h _ ih =>
    rw [Nat.succ_add]
    exact .turn h (ih hrest)

/-- Some number of turns. -/
def Leads (input : Input) (p final : Parsing) : Prop := ∃ n, Turns input n p final

theorem Leads.refl (p : Parsing) : Leads input p p := ⟨0, .refl p⟩

theorem Leads.turn {p next final : Parsing} (h : p.turn? input = some next)
    (hrest : Leads input next final) : Leads input p final := by
  obtain ⟨n, hturns⟩ := hrest
  exact ⟨n + 1, .turn h hturns⟩

theorem Leads.trans {p next final : Parsing} (h : Leads input p next)
    (hrest : Leads input next final) : Leads input p final := by
  obtain ⟨m, hfirst⟩ := h
  obtain ⟨n, hlater⟩ := hrest
  exact ⟨m + n, hfirst.trans hlater⟩

theorem Turns.outcome?_eq {n turns : Nat} {p final : Parsing} (h : Turns input n p final)
    (hfinal : final.stage = .finished) (hle : n ≤ turns) :
    p.outcome? input turns = some (final.document, final.cursor.errors.reverse) := by
  induction h generalizing turns with
  | refl p =>
    have hnone : p.turn? input = none := by rw [Parsing.turn?, hfinal]
    unfold Parsing.outcome?
    rw [hnone]
  | turn h _ ih =>
    obtain ⟨turns, rfl⟩ := Nat.exists_eq_succ_of_ne_zero (Nat.ne_zero_of_lt hle)
    unfold Parsing.outcome?
    rw [h]
    exact ih hfinal (Nat.le_of_succ_le_succ hle)

/-! ### What a turn does

Each part of a turn stands here beside the function of the tokens that are left which reads the
same: what it reads, how far it goes, and where the run stands behind it. -/

section Cases

variable {c : Cursor} {s : State}

theorem length_skip_lt {token : Token} {later : List Token} (hrest : s.rest = token :: later) :
    s.skip.rest.length < s.rest.length := by
  simp [State.skip, hrest]

theorem open_cases (h : c.At input s) (document : Document) :
    ∃ (d : Cursor) (t : State), d.At input t ∧
      (openBody s = (true, t) ∧ t.rest.length < s.rest.length ∧
          Parsing.open input document c = ⟨.declarations, document, d⟩ ∨
        openBody s = (false, t) ∧ t.rest.length ≤ s.rest.length ∧
          Parsing.open input document c = ⟨.finished, document, d⟩) := by
  have hskip := (h.fail .openBrace).skipUntil [.openBrace]
  have hle : ((s.fail .openBrace).skipUntil [.openBrace]).rest.length ≤ s.rest.length :=
    Nat.le_trans (State.length_skipUntil_le ..) (Nat.le_of_eq (by rw [State.rest_fail]))
  unfold Parsing.open openBody Cursor.expect State.expect
  rcases h.take?_cases .openBrace with ⟨hc, hs⟩ | ⟨token, d, t, hc, hs, hnext⟩
  · rw [hc, hs]
    dsimp only
    rcases hskip.take?_cases .openBrace with ⟨hc, hs⟩ | ⟨token, d, t, hc, hs, hnext⟩
    · rw [hc, hs]
      exact ⟨_, _, hskip, .inr ⟨rfl, hle, rfl⟩⟩
    · rw [hc, hs]
      exact ⟨d, t, hnext, .inl ⟨rfl, Nat.lt_of_lt_of_le (State.take?_lt hs) hle, rfl⟩⟩
  · rw [hc, hs]
    exact ⟨d, t, hnext, .inl ⟨rfl, State.take?_lt hs, rfl⟩⟩

/-- Before a list that is not empty the loop over its entries starts; otherwise its holder is
declared. -/
theorem enter_cases (h : c.At input s) (holder : Holder) (document : Document) :
    (attributes? s = (none, s) ∧
        holder.enter input document c = holder.declare input none document c) ∨
      (∃ (d : Cursor) (t : State), d.At input t ∧ t.rest.length < s.rest.length ∧
        attributes? s = (some {}, t) ∧
        holder.enter input document c = holder.declare input (some {}) document d) ∨
      ∃ (d : Cursor) (t : State), d.At input t ∧ t.rest.length < s.rest.length ∧
        attributes? s = (some (Attributes.ofPairs (entries t).1), (entries t).2) ∧
        holder.enter input document c = ⟨.entries holder {}, document, d⟩ := by
  unfold Holder.enter attributes? attributes
  rw [h.startsWith_eq]
  cases hopening : s.startsWith .openBracket with
  | false => exact .inl ⟨rfl, rfl⟩
  | true =>
    have hlt : s.skip.rest.length < s.rest.length := by
      cases hrest : s.rest with
      | nil => simp [State.startsWith, hrest] at hopening
      | cons token later => exact hrest ▸ length_skip_lt hrest
    right
    rcases h.skip.take?_cases .closeBracket with ⟨hc, hs⟩ | ⟨token, d, t, hc, hs, hnext⟩
    · right
      dsimp only
      rw [hc, hs]
      exact ⟨_, _, h.skip, hlt, rfl, rfl⟩
    · left
      dsimp only
      rw [hc, hs]
      exact ⟨d, t, hnext, Nat.lt_trans (State.take?_lt hs) hlt, rfl, rfl⟩

theorem entryTurn_cases (h : c.At input s) (holder : Holder) (found : Attributes)
    (document : Document) :
    ∃ (d : Cursor) (t : State), d.At input t ∧
      (afterEntry (entryOrSkip s).2 = .another t ∧
          Parsing.entryTurn input holder found document c =
            ⟨.entries holder ((entryOrSkip s).1.toList.foldl Attributes.apply found), document,
              d⟩ ∨
        afterEntry (entryOrSkip s).2 = .finished t ∧
          Parsing.entryTurn input holder found document c = holder.declare input
            (some ((entryOrSkip s).1.toList.foldl Attributes.apply found)) document d) := by
  obtain ⟨hentry, hat⟩ := h.entryOrSkip_reads
  obtain ⟨d, t, hnext, hafter⟩ := hat.afterEntry_cases
  have hfound : (c.entryOrSkip input).1.elim found found.apply =
      (entryOrSkip s).1.toList.foldl Attributes.apply found := by
    rw [hentry]
    cases (entryOrSkip s).1 <;> rfl
  unfold Parsing.entryTurn
  dsimp only
  rw [hfound]
  rcases hafter with ⟨hc, hs⟩ | ⟨hc, hs⟩
  · rw [hc]
    exact ⟨d, t, hnext, .inl ⟨hs, rfl⟩⟩
  · rw [hc]
    exact ⟨d, t, hnext, .inr ⟨hs, rfl⟩⟩

/-- What starts with an identifier is declared once its attributes are read, or nothing of it is.
If it is no edge, the cursor goes back, and it is as if a node had been read from the start. -/
theorem declaration_cases (h : c.At input s) {token : Token} {later : List Token}
    (hrest : s.rest = token :: later) (hkind : token.kind = .identifier) (document : Document) :
    ∃ (d : Cursor) (t : State), d.At input t ∧ t.rest.length < s.rest.length ∧
      ((∃ stem : Stem, declaration token s.skip =
            (some (stem.declaration (attributes? t).1), (attributes? t).2) ∧
          Parsing.declaration input document c =
            (Holder.declaration stem).enter input document d) ∨
        declaration token s.skip = (none, t) ∧
          Parsing.declaration input document c = ⟨.declarations, document, d⟩) := by
  have hlt := length_skip_lt hrest
  have hskip : s.skip = { s with rest := later } := by rw [State.skip, hrest, List.tail_cons]
  unfold Parsing.declaration Parse.declaration
  rcases h.edge_cases hrest hkind with
    ⟨hoperator, away, hedge, herrors⟩ | ⟨directed, d, t, hoperator, hat, hread⟩
  · have hnode : Cursor.expect input c .identifier .nodeIdentifier =
        (some token, { c with index := c.index + 1 }) := by
      rw [Cursor.expect, ← hkind, h.take?_of_rest hrest]
    have hback : ({ away with index := c.index } : Cursor) = c := by rw [herrors]
    rw [hedge, hoperator]
    refine ⟨_, _, hskip ▸ h.next hrest, hlt, .inl ⟨.node token, rfl, ?_⟩⟩
    dsimp only [Parsing.node]
    rw [hback, hnode]
  · have hle : (s.skip.skip.expect .identifier .edgeHead).2.rest.length ≤ s.skip.rest.length :=
      Nat.le_trans (State.expect_le ..) (length_skip_le _)
    rcases hread with ⟨head, hexpect, hedge⟩ | ⟨hexpect, hedge⟩
    · rw [hexpect] at hle
      rw [hedge, hoperator]
      dsimp only [edgeHead]
      rw [hexpect]
      exact ⟨d, t, hat, Nat.lt_of_le_of_lt hle hlt, .inl ⟨.edge token head directed, rfl, rfl⟩⟩
    · rw [hexpect] at hle
      rw [hedge, hoperator]
      dsimp only [edgeHead]
      rw [hexpect]
      have hstop := Nat.le_trans (State.length_skipUntil_le t declarationStops) hle
      exact ⟨_, _, hat.skipUntil declarationStops, Nat.lt_of_le_of_lt hstop hlt, .inr ⟨rfl, rfl⟩⟩

/-- A turn for a declaration ends the run, declares nothing, or comes to the attributes of what it
declares. -/
theorem declarationTurn_cases (h : c.At input s) (document : Document) :
    (∃ d : Cursor, d.At input (body s).2 ∧ c.index ≤ d.index ∧ (body s).1 = [] ∧
        Parsing.declarationTurn input document c = ⟨.finished, document, d⟩) ∨
      ∃ (d : Cursor) (t : State), d.At input t ∧ t.rest.length < s.rest.length ∧
        (body s = body t ∧
            Parsing.declarationTurn input document c = ⟨.declarations, document, d⟩ ∨
          ∃ stem : Stem, body s = (stem.declaration (attributes? t).1 ::
              (body (attributes? t).2).1, (body (attributes? t).2).2) ∧
            Parsing.declarationTurn input document c =
              (Holder.declaration stem).enter input document d) := by
  unfold Parsing.declarationTurn
  rw [h.peek?_eq]
  cases hrest : s.rest with
  | nil =>
    have hat := h.fail .closeBrace
    rw [body_of_nil hrest]
    exact .inl ⟨_, hat, h.index_le_index hat (by simp), rfl, rfl⟩
  | cons token later =>
    have hlt := length_skip_lt hrest
    dsimp only [List.head?_cons]
    split
    · next hclosing =>
      left
      have hindex := Nat.le_of_lt (h.index_lt_index h.skip hlt)
      rw [body_of_closeBrace hrest hclosing, h.skip.peek?_eq]
      cases s.skip.rest with
      | nil => exact ⟨_, h.skip, hindex, rfl, rfl⟩
      | cons other later =>
        have hat := h.skip.fail .endOfInput
        exact ⟨_, hat, Nat.le_trans hindex (h.skip.index_le_index hat (by simp)), rfl, rfl⟩
    · next hidentifier =>
      right
      rw [body_of_identifier hrest hidentifier]
      obtain ⟨d, t, hat, hlt, ⟨stem, hread, heq⟩ | ⟨hread, heq⟩⟩ :=
        declaration_cases h hrest hidentifier document
      · exact ⟨d, t, hat, hrest ▸ hlt, .inr ⟨stem, by rw [hread]; rfl, heq⟩⟩
      · exact ⟨d, t, hat, hrest ▸ hlt, .inl ⟨by rw [hread]; rfl, heq⟩⟩
    · next hclosing hidentifier =>
      right
      have hstop : ((s.fail .declaration).skip.skipUntil declarationStops).rest.length <
          s.rest.length :=
        Nat.lt_of_le_of_lt (State.length_skipUntil_le ..) (by simpa [State.skip] using hlt)
      exact ⟨_, _, (h.fail .declaration).skip.skipUntil declarationStops, hrest ▸ hstop,
        .inl ⟨body_of_other hrest hclosing hidentifier, rfl⟩⟩

theorem start_reads (h : (Cursor.mk 0 []).At input s) :
    ∃ (d : Cursor) (t : State) (document : Document), d.At input t ∧
      header s = ({ document with graphAttributes := (attributes? t).1.getD {} },
        (attributes? t).2) ∧
      Parsing.start input = Holder.graph.enter input document d := by
  obtain ⟨-, hkeyword⟩ := h.expect_reads .graph .graphKeyword
  obtain ⟨hname, hat⟩ := hkeyword.expect_reads .identifier .graphName
  refine ⟨_, _, { graphName := (header s).1.graphName }, hat, rfl, ?_⟩
  unfold Parsing.start
  dsimp only
  rw [hname]
  rfl

end Cases

/-! ### Tokens for turns -/

/-- How many loops run around the list of an holder. -/
def Holder.loops : Holder → Nat
  | .graph => 0
  | .declaration _ => 1

/-- How many loops run. -/
def Stage.loops : Stage → Nat
  | .declarations => 1
  | .entries holder _ => holder.loops + 1
  | .finished => 0

/-- The cursor is not beyond the end, and it has moved over a number of tokens and over one more for
each loop that runs, some of the loops apart. -/
structure Covered (input : Input) (tokens loops : Nat) (p : Parsing) : Prop where
  index_le : p.cursor.index ≤ input.tokens.size
  covers : tokens + p.stage.loops ≤ p.cursor.index + loops

theorem Covered.mono {m n loops : Nat} {p : Parsing} (h : Covered input n loops p) (hle : m ≤ n) :
    Covered input m loops p where
  index_le := h.index_le
  covers := Nat.le_trans (Nat.add_le_add_right hle _) h.covers

section Covered

variable {c : Cursor} {s : State}

theorem covered_open (h : c.At input s) (document : Document) :
    Covered input c.index 0 (Parsing.open input document c) := by
  obtain ⟨d, t, hat, ⟨-, hlt, heq⟩ | ⟨-, hle, heq⟩⟩ := open_cases h document
  · rw [heq]
    exact ⟨hat.index_le, h.index_lt_index hat hlt⟩
  · rw [heq]
    exact ⟨hat.index_le, h.index_le_index hat hle⟩

theorem covered_declare (h : c.At input s) (holder : Holder) (attributes : Option Attributes)
    (document : Document) :
    Covered input c.index holder.loops (holder.declare input attributes document c) := by
  cases holder with
  | graph => exact covered_open h _
  | declaration stem => exact ⟨h.index_le, Nat.le_refl _⟩

theorem covered_enter (h : c.At input s) (holder : Holder) (document : Document) :
    Covered input c.index holder.loops (holder.enter input document c) := by
  rcases enter_cases h holder document with
    ⟨-, heq⟩ | ⟨d, t, hat, hlt, -, heq⟩ | ⟨d, t, hat, hlt, -, heq⟩
  · rw [heq]
    exact covered_declare h holder _ document
  · rw [heq]
    exact (covered_declare hat holder _ document).mono (Nat.le_of_lt (h.index_lt_index hat hlt))
  · rw [heq]
    have hindex := h.index_lt_index hat hlt
    refine ⟨hat.index_le, ?_⟩
    dsimp only [Stage.loops]
    omega

theorem covered_entryTurn (h : c.At input s) (holder : Holder) (found : Attributes)
    (document : Document) :
    Covered input (c.index + 1) (holder.loops + 1)
      (Parsing.entryTurn input holder found document c) := by
  obtain ⟨d, t, hat, ⟨hafter, heq⟩ | ⟨hafter, heq⟩⟩ := entryTurn_cases h holder found document
  · have hindex : c.index < d.index :=
      h.index_lt_index hat (Nat.lt_of_lt_of_le (afterEntry_another_lt hafter) (entryOrSkip_le s))
    rw [heq]
    refine ⟨hat.index_le, ?_⟩
    dsimp only [Stage.loops]
    omega
  · have hindex : c.index ≤ d.index :=
      h.index_le_index hat (Nat.le_trans (afterEntry_finished_le hafter) (entryOrSkip_le s))
    obtain ⟨hle, hcovers⟩ := covered_declare hat holder
      (some ((entryOrSkip s).1.toList.foldl Attributes.apply found)) document
    rw [heq]
    exact ⟨hle, by omega⟩

theorem covered_declarationTurn (h : c.At input s) (document : Document) :
    Covered input (c.index + 1) 1 (Parsing.declarationTurn input document c) := by
  rcases declarationTurn_cases h document with
    ⟨d, hat, hindex, -, heq⟩ | ⟨d, t, hat, hlt, ⟨-, heq⟩ | ⟨stem, -, heq⟩⟩
  · rw [heq]
    exact ⟨hat.index_le, Nat.succ_le_succ hindex⟩
  · rw [heq]
    exact ⟨hat.index_le, Nat.succ_le_succ (h.index_lt_index hat hlt)⟩
  · rw [heq]
    exact (covered_enter hat (.declaration stem) document).mono (h.index_lt_index hat hlt)

theorem covered_start (h : (Cursor.mk 0 []).At input s) :
    Covered input 0 0 (Parsing.start input) := by
  obtain ⟨c, t, start, hat, -, heq⟩ := start_reads h
  rw [heq]
  exact (covered_enter hat .graph start).mono (Nat.zero_le _)

end Covered

/-- A turn moves over one token, over one more for each loop that it starts, and over one less for
each loop that it ends. -/
theorem covered_turn {p next : Parsing} (hwithin : p.cursor.index ≤ input.tokens.size)
    (h : p.turn? input = some next) :
    Covered input (p.cursor.index + 1) p.stage.loops next := by
  obtain ⟨stage, document, c⟩ := p
  have hat : c.At input (c.state input) := Cursor.at_state hwithin
  cases stage with
  | declarations => exact Option.some.inj h ▸ covered_declarationTurn hat document
  | entries holder found => exact Option.some.inj h ▸ covered_entryTurn hat holder found document
  | finished => cases h

theorem covered_turns {n : Nat} {p final : Parsing} (h : Turns input n p final)
    (hwithin : p.cursor.index ≤ input.tokens.size) :
    Covered input (p.cursor.index + n) p.stage.loops final := by
  induction h with
  | refl p => exact ⟨hwithin, Nat.le_refl _⟩
  | turn h _ ih =>
    obtain ⟨hindex, hfirst⟩ := covered_turn hwithin h
    obtain ⟨hlast, hlater⟩ := ih hindex
    exact ⟨hlast, by omega⟩

/-- Two stages of one loop. -/
inductive Stage.SameLoop : Stage → Stage → Prop where
  | declarations : SameLoop .declarations .declarations
  | entries (holder : Holder) (found found' : Attributes) :
      SameLoop (.entries holder found) (.entries holder found')

theorem Stage.SameLoop.loops_eq {stage stage' : Stage} (h : stage.SameLoop stage') :
    stage.loops = stage'.loops := by
  cases h <;> rfl

/-! ### What a run reads -/

section Leads

variable {c : Cursor} {s : State}

theorem entries_leads (h : c.At input s) (holder : Holder) (found : Attributes)
    (document : Document) :
    ∃ d : Cursor, d.At input (entries s).2 ∧
      Leads input ⟨.entries holder found, document, c⟩ (holder.declare input
        (some ((entries s).1.foldl Attributes.apply found)) document d) := by
  fun_induction entries s generalizing c found with
  | case1 s t hafter later u heq ih =>
    obtain ⟨d, t', hat, ⟨hafter', hturn⟩ | ⟨hafter', -⟩⟩ := entryTurn_cases h holder found document
    · obtain rfl := AfterEntry.another.inj (hafter.symm.trans hafter')
      obtain ⟨e, hend, hleads⟩ := ih hat _
      rw [heq] at hend hleads
      rw [List.foldl_append]
      exact ⟨e, hend, .turn (congrArg some hturn) hleads⟩
    · cases hafter.symm.trans hafter'
  | case2 s t hafter =>
    obtain ⟨d, t', hat, ⟨hafter', -⟩ | ⟨hafter', hturn⟩⟩ := entryTurn_cases h holder found document
    · cases hafter.symm.trans hafter'
    · obtain rfl := AfterEntry.finished.inj (hafter.symm.trans hafter')
      exact ⟨d, hat, .turn (congrArg some hturn) (.refl _)⟩

theorem enter_leads (h : c.At input s) (holder : Holder) (document : Document) :
    ∃ d : Cursor, d.At input (attributes? s).2 ∧
      Leads input (holder.enter input document c)
        (holder.declare input (attributes? s).1 document d) := by
  rcases enter_cases h holder document with
    ⟨hread, heq⟩ | ⟨d, t, hat, -, hread, heq⟩ | ⟨d, t, hat, -, hread, heq⟩
  · rw [hread, heq]
    exact ⟨c, h, .refl _⟩
  · rw [hread, heq]
    exact ⟨d, hat, .refl _⟩
  · rw [hread, heq]
    exact entries_leads hat holder {} document

theorem body_leads {c : Cursor} {s : State} (h : c.At input s) (document : Document) :
    ∃ d : Cursor, d.At input (body s).2 ∧
      Leads input ⟨.declarations, document, c⟩
        ⟨.finished, document.append (body s).1, d⟩ := by
  rcases declarationTurn_cases h document with
    ⟨d, hat, -, hread, heq⟩ | ⟨d, t, hat, hlt, ⟨hread, heq⟩ | ⟨stem, hread, heq⟩⟩
  · rw [hread]
    exact ⟨d, hat, .turn (congrArg some heq) (.refl _)⟩
  · obtain ⟨e, hend, hleads⟩ := body_leads hat document
    rw [hread]
    exact ⟨e, hend, .turn (congrArg some heq) hleads⟩
  · obtain ⟨e, hentered, hlist⟩ := enter_leads hat (.declaration stem) document
    obtain ⟨f, hend, hleads⟩ :=
      body_leads hentered (document.push (stem.declaration (attributes? t).1))
    rw [hread]
    exact ⟨f, hend, .turn (congrArg some heq) (hlist.trans hleads)⟩
termination_by s.rest.length
decreasing_by
  · exact hlt
  · exact Nat.lt_of_le_of_lt (attributes?_le t) hlt

/-- **A run with a cursor is over after some turns, and then it has read what is read from the list
of the tokens.** -/
theorem document_leads (h : (Cursor.mk 0 []).At input s) :
    ∃ d : Cursor, d.At input (document s).2 ∧
      Leads input (Parsing.start input) ⟨.finished, (document s).1, d⟩ := by
  obtain ⟨c, t, start, hat, hheader, heq⟩ := start_reads h
  obtain ⟨d, hlist, hleads⟩ := enter_leads hat .graph start
  obtain ⟨e, u, hbody, ⟨hopened, -, hopen⟩ | ⟨hopened, -, hopen⟩⟩ :=
    open_cases hlist { start with graphAttributes := (attributes? t).1.getD {} }
  · obtain ⟨f, hend, hdeclarations⟩ :=
      body_leads hbody { start with graphAttributes := (attributes? t).1.getD {} }
    have hopened' : openBody (header s).2 = (true, u) := by rw [hheader]; exact hopened
    rw [document_of_opened hopened', heq, hheader]
    refine ⟨f, hend, hleads.trans ?_⟩
    rw [Holder.declare, hopen]
    exact hdeclarations
  · have hopened' : openBody (header s).2 = (false, u) := by rw [hheader]; exact hopened
    rw [document_of_unopened hopened', heq, hheader]
    refine ⟨e, hbody, ?_⟩
    rw [← hopen]
    exact hleads

end Leads

end Parse

open NodeLink.Source NodeLink.Parse

/-- **Every turn of a loop after which it goes on leaves the cursor further on and not beyond the
end, and a run is over after as many turns as there are tokens.**  A turn for a declaration includes
those for the entries of its list, so any number of turns may lie between two stages of one loop. -/
theorem parse_turns (source : String) (tokens : List Token) :
    (∀ (n : Nat) (p q : Parsing), p.cursor.index ≤ tokens.length → p.stage.SameLoop q.stage →
        Turns (.of source tokens) (n + 1) p q →
        p.cursor.index < q.cursor.index ∧ q.cursor.index ≤ tokens.length) ∧
      (∀ (n : Nat) (p : Parsing), Turns (.of source tokens) n (.start (.of source tokens)) p →
        n + p.stage.loops ≤ p.cursor.index ∧ p.cursor.index ≤ tokens.length) ∧
      parseInTurns? source tokens tokens.length = some (parseTokens source tokens) := by
  have hat : (Cursor.mk 0 []).At (.of source tokens) ⟨tokens, [], Site.atEnd source⟩ :=
    ⟨Nat.zero_le _, rfl, rfl, rfl⟩
  have hrun (n : Nat) (p : Parsing)
      (h : Turns (.of source tokens) n (.start (.of source tokens)) p) :
      n + p.stage.loops ≤ p.cursor.index ∧ p.cursor.index ≤ tokens.length := by
    obtain ⟨hstart, hcovers⟩ := covered_start hat
    obtain ⟨hwithin, hlast⟩ := covered_turns h hstart
    exact ⟨by omega, hwithin⟩
  refine ⟨?_, hrun, ?_⟩
  · intro n p q hwithin hloop h
    obtain ⟨hlast, hcovers⟩ := covered_turns h hwithin
    have hloops := hloop.loops_eq
    exact ⟨by omega, hlast⟩
  · obtain ⟨d, hend, n, hturns⟩ := document_leads hat
    obtain ⟨hcovers, hwithin⟩ := hrun n _ hturns
    have hle : n ≤ tokens.length :=
      Nat.le_trans (Nat.le_trans (Nat.le_add_right n _) hcovers) hwithin
    rw [parseInTurns?, hturns.outcome?_eq rfl hle, hend.errors]
    rfl

/-- As many turns as tokens may be needed: an opening bracket alone takes one. -/
example : (parseInTurns? "[" (tokenize "[").tokens 0).isNone ∧
    (parseInTurns? "[" (tokenize "[").tokens 1).isSome := by
  decide +kernel

end NodeLink
