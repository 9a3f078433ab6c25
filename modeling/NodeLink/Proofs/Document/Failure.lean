import NodeLink.Proofs.Document.Phase
import NodeLink.Proofs.Document.Progress

/-! # Where a run fails first

Every function of the parser stands for a phase of a sentence.  Called there without errors, it
either reads tokens that lead to the phase behind it (`Follows`), or its first error stands where
no sentence goes on (`Fails`).  What the parser does after that error does not matter, since errors
stay (`Fails.of_reaches`).  So a whole run that leaves an error has failed where it had to
(`document_fails`). -/

namespace NodeLink.Parse

open NodeLink.Source
open NodeLink.Grammar (Owner Assigned ListPhase Phase)
open State

/-- No sentence that has come to a phase goes on with some tokens. -/
def Stuck (phase : Phase) : List Token → Prop
  | [] => phase ≠ .finished
  | token :: _ => phase.step token.kind = none

theorem stuck_of_head {phase : Phase} (hphase : phase ≠ .finished) {rest : List Token}
    (h : ∀ token ∈ rest.head?, phase.step token.kind = none) : Stuck phase rest := by
  cases rest with
  | nil => exact hphase
  | cons token rest => exact h token rfl

/-- A run without errors whose tokens lead from one phase to another. -/
structure Follows (phase : Phase) (s : State) (next : Phase) (t : State) : Prop where
  errors : t.errors = []
  finish : t.finish = s.finish
  read : ∃ read, s.rest = read ++ t.rest ∧ phase.run read = some next

/-- A run whose first error stands where no sentence goes on. -/
def Fails (phase : Phase) (s t : State) : Prop :=
  ∃ (read rest : List Token) (stuck : Phase) (expected : Expectation),
    s.rest = read ++ rest ∧ phase.run read = some stuck ∧ Stuck stuck rest ∧
      t.errors.getLast? = some (State.problem ⟨rest, [], s.finish⟩ expected)

/-- A run without errors to a phase, or one that fails where it has to. -/
def Ends (phase : Phase) (s : State) (next : Phase) (t : State) : Prop :=
  Follows phase s next t ∨ Fails phase s t

/-- What is found in a run without errors, or nothing in one that fails where it has to. -/
def Reads {α : Type} (phase : Phase) (s : State) (next : Phase) : Option α × State → Prop
  | (some _, t) => Follows phase s next t
  | (none, t) => Fails phase s t

section Runs

variable {phase middle next : Phase} {s t u : State}

theorem Follows.trans (h : Follows phase s middle t) (h' : Follows middle t next u) :
    Follows phase s next u := by
  obtain ⟨read, hread, hrun⟩ := h.read
  obtain ⟨later, hlater, hrun'⟩ := h'.read
  refine ⟨h'.errors, h'.finish.trans h.finish, read ++ later, ?_, ?_⟩
  · rw [hread, hlater, List.append_assoc]
  · rwa [Phase.run_append, hrun]

theorem Follows.fails (h : Follows phase s middle t) (h' : Fails middle t u) :
    Fails phase s u := by
  obtain ⟨read, hread, hrun⟩ := h.read
  obtain ⟨later, rest, stuck, expected, hlater, hrun', hstuck, hlast⟩ := h'
  refine ⟨read ++ later, rest, stuck, expected, ?_, ?_, hstuck, ?_⟩
  · rw [hread, hlater, List.append_assoc]
  · rwa [Phase.run_append, hrun]
  · rwa [← h.finish]

/-- The first error stays the first one, whatever the run does next. -/
theorem Fails.of_reaches (h : Fails phase s t) (hreach : t.Reaches u) : Fails phase s u := by
  obtain ⟨read, rest, stuck, expected, hread, hrun, hstuck, hlast⟩ := h
  obtain ⟨later, hlater⟩ := hreach.errors
  refine ⟨read, rest, stuck, expected, hread, hrun, hstuck, ?_⟩
  rw [← hlater, List.getLast?_append, hlast]
  rfl

theorem Follows.ends (h : Follows phase s middle t) (h' : Ends middle t next u) :
    Ends phase s next u :=
  h'.imp h.trans h.fails

theorem Ends.trans (h : Ends phase s middle t) (hreach : t.Reaches u)
    (h' : t.errors = [] → Ends middle t next u) : Ends phase s next u := by
  rcases h with h | h
  · exact h.ends (h' h.errors)
  · exact .inr (h.of_reaches hreach)

theorem Follows.reads {α : Type} {result : Option α × State} (h : Follows phase s middle t)
    (h' : Reads middle t next result) : Reads phase s next result := by
  obtain ⟨found, u⟩ := result
  cases found with
  | some found => exact h.trans h'
  | none => exact h.fails h'

theorem Reads.map {α β : Type} {result : Option α × State} (h : Reads phase s next result)
    (f : α → β) : Reads phase s next (result.1.map f, result.2) := by
  obtain ⟨found, u⟩ := result
  cases found with
  | some found => exact h
  | none => exact h

theorem Reads.ends {α : Type} {result : Option α × State} (h : Reads phase s next result) :
    Ends phase s next result.2 := by
  obtain ⟨found, u⟩ := result
  cases found with
  | some found => exact .inl h
  | none => exact .inr h

/-! ### Single tokens -/

theorem fails_here (he : s.errors = []) (hstuck : Stuck phase s.rest) (expected : Expectation) :
    Fails phase s (s.fail expected) := by
  refine ⟨[], s.rest, phase, expected, rfl, rfl, hstuck, ?_⟩
  have hfail : (s.fail expected).errors = [s.problem expected] := by simp [fail, he]
  rw [hfail]
  rfl

theorem follows_skip (he : s.errors = []) {token : Token} {rest : List Token}
    (hr : s.rest = token :: rest) (hstep : phase.step token.kind = some next) :
    Follows phase s next s.skip :=
  ⟨he, rfl, [token], by simp [skip, hr], by simp [hstep]⟩

theorem follows_take? (he : s.errors = []) {kind : TokenKind} {token : Token}
    (h : s.take? kind = some (token, t)) (hstep : phase.step kind = some next) :
    Follows phase s next t := by
  obtain ⟨rfl, hr, ht⟩ := take?_eq_some_iff.mp h
  have hskip : t = s.skip := by rw [ht, skip, hr]; rfl
  rw [hskip]
  exact follows_skip he hr hstep

theorem kind_ne_of_take?_eq_none {kind : TokenKind} (h : s.take? kind = none) {token : Token}
    (htoken : token ∈ s.rest.head?) : token.kind ≠ kind := by
  rintro rfl
  cases hr : s.rest with
  | nil => simp [hr] at htoken
  | cons first rest =>
      obtain rfl : first = token := by simpa [hr] using htoken
      simp [take?, hr] at h

/-- Of the next token, a phase only goes on with one kind. -/
structure Takes (phase : Phase) (s : State) (kind : TokenKind) (next : Phase) : Prop where
  step : phase.step kind = some next
  other : ∀ token ∈ s.rest.head?, token.kind ≠ kind → phase.step token.kind = none

theorem Takes.stuck {kind : TokenKind} (h : Takes phase s kind next) (hnone : s.take? kind = none) :
    Stuck phase s.rest := by
  refine stuck_of_head ?_ fun token htoken =>
    h.other token htoken (kind_ne_of_take?_eq_none hnone htoken)
  rintro rfl
  cases h.step

variable {kind : TokenKind}

theorem expect_reads (he : s.errors = []) (h : Takes phase s kind next) (expected : Expectation) :
    Reads phase s next (s.expect kind expected) := by
  unfold expect
  split
  · next ht => exact follows_take? he ht h.step
  · next ht => exact fails_here he (h.stuck ht) expected

theorem textOf_reads (he : s.errors = []) (h : Takes phase s kind next)
    (expected : Expectation) : Reads phase s next (textOf s kind expected) := by
  have hreads := expect_reads he h expected
  unfold textOf
  split
  · next heq => rwa [heq] at hreads
  · next heq => rwa [heq] at hreads

theorem unquotedTextOf_reads (he : s.errors = []) (h : Takes phase s kind next)
    (expected : Expectation) : Reads phase s next (unquotedTextOf s kind expected) :=
  (textOf_reads he h expected).map unquote

end Runs

/-! ### Attribute lists -/

section Lists

variable {owner : Owner} {s : State}

theorem stringOrIdentifier_reads (he : s.errors = []) :
    Reads (.list owner (.value .either)) s (.list owner .next) (stringOrIdentifier s) := by
  unfold stringOrIdentifier
  split
  · next ht => exact follows_take? he ht rfl
  · next ht =>
    have htakes : Takes (.list owner (.value .either)) s .identifier (.list owner .next) := by
      refine ⟨rfl, fun token htoken hidentifier => if_neg ?_⟩
      have hstring := kind_ne_of_take?_eq_none ht htoken
      simp [Assigned.kinds, hstring, hidentifier]
    exact unquotedTextOf_reads he htakes .stringOrIdentifier

theorem takes_equal (owner : Owner) (kinds : Assigned) (s : State) :
    Takes (.list owner (.equal kinds)) s .equal (.list owner (.value kinds)) :=
  ⟨rfl, fun _ _ hne => if_neg hne⟩

theorem takes_string (owner : Owner) (s : State) :
    Takes (.list owner (.value .string)) s .string (.list owner .next) :=
  ⟨rfl, fun _ _ hne => if_neg (by simpa [Assigned.kinds] using hne)⟩

theorem takes_identifier (owner : Owner) (s : State) :
    Takes (.list owner (.value .identifier)) s .identifier (.list owner .next) :=
  ⟨rfl, fun _ _ hne => if_neg (by simpa [Assigned.kinds] using hne)⟩

theorem assigned_reads (he : s.errors = []) {kinds : Assigned}
    {value : State → Option String × State}
    (hv : ∀ {t : State}, t.errors = [] →
      Reads (.list owner (.value kinds)) t (.list owner .next) (value t)) :
    Reads (.list owner (.equal kinds)) s (.list owner .next) (assigned s value) := by
  have hequal := expect_reads he (takes_equal owner kinds s) .equalSign
  unfold assigned
  split
  · next heq =>
    rw [heq] at hequal
    exact hequal.reads (hv hequal.errors)
  · next heq => rwa [heq] at hequal

/-- Where a run stands, an attribute list only goes on with a pair. -/
def AtPair (owner : Owner) (phase : ListPhase) (s : State) : Prop :=
  ∀ token ∈ s.rest.head?,
    phase.step owner token.kind = (ListPhase.afterKey? token.kind).map (Phase.list owner)

theorem entry_reads {phase : ListPhase} (he : s.errors = []) (hat : AtPair owner phase s) :
    Reads (.list owner phase) s (.list owner .next) (entry s) := by
  unfold entry
  split
  · next hs =>
    refine fails_here he ?_ _
    rw [hs]
    exact nofun
  · next key rest hs =>
    have hstep : phase.step owner key.kind =
        (ListPhase.afterKey? key.kind).map (Phase.list owner) := hat key (by simp [hs])
    have hskip : s.skip.errors = [] := he
    have hkey {behind : ListPhase} (hbehind : ListPhase.afterKey? key.kind = some behind) :
        Follows (.list owner phase) s (.list owner behind) s.skip :=
      follows_skip he hs (by rw [Phase.step, hstep, hbehind]; rfl)
    have valued {kinds : Assigned} {make : String → Attribute}
        {value : State → Option String × State}
        (hbehind : ListPhase.afterKey? key.kind = some (.equal kinds))
        (hv : ∀ {t : State}, t.errors = [] →
          Reads (.list owner (.value kinds)) t (.list owner .next) (value t)) :
        Reads (.list owner phase) s (.list owner .next)
          ((assigned s.skip value).1.map make, (assigned s.skip value).2) :=
      (hkey hbehind).reads ((assigned_reads hskip hv).map make)
    have quoted {t : State} (ht : t.errors = []) :=
      unquotedTextOf_reads ht (takes_string owner t) .stringLiteral
    dsimp only
    cases hk : key.kind with
    | bundle => exact hkey (by rw [hk]; rfl)
    | color => exact valued (by rw [hk]; rfl) stringOrIdentifier_reads
    | label | font | fontSize => exact valued (by rw [hk]; rfl) quoted
    | lineWidth =>
        exact valued (by rw [hk]; rfl) fun {t} ht => textOf_reads ht (takes_identifier owner t) _
    | _ =>
        refine fails_here he ?_ _
        rw [hs]
        exact hstep.trans (by rw [hk]; rfl)

theorem entryOrSkip_ends {phase : ListPhase} (he : s.errors = []) (hat : AtPair owner phase s) :
    Ends (.list owner phase) s (.list owner .next) (entryOrSkip s).2 := by
  have hreads := entry_reads he hat
  unfold entryOrSkip
  split
  · next heq =>
    rw [heq] at hreads
    exact .inl hreads
  · next heq =>
    rw [heq] at hreads
    exact .inr (hreads.of_reaches (reaches_skipUntil ..))

/-- The phase after an entry and what follows it. -/
def AfterEntry.phaseOf (owner : Owner) : AfterEntry → Phase
  | .another _ => .list owner .pair
  | .finished _ => owner.after

theorem afterEntry_ends (he : s.errors = []) :
    Ends (.list owner .next) s ((afterEntry s).phaseOf owner) (afterEntry s).state := by
  unfold afterEntry
  split
  · next ht => exact .inl (follows_take? he ht rfl)
  · next hcomma =>
    split
    · next ht => exact .inl (follows_take? he ht rfl)
    · next hclosing =>
      have hstuck : Stuck (.list owner .next) s.rest := by
        refine stuck_of_head (by simp) fun token htoken => ?_
        have hnoComma := kind_ne_of_take?_eq_none hcomma htoken
        have hnoClosing := kind_ne_of_take?_eq_none hclosing htoken
        cases hk : token.kind with
        | comma => exact absurd hk hnoComma
        | closeBracket => exact absurd hk hnoClosing
        | _ => rfl
      have hfails := (fails_here he hstuck .attributeSeparator).of_reaches
        (reaches_skipUntil _ entryStops)
      dsimp only
      split
      · next ht => exact .inr (hfails.of_reaches (reaches_take? ht))
      · split
        · next ht => exact .inr (hfails.of_reaches (reaches_take? ht))
        · exact .inr hfails

theorem entries_ends (s : State) {phase : ListPhase} (he : s.errors = [])
    (hat : AtPair owner phase s) : Ends (.list owner phase) s owner.after (entries s).2 := by
  fun_induction entries s generalizing phase with
  | case1 s t h later u heq ih =>
      have hafter := afterEntry_reaches (entryOrSkip s).2
      have hentries := entries_reaches t
      rw [h] at hafter
      rw [heq] at ih hentries
      refine (entryOrSkip_ends he hat).trans (hafter.trans hentries) fun he => ?_
      have hends : Ends (.list owner .next) _ _ _ := afterEntry_ends he
      rw [h] at hends
      have hpair : AtPair owner .pair t := fun _ _ => rfl
      exact hends.trans hentries fun he => ih he hpair
  | case2 s t h =>
      have hafter := afterEntry_reaches (entryOrSkip s).2
      rw [h] at hafter
      refine (entryOrSkip_ends he hat).trans hafter fun he => ?_
      have hends : Ends (.list owner .next) _ _ _ := afterEntry_ends he
      rwa [h] at hends

theorem head_of_startsWith {kind : TokenKind} (h : s.startsWith kind) :
    ∃ token rest, s.rest = token :: rest ∧ token.kind = kind := by
  cases hs : s.rest with
  | nil => simp [startsWith, hs] at h
  | cons token rest => exact ⟨token, rest, rfl, by simpa [startsWith, hs] using h⟩

theorem attributes_ends {phase : Phase} (he : s.errors = []) (hopening : s.startsWith .openBracket)
    (hstep : phase.step .openBracket = some (.list owner .first)) :
    Ends phase s owner.after (attributes s).2 := by
  obtain ⟨token, rest, hs, hkind⟩ := head_of_startsWith hopening
  have hskip : Follows phase s (.list owner .first) s.skip := follows_skip he hs (hkind ▸ hstep)
  unfold attributes
  split
  · next ht => exact .inl (hskip.trans (follows_take? he ht rfl))
  · next ht =>
    -- without a closing bracket, the start of a list only goes on with a pair
    refine hskip.ends (entries_ends s.skip he fun token htoken => ?_)
    exact if_neg (kind_ne_of_take?_eq_none ht htoken)

/-- Attributes that may be left out are read to their end, or there are none. -/
theorem attributes?_ends {phase : Phase} (he : s.errors = [])
    (hstep : phase.step .openBracket = some (.list owner .first)) :
    Ends phase s owner.after (attributes? s).2 ∨
      (attributes? s).2 = s ∧ ∀ token ∈ s.rest.head?, token.kind ≠ .openBracket := by
  by_cases hopening : s.startsWith .openBracket
  · have hsome : (attributes? s).2 = (attributes s).2 := by simp [attributes?, hopening]
    rw [hsome]
    exact .inl (attributes_ends he hopening hstep)
  · have hnone : (attributes? s).2 = s := by simp [attributes?, hopening]
    refine .inr ⟨hnone, fun token htoken hkind => hopening ?_⟩
    simp [startsWith, Option.mem_def.mp htoken, hkind]

end Lists

/-! ### Statements -/

section Statements

variable {phase : Phase} {s : State}

/-- Where a run stands, a sentence only goes on with what may follow a statement. -/
structure AtStatement (phase : Phase) (s : State) : Prop where
  unfinished : phase ≠ .finished
  step : ∀ token ∈ s.rest.head?, phase.step token.kind = Phase.stepStatement? token.kind

theorem atStatement (s : State) : AtStatement .statement s :=
  ⟨nofun, fun _ _ => rfl⟩

theorem edgeHead_ends (tail : Token) (directed : Bool) (he : s.errors = []) :
    ∃ next : Phase, Ends .head s next (edgeHead tail directed s).2 ∧
      AtStatement next (edgeHead tail directed s).2 := by
  have htakes : Takes .head s .identifier .joined := ⟨rfl, fun _ _ hne => if_neg hne⟩
  have hhead := expect_reads he htakes .edgeHead
  unfold edgeHead
  split
  · next u heq =>
    rw [heq] at hhead
    have hfollows : Follows .head s .joined u := hhead
    have hlist : Phase.joined.step .openBracket = some (.list .statement .first) := rfl
    rcases attributes?_ends hfollows.errors hlist with hends | ⟨hnone, hopening⟩
    · exact ⟨.statement, hfollows.ends hends, atStatement _⟩
    · dsimp only
      rw [hnone]
      refine ⟨.joined, .inl hhead, nofun, fun token htoken => ?_⟩
      cases hk : token.kind with
      | openBracket => exact absurd hk (hopening token htoken)
      | _ => rfl
  · next heq =>
    rw [heq] at hhead
    exact ⟨.statement, .inr (hhead.of_reaches (reaches_skipUntil ..)), atStatement _⟩

theorem declaration_ends (identifier : Token) (he : s.errors = []) :
    ∃ next : Phase, Ends .identified s next (declaration identifier s).2 ∧
      AtStatement next (declaration identifier s).2 := by
  unfold declaration
  split
  · next directed hd =>
    obtain ⟨operator, hoperator, hdirection⟩ := Option.bind_eq_some_iff.mp hd
    obtain ⟨rest, hs⟩ := List.head?_eq_some_iff.mp hoperator
    have hstep : Phase.identified.step operator.kind = some .head := by
      cases hk : operator.kind with
      | undirectedEdge | directedEdge => rfl
      | _ => rw [hk] at hdirection; cases hdirection
    have hskip : s.skip.errors = [] := he
    obtain ⟨next, hends, hat⟩ := edgeHead_ends identifier directed hskip
    exact ⟨next, (follows_skip he hs hstep).ends hends, hat⟩
  · next hd =>
    have hlist : Phase.identified.step .openBracket = some (.list .statement .first) := rfl
    rcases attributes?_ends he hlist with hends | ⟨hnone, hopening⟩
    · exact ⟨.statement, hends, atStatement _⟩
    · simp only [nodeRest, hnone]
      refine ⟨.identified, .inl ⟨he, rfl, [], rfl, rfl⟩, nofun, fun token htoken => ?_⟩
      have hdirection : direction? token.kind = none := by
        rwa [Option.mem_def.mp htoken] at hd
      cases hk : token.kind with
      | openBracket => exact absurd hk (hopening token htoken)
      | undirectedEdge | directedEdge => rw [hk] at hdirection; cases hdirection
      | _ => rfl

theorem body_fails (s : State) (phase : Phase) (he : s.errors = []) (hat : AtStatement phase s) :
    (body s).2.errors = [] ∨ Fails phase s (body s).2 := by
  fun_induction body s generalizing phase with
  | case1 s h =>
      refine .inr (fails_here he ?_ _)
      rw [h]
      exact hat.unfinished
  | case2 s token rest h hk u =>
      have hskip : u.errors = [] := he
      have hclosing : Follows phase s .finished u :=
        follows_skip he h (by rw [hat.step token (by simp [h]), hk]; rfl)
      split
      · exact .inl he
      · next hrest =>
        refine .inr (hclosing.fails (fails_here hskip ?_ _))
        cases hr : u.rest with
        | nil => exact absurd (List.isEmpty_iff.mpr hr) hrest
        | cons token rest => rfl
  | case3 s token rest h hk first later t heq ih =>
      have hskip : s.skip.errors = [] := he
      have hidentifier : Follows phase s .identified s.skip :=
        follows_skip he h (by rw [hat.step token (by simp [h]), hk]; rfl)
      obtain ⟨next, hends, hat⟩ := declaration_ends token hskip
      have hreach := body_reaches first.2
      rw [heq] at ih hreach
      rcases hends with hends | hends
      · exact (ih next hends.errors hat).imp id (hidentifier.trans hends).fails
      · exact .inr ((hidentifier.fails hends).of_reaches hreach)
  | case4 s token rest h hc hi ih =>
      have hstep : phase.step token.kind = none := by
        rw [hat.step token (by simp [h])]
        cases hk : token.kind with
        | closeBrace => exact absurd hk hc
        | identifier => exact absurd hk hi
        | _ => rfl
      refine .inr ((fails_here he (h ▸ hstep) .declaration).of_reaches ?_)
      exact (reaches_skip _).trans ((reaches_skipUntil _ declarationStops).trans (body_reaches _))

end Statements

/-! ### Documents -/

theorem header_ends {s : State} (he : s.errors = []) :
    ∃ next : Phase, Ends .keyword s next (header s).2 ∧
      Takes next (header s).2 .openBrace .statement := by
  have hkeyword : Takes .keyword s .graph .name := ⟨rfl, fun _ _ hne => if_neg hne⟩
  have hname (t : State) : Takes .name t .identifier .named := ⟨rfl, fun _ _ hne => if_neg hne⟩
  have hlist : Phase.named.step .openBracket = some (.list .graph .first) := rfl
  have hopening (t : State) : Takes .opening t .openBrace .statement :=
    ⟨rfl, fun _ _ hne => if_neg hne⟩
  -- the keyword and the name, whether they are there or not
  have hnamed : Ends .keyword s .named
      ((s.expect .graph .graphKeyword).2.expect .identifier .graphName).2 :=
    (expect_reads he hkeyword .graphKeyword).ends.trans (reaches_expect ..) fun he =>
      (expect_reads he (hname _) .graphName).ends
  simp only [header]
  generalize ((s.expect .graph .graphKeyword).2.expect .identifier .graphName).2 = t at hnamed ⊢
  rcases hnamed with hnamed | hnamed
  · rcases attributes?_ends hnamed.errors hlist with hends | ⟨hnone, hbracket⟩
    · exact ⟨.opening, hnamed.ends hends, hopening _⟩
    · rw [hnone]
      refine ⟨.named, .inl hnamed, rfl, fun token htoken hne => ?_⟩
      cases hk : token.kind with
      | openBracket => exact absurd hk (hbracket token htoken)
      | openBrace => exact absurd hk hne
      | _ => rfl
  · exact ⟨.opening, .inr (hnamed.of_reaches (attributes?_reaches t)), hopening _⟩

theorem openBody_ends {s : State} {phase : Phase} (he : s.errors = [])
    (htakes : Takes phase s .openBrace .statement) :
    (openBody s).1 = true ∧ Follows phase s .statement (openBody s).2 ∨
      Fails phase s (openBody s).2 := by
  have hbrace := expect_reads he htakes .openBrace
  unfold openBody
  split
  · next heq =>
    rw [heq] at hbrace
    exact .inl ⟨rfl, hbrace⟩
  · next heq =>
    rw [heq] at hbrace
    have hfails := hbrace.of_reaches (reaches_skipUntil _ [.openBrace])
    dsimp only
    split
    · next ht => exact .inr (hfails.of_reaches (reaches_take? ht))
    · exact .inr hfails

/-- **A run that leaves an error fails first where no sentence goes on.** -/
theorem document_fails {s : State} (he : s.errors = []) :
    (document s).2.errors = [] ∨ Fails .keyword s (document s).2 := by
  obtain ⟨phase, hheader, htakes⟩ := header_ends he
  have hopening := openBody_reaches (header s).2
  have hreach := openBody_reaches_document s
  rcases hheader with hheader | hheader
  · rcases openBody_ends hheader.errors htakes with ⟨hfound, hbody⟩ | hbody
    · have hdocument : (document s).2 = (body (openBody (header s).2).2).2 := by
        simp only [document]
        split
        · next heq => rw [heq]
        · next heq => rw [heq] at hfound; cases hfound
      rw [hdocument]
      exact (body_fails _ .statement hbody.errors (atStatement _)).imp id
        (hheader.trans hbody).fails
    · exact .inr (hheader.fails (hbody.of_reaches hreach))
  · exact .inr (hheader.of_reaches (hopening.trans hreach))

end NodeLink.Parse
