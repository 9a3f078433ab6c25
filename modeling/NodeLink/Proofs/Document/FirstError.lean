import NodeLink.Proofs.Document.Diagnostics
import NodeLink.Proofs.Document.Failure

/-! # The first syntax error

The first syntax error of a source stands as early as it can (`first_syntaxError_earliest`): what
stands before it starts some sentence, and with the token at its place nothing does any more.  That
no sentence goes on there is what `Parse.Fails` says, for the tokens of a sentence lead to the last
phase (`Grammar.run_sentence`).  That a sentence starts like this comes from the parser itself: some
tokens that lead to a phase and a shortest way from there to the last one are read without errors
(`Parse.viable_of_run`), and what is read without errors is a sentence. -/

namespace NodeLink

open NodeLink.Source
open NodeLink.Grammar (Phase Sentence sample)

/-- Some sentence starts with these tokens. -/
def Grammar.Viable (tokens : List Token) : Prop :=
  ∃ sentence : Sentence, tokens <+: sentence.tokens

open Grammar (Viable)

namespace Parse

/-! ### Phases and sentences -/

/-- Tokens that start a sentence lead to a phase. -/
theorem run_of_viable {tokens : List Token} (h : Viable tokens) :
    ∃ phase : Phase, Phase.keyword.run tokens = some phase := by
  obtain ⟨sentence, later, hlater⟩ := h
  have hrun := Grammar.run_sentence sentence
  rw [← hlater, Phase.run_append] at hrun
  obtain ⟨phase, hphase, -⟩ := Option.bind_eq_some_iff.mp hrun
  exact ⟨phase, hphase⟩

/-- No tokens lead to the last phase from where a run got stuck. -/
theorem run_stuck {phase : Phase} {rest : List Token} (h : Stuck phase rest) :
    phase.run rest ≠ some .finished := by
  cases rest with
  | nil => exact fun hrun => h (Option.some.inj hrun)
  | cons token rest =>
      have hstep : phase.step token.kind = none := h
      simp [hstep]

theorem sentence_of_run {tokens : List Token}
    (hq : ∀ token ∈ tokens, ProperQuotes token.kind token.text.toList)
    (h : Phase.keyword.run tokens = some .finished) :
    ∃ sentence : Sentence, sentence.tokens = tokens := by
  rcases document_fails (s := ⟨tokens, [], default⟩) rfl with herrors | hfails
  · obtain ⟨sentence, -, htokens⟩ := document_sound ⟨tokens, [], default⟩ hq herrors
    exact ⟨sentence, htokens.symm⟩
  · obtain ⟨read, rest, stuck, -, hread, hrun, hstuck, -⟩ := hfails
    obtain rfl : tokens = read ++ rest := hread
    rw [Phase.run_append, hrun] at h
    exact absurd h (run_stuck hstuck)

theorem properQuotes_sample (kind : TokenKind) :
    ProperQuotes (sample kind).kind (sample kind).text.toList := by
  refine ⟨fun h => ⟨[], ?_⟩, fun h => ?_⟩
  · obtain rfl : kind = .string := h
    rfl
  · obtain rfl : kind = .identifier := h
    exact nofun

/-- Tokens that lead to a phase start a sentence, for the phase has a way to the last one. -/
theorem viable_of_run {tokens : List Token}
    (hq : ∀ token ∈ tokens, ProperQuotes token.kind token.text.toList) {phase : Phase}
    (h : Phase.keyword.run tokens = some phase) : Viable tokens := by
  have hrun : Phase.keyword.run (tokens ++ phase.completion.map sample) = some .finished := by
    rw [Phase.run_append, h]
    exact Grammar.run_completion phase
  have hquotes : ∀ token ∈ tokens ++ phase.completion.map sample,
      ProperQuotes token.kind token.text.toList := by
    intro token htoken
    rcases List.mem_append.mp htoken with htoken | htoken
    · exact hq token htoken
    · obtain ⟨kind, -, rfl⟩ := List.mem_map.mp htoken
      exact properQuotes_sample kind
  obtain ⟨sentence, hsentence⟩ := sentence_of_run hquotes hrun
  exact ⟨sentence, hsentence ▸ List.prefix_append ..⟩

/-- Where the first syntax error of some tokens stands: the tokens before it, and what no sentence
goes on with. -/
theorem first_syntaxError_stuck {source : String} {tokens : List Token} {first : SyntaxError}
    {later : List SyntaxError} (h : (parseTokens source tokens).2 = first :: later) :
    ∃ (read rest : List Token) (stuck : Phase), tokens = read ++ rest ∧
      Phase.keyword.run read = some stuck ∧ Stuck stuck rest ∧
      first.site = (State.mk rest [] (Site.atEnd source)).here := by
  have herrors : (document ⟨tokens, [], Site.atEnd source⟩).2.errors.reverse = first :: later := h
  rcases document_fails (s := ⟨tokens, [], Site.atEnd source⟩) rfl with hnil | hfails
  · rw [hnil] at herrors
    cases herrors
  · obtain ⟨read, rest, stuck, expected, hread, hrun, hstuck, hlast⟩ := hfails
    rw [List.getLast?_eq_head?_reverse, herrors] at hlast
    obtain rfl : first = _ := Option.some.inj hlast
    exact ⟨read, rest, stuck, hread, hrun, hstuck, State.site_problem _ _⟩

end Parse

/-! ### Sources -/

theorem nodup_places (source : String) :
    ((tokenize source).tokens.map Token.site ++ [Site.atEnd source]).Nodup := by
  have hplaces := (sites_tokens source).append (List.Sublist.refl [Site.atEnd source])
  refine ((pairwise_sites source).sublist hplaces).imp fun {a b} hprecedes heq => ?_
  rw [heq] at hprecedes
  exact Nat.lt_irrefl _ hprecedes.offset

theorem site_ne_atEnd {source : String} {token : Token} (h : token ∈ (tokenize source).tokens) :
    token.site ≠ Site.atEnd source :=
  (List.nodup_append.mp (nodup_places source)).2.2 _ (List.mem_map_of_mem h) _
    (List.mem_singleton_self _)

/-- An error stands at the earliest possible place of a source: at a token with which no sentence
goes on although some sentence starts with all tokens before it, or else at the end of tokens that
start some sentence but are none. -/
structure StandsEarliest (source : String) (error : SyntaxError) : Prop where
  place : (∃ token ∈ (tokenize source).tokens, error.site = token.site) ∨
    error.site = Site.atEnd source
  atToken : ∀ (i : Nat) (h : i < (tokenize source).tokens.length),
    error.site = ((tokenize source).tokens[i]).site →
      Viable ((tokenize source).tokens.take i) ∧ ¬ Viable ((tokenize source).tokens.take (i + 1))
  atEnd : error.site = Site.atEnd source →
    (∃ sentence : Sentence, (tokenize source).tokens <+: sentence.tokens ∧
      (tokenize source).tokens ≠ sentence.tokens) ∧
    ¬ ∃ sentence : Sentence, sentence.tokens = (tokenize source).tokens

theorem index_of_site {source : String} {read rest : List Token} {token : Token}
    (htokens : (tokenize source).tokens = read ++ token :: rest) {i : Nat}
    (hi : i < (tokenize source).tokens.length)
    (hsite : ((tokenize source).tokens[i]).site = token.site) : i = read.length := by
  have hnodup := (List.nodup_append.mp (nodup_places source)).1
  refine (List.getElem?_inj (by rwa [List.length_map]) hnodup).mp ?_
  have hthere : (tokenize source).tokens[read.length]? = some token := by simp [htokens]
  rw [List.getElem?_map, List.getElem?_map, List.getElem?_eq_getElem hi, hthere, Option.map_some,
    Option.map_some, hsite]

theorem standsEarliest_of_atToken {source : String} {error : SyntaxError} {read rest : List Token}
    {token : Token} {stuck : Phase} (htokens : (tokenize source).tokens = read ++ token :: rest)
    (hrun : Phase.keyword.run read = some stuck) (hstuck : stuck.step token.kind = none)
    (hsite : error.site = token.site) : StandsEarliest source error := by
  have htoken : token ∈ (tokenize source).tokens := by simp [htokens]
  have hread : ∀ t ∈ read, ProperQuotes t.kind t.text.toList :=
    fun t ht => properQuotes_of_mem_tokenize (htokens ▸ List.mem_append_left _ ht)
  have hviable : Viable read := Parse.viable_of_run hread hrun
  have hnone : ¬ Viable (read ++ [token]) := by
    intro h
    obtain ⟨phase, hphase⟩ := Parse.run_of_viable h
    simp [hrun, hstuck] at hphase
  refine ⟨.inl ⟨token, htoken, hsite⟩, fun i hi heq => ?_, fun heq => ?_⟩
  · obtain rfl := index_of_site htokens hi (heq.symm.trans hsite)
    have hupTo : (tokenize source).tokens.take (read.length + 1) = read ++ [token] := by
      rw [htokens, List.take_length_add_append]
      rfl
    rw [hupTo, htokens, List.take_left]
    exact ⟨hviable, hnone⟩
  · exact absurd (hsite.symm.trans heq) (site_ne_atEnd htoken)

theorem standsEarliest_of_atEnd {source : String} {error : SyntaxError} {stuck : Phase}
    (hrun : Phase.keyword.run (tokenize source).tokens = some stuck) (hstuck : stuck ≠ .finished)
    (hsite : error.site = Site.atEnd source) : StandsEarliest source error := by
  have hnone (sentence : Sentence) : (tokenize source).tokens ≠ sentence.tokens := by
    intro heq
    rw [heq, Grammar.run_sentence] at hrun
    exact hstuck (Option.some.inj hrun).symm
  obtain ⟨sentence, hprefix⟩ :=
    Parse.viable_of_run (fun token htoken => properQuotes_of_mem_tokenize htoken) hrun
  refine ⟨.inr hsite, fun i hi heq => ?_, fun _ => ⟨⟨sentence, hprefix, hnone sentence⟩, ?_⟩⟩
  · exact absurd (heq.symm.trans hsite) (site_ne_atEnd (List.getElem_mem hi))
  · rintro ⟨sentence, heq⟩
    exact hnone sentence heq.symm

/-- **The first syntax error stands as early as it can.** -/
theorem first_syntaxError_earliest {source : String} {first : SyntaxError}
    {later : List SyntaxError}
    (h : (parseTokens source (tokenize source).tokens).2 = first :: later) :
    StandsEarliest source first := by
  obtain ⟨read, rest, stuck, htokens, hrun, hstuck, hsite⟩ := Parse.first_syntaxError_stuck h
  cases rest with
  | nil =>
      rw [List.append_nil] at htokens
      exact standsEarliest_of_atEnd (htokens ▸ hrun) hstuck hsite
  | cons token rest => exact standsEarliest_of_atToken htokens hrun hstuck hsite

/-- An edge without a head. -/
def headless : String := "graph g \x7b A -- \x7d"

/-- The closing brace stands where only the head of the edge goes on. -/
theorem headless_earliest :
    (parseTokens headless (tokenize headless).tokens).2 =
        [⟨⟨⟨15, 16⟩, ⟨1, 16⟩⟩, .edgeHead, some "\x7d"⟩] ∧
      StandsEarliest headless ⟨⟨⟨15, 16⟩, ⟨1, 16⟩⟩, .edgeHead, some "\x7d"⟩ := by
  have hgrammar : (parseTokens headless (tokenize headless).tokens).2 =
      [⟨⟨⟨15, 16⟩, ⟨1, 16⟩⟩, .edgeHead, some "\x7d"⟩] := by decide +kernel
  exact ⟨hgrammar, first_syntaxError_earliest hgrammar⟩

end NodeLink
