import NodeLink.Proofs.Document.Grammar
import NodeLink.Proofs.Document.Progress
import NodeLink.Proofs.Source.Quotes
import Mathlib.Data.List.Induction

/-! # What is read without errors is derivable

A function of the parser that ends without errors has read the tokens of a derivation tree and
gives what the tree stands for: `entries_sound` for attribute lists, `body_sound` for the
statements of a body, `document_sound` for a whole document.  Every way out of a rule that is
not the rule itself leaves an error behind (`errors_fail_ne_nil`), and errors stay
(`Reaches.errors_eq_nil`).  An entry of an attribute list that fails has read nothing that could
end it (`entry_none`). -/

namespace NodeLink.Parse

open NodeLink.Source
open NodeLink.Grammar (Leaf Value Pair AttributeList Operator Statement Sentence laterTokens
  optionalTokens lastValues)
open State

/-- Every token that is left to read has the quotes of its kind. -/
def Quoted (s : State) : Prop :=
  ∀ token ∈ s.rest, ProperQuotes token.kind token.text.toList

theorem Quoted.mono {s t : State} (hq : Quoted s) (h : t.rest <:+ s.rest) : Quoted t :=
  fun token ht => hq token (h.subset ht)

theorem Quoted.of_reaches {s t : State} (hq : Quoted s) (h : s.Reaches t) : Quoted t :=
  hq.mono h.rest

theorem Quoted.content {s : State} (hq : Quoted s) (leaf : Leaf .string)
    (h : leaf.token ∈ s.rest) : unquote leaf.text = leaf.content :=
  unquote_of_string (hq _ h) leaf.kind_eq

theorem Quoted.text {s : State} (hq : Quoted s) (leaf : Leaf .identifier)
    (h : leaf.token ∈ s.rest) : unquote leaf.text = leaf.text :=
  unquote_of_identifier (hq _ h) leaf.kind_eq

/-! ### Failures leave an error -/

theorem expect_none {s t : State} {kind : TokenKind} {expected : Expectation}
    (h : s.expect kind expected = (none, t)) : t = s.fail expected := by
  unfold expect at h
  split at h
  · cases h
  · exact (Prod.mk.inj h).2.symm

theorem textOf_none {s t : State} {kind : TokenKind} {expected : Expectation}
    (h : textOf s kind expected = (none, t)) : t = s.fail expected := by
  unfold textOf at h
  split at h
  · cases h
  · next heq =>
    obtain rfl := (Prod.mk.inj h).2
    exact expect_none heq

theorem unquotedTextOf_none {s t : State} {kind : TokenKind} {expected : Expectation}
    (h : unquotedTextOf s kind expected = (none, t)) : t = s.fail expected := by
  unfold unquotedTextOf at h
  obtain ⟨hnone, rfl⟩ := Prod.mk.inj h
  exact textOf_none (Prod.ext (Option.map_eq_none_iff.mp hnone) rfl)

theorem stringOrIdentifier_none {s t : State} (h : stringOrIdentifier s = (none, t)) :
    t = s.fail .stringOrIdentifier := by
  unfold stringOrIdentifier at h
  split at h
  · cases h
  · exact unquotedTextOf_none h

/-- A state that fails behind some tokens that it reads, none of which ends an entry. -/
def FailsBehind (s t : State) : Prop :=
  ∃ (read rest : List Token) (expected : Expectation), s.rest = read ++ rest ∧
    (∀ token ∈ read, token.kind ∉ entryStops) ∧ t = State.fail { s with rest } expected

theorem failsBehind_fail (s : State) (expected : Expectation) :
    FailsBehind s (s.fail expected) :=
  ⟨[], s.rest, expected, rfl, by simp, rfl⟩

theorem FailsBehind.cons {s t : State} {token : Token} {later : List Token}
    (hs : s.rest = token :: later) (hkind : token.kind ∉ entryStops)
    (h : FailsBehind { s with rest := later } t) : FailsBehind s t := by
  obtain ⟨read, rest, expected, hlater, hread, ht⟩ := h
  refine ⟨token :: read, rest, expected, ?_, List.forall_mem_cons.mpr ⟨hkind, hread⟩, ht⟩
  rw [hs, List.cons_append, ← hlater]

theorem FailsBehind.errors_ne_nil {s t : State} (h : FailsBehind s t) : t.errors ≠ [] := by
  obtain ⟨read, rest, expected, -, -, rfl⟩ := h
  exact errors_fail_ne_nil _ expected

theorem assigned_none {s t : State} {value : State → Option String × State}
    (hv : ∀ {s t}, value s = (none, t) → ∃ expected, t = s.fail expected)
    (h : assigned s value = (none, t)) : FailsBehind s t := by
  unfold assigned State.expect at h
  cases hequal : s.take? .equal with
  | none =>
      rw [hequal] at h
      obtain rfl := (Prod.mk.inj h).2
      exact failsBehind_fail s .equalSign
  | some found =>
      obtain ⟨equal, u⟩ := found
      obtain ⟨hkind, hs, hu⟩ := take?_eq_some_iff.mp hequal
      rw [hequal] at h
      obtain ⟨expected, rfl⟩ := hv h
      refine FailsBehind.cons hs (by simp [hkind, entryStops]) ?_
      rw [← hu]
      exact failsBehind_fail u expected

theorem valued_none {s t : State} {make : String → Attribute}
    {value : State → Option String × State}
    (hv : ∀ {s t}, value s = (none, t) → ∃ expected, t = s.fail expected)
    (h : ((assigned s value).1.map make, (assigned s value).2) = (none, t)) :
    FailsBehind s t := by
  obtain ⟨hnone, rfl⟩ := Prod.mk.inj h
  exact assigned_none hv (Prod.ext (Option.map_eq_none_iff.mp hnone) rfl)

/-- An entry that cannot be read fails behind what it reads, be it nothing, the key or the key and
the equal sign. -/
theorem entry_none {s t : State} (h : entry s = (none, t)) : FailsBehind s t := by
  unfold entry at h
  split at h
  · obtain rfl := (Prod.mk.inj h).2
    exact failsBehind_fail s .attributeEntry
  · next key later hs =>
    have keyed {make : String → Attribute} {value : State → Option String × State}
        (hv : ∀ {s t}, value s = (none, t) → ∃ expected, t = s.fail expected)
        (hkey : key.kind ∉ entryStops)
        (h : ((assigned s.skip value).1.map make, (assigned s.skip value).2) = (none, t)) :
        FailsBehind s t := by
      have hskip : s.skip = { s with rest := later } := by simp [skip, hs]
      rw [hskip] at h
      exact (valued_none hv h).cons hs hkey
    dsimp only at h
    split at h
    · cases h
    · next hk =>
      exact keyed (fun h => ⟨_, stringOrIdentifier_none h⟩) (by simp [hk, entryStops]) h
    · next hk =>
      exact keyed (fun h => ⟨_, unquotedTextOf_none h⟩) (by simp [hk, entryStops]) h
    · next hk =>
      exact keyed (fun h => ⟨_, unquotedTextOf_none h⟩) (by simp [hk, entryStops]) h
    · next hk =>
      exact keyed (fun h => ⟨_, unquotedTextOf_none h⟩) (by simp [hk, entryStops]) h
    · next hk =>
      exact keyed (fun h => ⟨_, textOf_none h⟩) (by simp [hk, entryStops]) h
    · obtain rfl := (Prod.mk.inj h).2
      exact failsBehind_fail s .attributeEntry

/-! ### Attribute lists -/

theorem take?_sound {s t : State} {kind : TokenKind} {token : Token}
    (h : s.take? kind = some (token, t)) :
    ∃ leaf : Leaf kind, leaf.token = token ∧ s.rest = leaf.token :: t.rest := by
  obtain ⟨hk, hr, -⟩ := take?_eq_some_iff.mp h
  exact ⟨⟨token, hk⟩, rfl, hr⟩

theorem expect_sound {s t : State} {kind : TokenKind} {expected : Expectation} {token : Token}
    (h : s.expect kind expected = (some token, t)) :
    ∃ leaf : Leaf kind, leaf.token = token ∧ s.rest = leaf.token :: t.rest := by
  unfold expect at h
  split at h
  · next ht =>
    obtain ⟨he, rfl⟩ := Prod.mk.inj h
    obtain rfl := Option.some.inj he
    exact take?_sound ht
  · cases h

theorem textOf_sound {s t : State} {kind : TokenKind} {expected : Expectation} {text : String}
    (h : textOf s kind expected = (some text, t)) :
    ∃ leaf : Leaf kind, leaf.text = text ∧ s.rest = leaf.token :: t.rest := by
  unfold textOf at h
  split at h
  · next heq =>
    obtain ⟨he, rfl⟩ := Prod.mk.inj h
    obtain rfl := Option.some.inj he
    obtain ⟨leaf, rfl, hr⟩ := expect_sound heq
    exact ⟨leaf, rfl, hr⟩
  · cases h

theorem unquotedTextOf_sound {s t : State} {kind : TokenKind} {expected : Expectation}
    {text : String} (h : unquotedTextOf s kind expected = (some text, t)) :
    ∃ leaf : Leaf kind, unquote leaf.text = text ∧ s.rest = leaf.token :: t.rest := by
  unfold unquotedTextOf at h
  obtain ⟨hsome, rfl⟩ := Prod.mk.inj h
  obtain ⟨plain, hp, rfl⟩ := Option.map_eq_some_iff.mp hsome
  obtain ⟨leaf, rfl, hr⟩ := textOf_sound (Prod.ext hp rfl)
  exact ⟨leaf, rfl, hr⟩

theorem quotedText_sound {s t : State} {expected : Expectation} {text : String} (hq : Quoted s)
    (h : unquotedTextOf s .string expected = (some text, t)) :
    ∃ leaf : Leaf .string, leaf.content = text ∧ s.rest = leaf.token :: t.rest := by
  obtain ⟨leaf, rfl, hr⟩ := unquotedTextOf_sound h
  exact ⟨leaf, (hq.content leaf (by simp [hr])).symm, hr⟩

theorem stringOrIdentifier_sound {s t : State} {text : String} (hq : Quoted s)
    (h : stringOrIdentifier s = (some text, t)) :
    ∃ value : Value, value.content = text ∧ s.rest = value.token :: t.rest := by
  unfold stringOrIdentifier at h
  split at h
  · next ht =>
    obtain ⟨he, rfl⟩ := Prod.mk.inj h
    obtain rfl := Option.some.inj he
    obtain ⟨leaf, rfl, hr⟩ := take?_sound ht
    exact ⟨.string leaf, (hq.content leaf (by simp [hr])).symm, hr⟩
  · obtain ⟨leaf, rfl, hr⟩ := unquotedTextOf_sound h
    exact ⟨.identifier leaf, (hq.text leaf (by simp [hr])).symm, hr⟩

theorem assigned_sound {s t : State} {value : State → Option String × State} {text : String}
    (h : assigned s value = (some text, t)) :
    ∃ (equal : Leaf .equal) (u : State), s.Reaches u ∧ s.rest = equal.token :: u.rest ∧
      value u = (some text, t) := by
  unfold assigned at h
  split at h
  · next u heq =>
    have hu := s.reaches_expect .equal .equalSign
    rw [heq] at hu
    obtain ⟨equal, -, hr⟩ := expect_sound heq
    exact ⟨equal, u, hu, hr, h⟩
  · cases h

/-- An entry whose key has just been read: the equal sign and the value behind it. -/
theorem valued_sound {s t : State} {make : String → Attribute} {entry : Attribute}
    {value : State → Option String × State} (hq : Quoted s)
    (h : ((assigned s value).1.map make, (assigned s value).2) = (some entry, t)) :
    ∃ (equal : Leaf .equal) (u : State) (text : String), Quoted u ∧
      s.rest = equal.token :: u.rest ∧ value u = (some text, t) ∧ make text = entry := by
  obtain ⟨hsome, rfl⟩ := Prod.mk.inj h
  obtain ⟨text, ht, rfl⟩ := Option.map_eq_some_iff.mp hsome
  obtain ⟨equal, u, hu, hr, hv⟩ := assigned_sound (Prod.ext ht rfl)
  exact ⟨equal, u, text, hq.of_reaches hu, hr, hv, rfl⟩

theorem entry_sound {s t : State} {found : Attribute} (hq : Quoted s)
    (h : entry s = (some found, t)) :
    ∃ pair : Pair, pair.entry = found ∧ s.rest = pair.tokens ++ t.rest := by
  unfold entry at h
  split at h
  · cases h
  · next key rest hs =>
    have hskip : s.skip.rest = rest := by simp [skip, hs]
    have hq' := hq.of_reaches s.reaches_skip
    dsimp only at h
    split at h
    · next hk =>
      obtain ⟨he, rfl⟩ := Prod.mk.inj h
      obtain rfl := Option.some.inj he
      exact ⟨.bundle ⟨key, hk⟩, rfl, by simp [Pair.tokens, hs, hskip]⟩
    · next hk =>
      obtain ⟨equal, u, text, hu, hr, hv, rfl⟩ := valued_sound hq' h
      obtain ⟨value, rfl, hr'⟩ := stringOrIdentifier_sound hu hv
      exact ⟨.color ⟨key, hk⟩ equal value, rfl, by
        simp [Pair.tokens, hs, ← hskip, hr, hr']⟩
    · next hk =>
      obtain ⟨equal, u, text, hu, hr, hv, rfl⟩ := valued_sound hq' h
      obtain ⟨value, rfl, hr'⟩ := quotedText_sound hu hv
      exact ⟨.label ⟨key, hk⟩ equal value, rfl, by
        simp [Pair.tokens, hs, ← hskip, hr, hr']⟩
    · next hk =>
      obtain ⟨equal, u, text, hu, hr, hv, rfl⟩ := valued_sound hq' h
      obtain ⟨value, rfl, hr'⟩ := quotedText_sound hu hv
      exact ⟨.font ⟨key, hk⟩ equal value, rfl, by
        simp [Pair.tokens, hs, ← hskip, hr, hr']⟩
    · next hk =>
      obtain ⟨equal, u, text, hu, hr, hv, rfl⟩ := valued_sound hq' h
      obtain ⟨value, rfl, hr'⟩ := quotedText_sound hu hv
      exact ⟨.fontSize ⟨key, hk⟩ equal value, rfl, by
        simp [Pair.tokens, hs, ← hskip, hr, hr']⟩
    · next hk =>
      obtain ⟨equal, u, text, hu, hr, hv, rfl⟩ := valued_sound hq' h
      obtain ⟨value, rfl, hr'⟩ := textOf_sound hv
      exact ⟨.lineWidth ⟨key, hk⟩ equal value, rfl, by
        simp [Pair.tokens, hs, ← hskip, hr, hr']⟩
    · cases h

theorem entryOrSkip_sound {s : State} (hq : Quoted s) (he : (entryOrSkip s).2.errors = []) :
    ∃ pair : Pair, (entryOrSkip s).1 = some pair.entry ∧
      s.rest = pair.tokens ++ (entryOrSkip s).2.rest := by
  cases h : entry s with
  | mk found t =>
      cases found with
      | none =>
          have hskip : entryOrSkip s = (none, t.skipUntil entryStops) := by simp [entryOrSkip, h]
          rw [hskip] at he
          have hnil : t.errors = [] := he
          exact absurd hnil (entry_none h).errors_ne_nil
      | some found =>
          have hfound : entryOrSkip s = (some found, t) := by simp [entryOrSkip, h]
          obtain ⟨pair, hpair, hr⟩ := entry_sound hq h
          exact ⟨pair, by rw [hfound, hpair], by rw [hfound]; exact hr⟩

theorem afterEntry_another_sound {s t : State} (h : afterEntry s = .another t)
    (he : t.errors = []) : ∃ comma : Leaf .comma, s.rest = comma.token :: t.rest := by
  unfold afterEntry at h
  split at h
  · next ht =>
    cases h
    obtain ⟨comma, -, hr⟩ := take?_sound ht
    exact ⟨comma, hr⟩
  · split at h
    · cases h
    · dsimp only at h
      split at h
      · next ht =>
        cases h
        have hnil := (reaches_take? ht).errors_eq_nil he
        exact absurd hnil (errors_fail_ne_nil s .attributeSeparator)
      · split at h <;> cases h

theorem afterEntry_finished_sound {s t : State} (h : afterEntry s = .finished t)
    (he : t.errors = []) : ∃ closing : Leaf .closeBracket, s.rest = closing.token :: t.rest := by
  unfold afterEntry at h
  split at h
  · cases h
  · split at h
    · next ht =>
      cases h
      obtain ⟨closing, -, hr⟩ := take?_sound ht
      exact ⟨closing, hr⟩
    · dsimp only at h
      split at h
      · cases h
      · split at h
        · next ht =>
          cases h
          have hnil := (reaches_take? ht).errors_eq_nil he
          exact absurd hnil (errors_fail_ne_nil s .attributeSeparator)
        · cases h
          exact absurd he (errors_fail_ne_nil s .attributeSeparator)

theorem entries_sound (s : State) (hq : Quoted s) (he : (entries s).2.errors = []) :
    ∃ (first : Pair) (later : List (Leaf .comma × Pair)) (closing : Leaf .closeBracket),
      (entries s).1 = first.entry :: later.map (fun (_, pair) => pair.entry) ∧
      s.rest = first.tokens ++ (laterTokens later ++ closing.token :: (entries s).2.rest) := by
  fun_induction entries s with
  | case1 s t h later u heq ih =>
      have hu := entries_reaches t
      rw [heq] at hu ih
      have ht := hu.errors_eq_nil he
      have ha := afterEntry_reaches (entryOrSkip s).2
      rw [h] at ha
      obtain ⟨first, hfirst, hr⟩ := entryOrSkip_sound hq (ha.errors_eq_nil ht)
      obtain ⟨comma, hc⟩ := afterEntry_another_sound h ht
      obtain ⟨second, others, closing, hlater, hr'⟩ :=
        ih (hq.of_reaches ((entryOrSkip_reaches s).trans ha)) he
      refine ⟨first, (comma, second) :: others, closing, ?_, ?_⟩
      · dsimp only at hlater
        simp [hfirst, hlater]
      · simp [hr, hc, hr', laterTokens]
  | case2 s t h =>
      have ha := afterEntry_reaches (entryOrSkip s).2
      rw [h] at ha
      obtain ⟨first, hfirst, hr⟩ := entryOrSkip_sound hq (ha.errors_eq_nil he)
      obtain ⟨closing, hc⟩ := afterEntry_finished_sound h he
      exact ⟨first, [], closing, by simp [hfirst], by simp [hr, hc, laterTokens]⟩

/-- The fold of a list of entries keeps the last value of every key. -/
theorem ofPairs_eq_lastValues (pairs : List Attribute) :
    Attributes.ofPairs pairs = lastValues pairs := by
  induction pairs using List.reverseRecOn with
  | nil => rfl
  | append_singleton pairs pair ih =>
      have hstep : Attributes.ofPairs (pairs ++ [pair]) = (Attributes.ofPairs pairs).apply pair :=
        List.foldl_append ..
      rw [hstep, ih]
      cases pair <;> simp [lastValues, Attributes.apply]

theorem attributes_sound {s : State} (hq : Quoted s) (hb : s.startsWith .openBracket)
    (he : (attributes s).2.errors = []) :
    ∃ list : AttributeList, (attributes s).1 = list.attributes ∧
      s.rest = list.tokens ++ (attributes s).2.rest := by
  obtain ⟨opening, rest, hs, hk⟩ : ∃ opening rest, s.rest = opening :: rest ∧
      opening.kind = .openBracket := by
    cases hs : s.rest with
    | nil => simp [startsWith, hs] at hb
    | cons opening rest => exact ⟨opening, rest, rfl, by simpa [startsWith, hs] using hb⟩
  have hskip : s.skip.rest = rest := by simp [skip, hs]
  unfold attributes at he ⊢
  split
  · next t ht =>
    obtain ⟨closing, -, hr⟩ := take?_sound ht
    exact ⟨.empty ⟨opening, hk⟩ closing, rfl, by simp [AttributeList.tokens, hs, ← hskip, hr]⟩
  · next ht =>
    rw [ht] at he
    obtain ⟨first, later, closing, hpairs, hr⟩ :=
      entries_sound s.skip (hq.of_reaches s.reaches_skip) he
    refine ⟨.pairs ⟨opening, hk⟩ first later closing, ?_, ?_⟩
    · simp [AttributeList.attributes, ofPairs_eq_lastValues, hpairs]
    · simp [AttributeList.tokens, hs, ← hskip, hr]

theorem attributes?_sound {s : State} (hq : Quoted s) (he : (attributes? s).2.errors = []) :
    ∃ list : Option AttributeList, (attributes? s).1 = list.map AttributeList.attributes ∧
      s.rest = optionalTokens list ++ (attributes? s).2.rest := by
  by_cases hb : s.startsWith .openBracket
  · have hsome : attributes? s = (some (attributes s).1, (attributes s).2) := by
      simp [attributes?, hb]
    rw [hsome] at he ⊢
    obtain ⟨list, ha, hr⟩ := attributes_sound hq hb he
    exact ⟨some list, by simp [ha], hr⟩
  · have hnone : attributes? s = (none, s) := by simp [attributes?, hb]
    rw [hnone]
    exact ⟨none, rfl, rfl⟩

/-! ### Statements -/

theorem direction?_eq_some {kind : TokenKind} {directed : Bool}
    (h : direction? kind = some directed) :
    kind = .undirectedEdge ∧ directed = false ∨ kind = .directedEdge ∧ directed = true := by
  cases kind <;> simp_all [direction?]

theorem operator_sound {s : State} {directed : Bool}
    (h : (s.rest.head?.bind fun token => direction? token.kind) = some directed) :
    ∃ operator : Operator, operator.isArrow = directed ∧
      s.rest = operator.token :: s.skip.rest := by
  cases hs : s.rest with
  | nil => simp [hs] at h
  | cons token rest =>
      have hd : direction? token.kind = some directed := by simpa [hs] using h
      rcases direction?_eq_some hd with ⟨hk, rfl⟩ | ⟨hk, rfl⟩
      · exact ⟨.undirected ⟨token, hk⟩, rfl, by simp [skip, hs, Operator.token]⟩
      · exact ⟨.directed ⟨token, hk⟩, rfl, by simp [skip, hs, Operator.token]⟩

theorem edgeHead_sound {tail : Leaf .identifier} {operator : Operator} {s : State} (hq : Quoted s)
    (he : (edgeHead tail.token operator.isArrow s).2.errors = []) :
    ∃ (head : Leaf .identifier) (list : Option AttributeList),
      (edgeHead tail.token operator.isArrow s).1 =
        ((Statement.edge tail operator head list).edge?.map Declaration.edge) ∧
      s.rest = head.token :: optionalTokens list ++
        (edgeHead tail.token operator.isArrow s).2.rest := by
  cases h : s.expect .identifier .edgeHead with
  | mk found t =>
      cases found with
      | none =>
          have hskip : edgeHead tail.token operator.isArrow s =
              (none, t.skipUntil declarationStops) := by simp [edgeHead, h]
          obtain rfl := expect_none h
          rw [hskip] at he
          have hnil : (s.fail .edgeHead).errors = [] := he
          exact absurd hnil (errors_fail_ne_nil s .edgeHead)
      | some token =>
          have ht : s.Reaches t := by
            have := s.reaches_expect .identifier .edgeHead
            rwa [h] at this
          obtain ⟨head, rfl, hr⟩ := expect_sound h
          have hhead : edgeHead tail.token operator.isArrow s =
              (some (.edge
                { tail := tail.text, tailLocation := tail.token.site.location
                  head := head.text, headLocation := head.token.site.location
                  directed := operator.isArrow, attributes := (attributes? t).1 }),
                (attributes? t).2) := by
            simp [edgeHead, h, Leaf.text]
          rw [hhead] at he ⊢
          obtain ⟨list, ha, hr'⟩ := attributes?_sound (hq.of_reaches ht) he
          exact ⟨head, list, by simp [Statement.edge?, ha], by simp [hr, hr']⟩

/-- The declaration that a statement makes. -/
def declarationOf (statement : Statement) : Option Declaration :=
  (statement.node?.map Declaration.node).or (statement.edge?.map Declaration.edge)

theorem declaration_sound (identifier : Leaf .identifier) {s : State} (hq : Quoted s)
    (he : (declaration identifier.token s).2.errors = []) :
    ∃ statement : Statement,
      (declaration identifier.token s).1 = declarationOf statement ∧
      identifier.token :: s.rest = statement.tokens ++ (declaration identifier.token s).2.rest := by
  cases h : s.rest.head?.bind fun token => direction? token.kind with
  | none =>
      have hnode : declaration identifier.token s =
          (some (.node { identifier := identifier.text,
                         location := identifier.token.site.location,
                         attributes := (attributes? s).1 }), (attributes? s).2) := by
        simp [declaration, h, nodeRest, Leaf.text]
      rw [hnode] at he ⊢
      obtain ⟨list, ha, hr⟩ := attributes?_sound hq he
      exact ⟨.node identifier list, by simp [declarationOf, Statement.node?, ha], by
        simp [Statement.tokens, hr]⟩
  | some directed =>
      obtain ⟨operator, rfl, hr⟩ := operator_sound h
      have hedge : declaration identifier.token s =
          edgeHead identifier.token operator.isArrow s.skip := by
        simp [declaration, h]
      rw [hedge] at he ⊢
      obtain ⟨head, list, hd, hr'⟩ := edgeHead_sound (hq.of_reaches s.reaches_skip) he
      exact ⟨.edge identifier operator head list, by
        simp [hd, declarationOf, Statement.node?], by simp [Statement.tokens, hr, hr']⟩

/-! ### Bodies and documents -/

/-- The declarations of a list of statements. -/
def declarationsOf (statements : List Statement) : List Declaration :=
  statements.flatMap fun statement => (declarationOf statement).toList

theorem body_sound (s : State) (hq : Quoted s) (he : (body s).2.errors = []) :
    ∃ (statements : List Statement) (closing : Leaf .closeBrace),
      (body s).1 = declarationsOf statements ∧
      s.rest = statements.flatMap Statement.tokens ++ [closing.token] := by
  fun_induction body s with
  | case1 s h => exact absurd he (errors_fail_ne_nil s .closeBrace)
  | case2 s token rest h hk u =>
      refine ⟨[], ⟨token, hk⟩, rfl, ?_⟩
      have hu : u.rest = rest := by simp [u, skip, h]
      cases hr : rest with
      | nil => simp [h, hr]
      | cons next rest' =>
          have hne : u.rest.isEmpty = false := by simp [hu, hr]
          simp only [hne] at he
          exact absurd he (errors_fail_ne_nil u .endOfInput)
  | case3 s token rest h hk first later t heq ih =>
      have hskip : s.skip.rest = rest := by simp [skip, h]
      have hq' := hq.of_reaches s.reaches_skip
      have ht := body_reaches first.2
      rw [heq] at ht ih
      obtain ⟨statement, hd, hr⟩ :=
        declaration_sound ⟨token, hk⟩ hq' (ht.errors_eq_nil he)
      obtain ⟨statements, closing, hlater, hr'⟩ :=
        ih (hq'.of_reaches (declaration_reaches token s.skip)) he
      refine ⟨statement :: statements, closing, ?_, ?_⟩
      · dsimp only at hlater hd
        simp [declarationsOf, hlater, first, hd]
      · dsimp only at hr
        rw [h, ← hskip, hr, List.flatMap_cons, List.append_assoc, ← hr']
  | case4 s token rest h hc hi ih =>
      have hreach := (reaches_skip (s.fail .declaration)).trans
        ((reaches_skipUntil _ declarationStops).trans (body_reaches _))
      exact absurd (hreach.errors_eq_nil he) (errors_fail_ne_nil s .declaration)

theorem openBody_sound {s t : State} {found : Bool} (h : openBody s = (found, t))
    (he : t.errors = []) :
    found = true ∧ ∃ opening : Leaf .openBrace, s.rest = opening.token :: t.rest := by
  unfold openBody at h
  cases hs : s.expect .openBrace .openBrace with
  | mk token u =>
      rw [hs] at h
      cases token with
      | some token =>
          obtain ⟨rfl, rfl⟩ := Prod.mk.inj h
          obtain ⟨opening, -, hr⟩ := expect_sound hs
          exact ⟨rfl, opening, hr⟩
      | none =>
          obtain rfl := expect_none hs
          have hu := errors_fail_ne_nil s .openBrace
          dsimp only at h
          split at h
          · next ht =>
            obtain ⟨-, rfl⟩ := Prod.mk.inj h
            exact absurd ((reaches_take? ht).errors_eq_nil he) hu
          · obtain ⟨-, rfl⟩ := Prod.mk.inj h
            exact absurd he hu

theorem declarationsOf_node (statements : List Statement) :
    (declarationsOf statements).filterMap Declaration.node? =
      statements.filterMap Statement.node? := by
  induction statements with
  | nil => rfl
  | cons statement statements ih =>
      have hcons : declarationsOf (statement :: statements) =
          (declarationOf statement).toList ++ declarationsOf statements := rfl
      rw [hcons, List.filterMap_append, ih]
      cases statement <;> rfl

theorem declarationsOf_edge (statements : List Statement) :
    (declarationsOf statements).filterMap Declaration.edge? =
      statements.filterMap Statement.edge? := by
  induction statements with
  | nil => rfl
  | cons statement statements ih =>
      have hcons : declarationsOf (statement :: statements) =
          (declarationOf statement).toList ++ declarationsOf statements := rfl
      rw [hcons, List.filterMap_append, ih]
      cases statement <;> rfl

theorem document_eq_append (sentence : Sentence) :
    sentence.document =
      Document.append
        { graphName := sentence.name.text
          graphAttributes := (sentence.attributes.map AttributeList.attributes).getD {} }
        (declarationsOf sentence.statements) := by
  simp [Document.append_eq, Sentence.document, declarationsOf_node, declarationsOf_edge]

theorem expect_sound_of_errors {s : State} {kind : TokenKind} {expected : Expectation}
    (he : (s.expect kind expected).2.errors = []) :
    ∃ leaf : Leaf kind, (s.expect kind expected).1 = some leaf.token ∧
      s.rest = leaf.token :: (s.expect kind expected).2.rest := by
  cases h : s.expect kind expected with
  | mk found t =>
      rw [h] at he
      cases found with
      | none =>
          obtain rfl := expect_none h
          exact absurd he (errors_fail_ne_nil s expected)
      | some token =>
          obtain ⟨leaf, rfl, hr⟩ := expect_sound h
          exact ⟨leaf, rfl, hr⟩

theorem header_sound (s : State) (hq : Quoted s) (he : (header s).2.errors = []) :
    ∃ (keyword : Leaf .graph) (name : Leaf .identifier) (list : Option AttributeList),
      (header s).1 = { graphName := name.text
                       graphAttributes := (list.map AttributeList.attributes).getD {} } ∧
      s.rest = keyword.token :: name.token :: (optionalTokens list ++ (header s).2.rest) := by
  let s₁ := (s.expect .graph .graphKeyword).2
  let s₂ := (s₁.expect .identifier .graphName).2
  have r₁ : s.Reaches s₁ := s.reaches_expect ..
  have r₂ : s₁.Reaches s₂ := s₁.reaches_expect ..
  have r₃ : s₂.Reaches (attributes? s₂).2 := attributes?_reaches s₂
  obtain ⟨list, hlist, hr₃⟩ :=
    attributes?_sound (hq.of_reaches (r₁.trans r₂)) (show (attributes? s₂).2.errors = [] from he)
  obtain ⟨name, hname, hr₂⟩ := expect_sound_of_errors (r₃.errors_eq_nil he)
  obtain ⟨keyword, -, hr₁⟩ := expect_sound_of_errors (r₂.errors_eq_nil (r₃.errors_eq_nil he))
  refine ⟨keyword, name, list, ?_, ?_⟩
  · change ({ graphName := ((s₁.expect .identifier .graphName).1.map Token.text).getD ""
              graphAttributes := (attributes? s₂).1.getD {} } : Document) = _
    rw [hname, hlist]
    rfl
  · calc s.rest = keyword.token :: s₁.rest := hr₁
      _ = keyword.token :: name.token :: s₂.rest := by rw [← hr₂]
      _ = _ := by rw [hr₃]; rfl

theorem document_of_opened {s t : State} (h : openBody (header s).2 = (true, t)) :
    document s = ((header s).1.append (body t).1, (body t).2) := by
  simp [document, h]

theorem document_of_unopened {s t : State} (h : openBody (header s).2 = (false, t)) :
    document s = ((header s).1, t) := by
  simp [document, h]

theorem document_sound (s : State) (hq : Quoted s) (he : (document s).2.errors = []) :
    ∃ sentence : Sentence, (document s).1 = sentence.document ∧ s.rest = sentence.tokens := by
  have rheader := header_reaches s
  have ropen := openBody_reaches (header s).2
  cases h : openBody (header s).2 with
  | mk found t =>
      rw [h] at ropen
      cases found with
      | false =>
          rw [document_of_unopened h] at he
          cases (openBody_sound h he).1
      | true =>
          rw [document_of_opened h] at he ⊢
          have ht : t.errors = [] := (body_reaches t).errors_eq_nil he
          obtain ⟨-, opening, hopen⟩ := openBody_sound h ht
          obtain ⟨keyword, name, list, hheader, hr⟩ :=
            header_sound s hq (ropen.errors_eq_nil ht)
          obtain ⟨statements, closing, hbody, hr'⟩ :=
            body_sound t (hq.of_reaches (rheader.trans ropen)) he
          refine ⟨⟨keyword, name, list, opening, statements, closing⟩, ?_, ?_⟩
          · rw [document_eq_append, hheader, hbody]
          · rw [hr, hopen, hr']
            rfl

end NodeLink.Parse
