import NodeLink.Document.Parse
import Mathlib.Logic.Relation

/-! # How a run of the parser moves on

A run of the parser makes two kinds of moves: it goes on to a later token, or it fails where it
stands (`State.Move`).  Every function of the parser goes from a state to one that it reaches by
such moves (`entries_reaches`, `body_reaches`), so what both moves keep a run keeps
(`Reaches.preserves`).  No error is ever taken back (`Reaches.errors_eq_nil`) and no token is read
twice (`Reaches.rest`). -/

namespace NodeLink.Parse

open NodeLink.Source

namespace State

/-- One move of a run: on to a later token, or a failure where the run stands. -/
inductive Move : State → State → Prop
  | forward {s : State} {rest : List Token} (h : rest <:+ s.rest) : Move s { s with rest }
  | fail (s : State) (expected : Expectation) : Move s (s.fail expected)

/-- A later state of the same run. -/
def Reaches : State → State → Prop := Relation.ReflTransGen Move

theorem Reaches.refl (s : State) : s.Reaches s := Relation.ReflTransGen.refl

theorem Reaches.trans {s t u : State} (h : s.Reaches t) (h' : t.Reaches u) : s.Reaches u :=
  Relation.ReflTransGen.trans h h'

/-- What every move keeps a run keeps. -/
theorem Reaches.preserves {P : State → Prop} (hmove : ∀ {s t : State}, Move s t → P s → P t)
    {s t : State} (h : s.Reaches t) (hs : P s) : P t := by
  induction h with
  | refl => exact hs
  | tail _ hlast ih => exact hmove hlast ih

theorem finish_fail (s : State) (expected : Expectation) :
    (s.fail expected).finish = s.finish := by
  unfold fail
  split <;> rfl

theorem errors_suffix_fail (s : State) (expected : Expectation) :
    s.errors <:+ (s.fail expected).errors := by
  unfold fail
  split
  · exact List.suffix_rfl
  · exact List.suffix_cons _ _

theorem Reaches.rest {s t : State} (h : s.Reaches t) : t.rest <:+ s.rest := by
  refine h.preserves (P := fun t => t.rest <:+ s.rest) (fun {t u} hmove ht => ?_) List.suffix_rfl
  cases hmove with
  | forward hrest => exact hrest.trans ht
  | fail expected => rwa [rest_fail]

theorem Reaches.errors {s t : State} (h : s.Reaches t) : s.errors <:+ t.errors := by
  refine h.preserves (P := fun t => s.errors <:+ t.errors) (fun {t u} hmove ht => ?_)
    List.suffix_rfl
  cases hmove with
  | forward hrest => exact ht
  | fail expected => exact ht.trans (errors_suffix_fail t expected)

/-- A state that is reached without errors was reached from one without errors. -/
theorem Reaches.errors_eq_nil {s t : State} (h : s.Reaches t) (ht : t.errors = []) :
    s.errors = [] := by
  have := h.errors
  rw [ht] at this
  exact List.suffix_nil.mp this

theorem reaches_of_rest {s : State} {rest : List Token} (h : rest <:+ s.rest) :
    s.Reaches { s with rest } :=
  Relation.ReflTransGen.single (.forward h)

/-! ### The moves of a state -/

/-- After a failure there is an error, be it the new one or the one at the same place. -/
theorem errors_fail_ne_nil (s : State) (expected : Expectation) :
    (s.fail expected).errors ≠ [] := by
  unfold fail
  split
  · next h =>
    intro hnil
    simp [hnil] at h
  · simp

theorem reaches_fail (s : State) (expected : Expectation) : s.Reaches (s.fail expected) :=
  Relation.ReflTransGen.single (.fail s expected)

theorem reaches_skip (s : State) : s.Reaches s.skip := reaches_of_rest (List.tail_suffix _)

theorem reaches_skipUntil (s : State) (stops : List TokenKind) : s.Reaches (s.skipUntil stops) :=
  reaches_of_rest (List.dropWhile_suffix _)

theorem take?_eq_some_iff {s t : State} {kind : TokenKind} {token : Token} :
    s.take? kind = some (token, t) ↔
      token.kind = kind ∧ s.rest = token :: t.rest ∧ t = { s with rest := t.rest } := by
  unfold take?
  cases hr : s.rest with
  | nil => simp
  | cons first rest =>
      by_cases hk : first.kind = kind
      · simp only [hk, if_true, Option.some.injEq, Prod.mk.injEq, List.cons.injEq]
        constructor
        · rintro ⟨rfl, rfl⟩
          exact ⟨hk, ⟨rfl, rfl⟩, rfl⟩
        · rintro ⟨-, ⟨rfl, rfl⟩, ht⟩
          exact ⟨rfl, ht.symm⟩
      · simp only [hk, if_false, reduceCtorEq, List.cons.injEq, false_iff]
        rintro ⟨hk', ⟨rfl, -⟩, -⟩
        exact hk hk'

theorem reaches_take? {s t : State} {kind : TokenKind} {token : Token}
    (h : s.take? kind = some (token, t)) : s.Reaches t := by
  obtain ⟨-, hr, ht⟩ := take?_eq_some_iff.mp h
  rw [ht]
  exact reaches_of_rest (hr ▸ List.suffix_cons _ _)

theorem reaches_expect (s : State) (kind : TokenKind) (expected : Expectation) :
    s.Reaches (s.expect kind expected).2 := by
  unfold expect
  split
  · next h => exact reaches_take? h
  · exact reaches_fail s expected

end State

open State

/-! ### Attribute lists -/

theorem textOf_reaches (s : State) (kind : TokenKind) (expected : Expectation) :
    s.Reaches (textOf s kind expected).2 := by
  have h := s.reaches_expect kind expected
  unfold textOf
  split
  · next heq => rwa [heq] at h
  · next heq => rwa [heq] at h

theorem unquotedTextOf_reaches (s : State) (kind : TokenKind) (expected : Expectation) :
    s.Reaches (unquotedTextOf s kind expected).2 :=
  textOf_reaches s kind expected

theorem stringOrIdentifier_reaches (s : State) : s.Reaches (stringOrIdentifier s).2 := by
  unfold stringOrIdentifier
  split
  · next h => exact reaches_take? h
  · exact unquotedTextOf_reaches ..

theorem assigned_reaches (s : State) (value : State → Option String × State)
    (hv : ∀ s : State, s.Reaches (value s).2) : s.Reaches (assigned s value).2 := by
  have h := s.reaches_expect .equal .equalSign
  unfold assigned
  split
  · next heq =>
    rw [heq] at h
    exact h.trans (hv _)
  · next heq => rwa [heq] at h

theorem entry_reaches (s : State) : s.Reaches (entry s).2 := by
  have hs := s.reaches_skip
  have quoted := fun s => unquotedTextOf_reaches s .string .stringLiteral
  unfold entry
  split
  · exact reaches_fail ..
  · dsimp only
    split
    · exact hs
    · exact hs.trans (assigned_reaches _ _ stringOrIdentifier_reaches)
    · exact hs.trans (assigned_reaches _ _ quoted)
    · exact hs.trans (assigned_reaches _ _ quoted)
    · exact hs.trans (assigned_reaches _ _ quoted)
    · exact hs.trans (assigned_reaches _ _ fun s => textOf_reaches s _ _)
    · exact reaches_fail ..

theorem entryOrSkip_reaches (s : State) : s.Reaches (entryOrSkip s).2 := by
  have h := entry_reaches s
  unfold entryOrSkip
  split
  · next heq => rwa [heq] at h
  · next heq =>
    rw [heq] at h
    exact h.trans (reaches_skipUntil ..)

/-- The state after an entry and what follows it. -/
def AfterEntry.state : AfterEntry → State
  | .another s => s
  | .finished s => s

theorem afterEntry_reaches (s : State) : s.Reaches (afterEntry s).state := by
  have hskip := (reaches_fail s .attributeSeparator).trans (reaches_skipUntil _ entryStops)
  unfold afterEntry
  split
  · next h => exact reaches_take? h
  · split
    · next h => exact reaches_take? h
    · dsimp only
      split
      · next h => exact hskip.trans (reaches_take? h)
      · split
        · next h => exact hskip.trans (reaches_take? h)
        · exact hskip

theorem entries_reaches (s : State) : s.Reaches (entries s).2 := by
  fun_induction entries s with
  | case1 s t h later u heq ih =>
      have ha := afterEntry_reaches (entryOrSkip s).2
      rw [h] at ha
      rw [heq] at ih
      exact (entryOrSkip_reaches s).trans (ha.trans ih)
  | case2 s t h =>
      have ha := afterEntry_reaches (entryOrSkip s).2
      rw [h] at ha
      exact (entryOrSkip_reaches s).trans ha

theorem attributes_reaches (s : State) : s.Reaches (attributes s).2 := by
  unfold attributes
  split
  · next h => exact (reaches_skip s).trans (reaches_take? h)
  · exact (reaches_skip s).trans (entries_reaches _)

theorem attributes?_reaches (s : State) : s.Reaches (attributes? s).2 := by
  unfold attributes?
  split
  · exact attributes_reaches s
  · exact Reaches.refl s

/-! ### Declarations and documents -/

theorem edgeHead_reaches (tail : Token) (directed : Bool) (s : State) :
    s.Reaches (edgeHead tail directed s).2 := by
  have h := s.reaches_expect .identifier .edgeHead
  unfold edgeHead
  split
  · next heq =>
    rw [heq] at h
    exact h.trans (attributes?_reaches _)
  · next heq =>
    rw [heq] at h
    exact h.trans (reaches_skipUntil ..)

theorem declaration_reaches (identifier : Token) (s : State) :
    s.Reaches (declaration identifier s).2 := by
  unfold declaration
  split
  · exact (reaches_skip s).trans (edgeHead_reaches ..)
  · exact attributes?_reaches s

theorem body_reaches (s : State) : s.Reaches (body s).2 := by
  fun_induction body s with
  | case1 s h => exact reaches_fail ..
  | case2 s token rest h hk u =>
      split
      · exact reaches_skip s
      · exact (reaches_skip s).trans (reaches_fail ..)
  | case3 s token rest h hk first later t heq ih =>
      rw [heq] at ih
      exact (reaches_skip s).trans ((declaration_reaches token s.skip).trans ih)
  | case4 s token rest h hc hi ih =>
      exact (reaches_fail s .declaration).trans
        ((reaches_skip _).trans ((reaches_skipUntil _ declarationStops).trans ih))

theorem openBody_reaches (s : State) : s.Reaches (openBody s).2 := by
  have h := s.reaches_expect .openBrace .openBrace
  unfold openBody
  split
  · next heq => rwa [heq] at h
  · next heq =>
    rw [heq] at h
    have hskip := h.trans (reaches_skipUntil _ [.openBrace])
    dsimp only
    split
    · next ht => exact hskip.trans (reaches_take? ht)
    · exact hskip

theorem header_reaches (s : State) : s.Reaches (header s).2 :=
  (s.reaches_expect .graph .graphKeyword).trans
    ((State.reaches_expect _ .identifier .graphName).trans (attributes?_reaches _))

theorem openBody_reaches_document (s : State) :
    (openBody (header s).2).2.Reaches (document s).2 := by
  simp only [document]
  split
  · next heq =>
    rw [heq]
    exact body_reaches _
  · next heq =>
    rw [heq]
    exact Reaches.refl _

theorem document_reaches (s : State) : s.Reaches (document s).2 :=
  (header_reaches s).trans ((openBody_reaches _).trans (openBody_reaches_document s))

end NodeLink.Parse
