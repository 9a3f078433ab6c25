import NodeLink.Document.Cursor

/-! # A cursor and the tokens that are left

A cursor that is not beyond the end stands for a state of the parser, that which has the tokens
behind the cursor left to read (`Cursor.At`).  Every function of a cursor reads what the function of
the same name reads of the tokens that are left, and takes the cursor to where this one ends
(`Cursor.Reads`).  So what is known of the tokens that are left holds of the cursor: it is further
on where fewer are left (`Cursor.At.index_lt_index`), and it is nowhere beyond the end. -/

namespace NodeLink.Parse

open NodeLink.Source

variable {input : Input}

/-- A cursor, not beyond the end, behind which the tokens stand that a state has left to read. -/
structure Cursor.At (input : Input) (c : Cursor) (s : State) : Prop where
  index_le : c.index ≤ input.tokens.size
  rest : input.tokens.toList.drop c.index = s.rest
  errors : c.errors = s.errors
  finish : input.finish = s.finish

/-- A result of reading at a cursor that is one of reading the tokens that are left. -/
structure Cursor.Reads {α : Type} (input : Input) (x : α × Cursor) (y : α × State) : Prop where
  value : x.1 = y.1
  at_state : x.2.At input y.2

/-- The state that a cursor stands for. -/
def Cursor.state (input : Input) (c : Cursor) : State :=
  ⟨input.tokens.toList.drop c.index, c.errors, input.finish⟩

namespace Cursor

theorem at_state {c : Cursor} (h : c.index ≤ input.tokens.size) : c.At input (c.state input) :=
  ⟨h, rfl, rfl, rfl⟩

namespace At

variable {c d : Cursor} {s t : State}

/-! ### How far a cursor is -/

theorem index_add_length (h : c.At input s) : c.index + s.rest.length = input.tokens.size := by
  rw [← h.rest, List.length_drop, Array.length_toList]
  exact Nat.add_sub_cancel' h.index_le

theorem index_le_index (h : c.At input s) (h' : d.At input t)
    (hle : t.rest.length ≤ s.rest.length) : c.index ≤ d.index := by
  have hc := h.index_add_length
  have hd := h'.index_add_length
  omega

/-- Where fewer tokens are left a cursor is further. -/
theorem index_lt_index (h : c.At input s) (h' : d.At input t)
    (hlt : t.rest.length < s.rest.length) : c.index < d.index := by
  have hc := h.index_add_length
  have hd := h'.index_add_length
  omega

/-! ### Moves -/

theorem peek?_eq (h : c.At input s) : c.peek? input = s.rest.head? := by
  rw [← h.rest, List.head?_drop, Array.getElem?_toList]
  rfl

theorem next (h : c.At input s) {token : Token} {later : List Token}
    (hrest : s.rest = token :: later) :
    Cursor.At input { c with index := c.index + 1 } { s with rest := later } where
  index_le := by
    have hlength := h.index_add_length
    rw [hrest, List.length_cons] at hlength
    dsimp only
    omega
  rest := by
    rw [← List.tail_drop, h.rest, hrest]
    rfl
  errors := h.errors
  finish := h.finish

theorem startsWith_eq (h : c.At input s) (kind : TokenKind) :
    c.startsWith input kind = s.startsWith kind := by
  rw [Cursor.startsWith, h.peek?_eq]
  rfl

theorem problem_eq (h : c.At input s) (expected : Expectation) :
    c.problem input expected = s.problem expected := by
  rw [Cursor.problem, h.peek?_eq, h.finish, State.problem]
  cases s.rest <;> rfl

theorem fail (h : c.At input s) (expected : Expectation) :
    (c.fail input expected).At input (s.fail expected) := by
  rw [Cursor.fail, State.fail, h.problem_eq, h.errors]
  split
  · exact h
  · exact ⟨h.index_le, h.rest, rfl, h.finish⟩

theorem skip (h : c.At input s) : (c.skip input).At input s.skip := by
  rw [Cursor.skip, h.peek?_eq]
  obtain ⟨rest, errors, finish⟩ := s
  cases rest with
  | nil => exact h
  | cons token later => exact h.next rfl

theorem take?_cases (h : c.At input s) (kind : TokenKind) :
    c.take? input kind = none ∧ s.take? kind = none ∨
      ∃ (token : Token) (d : Cursor) (t : State), c.take? input kind = some (token, d) ∧
        s.take? kind = some (token, t) ∧ d.At input t := by
  rw [Cursor.take?, h.peek?_eq, State.take?]
  cases hrest : s.rest with
  | nil => exact .inl ⟨rfl, rfl⟩
  | cons token later =>
    by_cases hkind : token.kind = kind
    · exact .inr ⟨token, _, _, if_pos hkind, if_pos hkind, h.next hrest⟩
    · exact .inl ⟨if_neg hkind, if_neg hkind⟩

theorem take?_of_rest (h : c.At input s) {token : Token} {later : List Token}
    (hrest : s.rest = token :: later) :
    c.take? input token.kind = some (token, { c with index := c.index + 1 }) := by
  rw [Cursor.take?, h.peek?_eq, hrest]
  exact if_pos rfl

theorem expect_reads (h : c.At input s) (kind : TokenKind) (expected : Expectation) :
    Reads input (c.expect input kind expected) (s.expect kind expected) := by
  unfold Cursor.expect State.expect
  rcases h.take?_cases kind with ⟨hc, hs⟩ | ⟨token, d, t, hc, hs, hnext⟩
  · rw [hc, hs]
    exact ⟨rfl, h.fail expected⟩
  · rw [hc, hs]
    exact ⟨rfl, hnext⟩

/-- The tokens that skipping moves over are those that are dropped. -/
theorem skipUntil (h : c.At input s) (stops : List TokenKind) :
    (c.skipUntil input stops).At input (s.skipUntil stops) := by
  obtain ⟨rest, errors, finish⟩ := s
  fun_induction Cursor.skipUntil input stops c generalizing rest with
  | case1 c token hnext hstop =>
    rw [h.peek?_eq] at hnext
    obtain ⟨later, rfl⟩ := List.head?_eq_some_iff.mp hnext
    rw [State.skipUntil, List.dropWhile_cons_of_neg (by simpa using hstop)]
    exact h
  | case2 c token hnext hgo ih =>
    rw [h.peek?_eq] at hnext
    obtain ⟨later, rfl⟩ := List.head?_eq_some_iff.mp hnext
    rw [State.skipUntil, List.dropWhile_cons_of_pos (by simpa using hgo)]
    exact ih later (h.next rfl)
  | case3 c hnone =>
    rw [h.peek?_eq] at hnone
    obtain rfl : rest = [] := List.head?_eq_none_iff.mp hnone
    exact h

/-! ### Entries of attribute lists -/

theorem textOf_reads (h : c.At input s) (kind : TokenKind) (expected : Expectation) :
    Reads input (c.textOf input kind expected) (Parse.textOf s kind expected) := by
  unfold Cursor.textOf Parse.textOf Cursor.expect State.expect
  rcases h.take?_cases kind with ⟨hc, hs⟩ | ⟨token, d, t, hc, hs, hnext⟩
  · rw [hc, hs]
    exact ⟨rfl, h.fail expected⟩
  · rw [hc, hs]
    exact ⟨rfl, hnext⟩

theorem unquotedTextOf_reads (h : c.At input s) (kind : TokenKind) (expected : Expectation) :
    Reads input (c.unquotedTextOf input kind expected) (Parse.unquotedTextOf s kind expected) := by
  obtain ⟨htext, hat⟩ := h.textOf_reads kind expected
  exact ⟨congrArg (Option.map unquote) htext, hat⟩

theorem stringOrIdentifier_reads (h : c.At input s) :
    Reads input (c.stringOrIdentifier input) (Parse.stringOrIdentifier s) := by
  unfold Cursor.stringOrIdentifier Parse.stringOrIdentifier
  rcases h.take?_cases .string with ⟨hc, hs⟩ | ⟨token, d, t, hc, hs, hnext⟩
  · rw [hc, hs]
    exact h.unquotedTextOf_reads _ _
  · rw [hc, hs]
    exact ⟨rfl, hnext⟩

theorem assigned_reads (h : c.At input s) {value : Cursor → Option String × Cursor}
    {value' : State → Option String × State}
    (hvalue : ∀ {d : Cursor} {t : State}, d.At input t → Reads input (value d) (value' t)) :
    Reads input (c.assigned input value) (Parse.assigned s value') := by
  unfold Cursor.assigned Parse.assigned Cursor.expect State.expect
  rcases h.take?_cases .equal with ⟨hc, hs⟩ | ⟨token, d, t, hc, hs, hnext⟩
  · rw [hc, hs]
    exact ⟨rfl, h.fail _⟩
  · rw [hc, hs]
    exact hvalue hnext

theorem entry_reads (h : c.At input s) : Reads input (c.entry input) (Parse.entry s) := by
  have valued {make : String → Attribute} {value : Cursor → Option String × Cursor}
      {value' : State → Option String × State}
      (hvalue : ∀ {d : Cursor} {t : State}, d.At input t → Reads input (value d) (value' t)) :
      Reads input
        (((c.skip input).assigned input value).1.map make,
          ((c.skip input).assigned input value).2)
        ((Parse.assigned s.skip value').1.map make, (Parse.assigned s.skip value').2) := by
    obtain ⟨htext, hat⟩ := h.skip.assigned_reads hvalue
    exact ⟨congrArg (Option.map make) htext, hat⟩
  unfold Cursor.entry Parse.entry
  rw [h.peek?_eq]
  cases hrest : s.rest with
  | nil => exact ⟨rfl, h.fail _⟩
  | cons key later =>
    dsimp only [List.head?_cons]
    cases key.kind with
    | bundle => exact ⟨rfl, h.skip⟩
    | color => exact valued stringOrIdentifier_reads
    | label | font | fontSize => exact valued fun hat => hat.unquotedTextOf_reads _ _
    | lineWidth => exact valued fun hat => hat.textOf_reads _ _
    | _ => exact ⟨rfl, h.fail _⟩

theorem entryOrSkip_reads (h : c.At input s) :
    Reads input (c.entryOrSkip input) (Parse.entryOrSkip s) := by
  obtain ⟨hfound, hat⟩ := h.entry_reads
  unfold Cursor.entryOrSkip Parse.entryOrSkip
  cases hc : c.entry input with
  | mk found d =>
    cases hs : Parse.entry s with
    | mk found' t =>
      rw [hc, hs] at hfound hat
      obtain rfl : found = found' := hfound
      cases found with
      | none => exact ⟨rfl, hat.skipUntil entryStops⟩
      | some found => exact ⟨rfl, hat⟩

theorem afterEntry_cases (h : c.At input s) :
    ∃ (d : Cursor) (t : State), d.At input t ∧
      (c.afterEntry input = (true, d) ∧ Parse.afterEntry s = .another t ∨
        c.afterEntry input = (false, d) ∧ Parse.afterEntry s = .finished t) := by
  have hskip := (h.fail .attributeSeparator).skipUntil entryStops
  unfold Cursor.afterEntry Parse.afterEntry
  rcases h.take?_cases .comma with ⟨hc, hs⟩ | ⟨token, d, t, hc, hs, hnext⟩
  · rw [hc, hs]
    rcases h.take?_cases .closeBracket with ⟨hc, hs⟩ | ⟨token, d, t, hc, hs, hnext⟩
    · rw [hc, hs]
      dsimp only
      rcases hskip.take?_cases .comma with ⟨hc, hs⟩ | ⟨token, d, t, hc, hs, hnext⟩
      · rw [hc, hs]
        rcases hskip.take?_cases .closeBracket with ⟨hc, hs⟩ | ⟨token, d, t, hc, hs, hnext⟩
        · rw [hc, hs]
          exact ⟨_, _, hskip, .inr ⟨rfl, rfl⟩⟩
        · rw [hc, hs]
          exact ⟨d, t, hnext, .inr ⟨rfl, rfl⟩⟩
      · rw [hc, hs]
        exact ⟨d, t, hnext, .inl ⟨rfl, rfl⟩⟩
    · rw [hc, hs]
      exact ⟨d, t, hnext, .inr ⟨rfl, rfl⟩⟩
  · rw [hc, hs]
    exact ⟨d, t, hnext, .inl ⟨rfl, rfl⟩⟩

/-! ### Edges -/

/-- What starts with an identifier is an edge if an operator follows; then it fails where the other
end is missing. -/
theorem edge_cases (h : c.At input s) {tail : Token} {later : List Token}
    (hrest : s.rest = tail :: later) (htail : tail.kind = .identifier) :
    ((s.skip.rest.head?.bind fun operator => direction? operator.kind) = none ∧
        ∃ away : Cursor, c.edge input = .noEdge away ∧ away.errors = c.errors) ∨
      ∃ (directed : Bool) (d : Cursor) (t : State),
        (s.skip.rest.head?.bind fun operator => direction? operator.kind) = some directed ∧
        d.At input t ∧
        ((∃ head : Token, s.skip.skip.expect .identifier .edgeHead = (some head, t) ∧
            c.edge input = .edge tail head directed d) ∨
          s.skip.skip.expect .identifier .edgeHead = (none, t) ∧ c.edge input = .failed d) := by
  have hskip : s.skip = { s with rest := later } := by rw [State.skip, hrest, List.tail_cons]
  have hnext : Cursor.At input { c with index := c.index + 1 } s.skip := hskip ▸ h.next hrest
  unfold Cursor.edge
  rw [← htail, h.take?_of_rest hrest]
  dsimp only
  rw [hnext.peek?_eq]
  cases s.skip.rest.head?.bind fun operator => direction? operator.kind with
  | none => exact .inl ⟨rfl, _, rfl, rfl⟩
  | some directed =>
    right
    unfold Cursor.expect State.expect
    rcases hnext.skip.take?_cases .identifier with ⟨hc, hs⟩ | ⟨head, d, t, hc, hs, hat⟩
    · rw [htail, hc, hs]
      exact ⟨directed, _, _, rfl, hnext.skip.fail .edgeHead, .inr ⟨rfl, rfl⟩⟩
    · rw [htail, hc, hs]
      exact ⟨directed, d, t, rfl, hat, .inl ⟨head, rfl, rfl⟩⟩

end At

end Cursor

end NodeLink.Parse
