import NodeLink.Proofs.Source.Partition
import NodeLink.Proofs.Source.TokenRules

/-! # Scanning is maximal munch

`Munched` says what a scan should find in a text, without a word on how: the longest match of the
token rules where there is one, and otherwise an error for all characters up to the next one where
there is one.  This leaves no choice, and it is what a scan finds (`tokenize_maximalMunch`).  So an
error never follows an error, and as a character of white space is a token of its own, none stands
in an error. -/

namespace NodeLink.Source

open NodeLink.Text

/-- No token starts at any character of the run, and one starts behind it, or the text ends. -/
structure MaximalRun (run rest : List Char) : Prop where
  nonempty : run ≠ []
  unmatched (skipped tail : List Char) (hrun : skipped ++ tail = run) (hne : tail ≠ []) :
    ¬ StartsToken (tail ++ rest)
  stops : rest = [] ∨ StartsToken rest

/-- What maximal munch finds in a text that starts at a position, trivia included. -/
inductive Munched : Position → List Char → Lexed → Prop
  | done (position : Position) : Munched position [] {}
  | token {position : Position} {kind : TokenKind} {text rest : List Char} {found : Lexed}
      (h : LongestMatch kind text rest) (hrest : Munched (position.advance text) rest found) :
      Munched position (text ++ rest)
        { found with
          tokens := ⟨kind, String.ofList text, Site.covering position text⟩ :: found.tokens }
  | error {position : Position} {run rest : List Char} {found : Lexed}
      (h : MaximalRun run rest) (hrest : Munched (position.advance run) rest found) :
      Munched position (run ++ rest)
        { found with
          errors := ⟨String.ofList run, Site.covering position run⟩ :: found.errors }

theorem LongestMatch.nextToken?_eq {kind : TokenKind} {text rest : List Char}
    (h : LongestMatch kind text rest) : nextToken? (text ++ rest) = some ⟨kind, text, rest⟩ :=
  nextToken?_eq_some_iff.mpr ⟨rfl, h⟩

theorem LongestMatch.text_ne_nil {kind : TokenKind} {text rest : List Char}
    (h : LongestMatch kind text rest) : text ≠ [] :=
  (nextToken?_splits h.nextToken?_eq).text_ne_nil

theorem isSome_nextToken?_iff {input : List Char} :
    (nextToken? input).isSome = true ↔ StartsToken input := by
  rw [Option.isSome_iff_ne_none, Ne, nextToken?_eq_none_iff, not_not]

/-! ### Runs of characters that start no token -/

theorem badRun_of_startsToken {input : List Char} (h : StartsToken input) :
    badRun input = [] ∧ afterBadRun input = input := by
  cases input with
  | nil => exact ⟨rfl, rfl⟩
  | cons c rest =>
      have hsome := isSome_nextToken?_iff.mpr h
      exact ⟨by rw [badRun, if_pos hsome], by rw [afterBadRun, if_pos hsome]⟩

theorem badRun_of_not_startsToken {c : Char} {rest : List Char} (h : ¬ StartsToken (c :: rest)) :
    badRun (c :: rest) = c :: badRun rest ∧ afterBadRun (c :: rest) = afterBadRun rest := by
  have hnone := isSome_nextToken?_iff.not.mpr h
  exact ⟨by rw [badRun, if_neg hnone], by rw [afterBadRun, if_neg hnone]⟩

theorem maximalRun_badRun {input : List Char} (hne : badRun input ≠ []) :
    MaximalRun (badRun input) (afterBadRun input) where
  nonempty := hne
  unmatched := by
    intro skipped tail hrun htail
    clear hne
    induction input generalizing skipped with
    | nil => exact absurd (List.append_eq_nil_iff.mp hrun).2 htail
    | cons c rest ih =>
        by_cases h : StartsToken (c :: rest)
        · rw [(badRun_of_startsToken h).1] at hrun
          exact absurd (List.append_eq_nil_iff.mp hrun).2 htail
        · obtain ⟨hbad, hafter⟩ := badRun_of_not_startsToken h
          rw [hbad] at hrun
          rw [hafter]
          cases skipped with
          | nil =>
              rw [List.nil_append] at hrun
              rw [hrun, List.cons_append, badRun_append_afterBadRun]
              exact h
          | cons d skipped => exact ih skipped (List.cons.inj hrun).2
  stops := by
    clear hne
    induction input with
    | nil => exact .inl rfl
    | cons c rest ih =>
        by_cases h : StartsToken (c :: rest)
        · rw [(badRun_of_startsToken h).2]
          exact .inr h
        · rw [(badRun_of_not_startsToken h).2]
          exact ih

/-- A maximal run is what the characters up to the next token are. -/
theorem badRun_append {run rest : List Char}
    (hrun : ∀ skipped tail : List Char, skipped ++ tail = run → tail ≠ [] →
      ¬ StartsToken (tail ++ rest)) (hrest : rest = [] ∨ StartsToken rest) :
    badRun (run ++ rest) = run ∧ afterBadRun (run ++ rest) = rest := by
  induction run with
  | nil =>
      rcases hrest with rfl | h
      · exact ⟨rfl, rfl⟩
      · exact badRun_of_startsToken h
  | cons c run ih =>
      have hc : ¬ StartsToken (c :: (run ++ rest)) := hrun [] _ rfl (by simp)
      obtain ⟨hbad, hafter⟩ := badRun_of_not_startsToken hc
      obtain ⟨ihbad, ihafter⟩ := ih fun skipped tail h =>
        hrun (c :: skipped) tail (congrArg (c :: ·) h)
      rw [List.cons_append, hbad, hafter, ihbad, ihafter]
      exact ⟨rfl, rfl⟩

theorem MaximalRun.isBlank_eq_false {run rest : List Char} (h : MaximalRun run rest) {c : Char}
    (hc : c ∈ run) : isBlank c = false := by
  obtain ⟨skipped, tail, rfl⟩ := List.append_of_mem hc
  refine Bool.eq_false_iff.mpr fun hblank => h.unmatched skipped _ rfl (List.cons_ne_nil c tail) ?_
  refine ⟨.whitespace, [c], ⟨tail ++ rest, rfl⟩, .whitespace (List.cons_ne_nil c []) ?_⟩
  intro d hd
  rw [List.mem_singleton.mp hd]
  exact hblank

/-! ### What is munched is what a scan finds -/

theorem munched_pieces (position : Position) (input : List Char) :
    Munched position input (Lexed.ofPieces (placeFrom position (pieces input))) := by
  fun_induction pieces input generalizing position with
  | case1 => exact .done position
  | case2 c rest munch h ih =>
      have hinput := (nextToken?_splits h).append_eq
      rw [← hinput]
      exact .token (nextToken?_longest h) (ih _)
  | case3 c rest h ih =>
      have hnone : ¬ StartsToken (c :: rest) := nextToken?_eq_none_iff.mp h
      obtain ⟨hbad, hafter⟩ := badRun_of_not_startsToken hnone
      have hne : badRun (c :: rest) ≠ [] := by simp [hbad]
      have hrun := maximalRun_badRun hne
      rw [hbad, hafter] at hrun
      have hinput : c :: badRun rest ++ afterBadRun rest = c :: rest :=
        congrArg (c :: ·) (badRun_append_afterBadRun rest)
      have hmunched := Munched.error hrun (ih (position.advance (c :: badRun rest)))
      rw [hinput] at hmunched
      exact hmunched

/-- Maximal munch leaves no choice. -/
theorem Munched.eq_ofPieces {position : Position} {input : List Char} {lexed : Lexed}
    (h : Munched position input lexed) :
    lexed = Lexed.ofPieces (placeFrom position (pieces input)) := by
  induction h with
  | done position =>
      rw [pieces]
      rfl
  | @token position kind text rest found h hrest ih =>
      have hread := h.nextToken?_eq
      obtain ⟨c, text, rfl⟩ := List.exists_cons_of_ne_nil h.text_ne_nil
      rw [List.cons_append] at hread ⊢
      rw [ih, pieces_token hread]
      rfl
  | @error position run rest found h hrest ih =>
      obtain ⟨hbad, hafter⟩ := badRun_append h.unmatched h.stops
      obtain ⟨c, run, rfl⟩ := List.exists_cons_of_ne_nil h.nonempty
      have hc : ¬ StartsToken (c :: (run ++ rest)) := h.unmatched [] _ rfl (by simp)
      rw [List.cons_append, (badRun_of_not_startsToken hc).1] at hbad
      rw [List.cons_append, (badRun_of_not_startsToken hc).2] at hafter
      rw [ih, List.cons_append, pieces_bad (nextToken?_eq_none_iff.mpr hc), hbad, hafter]
      rfl

theorem munched_iff (source : String) (lexed : Lexed) :
    Munched {} source.toList lexed ↔ lexed = tokenizeWithTrivia source := by
  rw [tokenizeWithTrivia_eq]
  constructor
  · exact Munched.eq_ofPieces
  · rintro rfl
    exact munched_pieces {} source.toList

/-! ### Errors -/

theorem offset_lt_advance {text : List Char} (h : text ≠ []) (position : Position) :
    position.offset < (position.advance text).offset := by
  rw [offset_advance]
  exact Nat.lt_add_of_pos_right (utf8Len_pos h)

namespace Munched

variable {position : Position} {input : List Char} {lexed : Lexed}

theorem isBlank_eq_false (h : Munched position input lexed) :
    ∀ error ∈ lexed.errors, ∀ c ∈ error.text.toList, isBlank c = false := by
  induction h with
  | done position => exact fun error herror => absurd herror List.not_mem_nil
  | token h hrest ih => exact ih
  | error h hrest ih =>
      intro error herror c hc
      rcases List.mem_cons.mp herror with rfl | herror
      · rw [String.toList_ofList] at hc
        exact h.isBlank_eq_false hc
      · exact ih error herror c hc

theorem offset_le (h : Munched position input lexed) : ∀ error ∈ lexed.errors,
    position.offset ≤ error.site.span.start ∧ error.site.span.start < error.site.span.stop := by
  induction h with
  | done position => exact fun error herror => absurd herror List.not_mem_nil
  | @token position kind text rest found h hrest ih =>
      intro error herror
      obtain ⟨hle, hlt⟩ := ih error herror
      have := offset_lt_advance h.text_ne_nil position
      exact ⟨by omega, hlt⟩
  | @error position run rest found h hrest ih =>
      have hlt := offset_lt_advance h.nonempty position
      intro error herror
      rcases List.mem_cons.mp herror with rfl | herror
      · exact ⟨Nat.le_refl _, hlt⟩
      · obtain ⟨hle, hne⟩ := ih error herror
        exact ⟨by omega, hne⟩

theorem offset_lt (h : Munched position input lexed) (hstart : StartsToken input) :
    ∀ error ∈ lexed.errors, position.offset < error.site.span.start := by
  cases h with
  | done => exact fun error herror => absurd herror List.not_mem_nil
  | token h hrest =>
      intro error herror
      have hle := (hrest.offset_le error herror).1
      exact Nat.lt_of_lt_of_le (offset_lt_advance h.text_ne_nil position) hle
  | error h hrest => exact absurd hstart (h.unmatched [] _ rfl h.nonempty)

theorem stop_ne_start (h : Munched position input lexed) :
    ∀ a ∈ lexed.errors, ∀ b ∈ lexed.errors, a.site.span.stop ≠ b.site.span.start := by
  induction h with
  | done position => exact fun a ha => absurd ha List.not_mem_nil
  | token h hrest ih => exact ih
  | @error position run rest found h hrest ih =>
      have hlater : ∀ b ∈ found.errors,
          (position.advance run).offset < b.site.span.start := by
        rcases h.stops with rfl | hstart
        · cases hrest.eq_ofPieces
          rw [pieces]
          exact fun b hb => absurd hb List.not_mem_nil
        · exact hrest.offset_lt hstart
      have hfirst := offset_lt_advance h.nonempty position
      intro a ha b hb
      rcases List.mem_cons.mp ha with rfl | ha
      · rcases List.mem_cons.mp hb with rfl | hb
        · exact Nat.ne_of_gt hfirst
        · exact Nat.ne_of_lt (hlater b hb)
      · rcases List.mem_cons.mp hb with rfl | hb
        · have hle := hrest.offset_le a ha
          exact Nat.ne_of_gt (show position.offset < a.site.span.stop by omega)
        · exact ih a ha b hb

end Munched

/-- **Scanning is maximal munch**: what a scan with trivia finds is what maximal munch finds, and
nothing else is; without trivia it is the same, white space dropped and comments set aside.  No
error has white space in it, and no error starts where another one stops. -/
theorem tokenize_maximalMunch (source : String) :
    (∀ lexed, Munched {} source.toList lexed ↔ lexed = tokenizeWithTrivia source) ∧
      tokenize source = (tokenizeWithTrivia source).withoutTrivia ∧
      (∀ error ∈ (tokenize source).errors, ∀ c ∈ error.text.toList, isBlank c = false) ∧
      ∀ a ∈ (tokenize source).errors, ∀ b ∈ (tokenize source).errors,
        a.site.span.stop ≠ b.site.span.start := by
  have hmunched := (munched_iff source _).mpr rfl
  have herrors : (tokenize source).errors = (tokenizeWithTrivia source).errors := by
    unfold tokenize
    rw [scanFrom_eq_withoutTrivia]
    rfl
  refine ⟨munched_iff source, scanFrom_eq_withoutTrivia _ _, ?_, ?_⟩
  · rw [herrors]
    exact hmunched.isBlank_eq_false
  · rw [herrors]
    exact hmunched.stop_ne_start

end NodeLink.Source
