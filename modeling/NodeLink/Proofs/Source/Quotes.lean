import NodeLink.Document.Basic
import NodeLink.Proofs.Source.Pieces

/-! # Quotes of scanned tokens

A scanned string starts and ends with a quote and a scanned identifier starts with none
(`properQuotes_of_mem_tokenize`).  So `unquote` takes exactly the two quotes off a string and
leaves an identifier as it is. -/

namespace NodeLink.Source

/-- A text of a kind has the quotes of that kind: two around a string, none at the start of an
identifier. -/
structure ProperQuotes (kind : TokenKind) (text : List Char) : Prop where
  string : kind = .string → ∃ body, text = '"' :: (body ++ ['"'])
  identifier : kind = .identifier → text.head? ≠ some '"'

theorem properQuotes_of_other {kind : TokenKind} {text : List Char} (hs : kind ≠ .string)
    (hi : kind ≠ .identifier) : ProperQuotes kind text :=
  ⟨fun h => absurd h hs, fun h => absurd h hi⟩

/-! ### The token rules -/

theorem string?_properQuotes {input : List Char} {m : Munch} (h : string? input = some m) :
    ProperQuotes m.kind m.text := by
  unfold string? at h
  split at h
  · split at h
    · obtain rfl := Option.some.inj h
      exact ⟨fun _ => ⟨_, rfl⟩, fun hk => by cases hk⟩
    · cases h
  · cases h

theorem mark?_properQuotes {input : List Char} {m : Munch} (h : mark? input = some m) :
    ProperQuotes m.kind m.text := by
  unfold mark? at h
  split at h <;> first
    | (obtain rfl := Option.some.inj h; exact properQuotes_of_other (by simp) (by simp))
    | cases h

theorem identifier?_properQuotes {input : List Char} {m : Munch} (h : identifier? input = some m) :
    ProperQuotes m.kind m.text := by
  unfold identifier? at h
  split at h
  · cases h
  · next hz =>
    obtain rfl := Option.some.inj h
    refine ⟨by simp [Munch.taking], fun _ hq => hz ?_⟩
    cases input with
    | nil => rfl
    | cons c rest =>
        by_cases hc : isIdentifierStart c
        · have hlen : identifierLength (c :: rest) =
              (rest.takeWhile isIdentifierPart).length + 1 := by
            simp [identifierLength, hc]
          simp only [Munch.taking, hlen, List.take_succ_cons, List.head?_cons,
            Option.some.injEq] at hq
          rw [hq] at hc
          exact absurd hc (by decide)
        · simp [identifierLength, hc]

theorem word?_properQuotes {input : List Char} {m : Munch} (h : word? input = some m) :
    ProperQuotes m.kind m.text := by
  have hkinds : ∀ entry ∈ keywords, entry.2 ≠ .string ∧ entry.2 ≠ .identifier := by decide
  unfold word? at h
  split at h
  · next word kind hk =>
    split at h
    · obtain rfl := Option.some.inj h
      obtain ⟨hs, hi⟩ := hkinds _ (List.mem_of_find?_eq_some hk)
      exact properQuotes_of_other hs hi
    · exact identifier?_properQuotes h
  · exact identifier?_properQuotes h

theorem nextToken?_properQuotes {input : List Char} {m : Munch} (h : nextToken? input = some m) :
    ProperQuotes m.kind m.text := by
  simp only [nextToken?, Option.or_eq_some_iff] at h
  rcases h with h | ⟨-, h | ⟨-, h | ⟨-, h | ⟨-, h⟩⟩⟩⟩
  · unfold blankRun? at h
    split at h
    · cases h
    · obtain rfl := Option.some.inj h
      exact properQuotes_of_other (by simp) (by simp)
  · unfold comment? at h
    split at h
    · obtain rfl := Option.some.inj h
      exact properQuotes_of_other (by simp) (by simp)
    · cases h
  · exact string?_properQuotes h
  · exact mark?_properQuotes h
  · exact word?_properQuotes h

/-! ### The tokens of a source -/

theorem nextToken?_of_mem_pieces {input : List Char} {piece : Piece} {kind : TokenKind}
    (h : piece ∈ pieces input) (hk : piece.kind? = some kind) :
    ∃ rest m, nextToken? rest = some m ∧ m.kind = kind ∧ m.text = piece.text := by
  fun_induction pieces input with
  | case1 => cases h
  | case2 c rest munch hm ih =>
      rcases List.mem_cons.mp h with rfl | h
      · exact ⟨_, munch, hm, Option.some.inj hk, rfl⟩
      · exact ih h
  | case3 c rest hm ih =>
      rcases List.mem_cons.mp h with rfl | h
      · cases hk
      · exact ih h

theorem piece_mem_of_mem_placeFrom {placed : PlacedPiece} {all : List Piece} {position : Position}
    (h : placed ∈ placeFrom position all) : placed.piece ∈ all := by
  induction all generalizing position with
  | nil => cases h
  | cons piece rest ih =>
      rcases List.mem_cons.mp h with rfl | h
      · exact List.mem_cons_self
      · exact List.mem_cons_of_mem _ (ih h)

theorem nextToken?_of_mem_tokenize {source : String} {token : Token}
    (h : token ∈ (tokenizeWithTrivia source).tokens) :
    ∃ rest m, nextToken? rest = some m ∧ m.kind = token.kind ∧ m.text = token.text.toList := by
  rw [tokenizeWithTrivia_eq] at h
  obtain ⟨placed, hplaced, ht⟩ := List.mem_filterMap.mp h
  obtain ⟨kind, hk, rfl⟩ := Option.map_eq_some_iff.mp ht
  have hpiece := piece_mem_of_mem_placeFrom hplaced
  obtain ⟨rest, m, hm, hkind, htext⟩ := nextToken?_of_mem_pieces hpiece hk
  exact ⟨rest, m, hm, hkind, by rw [htext, String.toList_ofList]⟩

theorem properQuotes_of_mem_tokenize {source : String} {token : Token}
    (h : token ∈ (tokenize source).tokens) : ProperQuotes token.kind token.text.toList := by
  obtain ⟨rest, m, hm, hkind, htext⟩ :=
    nextToken?_of_mem_tokenize (mem_tokenizeWithTrivia_of_mem h)
  rw [← hkind, ← htext]
  exact nextToken?_properQuotes hm

/-! ### Taking quotes off -/

theorem unquote_of_string {kind : TokenKind} {text : String}
    (h : ProperQuotes kind text.toList) (hk : kind = .string) :
    unquote text = String.ofList text.toList.tail.dropLast := by
  obtain ⟨body, hb⟩ := h.string hk
  simp [unquote, hb]

theorem unquote_of_identifier {kind : TokenKind} {text : String}
    (h : ProperQuotes kind text.toList) (hk : kind = .identifier) : unquote text = text := by
  have hq := h.identifier hk
  unfold unquote
  split
  · next heq => simp [heq] at hq
  · rfl

end NodeLink.Source
