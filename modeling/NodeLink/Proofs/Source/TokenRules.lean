import NodeLink.Source.Scan

/-! # The token rules

`Spells` says which texts match the rule of a token kind, each rule on its own: a run of white
space, a comment on one line, a string on one line, a mark, a reserved word in any letter case, an
identifier.  The scanner tries its rules in a fixed order and takes the first one that applies,
and still it finds the longest text at the head of its input that matches any rule, a reserved
word before an identifier of its length (`nextToken?_eq_some_iff`), and it finds none only if no
text there matches a rule (`nextToken?_eq_none_iff`). -/

namespace NodeLink.Source

open NodeLink.Text

/-! ### Texts that match a rule -/

/-- The spelling of a kind that has a single one, letter case aside: a mark or a reserved word. -/
def TokenKind.spelling? : TokenKind → Option (List Char)
  | .graph => some "graph".toList
  | .bundle => some "bundle".toList
  | .color => some "color".toList
  | .label => some "label".toList
  | .lineWidth => some "line-width".toList
  | .font => some "font".toList
  | .fontSize => some "font-size".toList
  | .undirectedEdge => some "--".toList
  | .directedEdge => some "->".toList
  | .openBracket => some "[".toList
  | .closeBracket => some "]".toList
  | .equal => some "=".toList
  | .comma => some ",".toList
  | .openBrace => some "\x7b".toList
  | .closeBrace => some "\x7d".toList
  | .identifier | .string | .comment | .whitespace => none

/-- The text matches the rule of the kind. -/
inductive Spells : TokenKind → List Char → Prop
  | whitespace {text : List Char} (hne : text ≠ []) (h : ∀ c ∈ text, isBlank c = true) :
      Spells .whitespace text
  | comment {line : List Char} (h : '\n' ∉ line) : Spells .comment ('/' :: '/' :: line)
  | string {body : List Char} (hquote : '"' ∉ body) (hline : '\n' ∉ body) :
      Spells .string ('"' :: (body ++ ['"']))
  | mark {kind : TokenKind} {text : List Char} (hkind : kind.isKeyword = false)
      (h : kind.spelling? = some text) : Spells kind text
  | keyword {kind : TokenKind} {text : List Char} (hkind : kind.isKeyword = true)
      (h : kind.spelling? = some (text.map Char.toLower)) : Spells kind text
  | identifier {c : Char} {rest : List Char} (hstart : isIdentifierStart c = true)
      (hrest : ∀ d ∈ rest, isIdentifierPart d = true) : Spells .identifier (c :: rest)

/-- A text at the head of the input matches a rule. -/
def StartsToken (input : List Char) : Prop :=
  ∃ kind text, text <+: input ∧ Spells kind text

/-- The text is the longest one at the head of `text ++ rest` that matches any rule, and it is of
the kind whose rule it matches; a reserved word is no identifier. -/
structure LongestMatch (kind : TokenKind) (text rest : List Char) : Prop where
  spells : Spells kind text
  longest {other : TokenKind} {shorter : List Char} (h : Spells other shorter)
    (hstarts : shorter <+: text ++ rest) : shorter.length ≤ text.length
  kind_eq {other : TokenKind} (h : Spells other text) :
    other = kind ∨ other = .identifier ∧ kind.isKeyword = true

theorem LongestMatch.unique {kind kind' : TokenKind} {text rest text' rest' : List Char}
    (h : LongestMatch kind text rest) (h' : LongestMatch kind' text' rest')
    (hinput : text ++ rest = text' ++ rest') : kind = kind' ∧ text = text' ∧ rest = rest' := by
  have hstarts : text <+: text' ++ rest' := hinput ▸ List.prefix_append ..
  have hstarts' : text' <+: text ++ rest := hinput ▸ List.prefix_append ..
  have hlength : text.length = text'.length :=
    Nat.le_antisymm (h'.longest h.spells hstarts) (h.longest h'.spells hstarts')
  obtain ⟨rfl, rfl⟩ := List.append_inj hinput hlength
  refine ⟨?_, rfl, rfl⟩
  rcases h.kind_eq h'.spells with rfl | ⟨rfl, hkeyword⟩
  · rfl
  · rcases h'.kind_eq h.spells with rfl | ⟨rfl, -⟩
    · rfl
    · cases hkeyword

/-! ### Characters and the rules that they can start -/

theorem toNat_of_between {c : Char} {low high : UInt32}
    (h : (decide (low ≤ c.val) && decide (c.val ≤ high)) = true) :
    low.toNat ≤ c.toNat ∧ c.toNat ≤ high.toNat := by
  obtain ⟨hlow, hhigh⟩ := (Bool.and_eq_true _ _).mp h
  exact ⟨of_decide_eq_true hlow, of_decide_eq_true hhigh⟩

theorem isBlank_eq_false_of_isIdentifierStart {c : Char} (h : isIdentifierStart c = true) :
    isBlank c = false := by
  have hstart : (c.isUpper || c.isLower || c.isDigit || decide (c = '#')) = true := h
  simp only [Bool.or_eq_true, decide_eq_true_eq] at hstart
  simp only [isBlank, blankRanges, Ranges.contains, List.any_cons, List.any_nil, Bool.or_false,
    Bool.or_eq_false_iff, Bool.and_eq_false_iff, decide_eq_false_iff_not]
  rcases hstart with ((hupper | hlower) | hdigit) | rfl
  · have hrange : 65 ≤ c.toNat ∧ c.toNat ≤ 90 := of_decide_eq_true hupper
    omega
  · have hrange : 97 ≤ c.toNat ∧ c.toNat ≤ 122 := toNat_of_between hlower
    omega
  · have hrange : 48 ≤ c.toNat ∧ c.toNat ≤ 57 := toNat_of_between hdigit
    omega
  · decide

theorem isAlpha_of_isAlpha_toLower {c : Char} (h : c.toLower.isAlpha = true) :
    c.isAlpha = true := by
  unfold Char.toLower at h
  split at h
  · next hupper =>
    have hc : c.isUpper = true := decide_eq_true hupper
    have halpha : (c.isUpper || c.isLower) = true := by rw [hc, Bool.true_or]
    exact halpha
  · exact h

theorem blankRun?_eq_none {c : Char} {rest : List Char} (h : isBlank c = false) :
    blankRun? (c :: rest) = none := by
  simp [blankRun?, h]

theorem comment?_eq_none {c : Char} {rest : List Char} (h : c ≠ '/') :
    comment? (c :: rest) = none := by
  unfold comment?
  split
  · next heq => exact absurd (List.cons.inj heq).1 h
  · rfl

theorem string?_eq_none {c : Char} {rest : List Char} (h : c ≠ '"') :
    string? (c :: rest) = none := by
  unfold string?
  split
  · next heq => exact absurd (List.cons.inj heq).1 h
  · rfl

theorem mark?_eq_none {c : Char} {rest : List Char} (h : isIdentifierStart c = true) :
    mark? (c :: rest) = none := by
  unfold mark?
  split
  all_goals first
    | rfl
    | (next heq => rw [(List.cons.inj heq).1] at h; cases h)

theorem nextToken?_eq_word? {c : Char} {rest : List Char} (h : isIdentifierStart c = true) :
    nextToken? (c :: rest) = word? (c :: rest) := by
  have hslash : c ≠ '/' := by
    rintro rfl
    cases h
  have hquote : c ≠ '"' := by
    rintro rfl
    cases h
  simp [nextToken?, blankRun?_eq_none (isBlank_eq_false_of_isIdentifierStart h),
    comment?_eq_none hslash, string?_eq_none hquote, mark?_eq_none h]

/-! ### What the rules read matches them -/

theorem of_mem_takeWhile {p : Char → Bool} {input : List Char} {c : Char}
    (h : c ∈ input.takeWhile p) : p c = true :=
  List.all_eq_true.mp List.all_takeWhile c h

theorem blankRun?_spells {input : List Char} {m : Munch} (h : blankRun? input = some m) :
    Spells m.kind m.text := by
  unfold blankRun? at h
  split at h
  · cases h
  · next hne =>
    cases h
    exact .whitespace hne fun c hc => of_mem_takeWhile hc

theorem comment?_spells {input : List Char} {m : Munch} (h : comment? input = some m) :
    Spells m.kind m.text := by
  unfold comment? at h
  split at h
  · cases h
    refine .comment fun hline => ?_
    exact absurd (of_mem_takeWhile hline) (by decide)
  · cases h

theorem string?_spells {input : List Char} {m : Munch} (h : string? input = some m) :
    Spells m.kind m.text := by
  unfold string? at h
  split at h
  · split at h
    · cases h
      refine .string (fun hquote => ?_) (fun hline => ?_)
      · exact absurd (of_mem_takeWhile hquote) (by decide)
      · exact absurd (of_mem_takeWhile hline) (by decide)
    · cases h
  · cases h

theorem mark?_spells {input : List Char} {m : Munch} (h : mark? input = some m) :
    Spells m.kind m.text := by
  unfold mark? at h
  split at h
  all_goals first
    | (cases h; exact .mark rfl rfl)
    | cases h

theorem keywords_spelling : ∀ entry ∈ keywords, entry.2.isKeyword = true ∧
    entry.2.spelling? = some entry.1 ∧ entry.1.map Char.toLower = entry.1 ∧
    entry.1.head?.any Char.isAlpha = true := by decide

theorem mem_keywords {kind : TokenKind} {word : List Char} (hkind : kind.isKeyword = true)
    (h : kind.spelling? = some word) : (word, kind) ∈ keywords := by
  cases kind <;> first
    | (cases h; decide)
    | cases hkind

/-- In the table a longer word stands before the words that it starts with. -/
theorem keywords_pairwise : keywords.Pairwise fun entry later => ¬ entry.1 <+: later.1 := by
  decide

theorem startsWithWord_iff {word input : List Char} :
    startsWithWord word input = true ↔
      word.map Char.toLower <+: input.map Char.toLower := by
  induction word generalizing input with
  | nil => simp [startsWithWord]
  | cons w word ih =>
      cases input with
      | nil => simp [startsWithWord]
      | cons c input => simp [startsWithWord, ih, List.cons_prefix_cons]

theorem keyword?_sound {input word : List Char} {kind : TokenKind}
    (h : keyword? input = some (word, kind)) :
    kind.isKeyword = true ∧ kind.spelling? = some word ∧ word <+: input.map Char.toLower := by
  obtain ⟨hkind, hspelling, hlower, -⟩ := keywords_spelling _ (List.mem_of_find?_eq_some h)
  have hfound : startsWithWord word input = true := (List.find?_eq_some_iff_append.mp h).1
  have hstarts := startsWithWord_iff.mp hfound
  rw [hlower] at hstarts
  exact ⟨hkind, hspelling, hstarts⟩

theorem spells_taking_keyword {input word : List Char} {kind : TokenKind}
    (h : keyword? input = some (word, kind)) : Spells kind (input.take word.length) := by
  obtain ⟨hkind, hspelling, hstarts⟩ := keyword?_sound h
  refine .keyword hkind ?_
  rw [hspelling, List.map_take, ← List.prefix_iff_eq_take.mp hstarts]

theorem identifierLength_cons {c : Char} {rest : List Char} (h : isIdentifierStart c = true) :
    identifierLength (c :: rest) = (rest.takeWhile isIdentifierPart).length + 1 := by
  simp [identifierLength, h]

theorem identifier?_spells {input : List Char} {m : Munch} (h : identifier? input = some m) :
    Spells m.kind m.text := by
  unfold identifier? at h
  split at h
  · cases h
  · next hne =>
    cases h
    cases input with
    | nil => exact absurd rfl hne
    | cons c rest =>
        by_cases hc : isIdentifierStart c = true
        · have htake : rest.take (rest.takeWhile isIdentifierPart).length =
              rest.takeWhile isIdentifierPart :=
            (List.prefix_iff_eq_take.mp (List.takeWhile_prefix _)).symm
          rw [Munch.taking, identifierLength_cons hc, List.take_succ_cons, htake]
          exact .identifier hc fun d hd => of_mem_takeWhile hd
        · exact absurd (by simp [identifierLength, hc]) hne

theorem word?_spells {input : List Char} {m : Munch} (h : word? input = some m) :
    Spells m.kind m.text := by
  unfold word? at h
  split at h
  · next hkeyword =>
    split at h
    · cases h
      exact spells_taking_keyword hkeyword
    · exact identifier?_spells h
  · exact identifier?_spells h

theorem nextToken?_spells {input : List Char} {m : Munch} (h : nextToken? input = some m) :
    Spells m.kind m.text := by
  simp only [nextToken?, Option.or_eq_some_iff] at h
  rcases h with h | ⟨-, h | ⟨-, h | ⟨-, h | ⟨-, h⟩⟩⟩⟩
  · exact blankRun?_spells h
  · exact comment?_spells h
  · exact string?_spells h
  · exact mark?_spells h
  · exact word?_spells h

/-! ### What matches a rule is not longer than what the rules read -/

/-- What was read wins against a text of a kind: it is longer, or as long and of the same kind or
a reserved word in place of an identifier. -/
structure Munch.Beats (m : Munch) (kind : TokenKind) (text : List Char) : Prop where
  length_le : text.length ≤ m.text.length
  kind_eq (h : text.length = m.text.length) :
    kind = m.kind ∨ kind = .identifier ∧ m.kind.isKeyword = true

/-- A text at the head of an input whose characters all have a property is no longer than the
run of such characters there. -/
theorem length_le_takeWhile {p : Char → Bool} {text input : List Char} (h : text <+: input)
    (hp : ∀ c ∈ text, p c = true) : text.length ≤ (input.takeWhile p).length := by
  obtain ⟨rest, rfl⟩ := h
  rw [List.takeWhile_append_of_pos hp, List.length_append]
  exact Nat.le_add_right _ _

theorem nextToken?_beats_whitespace {text input : List Char} (hne : text ≠ [])
    (h : ∀ c ∈ text, isBlank c = true) (hstarts : text <+: input) :
    ∃ m, nextToken? input = some m ∧ m.Beats .whitespace text := by
  have hlength := length_le_takeWhile hstarts h
  have hrun : input.takeWhile isBlank ≠ [] := by
    have := List.length_pos_iff.mpr hne
    exact List.length_pos_iff.mp (Nat.lt_of_lt_of_le this hlength)
  refine ⟨⟨.whitespace, input.takeWhile isBlank, input.dropWhile isBlank⟩, ?_, hlength,
    fun _ => .inl rfl⟩
  have hblank : blankRun? input =
      some ⟨.whitespace, input.takeWhile isBlank, input.dropWhile isBlank⟩ := by
    unfold blankRun?
    split
    · next hnil => exact absurd hnil hrun
    · rfl
  rw [nextToken?, hblank, Option.some_or]

theorem nextToken?_beats_comment {line input : List Char} (h : '\n' ∉ line)
    (hstarts : '/' :: '/' :: line <+: input) :
    ∃ m, nextToken? input = some m ∧ m.Beats .comment ('/' :: '/' :: line) := by
  obtain ⟨rest, rfl⟩ := hstarts
  have hline : line.length ≤ ((line ++ rest).takeWhile (· ≠ '\n')).length := by
    refine length_le_takeWhile (List.prefix_append ..) fun c hc => ?_
    refine decide_eq_true ?_
    rintro rfl
    exact h hc
  refine ⟨⟨.comment, '/' :: '/' :: (line ++ rest).takeWhile (· ≠ '\n'),
    (line ++ rest).dropWhile (· ≠ '\n')⟩, ?_, ?_, fun _ => .inl rfl⟩
  · rw [nextToken?, List.cons_append, blankRun?_eq_none (by decide), Option.none_or]
    exact Option.some_or
  · exact Nat.succ_le_succ (Nat.succ_le_succ hline)

theorem nextToken?_beats_string {body input : List Char} (hquote : '"' ∉ body)
    (hline : '\n' ∉ body) (hstarts : '"' :: (body ++ ['"']) <+: input) :
    ∃ m, nextToken? input = some m ∧ m.Beats .string ('"' :: (body ++ ['"'])) := by
  obtain ⟨rest, rfl⟩ := hstarts
  have hbody : ∀ c ∈ body, isStringBody c = true := by
    intro c hc
    have hne : c ≠ '"' ∧ c ≠ '\n' := by
      constructor
      · rintro rfl
        exact hquote hc
      · rintro rfl
        exact hline hc
    simp [isStringBody, hne]
  have hread : string? ('"' :: (body ++ ['"']) ++ rest) =
      some ⟨.string, '"' :: (body ++ ['"']), rest⟩ := by
    have htail : body ++ ['"'] ++ rest = body ++ '"' :: rest := by simp
    rw [List.cons_append, htail, string?, List.dropWhile_append_of_pos hbody,
      List.takeWhile_append_of_pos hbody]
    have hstop : isStringBody '"' = false := by decide
    simp [hstop]
  refine ⟨⟨.string, '"' :: (body ++ ['"']), rest⟩, ?_, Nat.le_refl _, fun _ => .inl rfl⟩
  rw [nextToken?, hread, Option.some_or, List.cons_append, blankRun?_eq_none (by decide),
    comment?_eq_none (by decide), Option.none_or, Option.none_or]

theorem nextToken?_beats_mark {kind : TokenKind} {text input : List Char}
    (hkind : kind.isKeyword = false) (h : kind.spelling? = some text) (hstarts : text <+: input) :
    ∃ m, nextToken? input = some m ∧ m.Beats kind text := by
  obtain ⟨rest, rfl⟩ := hstarts
  refine ⟨⟨kind, text, rest⟩, ?_, Nat.le_refl _, fun _ => .inl rfl⟩
  cases kind <;> first
    | (cases hkind; done)
    | (cases h; done)
    | (cases h; rfl)

/-- Of the reserved words that an input starts with, the first one of the table is the longest. -/
theorem keyword?_of_spelling {kind : TokenKind} {text input : List Char}
    (hkind : kind.isKeyword = true) (h : kind.spelling? = some (text.map Char.toLower))
    (hstarts : text <+: input) :
    ∃ word found, keyword? input = some (word, found) ∧ text.length ≤ word.length ∧
      (text.length = word.length → kind = found) := by
  have hmem := mem_keywords hkind h
  have hlower := (keywords_spelling _ hmem).2.2.1
  have hword : startsWithWord (text.map Char.toLower) input = true := by
    rw [startsWithWord_iff, hlower]
    exact hstarts.map _
  cases hfind : keyword? input with
  | none => exact absurd hword (List.find?_eq_none.mp hfind _ hmem)
  | some entry =>
      obtain ⟨word, found⟩ := entry
      refine ⟨word, found, rfl, ?_⟩
      obtain ⟨-, before, after, hsplit, hbefore⟩ := List.find?_eq_some_iff_append.mp hfind
      -- the entry of the text is not before the one that was found
      rw [hsplit, List.mem_append, List.mem_cons] at hmem
      rcases hmem with hmem | heq | hmem
      · have := hbefore _ hmem
        rw [hword] at this
        cases this
      · obtain ⟨rfl, rfl⟩ := Prod.mk.inj heq
        exact ⟨Nat.le_of_eq (List.length_map _).symm, fun _ => rfl⟩
      · -- both words stand at the head of the input, so one starts with the other
        have hpair := keywords_pairwise
        rw [hsplit, List.pairwise_append] at hpair
        have hnot : ¬ word <+: text.map Char.toLower :=
          (List.pairwise_cons.mp hpair.2.1).1 _ hmem
        have hlt : (text.map Char.toLower).length < word.length := by
          refine Nat.lt_of_not_le fun hle => hnot ?_
          exact List.prefix_of_prefix_length_le (keyword?_sound hfind).2.2 (hstarts.map _) hle
        rw [List.length_map] at hlt
        exact ⟨Nat.le_of_lt hlt, fun heq => absurd heq (Nat.ne_of_lt hlt)⟩

theorem identifierLength_le (input : List Char) : identifierLength input ≤ input.length := by
  cases input with
  | nil => exact Nat.le_refl _
  | cons c rest =>
      by_cases h : isIdentifierStart c = true
      · rw [identifierLength_cons h]
        exact Nat.succ_le_succ (List.takeWhile_prefix _).length_le
      · simp [identifierLength, h]

theorem keyword?_length_le {input word : List Char} {kind : TokenKind}
    (h : keyword? input = some (word, kind)) : word.length ≤ input.length := by
  have := (keyword?_sound h).2.2.length_le
  rwa [List.length_map] at this

theorem word?_beats_keyword {input word : List Char} {kind : TokenKind}
    (h : keyword? input = some (word, kind)) :
    ∃ m, word? input = some m ∧ word.length ≤ m.text.length ∧
      (word.length = m.text.length → kind = m.kind) := by
  unfold word?
  rw [h]
  have hlength : (input.take word.length).length = word.length :=
    List.length_take_of_le (keyword?_length_le h)
  by_cases hle : identifierLength input ≤ word.length
  · refine ⟨Munch.taking kind word.length input, by simp [hle], ?_, fun _ => rfl⟩
    exact Nat.le_of_eq hlength.symm
  · have hne : identifierLength input ≠ 0 := by omega
    have htaken : (input.take (identifierLength input)).length = identifierLength input :=
      List.length_take_of_le (identifierLength_le input)
    refine ⟨Munch.taking .identifier (identifierLength input) input,
      by simp [hle, identifier?, hne], ?_, fun heq => ?_⟩
    · show word.length ≤ (input.take (identifierLength input)).length
      omega
    · have : word.length = (input.take (identifierLength input)).length := heq
      omega

theorem word?_beats_identifier {input : List Char} (h : identifierLength input ≠ 0) :
    ∃ m, word? input = some m ∧ identifierLength input ≤ m.text.length ∧
      (m.kind = .identifier ∨ m.kind.isKeyword = true) := by
  have htaken : (input.take (identifierLength input)).length = identifierLength input :=
    List.length_take_of_le (identifierLength_le input)
  have hidentifier : identifier? input =
      some (Munch.taking .identifier (identifierLength input) input) := by
    unfold identifier?
    rw [if_neg h]
  cases hkeyword : keyword? input with
  | none =>
      refine ⟨Munch.taking .identifier (identifierLength input) input, ?_, ?_, .inl rfl⟩
      · rw [word?, hkeyword]
        exact hidentifier
      · exact Nat.le_of_eq htaken.symm
  | some entry =>
      obtain ⟨word, kind⟩ := entry
      by_cases hle : identifierLength input ≤ word.length
      · refine ⟨Munch.taking kind word.length input, ?_, ?_, .inr ?_⟩
        · simp [word?, hkeyword, hle]
        · rw [Munch.taking, List.length_take_of_le (keyword?_length_le hkeyword)]
          exact hle
        · exact (keyword?_sound hkeyword).1
      · refine ⟨Munch.taking .identifier (identifierLength input) input, ?_, ?_, .inl rfl⟩
        · simp [word?, hkeyword, hle, hidentifier]
        · exact Nat.le_of_eq htaken.symm

theorem exists_isIdentifierStart {kind : TokenKind} {text : List Char}
    (hkind : kind.isKeyword = true) (h : kind.spelling? = some (text.map Char.toLower)) :
    ∃ c rest, text = c :: rest ∧ isIdentifierStart c = true := by
  have hhead := (keywords_spelling _ (mem_keywords hkind h)).2.2.2
  cases text with
  | nil => cases hhead
  | cons c rest =>
      have hletter : c.isAlpha = true := isAlpha_of_isAlpha_toLower hhead
      exact ⟨c, rest, rfl, by rw [isIdentifierStart, Char.isAlphanum, hletter]; rfl⟩

theorem nextToken?_beats_keyword {kind : TokenKind} {text input : List Char}
    (hkind : kind.isKeyword = true) (h : kind.spelling? = some (text.map Char.toLower))
    (hstarts : text <+: input) : ∃ m, nextToken? input = some m ∧ m.Beats kind text := by
  obtain ⟨word, found, hfound, hle, hsame⟩ := keyword?_of_spelling hkind h hstarts
  obtain ⟨m, hm, hlength, hmkind⟩ := word?_beats_keyword hfound
  refine ⟨m, ?_, Nat.le_trans hle hlength, fun heq => .inl ?_⟩
  · obtain ⟨c, rest, rfl, hstart⟩ := exists_isIdentifierStart hkind h
    obtain ⟨after, rfl⟩ := hstarts
    exact (nextToken?_eq_word? hstart).trans hm
  · rw [hsame (by omega), hmkind (by omega)]

theorem nextToken?_beats_identifier {c : Char} {rest input : List Char}
    (hstart : isIdentifierStart c = true) (hrest : ∀ d ∈ rest, isIdentifierPart d = true)
    (hstarts : c :: rest <+: input) :
    ∃ m, nextToken? input = some m ∧ m.Beats .identifier (c :: rest) := by
  obtain ⟨after, rfl⟩ := hstarts
  have hlength : (c :: rest).length ≤ identifierLength (c :: rest ++ after) := by
    rw [List.cons_append, identifierLength_cons hstart]
    exact Nat.succ_le_succ (length_le_takeWhile (List.prefix_append ..) hrest)
  have hne : identifierLength (c :: rest ++ after) ≠ 0 :=
    Nat.ne_of_gt (Nat.lt_of_lt_of_le (Nat.succ_pos _) hlength)
  obtain ⟨m, hm, hle, hkind⟩ := word?_beats_identifier hne
  refine ⟨m, ?_, Nat.le_trans hlength hle, fun _ => ?_⟩
  · exact (nextToken?_eq_word? hstart).trans hm
  · exact hkind.imp Eq.symm fun h => ⟨rfl, h⟩

/-- Where a text matches a rule, the scanner reads one that wins against it. -/
theorem Spells.exists_beats {kind : TokenKind} {text input : List Char} (h : Spells kind text)
    (hstarts : text <+: input) : ∃ m, nextToken? input = some m ∧ m.Beats kind text := by
  cases h with
  | whitespace hne h => exact nextToken?_beats_whitespace hne h hstarts
  | comment h => exact nextToken?_beats_comment h hstarts
  | string hquote hline => exact nextToken?_beats_string hquote hline hstarts
  | mark hkind h => exact nextToken?_beats_mark hkind h hstarts
  | keyword hkind h => exact nextToken?_beats_keyword hkind h hstarts
  | identifier hstart hrest => exact nextToken?_beats_identifier hstart hrest hstarts

/-! ### The scanner reads the longest match -/

theorem nextToken?_longest {input : List Char} {m : Munch} (h : nextToken? input = some m) :
    LongestMatch m.kind m.text m.rest := by
  have hinput := (nextToken?_splits h).append_eq
  have hbeats {kind : TokenKind} {text : List Char} (hspells : Spells kind text)
      (hstarts : text <+: m.text ++ m.rest) : m.Beats kind text := by
    rw [hinput] at hstarts
    obtain ⟨m', hm', hbeats⟩ := hspells.exists_beats hstarts
    cases h.symm.trans hm'
    exact hbeats
  exact ⟨nextToken?_spells h, fun hspells hstarts => (hbeats hspells hstarts).length_le,
    fun hspells => (hbeats hspells (List.prefix_append ..)).kind_eq rfl⟩

/-- **The scanner reads the longest text at the head of its input that matches a rule**, and of
two kinds that such a text may have the reserved word. -/
theorem nextToken?_eq_some_iff {input : List Char} {m : Munch} :
    nextToken? input = some m ↔ m.text ++ m.rest = input ∧ LongestMatch m.kind m.text m.rest := by
  constructor
  · intro h
    exact ⟨(nextToken?_splits h).append_eq, nextToken?_longest h⟩
  · rintro ⟨rfl, h⟩
    obtain ⟨m', hm', -⟩ := h.spells.exists_beats (List.prefix_append m.text m.rest)
    obtain ⟨hkind, htext, hrest⟩ :=
      (nextToken?_longest hm').unique h (nextToken?_splits hm').append_eq
    obtain ⟨kind, text, rest⟩ := m'
    obtain ⟨kind', text', rest'⟩ := m
    subst hkind htext hrest
    exact hm'

/-- The scanner reads nothing exactly if no text at the head of its input matches a rule. -/
theorem nextToken?_eq_none_iff {input : List Char} :
    nextToken? input = none ↔ ¬ StartsToken input := by
  constructor
  · rintro h ⟨kind, text, hstarts, hspells⟩
    obtain ⟨m, hm, -⟩ := hspells.exists_beats hstarts
    cases h.symm.trans hm
  · intro h
    cases hm : nextToken? input with
    | none => rfl
    | some m =>
        refine absurd ⟨m.kind, m.text, ?_, nextToken?_spells hm⟩ h
        exact ⟨m.rest, (nextToken?_splits hm).append_eq⟩

end NodeLink.Source
