import NodeLink.Proofs.Document.Locations
import NodeLink.Proofs.Source.MaximalMunch

/-! # Lines are scanned on their own

Of all tokens only white space can have a newline in it, and white space starts a token wherever it
stands.  So a newline ends whatever is before it: a string that was not closed, a comment, a word, a
run of skipped characters.  What a scan finds in two texts with a newline between them is what it
finds in the first one, and then what it finds in the second one, so many bytes and lines further
down (`tokenize_newline`). -/

namespace NodeLink.Source

open NodeLink.Text

/-! ### Newlines in tokens -/

theorem Spells.blank_of_newline {kind : TokenKind} {text : List Char} (h : Spells kind text)
    (hline : '\n' ∈ text) : kind = .whitespace ∧ ∀ c ∈ text, isBlank c = true := by
  cases h with
  | whitespace hne h => exact ⟨rfl, h⟩
  | comment h => exact absurd (by simpa using hline) h
  | string hquote hbody => exact absurd (by simpa using hline) hbody
  | mark hkind h =>
      cases kind <;> first
        | (cases h; exact absurd hline (by decide))
        | cases h
  | keyword hkind h =>
      have hlower : '\n' ∈ text.map Char.toLower := List.mem_map.mpr ⟨'\n', hline, rfl⟩
      have hwords : ∀ entry ∈ keywords, '\n' ∉ entry.1 := by decide
      exact absurd hlower (hwords _ (mem_keywords hkind h))
  | @identifier c rest hstart hrest =>
      rcases List.mem_cons.mp hline with rfl | hline
      · cases hstart
      · cases hrest '\n' hline

theorem Spells.isBlank {text : List Char} (h : Spells .whitespace text) :
    ∀ c ∈ text, isBlank c = true := by
  cases h with
  | whitespace hne h => exact h
  | mark hkind h => cases h
  | keyword hkind h => cases hkind

/-- What starts a text with a newline in it starts the part above the newline, or reaches over
it. -/
theorem prefix_newline {text upper lower : List Char} (h : text <+: upper ++ '\n' :: lower) :
    text <+: upper ∨ upper <+: text ∧ '\n' ∈ text := by
  rcases List.prefix_or_prefix_of_prefix h (List.prefix_append upper ('\n' :: lower)) with
    hshort | ⟨more, rfl⟩
  · exact .inl hshort
  · rw [List.prefix_append_right_inj] at h
    cases more with
    | nil => exact .inl (by simp)
    | cons c more =>
        obtain ⟨rfl, -⟩ := List.cons_prefix_cons.mp h
        exact .inr ⟨List.prefix_append .., by simp⟩

theorem startsToken_newline {upper : List Char} (hne : upper ≠ []) (lower : List Char) :
    StartsToken (upper ++ '\n' :: lower) ↔ StartsToken upper := by
  constructor
  · rintro ⟨kind, text, hstarts, hspells⟩
    rcases prefix_newline hstarts with hshort | ⟨hover, hline⟩
    · exact ⟨kind, text, hshort, hspells⟩
    · -- white space over the newline starts with white space above it
      obtain ⟨-, hblank⟩ := hspells.blank_of_newline hline
      exact ⟨.whitespace, upper, List.prefix_rfl,
        .whitespace hne fun c hc => hblank c (hover.subset hc)⟩
  · rintro ⟨kind, text, hstarts, hspells⟩
    exact ⟨kind, text, hstarts.trans (List.prefix_append ..), hspells⟩

/-- The longest match above a newline stays the longest one, unless it is white space up to the
newline. -/
theorem LongestMatch.newline {kind : TokenKind} {text rest : List Char}
    (h : LongestMatch kind text rest) (hends : ¬ (kind = .whitespace ∧ rest = []))
    (lower : List Char) : LongestMatch kind text (rest ++ '\n' :: lower) where
  spells := h.spells
  kind_eq := h.kind_eq
  longest := by
    intro other shorter hspells hstarts
    rw [← List.append_assoc] at hstarts
    rcases prefix_newline hstarts with hshort | ⟨hover, hline⟩
    · exact h.longest hspells hshort
    · -- all that is above the newline is white space, and so it is the longest match
      obtain ⟨-, hblank⟩ := hspells.blank_of_newline hline
      have hne : text ≠ [] := h.text_ne_nil
      have habove : Spells .whitespace (text ++ rest) :=
        .whitespace (by simp [hne]) fun c hc => hblank c (hover.subset hc)
      have htext : Spells .whitespace text :=
        .whitespace hne fun c hc => hblank c (hover.subset (List.mem_append_left rest hc))
      have hlength := h.longest habove List.prefix_rfl
      have hrest : rest = [] := by simpa using hlength
      have hkind : kind = .whitespace := by
        rcases h.kind_eq htext with hkind | ⟨hkind, -⟩
        · exact hkind.symm
        · cases hkind
      exact absurd ⟨hkind, hrest⟩ hends

/-! ### One token above a newline -/

theorem nextToken?_blank {input : List Char} (h : input.takeWhile isBlank ≠ []) :
    nextToken? input =
      some ⟨.whitespace, input.takeWhile isBlank, input.dropWhile isBlank⟩ := by
  have hblank : blankRun? input =
      some ⟨.whitespace, input.takeWhile isBlank, input.dropWhile isBlank⟩ := by
    unfold blankRun?
    split
    · next hnil => exact absurd hnil h
    · rfl
  rw [nextToken?, hblank, Option.some_or]

/-- Above a newline the same token is read as without it, unless that is white space up to the
newline. -/
theorem nextToken?_newline {upper : List Char} {munch : Munch} (h : nextToken? upper = some munch)
    (hends : ¬ (munch.kind = .whitespace ∧ munch.rest = [])) (lower : List Char) :
    nextToken? (upper ++ '\n' :: lower) =
      some ⟨munch.kind, munch.text, munch.rest ++ '\n' :: lower⟩ := by
  obtain ⟨hsplit, hlongest⟩ := nextToken?_eq_some_iff.mp h
  refine nextToken?_eq_some_iff.mpr ⟨?_, hlongest.newline hends lower⟩
  rw [← hsplit, List.append_assoc]

theorem nextToken?_newline_eq_none {upper : List Char} (hne : upper ≠ [])
    (h : nextToken? upper = none) (lower : List Char) :
    nextToken? (upper ++ '\n' :: lower) = none := by
  rw [nextToken?_eq_none_iff] at h ⊢
  exact fun hstarts => h ((startsToken_newline hne lower).mp hstarts)

/-! ### Scanning over a newline -/

/-- What one scan finds, and then what another one finds. -/
instance : Append Lexed where
  append first second :=
    ⟨first.tokens ++ second.tokens, first.comments ++ second.comments,
      first.errors ++ second.errors⟩

theorem Lexed.append_eq (first second : Lexed) :
    first ++ second = ⟨first.tokens ++ second.tokens, first.comments ++ second.comments,
      first.errors ++ second.errors⟩ := rfl

theorem Lexed.nil_append (found : Lexed) : ({} : Lexed) ++ found = found := rfl

theorem Lexed.addSkipped_append (skipped : Skipped) (first second : Lexed) :
    Lexed.addSkipped skipped first ++ second = Lexed.addSkipped skipped (first ++ second) := by
  simp only [Lexed.append_eq, Lexed.addSkipped, List.append_assoc]

theorem Lexed.addToken_append (keepTrivia : Bool) (token : Token) (first second : Lexed) :
    Lexed.addToken keepTrivia token first ++ second =
      Lexed.addToken keepTrivia token (first ++ second) := by
  unfold Lexed.addToken
  split <;> rfl

theorem Lexed.addToken_whitespace {token : Token} (h : token.kind = .whitespace) (found : Lexed) :
    Lexed.addToken false token found = found := by
  unfold Lexed.addToken
  rw [h]

theorem Skipped.stop_push (skipped : Skipped) (c : Char) :
    (skipped.push c).stop = skipped.stop.step c := by
  rw [Skipped.stop, skipped.text_push, Position.advance_append]
  rfl

theorem scanFrom_blankRun (skipped : Skipped) {input : List Char}
    (h : input.takeWhile isBlank ≠ []) :
    scanFrom false skipped input =
      Lexed.addSkipped skipped (scanFrom false
        ⟨skipped.stop.advance (input.takeWhile isBlank), []⟩ (input.dropWhile isBlank)) := by
  obtain ⟨c, rest, rfl⟩ : ∃ c rest, input = c :: rest := by
    refine List.exists_cons_of_ne_nil ?_
    rintro rfl
    exact h rfl
  exact scanFrom_token (nextToken?_blank h)

theorem scanFrom_dropWhile (position : Position) (input : List Char) :
    scanFrom false ⟨position.advance (input.takeWhile isBlank), []⟩ (input.dropWhile isBlank) =
      scanFrom false ⟨position, []⟩ input := by
  by_cases h : input.takeWhile isBlank = []
  · have hinput := List.takeWhile_append_dropWhile (p := isBlank) (l := input)
    rw [h, List.nil_append] at hinput
    rw [h, hinput, Position.advance_nil]
  · exact (scanFrom_blankRun ⟨position, []⟩ h).symm

/-- Where white space goes on, the scan goes on behind it. -/
theorem scanFrom_blank (skipped : Skipped) {blank : List Char} (hne : blank ≠ [])
    (h : ∀ c ∈ blank, isBlank c = true) (input : List Char) :
    scanFrom false skipped (blank ++ input) =
      Lexed.addSkipped skipped (scanFrom false ⟨skipped.stop.advance blank, []⟩ input) := by
  have hrun : (blank ++ input).takeWhile isBlank = blank ++ input.takeWhile isBlank :=
    List.takeWhile_append_of_pos h
  have hrest : (blank ++ input).dropWhile isBlank = input.dropWhile isBlank :=
    List.dropWhile_append_of_pos h
  have hsome : (blank ++ input).takeWhile isBlank ≠ [] := by simp [hrun, hne]
  rw [scanFrom_blankRun skipped hsome, hrun, hrest, Position.advance_append, scanFrom_dropWhile]

/-- **A newline parts a scan in two**: what is found in both parts is what is found above the
newline, and then what is found below it, from the place behind the newline on. -/
theorem scanFrom_newline (skipped : Skipped) (upper lower : List Char) :
    scanFrom false skipped (upper ++ '\n' :: lower) =
      scanFrom false skipped upper ++
        scanFrom false ⟨skipped.stop.advance (upper ++ ['\n']), []⟩ lower := by
  fun_induction scanFrom false skipped upper with
  | case1 skipped =>
      rw [Lexed.addSkipped_append, Lexed.nil_append]
      exact scanFrom_blank skipped (List.cons_ne_nil '\n' [])
        (fun d hd => List.mem_singleton.mp hd ▸ isBlank_newline) lower
  | case2 skipped c rest munch h token ih =>
      have hsplit := (nextToken?_splits h).append_eq
      have hstop : skipped.stop.advance (c :: rest ++ ['\n']) =
          (skipped.stop.advance munch.text).advance (munch.rest ++ ['\n']) := by
        rw [← hsplit, List.append_assoc, Position.advance_append]
      rw [Lexed.addSkipped_append, Lexed.addToken_append, hstop]
      by_cases hends : munch.kind = .whitespace ∧ munch.rest = []
      · -- the white space at the end of the upper part goes on with the newline
        obtain ⟨hkind, hrest⟩ := hends
        have hblank : ∀ d ∈ munch.text ++ ['\n'], isBlank d = true := by
          intro d hd
          rcases List.mem_append.mp hd with hd | hd
          · exact (hkind ▸ nextToken?_spells h).isBlank d hd
          · exact List.mem_singleton.mp hd ▸ isBlank_newline
        have hover := scanFrom_blank skipped (by simp) hblank lower
        rw [hrest, List.append_nil] at hsplit
        rw [List.append_assoc, List.singleton_append, hsplit] at hover
        rw [hover, hrest, ← hsplit, Lexed.addToken_whitespace hkind, Position.advance_append,
          scanFrom]
        rfl
      · have hread := nextToken?_newline h hends lower
        rw [List.cons_append] at hread ⊢
        rw [scanFrom_token hread, ih]
        rfl
  | case3 skipped c rest h ih =>
      have hread := nextToken?_newline_eq_none (List.cons_ne_nil c rest) h lower
      rw [List.cons_append] at hread ⊢
      rw [scanFrom_skip hread, ih, Skipped.stop_push]
      rfl

/-! ### Further down in a source -/

/-- The place so many bytes and lines further down. -/
def Position.moved (bytes lines : Nat) (position : Position) : Position :=
  ⟨position.offset + bytes, ⟨position.location.line + lines, position.location.column⟩⟩

/-- The place of the same text so many bytes and lines further down. -/
def Site.moved (bytes lines : Nat) (site : Site) : Site :=
  ⟨⟨site.span.start + bytes, site.span.stop + bytes⟩,
    ⟨site.location.line + lines, site.location.column⟩⟩

/-- The same finds, so many bytes and lines further down. -/
def Lexed.moved (bytes lines : Nat) (lexed : Lexed) : Lexed where
  tokens := lexed.tokens.map fun token => { token with site := token.site.moved bytes lines }
  comments := lexed.comments.map fun token => { token with site := token.site.moved bytes lines }
  errors := lexed.errors.map fun error => { error with site := error.site.moved bytes lines }

section Moved

variable (bytes lines : Nat)

theorem Position.step_moved (position : Position) (c : Char) :
    (position.moved bytes lines).step c = (position.step c).moved bytes lines := by
  unfold step moved
  split
  · simp only [Nat.add_right_comm]
  · simp only [Nat.add_right_comm]

theorem Position.advance_moved (position : Position) (text : List Char) :
    (position.moved bytes lines).advance text = (position.advance text).moved bytes lines :=
  List.foldl_hom (Position.moved bytes lines) (Position.step_moved bytes lines)

theorem Site.covering_moved (position : Position) (text : List Char) :
    Site.covering (position.moved bytes lines) text =
      (Site.covering position text).moved bytes lines := by
  unfold covering
  rw [Position.advance_moved]
  rfl

/-- The same characters, skipped further down. -/
def Skipped.moved (skipped : Skipped) : Skipped :=
  { skipped with start := skipped.start.moved bytes lines }

theorem Skipped.stop_moved (skipped : Skipped) :
    (skipped.moved bytes lines).stop = skipped.stop.moved bytes lines :=
  Position.advance_moved bytes lines skipped.start skipped.text

theorem Skipped.error?_moved (skipped : Skipped) :
    (skipped.moved bytes lines).error? =
      skipped.error?.map fun error => { error with site := error.site.moved bytes lines } := by
  have hsite := Site.covering_moved bytes lines skipped.start skipped.text
  obtain ⟨start, characters⟩ := skipped
  cases characters with
  | nil => rfl
  | cons c characters => exact congrArg (fun site => some (LexError.mk _ site)) hsite

theorem Lexed.addSkipped_moved (skipped : Skipped) (found : Lexed) :
    Lexed.addSkipped (skipped.moved bytes lines) (found.moved bytes lines) =
      (Lexed.addSkipped skipped found).moved bytes lines := by
  unfold Lexed.addSkipped Lexed.moved
  rw [Skipped.error?_moved, List.map_append]
  cases skipped.error? <;> rfl

theorem Lexed.addToken_moved (keepTrivia : Bool) (token : Token) (found : Lexed) :
    Lexed.addToken keepTrivia { token with site := token.site.moved bytes lines }
        (found.moved bytes lines) =
      (Lexed.addToken keepTrivia token found).moved bytes lines := by
  unfold Lexed.addToken
  dsimp only
  split <;> rfl

theorem scanFrom_moved (keepTrivia : Bool) (skipped : Skipped) (input : List Char) :
    scanFrom keepTrivia (skipped.moved bytes lines) input =
      (scanFrom keepTrivia skipped input).moved bytes lines := by
  fun_induction scanFrom keepTrivia skipped input with
  | case1 skipped =>
      rw [scanFrom, ← Lexed.addSkipped_moved]
      rfl
  | case2 skipped c rest munch h token ih =>
      rw [scanFrom_token h, Skipped.stop_moved, Position.advance_moved, Site.covering_moved,
        ← Lexed.addSkipped_moved, ← Lexed.addToken_moved, ← ih]
      rfl
  | case3 skipped c rest h ih =>
      rw [scanFrom_skip h, ← ih]
      rfl

end Moved

/-! ### Two texts with a newline between them -/

theorem advance_newline (upper : List Char) :
    Position.advance {} (upper ++ ['\n']) =
      Position.moved (String.utf8Len upper + 1) (upper.count '\n' + 1) {} := by
  have hline : (Location.after upper).line + 1 = 1 + (upper.count '\n' + 1) :=
    Nat.add_comm _ _
  rw [advance_start, Location.after_concat, if_pos rfl, hline, Position.moved,
    String.utf8Len_append, Nat.zero_add]
  rfl

/-- **Lines are scanned on their own**: with a newline between two texts, a scan finds what it finds
in the first one, and then what it finds in the second one, as many bytes and lines further down as
the first one has with the newline.  Within 32 bits, this is so for the scans with a line tracker,
and all three have a result. -/
theorem tokenize_newline (a b : String) :
    tokenize (a ++ "\n" ++ b) =
        tokenize a ++ (tokenize b).moved (a.utf8ByteSize + 1) (a.toList.count '\n' + 1) ∧
      ((a ++ "\n" ++ b).length < 2 ^ 32 →
        track? false a = some (tokenize a) ∧ track? false b = some (tokenize b) ∧
          track? false (a ++ "\n" ++ b) = some (tokenize (a ++ "\n" ++ b))) := by
  have hlist : (a ++ "\n" ++ b).toList = a.toList ++ '\n' :: b.toList := by simp
  constructor
  · have hplace : (Skipped.mk {} []).stop.advance (a.toList ++ ['\n']) =
        Position.moved (a.utf8ByteSize + 1) (a.toList.count '\n' + 1) {} := by
      rw [← String.utf8Len_toList]
      exact advance_newline a.toList
    unfold tokenize
    rw [hlist, scanFrom_newline, hplace, ← scanFrom_moved]
    rfl
  · intro hlength
    have hsum := congrArg List.length hlist
    rw [List.length_append, List.length_cons, String.length_toList, String.length_toList,
      String.length_toList] at hsum
    exact ⟨track?_eq (by omega) false, track?_eq (by omega) false, track?_eq hlength false⟩

/-- A string that is not closed, with a comment behind it. -/
def openLine : String := "A [label = \"oops // $"

/-- An edge without a head, and characters that start no token. -/
def strayLine : String := "B -- \" \u00e9"

/-- The open string and the comment end with their line, and the characters below are errors of
theirs. -/
theorem tokenize_newline_openLine :
    (openLine ++ "\n" ++ strayLine).length < 2 ^ 32 ∧
      (tokenize (openLine ++ "\n" ++ strayLine)).errors.map LexError.site =
        [⟨⟨11, 12⟩, ⟨1, 12⟩⟩, ⟨⟨27, 28⟩, ⟨2, 6⟩⟩, ⟨⟨29, 31⟩, ⟨2, 8⟩⟩] ∧
      tokenize (openLine ++ "\n" ++ strayLine) =
        tokenize openLine ++ (tokenize strayLine).moved 22 1 ∧
      track? false (openLine ++ "\n" ++ strayLine) =
        some (tokenize (openLine ++ "\n" ++ strayLine)) := by
  have hlength : (openLine ++ "\n" ++ strayLine).length < 2 ^ 32 := by decide +kernel
  obtain ⟨hparts, htracked⟩ := tokenize_newline openLine strayLine
  exact ⟨hlength, by decide +kernel, hparts, (htracked hlength).2.2⟩

end NodeLink.Source
