import NodeLink.Source.LineTracker
import NodeLink.Proofs.Document.Diagnostics

/-! # Locations of a source

A scan with a line tracker knows only the lines that have ended and where the current one starts.
It moves on token by token, and over skipped characters only when it reports them.  Yet at each
token and at each run that it reports it is the tracker behind the text before it
(`LineTracker.behind`), so its slices exist, it finds what the scan with a running position finds
(`track?_eq`), and every location that it gives is the one that `Location.of` reads off the source
(`locations_readOff`).  A syntax error takes its location from a token, or reads it off the source
at its end. -/

namespace NodeLink.Source

/-! ### Slices -/

/-- Between two texts, the slice from the end of the one to the start of the other is what stands
between them. -/
theorem slice?_eq {source : String} {before text after : List Char}
    (h : source = String.ofList (before ++ text ++ after)) :
    slice? source (String.utf8Len before) (String.utf8Len before + String.utf8Len text) =
      some (String.ofList text) := by
  have hstart := isValid_utf8Len (List.append_assoc .. ▸ h)
  have hstop := isValid_utf8Len h
  rw [String.utf8Len_append] at hstop
  rw [slice?, if_pos ⟨Nat.le_add_right _ _, hstart, hstop⟩, h]
  exact congrArg some (String.extract_of_valid before text after)

theorem next32?_eq {n : Nat} (h : n + 1 < 2 ^ 32) : next32? n = some (n + 1) := if_pos h

/-! ### The tracker behind a text -/

/-- The part of a text up to and with its last newline. -/
def endedLines (text : List Char) : List Char :=
  (text.reverse.dropWhile (· ≠ '\n')).reverse

/-- The part of a text behind its last newline. -/
def lastLine (text : List Char) : List Char :=
  (text.reverse.takeWhile (· ≠ '\n')).reverse

theorem endedLines_append_lastLine (text : List Char) :
    endedLines text ++ lastLine text = text := by
  unfold endedLines lastLine
  rw [← List.reverse_append, List.takeWhile_append_dropWhile, List.reverse_reverse]

theorem endedLines_newline (text : List Char) : endedLines (text ++ ['\n']) = text ++ ['\n'] := by
  simp [endedLines]

theorem endedLines_concat {c : Char} (text : List Char) (h : c ≠ '\n') :
    endedLines (text ++ [c]) = endedLines text := by
  simp [endedLines, h]

/-- The tracker that has moved over a text from the start of a source. -/
def LineTracker.behind (text : List Char) : LineTracker where
  line := text.count '\n'
  lineStart := String.utf8Len (endedLines text)

namespace LineTracker

theorem advance?_behind (before text : List Char) (h : (before ++ text).length < 2 ^ 32) :
    (behind before).advance? (String.utf8Len before) text = some (behind (before ++ text)) := by
  induction text generalizing before with
  | nil => simp [advance?, lineStarts]
  | cons c text ih =>
      have hcons : before ++ c :: text = (before ++ [c]) ++ text := by simp
      have hlen : String.utf8Len (before ++ [c]) = String.utf8Len before + c.utf8Size := by simp
      have hrest := ih (before ++ [c]) (hcons ▸ h)
      rw [hlen] at hrest
      rw [hcons, ← hrest]
      by_cases hc : c = '\n'
      · subst hc
        have hcount : before.count '\n' + 1 < 2 ^ 32 := by
          have := before.count_le_length (a := '\n')
          simp only [List.length_append, List.length_cons] at h
          omega
        have hstep : behind (before ++ ['\n']) =
            ⟨before.count '\n' + 1, String.utf8Len before + 1⟩ := by
          have hsize : '\n'.utf8Size = 1 := rfl
          rw [behind, endedLines_newline, hlen, hsize, List.count_append,
            List.count_singleton_self]
        rw [advance?, lineStarts, if_pos rfl, List.foldlM_cons, hstep]
        simp [behind, next32?_eq hcount, advance?]
      · have hstep : behind (before ++ [c]) = behind before := by
          rw [behind, endedLines_concat before hc]
          simp [behind, hc]
        rw [advance?, lineStarts, if_neg hc, hstep]
        rfl

/-- Behind a text, the tracker finds the location behind it. -/
theorem locate?_behind {source : String} {before after : List Char}
    (h : source = String.ofList (before ++ after)) (hlength : before.length + 1 < 2 ^ 32) :
    (behind before).locate? source (String.utf8Len before) = some (Location.after before) := by
  have hsplit := endedLines_append_lastLine before
  have hslice : slice? source (behind before).lineStart (String.utf8Len before) =
      some (String.ofList (lastLine before)) := by
    have hsource : source = String.ofList (endedLines before ++ lastLine before ++ after) := by
      rw [hsplit, h]
    have hmiddle := slice?_eq hsource
    rwa [← String.utf8Len_append, hsplit] at hmiddle
  have hline : before.count '\n' + 1 < 2 ^ 32 :=
    Nat.lt_of_le_of_lt (Nat.succ_le_succ List.count_le_length) hlength
  have hcolumn : (lastLine before).length + 1 < 2 ^ 32 := by
    have := congrArg List.length hsplit
    rw [List.length_append] at this
    omega
  have hmod : (String.ofList (lastLine before)).length % wordBound = (lastLine before).length := by
    rw [String.length_ofList]
    exact Nat.mod_eq_of_lt (Nat.lt_of_succ_lt hcolumn)
  unfold locate?
  rw [hslice]
  simp only [Option.bind_eq_bind, Option.bind_some, hmod, next32?_eq hcolumn, behind,
    next32?_eq hline]
  simp [Location.after, lastLine]

theorem locate?_advance? {source : String} {before text after : List Char}
    (h : source = String.ofList (before ++ text ++ after)) (hne : text ≠ [])
    (hlength : source.length < 2 ^ 32) :
    (behind before).locate? source (String.utf8Len before) = some (Location.after before) ∧
      (behind before).advance? (String.utf8Len before) text = some (behind (before ++ text)) := by
  have hpos := List.length_pos_iff.mpr hne
  rw [h, String.length_ofList, List.length_append, List.length_append] at hlength
  constructor
  · exact locate?_behind (List.append_assoc .. ▸ h) (by omega)
  · exact advance?_behind before text (by rw [List.length_append]; omega)

end LineTracker

/-! ### The two scans are one -/

/-- The byte from which on characters were skipped, if some were. -/
def Skipped.from? (skipped : Skipped) : Option Nat :=
  if skipped.characters.isEmpty then none else some skipped.start.offset

theorem advance_start (before : List Char) :
    Position.advance {} before = ⟨String.utf8Len before, Location.after before⟩ := by
  have hoffset : (Position.advance {} before).offset = String.utf8Len before :=
    (offset_advance before {}).trans (Nat.zero_add _)
  rw [Location.after_eq, ← hoffset]

theorem covering_start (before text : List Char) :
    Site.covering (Position.advance {} before) text =
      ⟨⟨String.utf8Len before, String.utf8Len before + String.utf8Len text⟩,
        Location.after before⟩ := by
  rw [advance_start, Site.covering, offset_advance]

theorem offset_of_rest {source : String} {before rest : List Char}
    (h : source = String.ofList (before ++ rest)) :
    source.utf8ByteSize - (String.ofList rest).utf8ByteSize = String.utf8Len before := by
  rw [h, String.utf8ByteSize_ofList, String.utf8ByteSize_ofList, String.utf8Len_append,
    Nat.add_sub_cancel]

theorem from?_push {before : List Char} {skipped : Skipped} {c : Char}
    (hstart : skipped.start = Position.advance {} before) :
    some (skipped.from?.getD (String.utf8Len (before ++ skipped.text))) =
      (skipped.push c).from? := by
  have hpush : (skipped.push c).from? = some (String.utf8Len before) := by
    have hoffset : (skipped.push c).start.offset = String.utf8Len before := by
      rw [Skipped.push, hstart, advance_start]
    rw [← hoffset]
    rfl
  rw [hpush, Skipped.from?]
  cases hempty : skipped.characters.isEmpty with
  | true =>
      have htext : skipped.text = [] := by simpa [Skipped.text] using hempty
      simp [htext]
  | false => simp [hstart, advance_start]

theorem report?_skipped {source : String} {before rest : List Char} {skipped : Skipped}
    (hstart : skipped.start = Position.advance {} before)
    (hsource : source = String.ofList (before ++ skipped.text ++ rest))
    (hlength : source.length < 2 ^ 32) :
    (LineTracker.behind before).report? source skipped.from?
        (String.utf8Len (before ++ skipped.text)) =
      some (skipped.error?, .behind (before ++ skipped.text)) := by
  unfold Skipped.from? Skipped.error? LineTracker.report?
  cases hempty : skipped.characters.isEmpty with
  | true =>
      have htext : skipped.text = [] := by simpa [Skipped.text] using hempty
      simp [htext]
  | false =>
      have hne : skipped.text ≠ [] := by simpa [Skipped.text] using hempty
      have hslice := slice?_eq hsource
      obtain ⟨hlocate, hadvance⟩ := LineTracker.locate?_advance? hsource hne hlength
      have hoffset : skipped.start.offset = String.utf8Len before := by
        rw [hstart, advance_start]
      have hsite := covering_start before skipped.text
      rw [← hstart] at hsite
      simp only [hoffset, String.utf8Len_append, hslice, hlocate, hadvance, hsite,
        String.toList_ofList, Option.bind_eq_bind, Option.bind_some, Bool.false_eq_true, if_false]
      rfl

/-! ### The steps of a scan with a line tracker -/

section Steps

variable {source : String} {before tail : List Char} {c : Char}

theorem trackFrom?_nil (hsource : source = String.ofList (before ++ [])) (keepTrivia : Bool)
    (tracker : LineTracker) (skippedFrom : Option Nat) :
    trackFrom? source keepTrivia tracker skippedFrom [] = do
      let (error?, _) ← tracker.report? source skippedFrom (String.utf8Len before)
      return Lexed.addError? error? {} := by
  rw [trackFrom?, offset_of_rest hsource]

theorem trackFrom?_token {munch : Munch} (hsource : source = String.ofList (before ++ c :: tail))
    (h : nextToken? (c :: tail) = some munch) (keepTrivia : Bool) (tracker : LineTracker)
    (skippedFrom : Option Nat) :
    trackFrom? source keepTrivia tracker skippedFrom (c :: tail) = do
      let (error?, tracker) ← tracker.report? source skippedFrom (String.utf8Len before)
      let location ← tracker.locate? source (String.utf8Len before)
      let tracker ← tracker.advance? (String.utf8Len before) munch.text
      let found ← trackFrom? source keepTrivia tracker none munch.rest
      return Lexed.addError? error? <| Lexed.addToken keepTrivia
        ⟨munch.kind, String.ofList munch.text, ⟨⟨String.utf8Len before,
          String.utf8Len before + String.utf8Len munch.text⟩, location⟩⟩ found := by
  rw [trackFrom?, offset_of_rest hsource]
  split
  · next munch' hmunch' =>
    obtain rfl := Option.some.inj (h.symm.trans hmunch')
    simp only [String.utf8ByteSize_ofList]
  · next hnone => cases h.symm.trans hnone

theorem trackFrom?_skip (hsource : source = String.ofList (before ++ c :: tail))
    (h : nextToken? (c :: tail) = none) (keepTrivia : Bool) (tracker : LineTracker)
    (skippedFrom : Option Nat) :
    trackFrom? source keepTrivia tracker skippedFrom (c :: tail) =
      trackFrom? source keepTrivia tracker
        (some (skippedFrom.getD (String.utf8Len before))) tail := by
  rw [trackFrom?, offset_of_rest hsource]
  split
  · next munch hmunch => cases hmunch.symm.trans h
  · rfl

end Steps

theorem trackFrom?_eq {source : String} (hlength : source.length < 2 ^ 32) (keepTrivia : Bool)
    (skipped : Skipped) (rest : List Char) : ∀ {before : List Char},
      skipped.start = Position.advance {} before →
      source = String.ofList (before ++ skipped.text ++ rest) →
      trackFrom? source keepTrivia (.behind before) skipped.from? rest =
        some (scanFrom keepTrivia skipped rest) := by
  fun_induction scanFrom keepTrivia skipped rest with
  | case1 skipped =>
      intro before hstart hsource
      rw [trackFrom?_nil hsource, report?_skipped hstart hsource hlength]
      rfl
  | case2 skipped c rest munch hmunch token =>
      -- what was skipped is reported, and the tracker moves over it and over the token
      rename_i ih
      intro before hstart hsource
      obtain ⟨hne, hsplit⟩ := nextToken?_splits hmunch
      have htoken : source =
          String.ofList ((before ++ skipped.text) ++ munch.text ++ munch.rest) := by
        rw [hsource, List.append_assoc _ munch.text, hsplit]
      have hstop : skipped.stop = Position.advance {} (before ++ skipped.text) := by
        rw [Skipped.stop, hstart, Position.advance_append]
      obtain ⟨hlocate, hadvance⟩ := LineTracker.locate?_advance? htoken hne hlength
      have hlater := ih
        ((congrArg (·.advance munch.text) hstop).trans (Position.advance_append ..).symm)
        (by rw [htoken]; simp [Skipped.text])
      have hfrom : (Skipped.mk (skipped.stop.advance munch.text) []).from? = none := rfl
      have hsite := covering_start (before ++ skipped.text) munch.text
      rw [hfrom] at hlater
      rw [← hstop] at hsite
      rw [trackFrom?_token hsource hmunch, report?_skipped hstart hsource hlength]
      have htoken : token = ⟨munch.kind, String.ofList munch.text, _⟩ :=
        congrArg (Token.mk munch.kind (String.ofList munch.text)) hsite
      simp only [hlocate, hadvance, hlater, Option.bind_eq_bind, Option.bind_some]
      rw [htoken]
      rfl
  | case3 skipped c rest hnone ih =>
      -- the tracker stays behind `before`, only the run that is skipped grows
      intro before hstart hsource
      have hlater := ih hstart (by rw [skipped.text_push, hsource]; simp)
      rw [trackFrom?_skip hsource hnone, ← hlater, ← from?_push hstart]

/-- For a source within 32 bits, tracking lines gives the tokens, the comments and the errors of
the scan with a running position. -/
theorem track?_eq {source : String} (hlength : source.length < 2 ^ 32) (keepTrivia : Bool) :
    track? keepTrivia source = some (scanFrom keepTrivia ⟨{}, []⟩ source.toList) := by
  have hsource : source = String.ofList ([] ++ (Skipped.mk {} []).text ++ source.toList) :=
    String.ofList_toList.symm
  exact trackFrom?_eq hlength keepTrivia ⟨{}, []⟩ source.toList rfl hsource

/-! ### Locations read off the source -/

/-- The location of a place is the one read off the source for the byte where it starts. -/
def Site.ReadOff (source : String) (site : Site) : Prop :=
  site.location = Location.of source site.span.start

/-- All locations of a scan are read off the source. -/
structure Lexed.ReadOff (source : String) (lexed : Lexed) : Prop where
  tokens : ∀ token ∈ lexed.tokens, token.site.ReadOff source
  comments : ∀ comment ∈ lexed.comments, comment.site.ReadOff source
  errors : ∀ error ∈ lexed.errors, error.site.ReadOff source

theorem readOff_covering {source : String} {before text after : List Char}
    (h : source = String.ofList (before ++ text ++ after)) :
    (Site.covering (Position.advance {} before) text).ReadOff source := by
  rw [covering_start]
  show Location.after before = Location.of source (String.utf8Len before)
  rw [Location.of, h, String.toList_ofList, List.append_assoc, charactersBefore_append]

theorem readOff_placeFrom {source : String} : ∀ (all : List Piece) {before : List Char},
    source = String.ofList (before ++ (all.map Piece.text).flatten) →
      ∀ placed ∈ placeFrom (Position.advance {} before) all, placed.site.ReadOff source
  | [], _, _, _, h => nomatch h
  | piece :: rest, before, hsource, placed, h => by
      rw [List.map_cons, List.flatten_cons, ← List.append_assoc] at hsource
      rcases List.mem_cons.mp h with rfl | h
      · exact readOff_covering hsource
      · rw [← Position.advance_append] at h
        exact readOff_placeFrom rest hsource placed h

theorem readOff_placedPieces (source : String) :
    ∀ placed ∈ placedPieces source, placed.site.ReadOff source := by
  have hsource : source =
      String.ofList ([] ++ ((pieces source.toList).map Piece.text).flatten) := by
    rw [List.nil_append, pieces_flatten, String.ofList_toList]
  exact readOff_placeFrom (pieces source.toList) hsource

theorem readOff_tokenizeWithTrivia (source : String) :
    (tokenizeWithTrivia source).ReadOff source := by
  have hplaced := readOff_placedPieces source
  rw [tokenizeWithTrivia_eq]
  refine ⟨fun token htoken => ?_, nofun, fun error herror => ?_⟩
  · obtain ⟨placed, hmem, htoken⟩ := List.mem_filterMap.mp htoken
    rw [site_of_token? htoken]
    exact hplaced placed hmem
  · obtain ⟨placed, hmem, herror⟩ := List.mem_filterMap.mp herror
    rw [site_of_error? herror]
    exact hplaced placed hmem

theorem readOff_tokenize (source : String) : (tokenize source).ReadOff source := by
  have h := readOff_tokenizeWithTrivia source
  rw [tokenize, scanFrom_eq_withoutTrivia]
  exact ⟨fun token htoken => h.tokens token (List.mem_of_mem_filter htoken),
    fun comment hcomment => h.tokens comment (List.mem_of_mem_filter hcomment), h.errors⟩

end NodeLink.Source

namespace NodeLink

open NodeLink.Source

theorem readOff_syntaxErrors (source : String) :
    ∀ error ∈ (parseTokens source (tokenize source).tokens).2, error.site.ReadOff source := by
  intro error herror
  have hplace := (Parse.sites_parseTokens source (tokenize source).tokens).subset
    (List.mem_map_of_mem herror)
  rcases List.mem_append.mp hplace with htoken | hend
  · obtain ⟨token, htoken, hsite⟩ := List.mem_map.mp htoken
    rw [← hsite]
    exact (readOff_tokenize source).tokens token htoken
  · rw [List.mem_singleton.mp hend]
    rfl

/-- **Every location is the one read off the source.**  Within 32 bits, scanning with a line tracker
has a result, with white space and comments and without; it is that of the scan with a running
position; and the locations of its tokens, comments and errors, and those of all syntax errors, are
those of the bytes where they start. -/
theorem locations_readOff {source : String} (h : source.length < 2 ^ 32) :
    (track? true source = some (tokenizeWithTrivia source) ∧
        (tokenizeWithTrivia source).ReadOff source) ∧
      (track? false source = some (tokenize source) ∧ (tokenize source).ReadOff source) ∧
      ∀ error ∈ (parseTokens source (tokenize source).tokens).2, error.site.ReadOff source :=
  ⟨⟨track?_eq h true, readOff_tokenizeWithTrivia source⟩,
    ⟨track?_eq h false, readOff_tokenize source⟩, readOff_syntaxErrors source⟩

/-- Signs of several bytes in a comment, a skipped run and a string, two kinds of line ends, and a
body that is cut short. -/
def mixedLines : String := "graph g \x7b // \u00e9\r\n A \u00e9$ B\n [label = \"\u00e9\"] --"

/-- What is wrong with that source is found where it stands, by columns and not by bytes. -/
theorem locations_mixedLines :
    mixedLines.length < 2 ^ 32 ∧
      (track? false mixedLines).map (fun lexed => lexed.errors.map LexError.site) =
        some [⟨⟨20, 23⟩, ⟨2, 4⟩⟩] ∧
      (parseTokens mixedLines (tokenize mixedLines).tokens).2.map SyntaxError.site =
        [⟨⟨42, 44⟩, ⟨3, 16⟩⟩, ⟨⟨44, 44⟩, ⟨3, 18⟩⟩] ∧
      (track? true mixedLines = some (tokenizeWithTrivia mixedLines) ∧
        (tokenizeWithTrivia mixedLines).ReadOff mixedLines) ∧
      (track? false mixedLines = some (tokenize mixedLines) ∧
        (tokenize mixedLines).ReadOff mixedLines) ∧
      ∀ error ∈ (parseTokens mixedLines (tokenize mixedLines).tokens).2,
        error.site.ReadOff mixedLines := by
  have hlength : mixedLines.length < 2 ^ 32 := by decide +kernel
  exact ⟨hlength, by decide +kernel, by decide +kernel, locations_readOff hlength⟩

end NodeLink
