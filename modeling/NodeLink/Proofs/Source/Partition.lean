import NodeLink.Proofs.Sequences
import NodeLink.Proofs.Source.Pieces
import Mathlib.Data.List.Nodup
import Mathlib.Data.String.Basic

/-! # A scan partitions its source

Every byte of a source belongs to exactly one token or error.  Ordered by where they start, the
tokens with trivia and the errors follow each other from the first byte to the last one without a
gap or an overlap, each between two characters and with the text that stands there, so together
they spell the source; and a scan without trivia differs only in that white space is dropped and
comments are set aside (`tokenize_partitions`).  The spans are byte ranges of the string, and the
texts are compared with the slices of these ranges; that spans are sums of character widths is
used for the proof only (`stands_of_placeFrom`). -/

namespace NodeLink.Source

/-! ### Partitions -/

/-- A part of a source: a text and the bytes that it covers. -/
structure Fragment where
  text : String
  span : Span

/-- The tokens and the errors of a scan. -/
def Lexed.fragments (lexed : Lexed) : List Fragment :=
  lexed.tokens.map (fun token => ⟨token.text, token.site.span⟩) ++
    lexed.errors.map (fun error => ⟨error.text, error.site.span⟩)

/-- The tokens and the errors of a scan, ordered by where they start. -/
def Lexed.inOrder (lexed : Lexed) : List Fragment :=
  lexed.fragments.mergeSort fun a b => a.span.start ≤ b.span.start

/-- The bytes of a fragment are some characters of the source, and its text is the slice there. -/
structure Fragment.Stands (source : String) (fragment : Fragment) : Prop where
  nonempty : fragment.span.start < fragment.span.stop
  start_isValid : String.Pos.Raw.IsValid source ⟨fragment.span.start⟩
  stop_isValid : String.Pos.Raw.IsValid source ⟨fragment.span.stop⟩
  text_eq : fragment.text =
    String.Pos.Raw.extract source ⟨fragment.span.start⟩ ⟨fragment.span.stop⟩

/-- Each fragment starts where the one before it stops, from `start` to `stop`. -/
def Tiles (start stop : Nat) : List Fragment → Prop
  | [] => start = stop
  | fragment :: rest => fragment.span.start = start ∧ Tiles fragment.span.stop stop rest

/-- Fragments that a source is made of, in their order. -/
structure Partition (source : String) (fragments : List Fragment) : Prop where
  stands : ∀ fragment ∈ fragments, fragment.Stands source
  tiles : Tiles 0 source.utf8ByteSize fragments
  spells : String.join (fragments.map Fragment.text) = source

/-- What tiles a range without being empty is in strict order. -/
theorem Tiles.pairwise_lt {stop : Nat} : ∀ {fragments : List Fragment} {start : Nat},
    Tiles start stop fragments → (∀ f ∈ fragments, f.span.start < f.span.stop) →
      (∀ f ∈ fragments, start ≤ f.span.start) ∧
        fragments.Pairwise fun a b => a.span.start < b.span.start
  | [], _, _, _ => ⟨nofun, .nil⟩
  | f :: rest, start, h, hne => by
      obtain ⟨hstart, hrest⟩ := h
      have hlt := hne f List.mem_cons_self
      obtain ⟨hle, hpair⟩ := hrest.pairwise_lt fun g hg => hne g (List.mem_cons_of_mem f hg)
      refine ⟨fun g hg => ?_, .cons (fun g hg => Nat.lt_of_lt_of_le hlt (hle g hg)) hpair⟩
      rcases List.mem_cons.mp hg with rfl | hg
      · exact Nat.le_of_eq hstart.symm
      · have := hle g hg
        omega

/-! ### Placed pieces -/

/-- The fragment that a placed piece is. -/
def PlacedPiece.fragment (placed : PlacedPiece) : Fragment :=
  ⟨String.ofList placed.piece.text, placed.site.span⟩

theorem offset_advance (text : List Char) (position : Position) :
    (position.advance text).offset = position.offset + String.utf8Len text := by
  induction text generalizing position with
  | nil => rfl
  | cons c text ih =>
      rw [Position.advance_cons, ih, String.utf8Len_cons]
      show position.offset + c.utf8Size + _ = _
      omega

theorem utf8Len_pos {text : List Char} (h : text ≠ []) : 0 < String.utf8Len text :=
  Nat.pos_of_ne_zero fun hzero => h (String.utf8Len_eq_zero.mp hzero)

theorem isValid_utf8Len {source : String} {before after : List Char}
    (h : source = String.ofList (before ++ after)) :
    String.Pos.Raw.IsValid source ⟨String.utf8Len before⟩ := by
  refine String.Pos.Raw.isValid_iff_exists_append.mpr
    ⟨String.ofList before, String.ofList after, ?_, ?_⟩
  · rw [h, ← String.ofList_append]
  · rw [String.rawEndPos_ofList]

theorem stands_of_eq_append {source : String} {before text after : List Char}
    (hne : text ≠ []) (h : source = String.ofList (before ++ text ++ after)) :
    Fragment.Stands source ⟨String.ofList text,
      ⟨String.utf8Len before, String.utf8Len before + String.utf8Len text⟩⟩ where
  nonempty := Nat.lt_add_of_pos_right (utf8Len_pos hne)
  start_isValid := isValid_utf8Len (List.append_assoc .. ▸ h)
  stop_isValid := by
    rw [← String.utf8Len_append]
    exact isValid_utf8Len h
  text_eq := by
    rw [h]
    exact (String.extract_of_valid before text after).symm

/-- Placed behind the text before them, the pieces of a source stand where they say. -/
theorem stands_of_placeFrom {source : String} : ∀ (all : List Piece) {before : List Char}
    {position : Position}, position.offset = String.utf8Len before →
      source = String.ofList (before ++ (all.map Piece.text).flatten) →
      (∀ piece ∈ all, piece.text ≠ []) →
      ∀ placed ∈ placeFrom position all, placed.fragment.Stands source
  | [], _, _, _, _, _, _, h => nomatch h
  | piece :: rest, before, position, hoffset, hsource, hne, placed, h => by
      rw [List.map_cons, List.flatten_cons, ← List.append_assoc] at hsource
      rcases List.mem_cons.mp h with rfl | h
      · have hstands := stands_of_eq_append (hne piece List.mem_cons_self) hsource
        rw [← hoffset, ← offset_advance] at hstands
        exact hstands
      · refine stands_of_placeFrom rest ?_ hsource
          (fun p hp => hne p (List.mem_cons_of_mem piece hp)) placed h
        rw [offset_advance, String.utf8Len_append, hoffset]

theorem tiles_placeFrom : ∀ (all : List Piece) (position : Position),
    Tiles position.offset (position.advance (all.map Piece.text).flatten).offset
      ((placeFrom position all).map PlacedPiece.fragment)
  | [], _ => rfl
  | piece :: rest, position => by
      rw [List.map_cons, List.flatten_cons, Position.advance_append]
      exact ⟨rfl, tiles_placeFrom rest (position.advance piece.text)⟩

theorem texts_placeFrom : ∀ (all : List Piece) (position : Position),
    ((placeFrom position all).map PlacedPiece.fragment).map Fragment.text =
      all.map fun piece => String.ofList piece.text
  | [], _ => rfl
  | piece :: rest, position =>
      congrArg (String.ofList piece.text :: ·) (texts_placeFrom rest (position.advance piece.text))

theorem partition_placedPieces (source : String) :
    Partition source ((placedPieces source).map PlacedPiece.fragment) where
  stands := by
    intro fragment h
    obtain ⟨placed, hplaced, rfl⟩ := List.mem_map.mp h
    have hoffset : ({} : Position).offset = String.utf8Len [] := rfl
    refine stands_of_placeFrom (pieces source.toList) hoffset ?_
      (fun _ => text_ne_nil_of_mem_pieces) placed hplaced
    rw [List.nil_append, pieces_flatten, String.ofList_toList]
  tiles := by
    have h := tiles_placeFrom (pieces source.toList) {}
    rw [pieces_flatten, offset_advance, String.utf8Len_toList, Nat.zero_add] at h
    exact h
  spells := by
    have htexts : ((pieces source.toList).map fun piece => String.ofList piece.text).map
        String.toList = (pieces source.toList).map Piece.text := by
      rw [List.map_map]
      exact List.map_congr_left fun piece _ => String.toList_ofList
    unfold placedPieces
    rw [texts_placeFrom, String.join_eq, htexts, pieces_flatten, String.ofList_toList]

/-! ### Tokens and errors in order -/

/-- Sorted into tokens and errors, pieces are the same fragments in another order. -/
theorem fragments_ofPieces_perm (placed : List PlacedPiece) :
    (Lexed.ofPieces placed).fragments.Perm (placed.map PlacedPiece.fragment) := by
  induction placed with
  | nil => exact .nil
  | cons p rest ih =>
      obtain ⟨⟨kind?, text⟩, start⟩ := p
      cases kind? with
      | some kind => exact ih.cons _
      | none => exact List.perm_middle.trans (ih.cons _)

theorem inOrder_eq_of_perm {lexed : Lexed} {source : String} {fragments : List Fragment}
    (hp : lexed.fragments.Perm fragments) (h : Partition source fragments) :
    lexed.inOrder = fragments := by
  have hlt := (h.tiles.pairwise_lt fun f hf => (h.stands f hf).nonempty).2
  have hperm : lexed.inOrder.Perm fragments := (List.mergeSort_perm _ _).trans hp
  have hsorted : lexed.inOrder.Pairwise fun a b => a.span.start ≤ b.span.start :=
    pairwise_mergeSort_key (fun f : Fragment => f.span.start) lexed.fragments
  have hinj : ∀ a ∈ fragments, ∀ b ∈ fragments, a.span.start = b.span.start → a = b := by
    have hnodup : (fragments.map fun f => f.span.start).Nodup :=
      List.pairwise_map.mpr (hlt.imp Nat.ne_of_lt)
    exact fun a ha b hb => List.inj_on_of_nodup_map hnodup ha hb
  refine List.Perm.eq_of_pairwise (fun a b ha hb hab hba => ?_) hsorted (hlt.imp Nat.le_of_lt)
    hperm
  exact hinj a (hperm.subset ha) b hb (Nat.le_antisymm hab hba)

/-- **Tokens and errors partition the source**: with trivia, they tile it from the first byte to
the last, and without trivia they are the same, white space dropped and comments set aside. -/
theorem tokenize_partitions (source : String) :
    Partition source (tokenizeWithTrivia source).inOrder ∧
      (tokenizeWithTrivia source).comments = [] ∧
      tokenize source = (tokenizeWithTrivia source).withoutTrivia := by
  have hpieces := partition_placedPieces source
  refine ⟨?_, ?_, scanFrom_eq_withoutTrivia _ _⟩
  · rw [tokenizeWithTrivia_eq, inOrder_eq_of_perm (fragments_ofPieces_perm _) hpieces]
    exact hpieces
  · rw [tokenizeWithTrivia_eq]
    rfl

end NodeLink.Source
