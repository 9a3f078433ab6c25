import NodeLink.Proofs.Source.Partition
import Mathlib.Data.List.Induction

/-! # The order of places

Moving over characters makes the byte offset greater and the location later, line by line and
column by column (`Position.precedes_advance`).  So what a scan finds, and the end of the source
behind it, stand at places of which each precedes the next (`pairwise_sites`), although a location
is counted along the way and that of the end is read off the whole text
(`Location.of_utf8ByteSize`). -/

namespace NodeLink.Source

/-! ### Positions -/

/-- An earlier line, or an earlier column of the same line. -/
def Location.Before (a b : Location) : Prop :=
  a.line < b.line ∨ a.line = b.line ∧ a.column < b.column

theorem Location.Before.trans {a b c : Location} (h : a.Before b) (h' : b.Before c) :
    a.Before c := by
  unfold Before at *
  omega

theorem Location.Before.irrefl (location : Location) : ¬ location.Before location := by
  unfold Before
  omega

/-- Fewer bytes before it, and an earlier location. -/
structure Position.Precedes (a b : Position) : Prop where
  offset : a.offset < b.offset
  location : a.location.Before b.location

namespace Position

theorem Precedes.trans {a b c : Position} (h : a.Precedes b) (h' : b.Precedes c) :
    a.Precedes c :=
  ⟨Nat.lt_trans h.offset h'.offset, h.location.trans h'.location⟩

theorem precedes_step (position : Position) (c : Char) : position.Precedes (position.step c) := by
  refine ⟨Nat.lt_add_of_pos_right c.utf8Size_pos, ?_⟩
  by_cases h : c = '\n'
  · exact .inl (by simp [step, h])
  · exact .inr (by simp [step, h])

/-- A position precedes those behind it. -/
theorem precedes_advance (position : Position) {text : List Char} (h : text ≠ []) :
    position.Precedes (position.advance text) := by
  induction text generalizing position with
  | nil => exact absurd rfl h
  | cons c text ih =>
      have hstep := position.precedes_step c
      rw [advance_cons]
      cases text with
      | nil => exact hstep
      | cons d text => exact hstep.trans (ih (position.step c) (List.cons_ne_nil d text))

end Position

/-! ### Locations read off the text -/

theorem Location.after_concat (before : List Char) (c : Char) :
    Location.after (before ++ [c]) =
      if c = '\n' then ⟨(Location.after before).line + 1, 1⟩
      else ⟨(Location.after before).line, (Location.after before).column + 1⟩ := by
  by_cases h : c = '\n'
  · simp [Location.after, h]
  · simp [Location.after, h]

/-- Counted along the way or read off the text, the location behind a text is the same. -/
theorem Location.after_eq (text : List Char) :
    Location.after text = (Position.advance {} text).location := by
  induction text using List.reverseRecOn with
  | nil => rfl
  | append_singleton text c ih =>
      rw [Location.after_concat, Position.advance_append, ih]
      rfl

theorem charactersBefore_append (before after : List Char) :
    charactersBefore (before ++ after) (String.utf8Len before) = before := by
  induction before with
  | nil =>
      cases after with
      | nil => rfl
      | cons c after => exact if_neg (Nat.not_le_of_lt c.utf8Size_pos)
  | cons c before ih =>
      have hle : c.utf8Size ≤ String.utf8Len before + c.utf8Size := Nat.le_add_left _ _
      rw [List.cons_append, String.utf8Len_cons, charactersBefore, if_pos hle, Nat.add_sub_cancel,
        ih]

theorem charactersBefore_end (source : String) :
    charactersBefore source.toList source.utf8ByteSize = source.toList := by
  have hall := charactersBefore_append source.toList []
  rwa [List.append_nil, String.utf8Len_toList] at hall

theorem Location.of_utf8ByteSize (source : String) :
    Location.of source source.utf8ByteSize = (Position.advance {} source.toList).location := by
  rw [Location.of, charactersBefore_end, Location.after_eq]

/-! ### The places of a source -/

/-- Where a place starts. -/
def Site.start (site : Site) : Position := ⟨site.span.start, site.location⟩

/-- A place starts before another one, counted in bytes and in lines and columns. -/
def Site.Precedes (a b : Site) : Prop := a.start.Precedes b.start

/-- Where the pieces of a source stand, and then where the source ends. -/
def sites (source : String) : List Site :=
  (placedPieces source).map PlacedPiece.site ++ [Site.atEnd source]

theorem start_atEnd (source : String) :
    (Site.atEnd source).start = Position.advance {} source.toList := by
  have hoffset := offset_advance source.toList {}
  rw [String.utf8Len_toList, Nat.zero_add] at hoffset
  have hlocation := Location.of_utf8ByteSize source
  unfold Site.start Site.atEnd
  rw [hlocation, ← hoffset]

theorem pairwise_placeFrom (all : List Piece) (position : Position)
    (h : ∀ piece ∈ all, piece.text ≠ []) :
    (∀ start ∈ (placeFrom position all).map PlacedPiece.start ++
        [position.advance (all.map Piece.text).flatten],
      start = position ∨ position.Precedes start) ∧
    ((placeFrom position all).map PlacedPiece.start ++
      [position.advance (all.map Piece.text).flatten]).Pairwise Position.Precedes := by
  induction all generalizing position with
  | nil => simp [placeFrom]
  | cons piece rest ih =>
      obtain ⟨hbehind, hpairwise⟩ := ih (position.advance piece.text)
        fun p hp => h p (List.mem_cons_of_mem piece hp)
      have hfirst := position.precedes_advance (h piece List.mem_cons_self)
      have hlater : ∀ start ∈ (placeFrom (position.advance piece.text) rest).map
          PlacedPiece.start ++ [(position.advance piece.text).advance
            (rest.map Piece.text).flatten], position.Precedes start := by
        intro start hstart
        rcases hbehind start hstart with rfl | hprecedes
        · exact hfirst
        · exact hfirst.trans hprecedes
      rw [placeFrom, List.map_cons, List.map_cons, List.flatten_cons, Position.advance_append,
        List.cons_append]
      refine ⟨fun start hstart => ?_, .cons hlater hpairwise⟩
      exact (List.mem_cons.mp hstart).imp id (hlater start)

/-- **Each place of a source precedes the next one**, the end included. -/
theorem pairwise_sites (source : String) : (sites source).Pairwise Site.Precedes := by
  have h := (pairwise_placeFrom (pieces source.toList) {}
    fun _ => text_ne_nil_of_mem_pieces).2
  rw [pieces_flatten, ← start_atEnd] at h
  have hmap : (sites source).map Site.start =
      (placedPieces source).map PlacedPiece.start ++ [(Site.atEnd source).start] := by
    unfold sites
    rw [List.map_append, List.map_map]
    rfl
  have hstarts : ((sites source).map Site.start).Pairwise Position.Precedes := hmap ▸ h
  exact (List.pairwise_map.mp hstarts).imp id

end NodeLink.Source
