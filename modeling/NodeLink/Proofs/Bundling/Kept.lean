import Mathlib.Data.List.Nodup
import NodeLink.Bundling.Schedule
import NodeLink.Proofs.Sequences

/-! # The edges that take part

Edges whose ends coincide take no part in bundling.  The others are known by their positions
(`getElem?_kept`, `mem_keptIndices`), and the paths that are made for them are dealt out to these
positions (`getElem?_deal`). -/

namespace NodeLink.Bundling

variable {α : Type} [Scalar α]

theorem keptIndices_eq_positionsWhere (segments : List (Segment α)) :
    keptIndices segments = positionsWhere (fun segment => !segment.isDegenerate) segments := rfl

theorem keptIndices_eq_map (segments : List (Segment α)) :
    keptIndices segments =
      (segments.zipIdx.filter fun x => !x.1.isDegenerate).map Prod.snd := rfl

theorem kept_eq_map (segments : List (Segment α)) :
    kept segments =
      (segments.zipIdx.filter fun x => !x.1.isDegenerate).map Prod.fst := by
  unfold kept
  conv_lhs => rw [← List.zipIdx_map_fst 0 segments]
  rw [List.filter_map]
  rfl

/-- The edges that take part are what stands at their positions. -/
theorem getElem?_kept (segments : List (Segment α)) (k : ℕ) :
    (kept segments)[k]? = (keptIndices segments)[k]?.bind (segments[·]?) := by
  unfold keptIndices
  rw [kept_eq_map, List.getElem?_map, List.getElem?_map]
  cases hx : (segments.zipIdx.filter fun x => !x.1.isDegenerate)[k]? with
  | none => rfl
  | some x =>
      have hmem := (List.mem_filter.mp (List.mem_of_getElem? hx)).1
      exact (List.mem_zipIdx_iff_getElem?.mp hmem).symm

theorem mem_keptIndices {segments : List (Segment α)} {i : ℕ} :
    i ∈ keptIndices segments ↔
      ∃ segment, segments[i]? = some segment ∧ segment.isDegenerate = false := by
  rw [keptIndices_eq_positionsWhere, mem_positionsWhere]
  simp only [Bool.not_eq_true']

theorem isDegenerate_of_keptIndices {segments : List (Segment α)} {segment : Segment α} {k i : ℕ}
    (hk : (keptIndices segments)[k]? = some i) (hi : segments[i]? = some segment) :
    segment.isDegenerate = false := by
  obtain ⟨found, hfound, hkept⟩ := mem_keptIndices.mp (List.mem_of_getElem? hk)
  rwa [Option.some.inj (hi.symm.trans hfound)]

theorem nodup_keptIndices (segments : List (Segment α)) : (keptIndices segments).Nodup :=
  (pairwise_positionsWhere (fun segment : Segment α => !segment.isDegenerate) segments).imp
    Nat.ne_of_lt

theorem keptIndices_cons (segment : Segment α) (segments : List (Segment α)) :
    keptIndices (segment :: segments) =
      if segment.isDegenerate then (keptIndices segments).map (· + 1)
      else 0 :: (keptIndices segments).map (· + 1) := by
  have hlater : ((segments.zipIdx 1).filter fun x => !x.1.isDegenerate).map Prod.snd =
      (keptIndices segments).map (· + 1) := by
    rw [keptIndices_eq_map, List.zipIdx_succ, List.filter_map, List.map_map, List.map_map]
    rfl
  rw [keptIndices_eq_map, List.zipIdx_cons, List.filter_cons, Nat.zero_add]
  cases segment.isDegenerate with
  | false => exact congrArg (0 :: ·) hlater
  | true => exact hlater

/-- A path is dealt out to the edge that it was made for. -/
theorem getElem?_deal : ∀ {segments : List (Segment α)} {paths : List (Array (Point α))} {k i : ℕ},
    (keptIndices segments)[k]? = some i →
      (deal segments paths)[i]? = some (paths[k]?.getD #[])
  | [], _, _, _, h => by cases h
  | segment :: segments, paths, k, i, h => by
      rw [keptIndices_cons] at h
      unfold deal
      split_ifs at h ⊢ with hd
      · rw [List.getElem?_map] at h
        obtain ⟨j, hj, rfl⟩ := Option.map_eq_some_iff.mp h
        exact getElem?_deal hj
      · cases k with
        | zero =>
            obtain rfl : 0 = i := Option.some.inj h
            cases paths <;> rfl
        | succ k =>
            rw [List.getElem?_cons_succ, List.getElem?_map] at h
            obtain ⟨j, hj, rfl⟩ := Option.map_eq_some_iff.mp h
            rw [List.getElem?_cons_succ, getElem?_deal hj, List.getElem?_tail]

/-- An edge that takes no part has an empty path. -/
theorem getElem?_deal_degenerate : ∀ {segments : List (Segment α)}
    {paths : List (Array (Point α))} {i : ℕ} {segment : Segment α},
      segments[i]? = some segment → segment.isDegenerate = true →
        (deal segments paths)[i]? = some #[]
  | first :: segments, paths, i, segment, hs, hd => by
      unfold deal
      cases i with
      | zero =>
          obtain rfl : first = segment := Option.some.inj hs
          rw [if_pos hd]
          rfl
      | succ i =>
          split_ifs
          · exact getElem?_deal_degenerate hs hd
          · exact getElem?_deal_degenerate hs hd

end NodeLink.Bundling
