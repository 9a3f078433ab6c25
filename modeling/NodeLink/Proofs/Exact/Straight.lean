import NodeLink.Proofs.Exact.ArcLength

/-! # Straight paths

Points of one segment, in their order, make a path along which lengths are those on the segment
(`at_map_lerp`).  So a segment divided into equal parts is resampled to the same segment divided
into equal parts, whatever the two numbers of parts (`resample_evenly`). -/

namespace NodeLink

open scoped Exact

variable [DivisionByZero]

namespace Point

theorem distance_lerp (a b : Point ℝ) (t u : ℝ) :
    (a.lerp b t).distance (a.lerp b u) = |u - t| * a.distance b := by
  rw [distance_eq, distance_eq, lerp_eq, lerp_eq, ← Real.sqrt_sq_eq_abs,
    ← Real.sqrt_mul (sq_nonneg _)]
  congr 1
  ring

theorem lerp_lerp (a b : Point ℝ) (t u v : ℝ) :
    (a.lerp b t).lerp (a.lerp b u) v = a.lerp b (t + v * (u - t)) := by
  rw [lerp_eq, lerp_eq, lerp_eq, lerp_eq, Point.mk.injEq]
  constructor <;> ring

end Point

namespace Polyline

/-! ### Points of one segment -/

section Segment

variable (a b : Point ℝ)

/-- A path through ascending points of a segment is as long as the part of it that they span. -/
theorem length_map_lerp : ∀ (t : ℝ) (ts : List ℝ), (t :: ts).IsChain (· ≤ ·) →
    length ((t :: ts).map (a.lerp b)) = (ts.getLastD t - t) * a.distance b
  | t, [], _ => by
      rw [List.map_singleton, length_singleton, List.getLastD_nil, sub_self, zero_mul]
  | t, u :: ts, h => by
      obtain ⟨htu, hchain⟩ := List.isChain_cons_cons.mp h
      have ih := length_map_lerp u ts hchain
      rw [List.map_cons] at ih
      rw [List.map_cons, List.map_cons, length_cons_cons, ih, Point.distance_lerp,
        abs_of_nonneg (sub_nonneg.mpr htu), List.getLastD_cons]
      ring

/-- Along ascending points of a segment, every length between them leads to the point of the segment
at that length. -/
theorem at_map_lerp : ∀ (t : ℝ) (ts : List ℝ) {u : ℝ}, (t :: ts).IsChain (· ≤ ·) → t ≤ u →
    u ≤ ts.getLastD t →
      At ((t :: ts).map (a.lerp b)) ((u - t) * a.distance b) (a.lerp b u)
  | t, [], u, _, hge, hle => by
      obtain rfl : u = t := le_antisymm hle hge
      rw [sub_self, zero_mul]
      exact .start _ _
  | t, next :: ts, u, h, hge, hle => by
      obtain ⟨hnext, hchain⟩ := List.isChain_cons_cons.mp h
      have hdistance : (a.lerp b t).distance (a.lerp b next) = (next - t) * a.distance b := by
        rw [Point.distance_lerp, abs_of_nonneg (sub_nonneg.mpr hnext)]
      rcases le_or_gt u next with hwithin | hbeyond
      · rcases hge.eq_or_lt with rfl | hlt
        · rw [sub_self, zero_mul]
          exact .start _ _
        · have hpos : 0 < next - t := sub_pos.mpr (hlt.trans_le hwithin)
          have hat := At.within (a := a.lerp b t) (b := a.lerp b next) (ts.map (a.lerp b))
            (div_nonneg (sub_nonneg.mpr hge) hpos.le)
            ((div_le_one hpos).mpr (sub_le_sub_right hwithin t))
          rwa [hdistance, ← mul_assoc, Point.lerp_lerp, div_mul_cancel₀ _ hpos.ne',
            add_sub_cancel] at hat
      · rw [List.getLastD_cons] at hle
        have hat := At.beyond (a := a.lerp b t) (at_map_lerp next ts hchain hbeyond.le hle)
        rw [hdistance, ← add_mul, add_comm, sub_add_sub_cancel] at hat
        exact hat

end Segment

/-! ### Equal parts -/

/-- A segment divided into equal parts by some inner points. -/
noncomputable def evenly (a b : Point ℝ) (count : ℕ) : List (Point ℝ) :=
  (List.range (count + 2)).map fun i : ℕ => a.lerp b (i / (count + 1))

variable (a b : Point ℝ) (count : ℕ)

theorem length_evenly : (evenly a b count).length = count + 2 := by
  unfold evenly
  rw [List.length_map, List.length_range]

theorem getElem?_evenly {i : ℕ} (hi : i ≤ count + 1) :
    (evenly a b count)[i]? = some (a.lerp b (i / (count + 1))) := by
  unfold evenly
  rw [List.getElem?_map, List.getElem?_range (by omega)]
  rfl

theorem evenly_zero : evenly a b 0 = [a, b] := by
  unfold evenly
  simp [List.range_succ, Point.lerp_zero, Point.lerp_one]

theorem evenly_eq_cons : evenly a b count =
    a :: ((List.range count).map (fun k : ℕ => a.lerp b ((k + 1) / (count + 1))) ++ [b]) := by
  have hcount : (count : ℝ) + 1 ≠ 0 := by positivity
  unfold evenly
  rw [List.range_succ, List.map_append, List.range_succ_eq_map, List.map_cons, List.map_map,
    List.map_singleton, List.cons_append, Nat.cast_zero, zero_div, Point.lerp_zero, Nat.cast_add,
    Nat.cast_one, div_self hcount, Point.lerp_one]
  congr 2
  refine List.map_congr_left fun k _ => ?_
  rw [Function.comp_apply, Nat.succ_eq_add_one, Nat.cast_add, Nat.cast_one]

/-- The shares at which a segment is divided ascend, from its tail to its head. -/
theorem exists_shares : ∃ ts : List ℝ, evenly a b count = ((0 : ℝ) :: ts).map (a.lerp b) ∧
    ((0 : ℝ) :: ts).IsChain (· ≤ ·) ∧ ts.getLastD 0 = 1 := by
  have hcount : (0 : ℝ) < count + 1 := by positivity
  have hshares : (List.range (count + 2)).map (fun i : ℕ => (i : ℝ) / (count + 1)) =
      0 :: (List.range (count + 1)).map fun i : ℕ => (i + 1 : ℝ) / (count + 1) := by
    rw [List.range_succ_eq_map, List.map_cons, List.map_map, Nat.cast_zero, zero_div]
    refine congrArg _ (List.map_congr_left fun i _ => ?_)
    rw [Function.comp_apply, Nat.succ_eq_add_one, Nat.cast_add, Nat.cast_one]
  refine ⟨(List.range (count + 1)).map fun i : ℕ => (i + 1 : ℝ) / (count + 1), ?_, ?_, ?_⟩
  · rw [← hshares, List.map_map]
    rfl
  · rw [← hshares]
    refine List.Pairwise.isChain (List.pairwise_map.mpr (List.pairwise_lt_range.imp fun h => ?_))
    exact div_le_div_of_nonneg_right (Nat.cast_le.mpr h.le) hcount.le
  · rw [List.range_succ, List.map_append, List.map_singleton, List.getLastD_concat,
      div_self hcount.ne']

/-- **Equal parts are resampled to equal parts.** -/
theorem resample_evenly (n : ℕ) : resample (evenly a b count) n = evenly a b n := by
  obtain ⟨ts, hpath, hchain, hlast⟩ := exists_shares a b count
  have hlength := length_map_lerp a b 0 ts hchain
  rw [hlast, sub_zero, one_mul] at hlength
  have hend : (ts.map (a.lerp b)).getLastD (a.lerp b 0) = b := by
    rw [List.getLastD_eq_getLast?, List.getLast?_map, Option.getD_map,
      ← List.getLastD_eq_getLast?, hlast, Point.lerp_one]
  obtain ⟨inner, hinner, hsize, hat⟩ := at_resample (a.lerp b 0) (ts.map (a.lerp b)) n
  rw [← List.map_cons, hend, Point.lerp_zero] at hinner
  rw [← List.map_cons, hlength] at hat
  have hpoints : inner = (List.range n).map fun k : ℕ => a.lerp b ((k + 1) / (n + 1)) := by
    refine List.ext_getElem (by rw [hsize, List.length_map, List.length_range]) fun k hk _ => ?_
    rw [List.getElem_map, List.getElem_range]
    have hle : ((k : ℝ) + 1) / (n + 1) ≤ 1 := by
      rw [div_le_one (by positivity)]
      exact_mod_cast Nat.succ_le_succ (by omega : k ≤ n)
    have hshare := at_map_lerp a b 0 ts hchain
      (by positivity : (0 : ℝ) ≤ ((k : ℝ) + 1) / (n + 1)) (hle.trans_eq hlast.symm)
    refine (hat (List.getElem?_eq_getElem hk)).unique ?_
    convert hshare using 1
    ring
  rw [hpath, hinner, hpoints, evenly_eq_cons]

theorem resample_pair : resample [a, b] count = evenly a b count := by
  rw [← evenly_zero, resample_evenly]

end Polyline

end NodeLink
