import NodeLink.Geometry.Polyline
import NodeLink.Proofs.Exact.Plane

/-! # Paths by arc length

Where one stands after walking some length along a path is a relation between lengths and points
(`At`) that follows the pieces of the path.  Every length has at most one point (`At.unique`), and
from the other end of the path the point is at the rest of the way (`At.reverse`).  Resampling
yields the points at the multiples of one length (`at_resample`), so a path resampled the other way
around is the resampled path the other way around (`resample_reverse`). -/

namespace NodeLink.Polyline

open scoped Exact

variable [DivisionByZero]

/-! ### Lengths -/

theorem length_eq_sum (points : List (Point ℝ)) :
    length points = ((pieces points).map fun piece => piece.1.distance piece.2).sum := by
  have hfold : ∀ (ps : List (Point ℝ × Point ℝ)) (walked : ℝ),
      ps.foldl (fun total piece => total + piece.1.distance piece.2) walked =
        walked + (ps.map fun piece => piece.1.distance piece.2).sum := by
    intro ps
    induction ps with
    | nil => exact fun walked => (add_zero walked).symm
    | cons piece ps ih =>
        intro walked
        rw [List.foldl_cons, ih, List.map_cons, List.sum_cons, add_assoc]
  unfold length
  rw [hfold, Scalar.zero_real, zero_add]

theorem length_singleton (a : Point ℝ) : length [a] = 0 := length_eq_sum [a]

theorem length_cons_cons (a b : Point ℝ) (rest : List (Point ℝ)) :
    length (a :: b :: rest) = a.distance b + length (b :: rest) := by
  rw [length_eq_sum, length_eq_sum]
  exact List.sum_cons

theorem length_nonneg : ∀ points : List (Point ℝ), 0 ≤ length points
  | [] => (length_eq_sum []).ge
  | [a] => (length_singleton a).ge
  | a :: b :: rest => by
      rw [length_cons_cons]
      exact add_nonneg (Point.distance_nonneg a b) (length_nonneg (b :: rest))

theorem length_append (b : Point ℝ) (rest : List (Point ℝ)) : ∀ points : List (Point ℝ),
    length (points ++ b :: rest) = length (points ++ [b]) + length (b :: rest)
  | [] => by rw [List.nil_append, List.nil_append, length_singleton, zero_add]
  | [a] => by
      show length (a :: b :: rest) = length [a, b] + length (b :: rest)
      rw [length_cons_cons, length_cons_cons, length_singleton, add_zero]
  | a :: c :: points => by
      have ih := length_append b rest (c :: points)
      rw [List.cons_append, List.cons_append] at ih ⊢
      rw [List.cons_append, List.cons_append, length_cons_cons, length_cons_cons, ih, add_assoc]

theorem length_reverse : ∀ points : List (Point ℝ), length points.reverse = length points
  | [] => rfl
  | [_] => rfl
  | a :: b :: rest => by
      have ih := length_reverse (b :: rest)
      rw [List.reverse_cons] at ih ⊢
      rw [List.reverse_cons, List.append_assoc, List.singleton_append, length_append, ih,
        length_cons_cons, length_cons_cons, length_singleton, add_zero, Point.distance_comm b,
        add_comm]

/-! ### The point at a length -/

/-- Walking a length along the path ends in the point. -/
inductive At : List (Point ℝ) → ℝ → Point ℝ → Prop where
  | start (a : Point ℝ) (rest : List (Point ℝ)) : At (a :: rest) 0 a
  | within {a b : Point ℝ} (rest : List (Point ℝ)) {t : ℝ} (hnonneg : 0 ≤ t) (hle : t ≤ 1) :
      At (a :: b :: rest) (t * a.distance b) (a.lerp b t)
  | beyond {a b p : Point ℝ} {rest : List (Point ℝ)} {s : ℝ} (h : At (b :: rest) s p) :
      At (a :: b :: rest) (a.distance b + s) p

section At

variable {points : List (Point ℝ)} {s : ℝ} {p : Point ℝ}

theorem At.nonneg (h : At points s p) : 0 ≤ s := by
  induction h with
  | start => exact le_rfl
  | within rest hnonneg hle => exact mul_nonneg hnonneg (Point.distance_nonneg _ _)
  | beyond h ih => exact add_nonneg (Point.distance_nonneg _ _) ih

/-- On a piece without length there is one point only. -/
theorem lerp_eq_of_mul_distance {a b : Point ℝ} {t u : ℝ}
    (h : t * a.distance b = u * a.distance b) : a.lerp b t = a.lerp b u := by
  rcases mul_eq_mul_right_iff.mp h with rfl | hzero
  · rfl
  · obtain rfl := Point.distance_eq_zero_iff.mp hzero
    rw [Point.lerp_self, Point.lerp_self]

theorem At.on_or_beyond {a b : Point ℝ} {rest : List (Point ℝ)} (h : At (a :: b :: rest) s p) :
    (∃ t, 0 ≤ t ∧ t ≤ 1 ∧ s = t * a.distance b ∧ p = a.lerp b t) ∨
      ∃ u, s = a.distance b + u ∧ At (b :: rest) u p := by
  cases h with
  | start => exact .inl ⟨0, le_rfl, zero_le_one, (zero_mul _).symm, (Point.lerp_zero _ _).symm⟩
  | @within _ _ _ t hnonneg hle => exact .inl ⟨t, hnonneg, hle, rfl, rfl⟩
  | @beyond _ _ _ _ u h => exact .inr ⟨u, rfl, h⟩

theorem At.eq_head : ∀ {a : Point ℝ} {rest : List (Point ℝ)}, At (a :: rest) 0 p → p = a
  | _, [], .start _ _ => rfl
  | a, b :: rest, h => by
      rcases h.on_or_beyond with ⟨t, -, -, hs, rfl⟩ | ⟨u, hs, h⟩
      · rw [lerp_eq_of_mul_distance (u := 0) (by rw [zero_mul, hs]), Point.lerp_zero]
      · have hdistance := Point.distance_nonneg a b
        have hrest := h.nonneg
        obtain rfl : u = 0 := by linarith
        rw [h.eq_head, Point.distance_eq_zero_iff.mp (by linarith : a.distance b = 0)]

/-- A point on the first piece that is also beyond it is where this piece ends. -/
theorem At.eq_lerp {a b : Point ℝ} {rest : List (Point ℝ)} {t : ℝ} (h : At (b :: rest) s p)
    (hle : t ≤ 1) (hs : t * a.distance b = a.distance b + s) : p = a.lerp b t := by
  have hend : t * a.distance b ≤ a.distance b :=
    mul_le_of_le_one_left (Point.distance_nonneg a b) hle
  have hrest := h.nonneg
  obtain rfl : s = 0 := by linarith
  rw [lerp_eq_of_mul_distance (u := 1) (by linarith), Point.lerp_one, h.eq_head]

/-- A length has one point only. -/
theorem At.unique : ∀ {points : List (Point ℝ)} {s : ℝ} {p q : Point ℝ},
    At points s p → At points s q → p = q
  | [_], _, _, _, .start _ _, .start _ _ => rfl
  | a :: b :: rest, s, p, q, hp, hq => by
      rcases hp.on_or_beyond with ⟨t, -, ht, hs, rfl⟩ | ⟨u, hs, hp⟩ <;>
        rcases hq.on_or_beyond with ⟨t', -, ht', hs', rfl⟩ | ⟨u', hs', hq⟩
      · exact lerp_eq_of_mul_distance (hs.symm.trans hs')
      · exact (hq.eq_lerp ht (hs.symm.trans hs')).symm
      · exact hp.eq_lerp ht' (hs'.symm.trans hs)
      · obtain rfl : u = u' := by linarith
        exact hp.unique hq

theorem At.append (h : At points s p) (more : List (Point ℝ)) : At (points ++ more) s p := by
  induction h with
  | start a rest => exact .start a (rest ++ more)
  | within rest hnonneg hle => exact .within (rest ++ more) hnonneg hle
  | beyond h ih => exact .beyond ih

theorem At.prepend {b : Point ℝ} {rest : List (Point ℝ)} (h : At (b :: rest) s p) :
    ∀ points : List (Point ℝ), At (points ++ b :: rest) (length (points ++ [b]) + s) p
  | [] => by
      rw [List.nil_append, List.nil_append, length_singleton, zero_add]
      exact h
  | [a] => by
      show At (a :: b :: rest) (length [a, b] + s) p
      rw [length_cons_cons, length_singleton, add_zero]
      exact .beyond h
  | a :: c :: points => by
      have ih := h.prepend (c :: points)
      rw [List.cons_append, List.cons_append] at ih ⊢
      rw [List.cons_append, List.cons_append, length_cons_cons, add_assoc]
      exact .beyond ih

/-- From the other end, the same point is at the rest of the length. -/
theorem At.reverse (h : At points s p) : At points.reverse (length points - s) p := by
  induction h with
  | start a rest =>
      have hlast := (At.start a []).prepend rest.reverse
      rw [← List.reverse_cons, length_reverse, add_zero] at hlast
      rwa [sub_zero]
  | @within a b rest t hnonneg hle =>
      have hpiece := (At.within (a := b) (b := a) [] (sub_nonneg.mpr hle)
        (sub_le_self 1 hnonneg)).prepend rest.reverse
      rw [← List.reverse_cons, length_reverse, Point.lerp_reverse, Point.distance_comm b] at hpiece
      have hrest : a.distance b + length (b :: rest) - t * a.distance b =
          length (b :: rest) + (1 - t) * a.distance b := by ring
      rw [List.reverse_cons, List.reverse_cons, List.append_assoc, length_cons_cons, hrest]
      exact hpiece
  | @beyond a b p rest s h ih =>
      rw [List.reverse_cons, length_cons_cons, add_sub_add_left_eq_sub]
      exact ih.append [a]

end At

/-! ### Resampling -/

/-- Walking on from where a shorter walk ended leads as far as walking from the start. -/
theorem reach_resume (last : Point ℝ) {target later : ℝ} (hle : target ≤ later) :
    ∀ (ahead : List (Point ℝ × Point ℝ)) (walked : ℝ),
      reach last later (reach last target walked ahead).2.walked
        (reach last target walked ahead).2.ahead = reach last later walked ahead
  | [], _ => rfl
  | (a, b) :: ahead, walked => by
      have ih := reach_resume last hle ahead (walked + a.distance b)
      by_cases htarget : target ≤ walked + a.distance b
      · rw [reach, if_pos (by simpa using htarget)]
      · have hlater : ¬ later ≤ walked + a.distance b := fun h => htarget (hle.trans h)
        rw [reach, if_neg (by simpa using htarget), ih]
        conv_rhs => rw [reach, if_neg (by simpa using hlater)]

theorem clamp_share {length walked target : ℝ} (hlength : 0 ≤ length) (hge : walked ≤ target)
    (hle : target ≤ walked + length) :
    ∃ t, 0 ≤ t ∧ t ≤ 1 ∧ t * length = target - walked ∧
      Scalar.clamp (if Scalar.lt Scalar.zero length then
        @HDiv.hDiv ℝ ℝ ℝ (@instHDiv ℝ Scalar.toDiv) (target - walked) length else Scalar.zero)
        Scalar.zero Scalar.one = t := by
  rw [Scalar.zero_real, Scalar.one_real]
  rcases hlength.eq_or_lt with rfl | hpos
  · refine ⟨0, le_rfl, zero_le_one, by linarith, ?_⟩
    rw [if_neg (by simp), Scalar.clamp_real le_rfl zero_le_one]
  · have hnonneg : 0 ≤ (target - walked) / length := div_nonneg (by linarith) hlength
    have hone : (target - walked) / length ≤ 1 := (div_le_one hpos).mpr (by linarith)
    refine ⟨_, hnonneg, hone, div_mul_cancel₀ _ hpos.ne', ?_⟩
    rw [if_pos (by simpa using hpos), Scalar.div_real _ hpos.ne', Scalar.clamp_real hnonneg hone]

theorem at_reach {target : ℝ} : ∀ (a : Point ℝ) (rest : List (Point ℝ)) (walked : ℝ),
    walked ≤ target → target ≤ walked + length (a :: rest) →
      At (a :: rest) (target - walked)
        (reach (rest.getLastD a) target walked (pieces (a :: rest))).1
  | a, [], walked, hge, hle => by
      rw [length_singleton, add_zero] at hle
      rw [hle.antisymm hge, sub_self]
      exact .start a []
  | a, b :: rest, walked, hge, hle => by
      rw [length_cons_cons] at hle
      have hpieces : pieces (a :: b :: rest) = (a, b) :: pieces (b :: rest) := rfl
      have hdistance := Point.distance_nonneg a b
      rw [hpieces, reach]
      by_cases htarget : target ≤ walked + a.distance b
      · rw [if_pos (by simpa using htarget)]
        obtain ⟨t, hnonneg, hone, hwalk, hshare⟩ := clamp_share hdistance hge htarget
        dsimp only
        rw [hshare, ← hwalk]
        exact .within rest hnonneg hone
      · rw [if_neg (by simpa using htarget)]
        have hrest := at_reach b rest (walked + a.distance b)
          (not_le.mp htarget).le (by linarith)
        have hsplit : target - walked = a.distance b + (target - (walked + a.distance b)) := by
          ring
        rw [hsplit, List.getLastD_cons]
        exact .beyond hrest

/-- A walk to ascending targets ends where single walks to each of them end. -/
theorem walk_eq_map (last : Point ℝ) {step : ℝ} (hstep : 0 ≤ step)
    (ahead : List (Point ℝ × Point ℝ)) (walked : ℝ) : ∀ (ks : List ℕ) (state : Walk ℝ),
      ks.Pairwise (· < ·) →
        (∀ k ∈ ks, reach last (step * (k : ℝ)) state.walked state.ahead =
          reach last (step * (k : ℝ)) walked ahead) →
        walk last step state ks = ks.map fun k : ℕ => (reach last (step * (k : ℝ)) walked ahead).1
  | [], _, _, _ => rfl
  | k :: ks, state, hks, hstate => by
      obtain ⟨hlater, hks⟩ := List.pairwise_cons.mp hks
      have hfirst := hstate k List.mem_cons_self
      rw [walk, Scalar.ofNat_real, List.map_cons, hfirst]
      show _ :: walk last step (reach last (step * (k : ℝ)) walked ahead).2 ks = _
      congr 1
      refine walk_eq_map last hstep ahead walked ks _ hks fun j hj => ?_
      have hle : step * k ≤ step * j :=
        mul_le_mul_of_nonneg_left (Nat.cast_le.mpr (hlater j hj).le) hstep
      exact reach_resume last hle ahead walked

/-- **Resampling yields the points at the multiples of one length**, between the ends. -/
theorem at_resample (a : Point ℝ) (rest : List (Point ℝ)) (count : ℕ) :
    ∃ inner, resample (a :: rest) count = a :: (inner ++ [rest.getLastD a]) ∧
      inner.length = count ∧
      ∀ {k : ℕ} {p : Point ℝ}, inner[k]? = some p →
        At (a :: rest) ((k + 1) * (length (a :: rest) / (count + 1))) p := by
  have hcount : ((count + 1 : ℕ) : ℝ) ≠ 0 := Nat.cast_ne_zero.mpr (Nat.succ_ne_zero count)
  have hlength := length_nonneg (a :: rest)
  have hstep : 0 ≤ length (a :: rest) / ((count + 1 : ℕ) : ℝ) := by positivity
  have hwalk := walk_eq_map (rest.getLastD a) hstep (pieces (a :: rest)) 0 (List.range' 1 count)
    ⟨pieces (a :: rest), 0⟩ List.pairwise_lt_range' fun _ _ => rfl
  dsimp only [resample]
  rw [Scalar.ofNat_real, Scalar.div_real _ hcount, Scalar.zero_real, hwalk]
  refine ⟨_, rfl, by rw [List.length_map, List.length_range'], fun {k p} hp => ?_⟩
  rw [List.getElem?_map, Option.map_eq_some_iff] at hp
  obtain ⟨j, hj, rfl⟩ := hp
  obtain ⟨hk, rfl⟩ := List.getElem?_eq_some_iff.mp hj
  rw [List.length_range'] at hk
  rw [List.getElem_range']
  -- the last of the targets is the whole length less one step
  have hle : length (a :: rest) / ((count + 1 : ℕ) : ℝ) * ((1 + 1 * k : ℕ) : ℝ) ≤
      length (a :: rest) := by
    rw [div_mul_eq_mul_div, div_le_iff₀ (by positivity)]
    exact mul_le_mul_of_nonneg_left (Nat.cast_le.mpr (by omega)) hlength
  have hat := at_reach a rest 0 (mul_nonneg hstep (Nat.cast_nonneg (1 + 1 * k)))
    (by rwa [zero_add])
  convert hat using 1
  push_cast
  ring

/-- **A path resampled the other way around** is the resampled path the other way around. -/
theorem resample_reverse (points : List (Point ℝ)) (count : ℕ) :
    resample points.reverse count = (resample points count).reverse := by
  cases points with
  | nil => rfl
  | cons a rest =>
      obtain ⟨b, back, hback⟩ := List.exists_cons_of_ne_nil (l := (a :: rest).reverse) (by simp)
      have hlast : b = rest.getLastD a := by
        have h := List.head?_reverse (l := a :: rest)
        rw [hback, List.head?_cons, List.getLast?_cons, ← List.getLastD_eq_getLast?] at h
        exact Option.some.inj h
      have hfirst : back.getLastD b = a := by
        have h := List.getLast?_reverse (l := a :: rest)
        rw [hback, List.getLast?_cons, ← List.getLastD_eq_getLast?] at h
        exact Option.some.inj h
      have hlength : length (b :: back) = length (a :: rest) := by rw [← hback, length_reverse]
      obtain ⟨inner, hinner, hsize, hat⟩ := at_resample a rest count
      obtain ⟨inner', hinner', hsize', hat'⟩ := at_resample b back count
      have hreverse : inner' = inner.reverse := by
        refine List.ext_getElem (by rw [List.length_reverse, hsize, hsize']) fun k hk hk' => ?_
        rw [List.length_reverse] at hk'
        rw [List.getElem_reverse]
        -- both are on the path from `b`, at the same length
        have hp' := hat' (List.getElem?_eq_getElem hk)
        have hp := (hat (List.getElem?_eq_getElem (by omega : inner.length - 1 - k < _))).reverse
        rw [hback] at hp
        refine hp'.unique ?_
        convert hp using 1
        have hcast : ((inner.length - 1 - k : ℕ) : ℝ) = count - 1 - k := by
          rw [Nat.sub_sub, Nat.cast_sub (by omega), hsize]
          push_cast
          ring
        rw [hcast, hlength]
        field_simp
        ring
      rw [hback, hinner, hinner', hreverse, hfirst, hlast, List.reverse_cons, List.reverse_append,
        List.reverse_singleton]
      rfl

end NodeLink.Polyline
