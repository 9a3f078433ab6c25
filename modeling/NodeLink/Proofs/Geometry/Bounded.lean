import NodeLink.Geometry.Polyline
import NodeLink.Proofs.Double.Within

/-! # Bounded points and vectors

What computations of the plane give for bounded coordinates.  The length of a vector is at least
nearly the greater of its coordinates, so a vector that is divided by its length is short whatever
the rounding does (`Vec.Within.unit`).  Resampling a path may enlarge the bound, but keeps its
points finite (`Polyline.resample_within`): the pieces have finite lengths, and where a length is
divided by, it is not zero.  The paths have at most 8192 points, more than a schedule makes. -/

namespace NodeLink

open NodeLink.Double

/-! ### Vectors -/

/-- Both coordinates of a vector are bounded. -/
structure Vec.Within (bound : ℝ) (v : Vec Float) : Prop where
  x : Double.Within bound v.x
  y : Double.Within bound v.y

theorem Vec.Within.mono {a b : ℝ} {v : Vec Float} (h : v.Within a) (hab : a ≤ b) : v.Within b :=
  ⟨h.x.mono hab, h.y.mono hab⟩

section Length

variable {bound : ℝ} {v : Vec Float} (h : v.Within bound) (hone : 1 ≤ bound)
  (hbound : 4 * bound ≤ rootOverflow)
include h hone hbound

omit h in
theorem squares_lt_overflow :
    1 ≤ bound * bound ∧ bound * bound * 16 ≤ overflow ∧ bound * 2 ^ 200 ≤ overflow := by
  refine ⟨one_le_mul_of_one_le_of_one_le hone hone, ?_, ?_⟩
  · have hpos := rootOverflow_pos
    have hsquare : 4 * bound * (4 * bound) ≤ rootOverflow * rootOverflow := by gcongr
    rw [rootOverflow_mul_self] at hsquare
    linarith
  · have := mul_rootOverflow_le
    linarith

theorem Vec.Within.normSquare :
    Double.Within (bound * bound * (9 / 8)) (v.x * v.x) ∧
      Double.Within (bound * bound * (9 / 8)) (v.y * v.y) ∧
      Double.Within (bound * bound * (5 / 2)) v.normSquare := by
  obtain ⟨hlow, hhigh, -⟩ := squares_lt_overflow hone hbound
  have hsquare : ∀ {x : Float}, Double.Within bound x →
      Double.Within (bound * bound * (9 / 8)) (x * x) := by
    intro x hx
    apply hx.mul hx (leastNormal_le (by linarith))
    · rw [grain_eq]
      linarith
    · linarith
  refine ⟨hsquare h.x, hsquare h.y, ?_⟩
  apply (hsquare h.x).add (hsquare h.y) (leastNormal_le (by linarith))
  · rw [grain_eq]
    linarith
  · linarith

theorem Vec.Within.normSquare_nonneg : 0 ≤ real v.normSquare := by
  obtain ⟨hx, hy, hsum⟩ := h.normSquare hone hbound
  have hsquare : ∀ {x : Float}, x.isFinite = true → (x * x).isFinite = true →
      0 ≤ real (x * x) := by
    intro x hx hxx
    exact (gives_mul hx hx).real_nonneg hxx (mul_self_nonneg _)
  apply (gives_add hx.isFinite hy.isFinite).real_nonneg hsum.isFinite
  exact add_nonneg (hsquare h.x.isFinite hx.isFinite) (hsquare h.y.isFinite hy.isFinite)

theorem Vec.Within.norm : Double.Within (2 * bound) v.norm := by
  obtain ⟨-, hhigh, hhigh'⟩ := squares_lt_overflow hone hbound
  obtain ⟨-, -, hsum⟩ := h.normSquare hone hbound
  have hroot : √(bound * bound * (5 / 2)) ≤ bound * (8 / 5) := by
    apply Real.sqrt_le_iff.mpr
    constructor
    · positivity
    · have := mul_self_nonneg bound
      linarith
  apply hsum.sqrt (h.normSquare_nonneg hone hbound) hroot (leastNormal_le (by linarith))
  · rw [grain_eq]
    linarith
  · linarith

/-- The length of a vector is at least nearly the size of each of its coordinates. -/
theorem Vec.Within.le_norm {size : ℝ} (hsize : 1 / 2 ^ 16 ≤ size)
    (hle : size ≤ |real v.x| ∨ size ≤ |real v.y|) : size * (3 / 4) ≤ real v.norm := by
  obtain ⟨hx, hy, hsum⟩ := h.normSquare hone hbound
  have hsq : 1 / 2 ^ 32 ≤ size * size := by
    calc (1 : ℝ) / 2 ^ 32 = 1 / 2 ^ 16 * (1 / 2 ^ 16) := by norm_num
      _ ≤ size * size := by gcongr
  -- the square of the great coordinate is nearly exact, and the other one is not negative
  have hsquare : ∀ {x : Float}, x.isFinite = true → (x * x).isFinite = true →
      0 ≤ real (x * x) ∧ (size ≤ |real x| → size * size * (9 / 10) ≤ real (x * x)) := by
    intro x hx hxx
    refine ⟨(gives_mul hx hx).real_nonneg hxx (mul_self_nonneg _), ?_⟩
    intro hgreat
    have hexact : size * size ≤ real x * real x := by
      rw [← abs_mul_abs_self (real x)]
      gcongr
    apply (gives_mul hx hx).le_real hxx hexact (leastNormal_le (by linarith))
    rw [grain_eq]
    linarith
  obtain ⟨hx₀, hx₁⟩ := hsquare h.x.isFinite hx.isFinite
  obtain ⟨hy₀, hy₁⟩ := hsquare h.y.isFinite hy.isFinite
  have hgreat : size * size * (9 / 10) ≤ real (v.x * v.x) + real (v.y * v.y) := by
    rcases hle with hle | hle
    · have := hx₁ hle
      linarith
    · have := hy₁ hle
      linarith
  have htotal : size * size * (4 / 5) ≤ real v.normSquare := by
    apply (gives_add hx.isFinite hy.isFinite).le_real hsum.isFinite hgreat
      (leastNormal_le (by linarith))
    rw [grain_eq]
    linarith
  have hroot : size * (4 / 5) ≤ √(real v.normSquare) := by
    apply Real.le_sqrt_of_sq_le
    linarith
  apply (gives_sqrt hsum.isFinite (h.normSquare_nonneg hone hbound)).le_real
    (h.norm hone hbound).isFinite hroot (leastNormal_le (by linarith))
  rw [grain_eq]
  linarith

/-- A vector that is divided by its length is short. -/
theorem Vec.Within.unit (hlong : 1 / 2 ^ 16 ≤ |real v.x| ∨ 1 / 2 ^ 16 ≤ |real v.y|) :
    (v / v.norm).Within 2 := by
  obtain ⟨-, hhigh, hhigh'⟩ := squares_lt_overflow hone hbound
  -- the size of the greater coordinate cancels out
  obtain ⟨size, hx, hy, hle⟩ : ∃ size, |real v.x| ≤ size ∧ |real v.y| ≤ size ∧
      (size ≤ |real v.x| ∨ size ≤ |real v.y|) := by
    rcases le_total |real v.x| |real v.y| with hxy | hyx
    · exact ⟨_, hxy, le_rfl, Or.inr le_rfl⟩
    · exact ⟨_, le_rfl, hyx, Or.inl le_rfl⟩
  have hlow : 1 / 2 ^ 16 ≤ size := by
    rcases hlong with hlong | hlong
    · exact hlong.trans hx
    · exact hlong.trans hy
  have hpos : 0 < size := lt_of_lt_of_le (by norm_num) hlow
  have hsize : size ≤ bound := by
    rcases hle with hle | hle
    · exact hle.trans h.x.abs_real_le
    · exact hle.trans h.y.abs_real_le
  have hdivisor : size * (3 / 4) ≤ |real v.norm| :=
    (h.le_norm hone hbound hlow hle).trans (le_abs_self _)
  have hreciprocal : Double.Within (3 / 2 / size) (Scalar.one / v.norm) := by
    have hquotient : 1 / (size * (3 / 4)) = 4 / 3 / size := by field_simp
    apply within_one.div (h.norm hone hbound).isFinite (by positivity) hdivisor
    · rw [le_div_iff₀ (by positivity)]
      have hpositive := leastNormal_pos
      have hproduct : leastNormal * (size * (3 / 4)) ≤ leastNormal * rootOverflow := by
        gcongr
        linarith
      exact hproduct.trans leastNormal_mul_rootOverflow
    · rw [hquotient, div_mul_eq_mul_div]
      gcongr
      rw [grain_eq]
      norm_num
    · rw [div_lt_iff₀ hpos]
      have hsmall : overflow * (1 / 2 ^ 16) ≤ overflow * size :=
        mul_le_mul_of_nonneg_left hlow overflow_pos.le
      linarith
  have hproduct : size * (3 / 2 / size) = 3 / 2 := by field_simp
  have hcoordinate : ∀ {x : Float}, x.isFinite = true → |real x| ≤ size →
      Double.Within 2 (x * (Scalar.one / v.norm)) := by
    intro x hx hxsize
    have hx' : Double.Within size x := ⟨hx, hxsize⟩
    apply hx'.mul hreciprocal
    · rw [hproduct]
      exact leastNormal_le (by norm_num)
    · rw [hproduct]
      rw [grain_eq]
      norm_num
    · linarith
  exact ⟨hcoordinate h.x.isFinite hx, hcoordinate h.y.isFinite hy⟩

end Length

/-! ### Points -/

/-- Both coordinates of a point are bounded. -/
structure Point.Within (bound : ℝ) (p : Point Float) : Prop where
  x : Double.Within bound p.x
  y : Double.Within bound p.y

theorem Point.Within.mono {a b : ℝ} {p : Point Float} (h : p.Within a) (hab : a ≤ b) :
    p.Within b :=
  ⟨h.x.mono hab, h.y.mono hab⟩

section Points

variable {bound : ℝ} {p q : Point Float} (hp : p.Within bound) (hq : q.Within bound)
  (hone : 1 ≤ bound) (hbound : 16 * bound ≤ rootOverflow)

include hone hbound

theorem lt_overflow_of_le {c : ℝ} (hc : c ≤ 2 ^ 100 * bound) : c < overflow := by
  have := mul_rootOverflow_le
  have := overflow_pos
  linarith

include hp hq

theorem Point.Within.sub : (p - q : Vec Float).Within (20001 / 10000 * bound) := by
  have hcoordinate : ∀ {x y : Float}, Double.Within bound x → Double.Within bound y →
      Double.Within (20001 / 10000 * bound) (x - y) := by
    intro x y hx hy
    apply hx.sub hy (leastNormal_le (by linarith))
    · rw [grain_eq]
      linarith
    · apply lt_overflow_of_le hone hbound
      linarith
  exact ⟨hcoordinate hp.x hq.x, hcoordinate hp.y hq.y⟩

theorem Point.Within.distance : Double.Within (5 * bound) (p.distance q) := by
  apply ((hp.sub hq hone hbound).norm (by linarith) (by linarith)).mono
  linarith

theorem Point.Within.lerp {t : Float} (ht : Double.Within 1 t) :
    (p.lerp q t).Within (4 * bound) := by
  have hcoordinate : ∀ {x y : Float}, Double.Within bound x → Double.Within bound y →
      Double.Within (4 * bound) (x + t * (y - x)) := by
    intro x y hx hy
    have hdiff : Double.Within (21 / 10 * bound) (y - x) := by
      apply hy.sub hx (leastNormal_le (by linarith))
      · rw [grain_eq]
        linarith
      · apply lt_overflow_of_le hone hbound
        linarith
    have hproduct : Double.Within (22 / 10 * bound) (t * (y - x)) := by
      apply ht.mul hdiff (leastNormal_le (by linarith))
      · rw [grain_eq]
        linarith
      · apply lt_overflow_of_le hone hbound
        linarith
    apply hx.add hproduct (leastNormal_le (by linarith))
    · rw [grain_eq]
      linarith
    · apply lt_overflow_of_le hone hbound
      linarith
  exact ⟨hcoordinate hp.x hq.x, hcoordinate hp.y hq.y⟩

end Points

/-! ### Paths -/

namespace Polyline

variable {bound : ℝ}

/-- The ends of pieces are bounded. -/
def PiecesWithin (bound : ℝ) (pieces : List (Point Float × Point Float)) : Prop :=
  ∀ piece ∈ pieces, piece.1.Within bound ∧ piece.2.Within bound

theorem piecesWithin_pieces {points : List (Point Float)}
    (h : ∀ point ∈ points, point.Within bound) : PiecesWithin bound (pieces points) := by
  intro piece hpiece
  obtain ⟨hfirst, hsecond⟩ := List.of_mem_zip hpiece
  exact ⟨h _ hfirst, h _ (List.mem_of_mem_tail hsecond)⟩

section Bounds

variable (hone : 1 ≤ bound) (hbound : 16 * bound ≤ rootOverflow)
include hone hbound

/-- One more piece makes a walk longer by a bounded amount. -/
theorem within_walked {walked length : Float} {count : ℕ} (hcount : count < 8192)
    (hwalked : Double.Within (count * (10 * bound)) walked)
    (hlength : Double.Within (5 * bound) length) :
    Double.Within ((count + 1 : ℕ) * (10 * bound)) (walked + length) := by
  have hcast : (count : ℝ) * bound ≤ 8192 * bound := by
    gcongr
    exact_mod_cast hcount.le
  have hnonneg : 0 ≤ (count : ℝ) * bound := by positivity
  apply hwalked.add hlength (leastNormal_le (by linarith))
  · rw [grain_eq]
    push_cast
    linarith
  · apply lt_overflow_of_le hone hbound
    push_cast
    linarith

theorem within_foldl_length : ∀ (pieces : List (Point Float × Point Float)) {walked : Float}
    {count : ℕ}, PiecesWithin bound pieces → count + pieces.length ≤ 8192 →
    Double.Within (count * (10 * bound)) walked →
    Double.Within ((count + pieces.length : ℕ) * (10 * bound))
      (pieces.foldl (fun total piece => total + piece.1.distance piece.2) walked)
  | [], _, _, _, _, hwalked => hwalked
  | piece :: pieces, walked, count, hpieces, hcount, hwalked => by
      rw [List.length_cons] at hcount ⊢
      obtain ⟨hfirst, hsecond⟩ := hpieces piece List.mem_cons_self
      have hnext := within_walked hone hbound (by omega) hwalked
        (hfirst.distance hsecond hone hbound)
      have hrest := within_foldl_length pieces
        (fun other hother => hpieces other (List.mem_cons_of_mem _ hother)) (by omega) hnext
      rwa [Nat.add_assoc, Nat.add_comm 1] at hrest

theorem within_length {points : List (Point Float)} (h : ∀ point ∈ points, point.Within bound)
    (hcount : points.length ≤ 8192) : Double.Within (81920 * bound) (length points) := by
  have hpieces : (pieces points).length ≤ points.length := by
    unfold pieces
    rw [List.length_zip]
    omega
  have hzero : Double.Within ((0 : ℕ) * (10 * bound)) Scalar.zero := by
    rw [Nat.cast_zero, zero_mul]
    exact within_zero
  have hfold := within_foldl_length hone hbound (pieces points) (piecesWithin_pieces h)
    (by omega) hzero
  refine hfold.mono ?_
  have hcast : ((0 + (pieces points).length : ℕ) : ℝ) ≤ 8192 := by
    have : 0 + (pieces points).length ≤ 8192 := by omega
    exact_mod_cast this
  calc ((0 + (pieces points).length : ℕ) : ℝ) * (10 * bound) ≤ 8192 * (10 * bound) := by gcongr
    _ = 81920 * bound := by ring

/-- What a walk along a path has ahead is bounded, and so is what it has behind. -/
structure Walk.Within (bound : ℝ) (state : Walk Float) : Prop where
  pieces : PiecesWithin bound state.ahead
  walked : ∃ count : ℕ, count + state.ahead.length ≤ 8192 ∧
    Double.Within (count * (10 * bound)) state.walked

omit hone hbound in
theorem within_walked_le {walked : Float} {count : ℕ} (hone : 1 ≤ bound) (hcount : count ≤ 8192)
    (h : Double.Within (count * (10 * bound)) walked) :
    Double.Within (81920 * bound) walked := by
  refine h.mono ?_
  have hcast : (count : ℝ) ≤ 8192 := by exact_mod_cast hcount
  calc (count : ℝ) * (10 * bound) ≤ 8192 * (10 * bound) := by gcongr
    _ = 81920 * bound := by ring

theorem reach_within {last : Point Float} {target : Float} (hlast : last.Within bound)
    (htarget : Double.Within (2 ^ 40 * bound) target) :
    ∀ (ahead : List (Point Float × Point Float)) {walked : Float},
      Walk.Within bound ⟨ahead, walked⟩ →
      (reach last target walked ahead).1.Within (4 * bound) ∧
        Walk.Within bound (reach last target walked ahead).2
  | [], walked, h => ⟨hlast.mono (by linarith), h⟩
  | (a, b) :: ahead, walked, h => by
      obtain ⟨hpieces, count, hcount, hwalked⟩ := h
      obtain ⟨ha, hb⟩ := hpieces _ List.mem_cons_self
      rw [List.length_cons] at hcount
      have hlength := ha.distance hb hone hbound
      unfold reach
      by_cases hle : Scalar.le target (walked + a.distance b) = true
      · rw [if_pos hle]
        refine ⟨ha.lerp hb hone hbound (within_clamp ?_), hpieces, count, by simpa using hcount,
          hwalked⟩
        -- the share is a number: what is divided is finite, and the divisor is not zero
        by_cases hpositive : Scalar.lt Scalar.zero (a.distance b) = true
        · rw [if_pos hpositive]
          rw [scalar_lt_iff within_zero.isNaN hlength.isNaN, rank_of_isFinite within_zero.isFinite,
            rank_of_isFinite hlength.isFinite, EReal.coe_lt_coe_iff] at hpositive
          have hzero : real Scalar.zero = 0 := abs_nonpos_iff.mp within_zero.abs_real_le
          have hdiff : Double.Within (2 ^ 41 * bound) (target - walked) := by
            apply htarget.sub (within_walked_le hone (by omega) hwalked)
              (leastNormal_le (by linarith))
            · rw [grain_eq]
              linarith
            · apply lt_overflow_of_le hone hbound
              linarith
          exact (gives_div hdiff.isFinite hlength.isFinite (by linarith)).isNaN
        · rw [if_neg hpositive]
          exact within_zero.isNaN
      · rw [if_neg hle]
        refine reach_within hlast htarget ahead ⟨?_, count + 1, ?_, ?_⟩
        · intro piece hpiece
          exact hpieces piece (List.mem_cons_of_mem _ hpiece)
        · show count + 1 + ahead.length ≤ 8192
          omega
        · exact within_walked hone hbound (by omega) hwalked hlength

theorem walk_within {last : Point Float} {step : Float} (hlast : last.Within bound)
    (hstep : Double.Within (100000 * bound) step) : ∀ (ks : List ℕ) {state : Walk Float},
      (∀ k ∈ ks, k ≤ 8192) → Walk.Within bound state →
        ∀ point ∈ walk last step state ks, point.Within (4 * bound)
  | [], _, _, _, point, hpoint => absurd hpoint List.not_mem_nil
  | k :: ks, state, hks, hstate, point, hpoint => by
      have hk : Double.Within 8192 (Scalar.ofNat k) := by
        have hle := hks k List.mem_cons_self
        refine (within_ofNat (by omega)).mono ?_
        exact_mod_cast hle
      have htarget : Double.Within (2 ^ 40 * bound) (step * Scalar.ofNat k) := by
        apply hstep.mul hk (leastNormal_le (by linarith))
        · rw [grain_eq]
          linarith
        · apply lt_overflow_of_le hone hbound
          linarith
      obtain ⟨hreached, hnext⟩ := reach_within hone hbound hlast htarget state.ahead hstate
      unfold walk at hpoint
      rcases List.mem_cons.mp hpoint with rfl | hrest
      · exact hreached
      · exact walk_within hlast hstep ks (fun k hk => hks k (List.mem_cons_of_mem _ hk)) hnext
          point hrest

/-- **Resampling keeps the points of a path finite.** -/
theorem resample_within {points : List (Point Float)} (h : ∀ point ∈ points, point.Within bound)
    (hlength : points.length ≤ 8192) {count : ℕ} (hcount : count < 8192) :
    ∀ point ∈ resample points count, point.Within (4 * bound) := by
  intro point hpoint
  cases points with
  | nil => exact absurd hpoint List.not_mem_nil
  | cons first rest =>
      have hlast : (rest.getLastD first).Within bound := by
        apply h
        exact List.getLastD_mem_cons
      have hstep : Double.Within (100000 * bound)
          (length (first :: rest) / Scalar.ofNat (count + 1)) := by
        obtain ⟨hfinite, hreal⟩ := real_ofNat (n := count + 1) (by omega)
        have hdivisor : (1 : ℝ) ≤ |real (Scalar.ofNat (count + 1))| := by
          rw [hreal]
          push_cast
          rw [abs_of_nonneg (by positivity)]
          linarith [(Nat.cast_nonneg count : (0 : ℝ) ≤ count)]
        apply (within_length hone hbound h hlength).div hfinite one_pos hdivisor
          (leastNormal_le (by linarith))
        · rw [grain_eq]
          linarith
        · apply lt_overflow_of_le hone hbound
          linarith
      have hstart : Walk.Within bound ⟨pieces (first :: rest), Scalar.zero⟩ := by
        refine ⟨piecesWithin_pieces h, 0, ?_, ?_⟩
        · unfold pieces
          rw [List.length_zip]
          simp only [List.length_cons] at hlength ⊢
          omega
        · rw [Nat.cast_zero, zero_mul]
          exact within_zero
      simp only [resample] at hpoint
      rcases List.mem_cons.mp hpoint with rfl | hpoint
      · exact (h _ List.mem_cons_self).mono (by linarith)
      rcases List.mem_append.mp hpoint with hinner | hend
      · refine walk_within hone hbound hlast hstep _ ?_ hstart point hinner
        intro k hk
        have := (List.mem_range'_1.mp hk).2
        omega
      · rw [List.mem_singleton.mp hend]
        exact hlast.mono (by linarith)

end Bounds

end Polyline

end NodeLink
