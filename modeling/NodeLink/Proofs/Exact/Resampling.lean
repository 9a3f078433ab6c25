import NodeLink.Proofs.Exact.Straight
import NodeLink.Proofs.Sequences

/-! # Resampled paths

Two points of a path are at most as far apart as the way between them is long (`At.distance_le`).
The points of a resampled path are those of the path at the multiples of one length, its two ends
among them (`getElem?_resample_iff`).  So points that follow each other are at most that length
apart (`isChain_resample`), and resampling makes no path longer (`resample_atMultiples`).

Nothing is asked of the path but that it has a point: pieces without length are passed like the
others, as on such a piece there is one point only. -/

namespace NodeLink.Polyline

open scoped Exact

variable [DivisionByZero]

/-! ### Distances along a path -/

theorem at_length : ∀ (a : Point ℝ) (rest : List (Point ℝ)),
    At (a :: rest) (length (a :: rest)) (rest.getLastD a)
  | a, [] => by
      rw [length_singleton]
      exact .start a []
  | a, b :: rest => by
      rw [length_cons_cons, List.getLastD_cons]
      exact .beyond (at_length b rest)

theorem distance_lerp_of_le {a b : Point ℝ} {t u : ℝ}
    (h : t * a.distance b ≤ u * a.distance b) :
    (a.lerp b t).distance (a.lerp b u) = u * a.distance b - t * a.distance b := by
  have hpart : |u - t| * a.distance b = |(u - t) * a.distance b| := by
    rw [abs_mul, abs_of_nonneg (Point.distance_nonneg a b)]
  rw [Point.distance_lerp, hpart, sub_mul, abs_of_nonneg (sub_nonneg.mpr h)]

/-- Two points of a path are at most as far apart as the way between them is long. -/
theorem At.distance_le : ∀ {points : List (Point ℝ)} {s t : ℝ} {p q : Point ℝ},
    At points s p → At points t q → s ≤ t → p.distance q ≤ t - s
  | [_], _, _, _, _, .start _ _, .start _ _, _ => by
      rw [Point.distance_eq_zero_iff.mpr rfl, sub_self]
  | a :: b :: rest, s, t, p, q, hp, hq, hle => by
      rcases hp.on_or_beyond with ⟨x, -, hx, rfl, rfl⟩ | ⟨u, rfl, hbeyond⟩ <;>
        rcases hq.on_or_beyond with ⟨y, -, hy, rfl, rfl⟩ | ⟨v, rfl, hbeyond'⟩
      · exact (distance_lerp_of_le hle).le
      · -- the way leads over the end of the first piece
        have hend : x * a.distance b ≤ 1 * a.distance b :=
          mul_le_mul_of_nonneg_right hx (Point.distance_nonneg a b)
        have hfirst := distance_lerp_of_le hend
        rw [Point.lerp_one] at hfirst
        have hrest := (At.start b rest).distance_le hbeyond' hbeyond'.nonneg
        have htriangle := Point.distance_triangle (a.lerp b x) b q
        linarith
      · -- only the end of the first piece is on it and not before a point beyond it
        have hend : y * a.distance b ≤ a.distance b :=
          mul_le_of_le_one_left (Point.distance_nonneg a b) hy
        have hsame : a.distance b + u = y * a.distance b :=
          le_antisymm hle (hend.trans (le_add_of_nonneg_right hbeyond.nonneg))
        rw [hsame] at hp ⊢
        rw [Point.distance_eq_zero_iff.mpr (hp.unique hq), sub_self]
      · have hrest := hbeyond.distance_le hbeyond' (le_of_add_le_add_left hle)
        rwa [add_sub_add_left_eq_sub]

/-- A path is at most as long as its number of pieces times a bound on each of them. -/
theorem length_le_of_isChain {step : ℝ} : ∀ (a : Point ℝ) (rest : List (Point ℝ)),
    (a :: rest).IsChain (fun p q => p.distance q ≤ step) →
      length (a :: rest) ≤ rest.length * step
  | a, [], _ => by rw [length_singleton, List.length_nil, Nat.cast_zero, zero_mul]
  | a, b :: rest, h => by
      obtain ⟨hfirst, hchain⟩ := List.isChain_cons_cons.mp h
      have hrest := length_le_of_isChain b rest hchain
      rw [length_cons_cons, List.length_cons, Nat.cast_succ, add_mul, one_mul]
      linarith

/-! ### The points of a resampled path -/

section Resample

variable (a : Point ℝ) (rest : List (Point ℝ)) (count : ℕ)

/-- The points of a resampled path are those of the path at the multiples of one length. -/
theorem getElem?_resample_iff (k : ℕ) (p : Point ℝ) :
    (resample (a :: rest) count)[k]? = some p ↔
      k ≤ count + 1 ∧ At (a :: rest) (k * (length (a :: rest) / (count + 1))) p := by
  have hcount : (count : ℝ) + 1 ≠ 0 := by positivity
  have hlength := length_resample a rest count
  obtain ⟨inner, hresample, hsize, hinner⟩ := at_resample a rest count
  have hat : ∀ {p : Point ℝ}, (resample (a :: rest) count)[k]? = some p →
      At (a :: rest) (k * (length (a :: rest) / (count + 1))) p := by
    intro p hp
    rw [hresample] at hp
    cases k with
    | zero =>
        obtain rfl := Option.some.inj hp
        rw [Nat.cast_zero, zero_mul]
        exact .start a rest
    | succ k =>
        rw [List.getElem?_cons_succ, getElem?_concat_eq_some_iff, hsize] at hp
        rw [Nat.cast_succ]
        rcases hp with hp | ⟨rfl, rfl⟩
        · exact hinner hp
        · rw [mul_div_cancel₀ _ hcount]
          exact at_length a rest
  constructor
  · intro hp
    have hlt := (List.getElem?_eq_some_iff.mp hp).1
    exact ⟨by omega, hat hp⟩
  · rintro ⟨hk, hp⟩
    have hfound := List.getElem?_eq_getElem
      (show k < (resample (a :: rest) count).length by omega)
    rw [hfound, (hat hfound).unique hp]

/-- Points of a resampled path that follow each other are at most one of its lengths apart. -/
theorem isChain_resample :
    (resample (a :: rest) count).IsChain fun p q =>
      p.distance q ≤ length (a :: rest) / (count + 1) := by
  have hstep : 0 ≤ length (a :: rest) / (count + 1) :=
    div_nonneg (length_nonneg (a :: rest)) (by positivity)
  rw [List.isChain_iff_getElem]
  intro k hk
  have hp := (getElem?_resample_iff a rest count k _).mp
    (List.getElem?_eq_getElem (Nat.lt_of_succ_lt hk))
  have hq := (getElem?_resample_iff a rest count (k + 1) _).mp (List.getElem?_eq_getElem hk)
  have hdistance := hp.2.distance_le hq.2 (by push_cast; linarith)
  push_cast at hdistance
  linarith

/-- **Resampling divides a path into equal lengths**: from its first point to its last one, the
points are those at the multiples of one length.  Points that follow each other are at most that
length apart, and the resampled path is at most as long as the path. -/
theorem resample_atMultiples :
    (resample (a :: rest) count).length = count + 2 ∧
      (resample (a :: rest) count).head? = some a ∧
      (resample (a :: rest) count).getLast? = some (rest.getLastD a) ∧
      (∀ (k : ℕ) (p : Point ℝ), (resample (a :: rest) count)[k]? = some p ↔
        k ≤ count + 1 ∧ At (a :: rest) (k * (length (a :: rest) / (count + 1))) p) ∧
      ((resample (a :: rest) count).IsChain fun p q =>
        p.distance q ≤ length (a :: rest) / (count + 1)) ∧
      length (resample (a :: rest) count) ≤ length (a :: rest) := by
  have hcount : (count : ℝ) + 1 ≠ 0 := by positivity
  have hchain := isChain_resample a rest count
  obtain ⟨inner, hresample, hsize, -⟩ := at_resample a rest count
  have hlength : length (resample (a :: rest) count) ≤ length (a :: rest) := by
    rw [hresample] at hchain ⊢
    have hle := length_le_of_isChain a _ hchain
    rwa [List.length_append, hsize, List.length_singleton, Nat.cast_succ,
      mul_div_cancel₀ _ hcount] at hle
  exact ⟨length_resample a rest count, head?_resample a rest count, getLast?_resample a rest count,
    getElem?_resample_iff a rest count, hchain, hlength⟩

end Resample

end NodeLink.Polyline
