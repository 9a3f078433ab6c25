import NodeLink.Proofs.Double.Arithmetic

/-! # What operations on doubles give

An operation on finite doubles gives a number, which is the exact result, rounded, or an infinity
if that is beyond the doubles (`Gives`).  So sums are monotone in each summand, and adding a finite
double to a number gives a number. -/

namespace NodeLink.Double

open Float.Model
open Float.Model.UnpackedFloat

/-- A double is a number, and what an exact result is rounded to. -/
structure Gives (x : Float) (r : ℝ) : Prop where
  isNaN : x.isNaN = false
  rank_eq : rank x = saturated (rounded r)

theorem Nearest.gives {y : UnpackedFloat} {r : ℝ} (h : Nearest y r) {x : Float}
    (hx : x.toModel = Float.Model.pack y) : Gives x r := by
  obtain ⟨hnan, hrank⟩ := rankOf_pack h.canonical h.isFinite
  rw [h.realOf_eq] at hrank
  refine ⟨?_, ?_⟩
  · show x.toModel.unpack.isNaN = false
    rw [hx]
    exact hnan
  · unfold rank
    rw [hx]
    exact hrank

section Operations

variable {x y : Float}

theorem gives_add (hx : x.isFinite = true) (hy : y.isFinite = true) :
    Gives (x + y) (real x + real y) :=
  (nearest_add (canonical_unpack _).1 (canonical_unpack _).1 hx hy).gives rfl

theorem gives_sub (hx : x.isFinite = true) (hy : y.isFinite = true) :
    Gives (x - y) (real x - real y) :=
  (nearest_sub (canonical_unpack _).1 (canonical_unpack _).1 hx hy).gives rfl

theorem gives_mul (hx : x.isFinite = true) (hy : y.isFinite = true) :
    Gives (x * y) (real x * real y) :=
  (nearest_mul (canonical_unpack _).1 (canonical_unpack _).1 hx hy).gives rfl

theorem gives_div (hx : x.isFinite = true) (hy : y.isFinite = true) (hne : real y ≠ 0) :
    Gives (x / y) (real x / real y) :=
  (nearest_div hx hy hne).gives rfl

theorem gives_sqrt (hx : x.isFinite = true) (hnonneg : 0 ≤ real x) :
    Gives x.sqrt (Real.sqrt (real x)) :=
  (nearest_sqrt hx hnonneg).gives rfl

end Operations

/-! ### Signs -/

theorem realOf_abs (y : UnpackedFloat) : realOf y.abs = |realOf y| := by
  cases y with
  | infinity s => simp [UnpackedFloat.abs, realOf]
  | notANumber => simp [UnpackedFloat.abs, realOf]
  | zero s => simp [UnpackedFloat.abs, realOf]
  | finite s m e hm =>
      have hpos := realOf_finite_pos e hm
      cases s with
      | negative => exact ((abs_neg _).trans (abs_of_pos hpos)).symm
      | positive => exact (abs_of_pos hpos).symm

theorem unpack_pack_infinity (s : Sign) :
    (Float.Model.pack (.infinity s)).unpack = .infinity s := by
  show UnpackedFloat.unpack Format.binary64 (UnpackedFloat.pack Format.binary64 (.infinity s)) = _
  cases s <;> rfl

theorem unpack_pack_notANumber : (Float.Model.pack .notANumber).unpack = .notANumber := by
  show UnpackedFloat.unpack Format.binary64 (UnpackedFloat.pack Format.binary64 .notANumber) = _
  rfl

theorem unpack_pack_resign (t : Sign) (x : Float.Model) :
    (Float.Model.pack (resign t x.unpack)).unpack = resign t x.unpack := by
  obtain ⟨hcanonical, hexponent⟩ := canonical_unpack x.toBits.toBitVec
  cases hx : x.unpack with
  | infinity s => exact unpack_pack_infinity t
  | notANumber => exact unpack_pack_notANumber
  | zero s => exact unpack_pack_zero t
  | finite s m e hm =>
      have hcanonical' : Canonical x.unpack := hcanonical
      rw [hx] at hcanonical'
      exact unpack_pack hcanonical' (hexponent s m e hm hx)

theorem unpack_neg (x : Float) : (-x).toModel.unpack = x.toModel.unpack.neg := by
  obtain ⟨t, ht⟩ := exists_neg_eq_resign x.toModel.unpack
  show (Float.Model.pack (UnpackedFloat.neg x.toModel.unpack)).unpack = _
  rw [ht]
  exact unpack_pack_resign t x.toModel

theorem unpack_abs (x : Float) : x.abs.toModel.unpack = x.toModel.unpack.abs := by
  show (Float.Model.pack (UnpackedFloat.abs x.toModel.unpack)).unpack = _
  rw [abs_eq_resign]
  exact unpack_pack_resign .positive x.toModel

@[simp]
theorem real_neg (x : Float) : real (-x) = -real x := by
  unfold real
  rw [unpack_neg, realOf_neg]

@[simp]
theorem real_abs (x : Float) : real x.abs = |real x| := by
  unfold real
  rw [unpack_abs, realOf_abs]

/-! ### Sums with a finite double -/

section Sums

variable {x y z : Float}

theorem isFinite_iff_rank (hx : x.isNaN = false) :
    x.isFinite = true ↔ ⊥ < rank x ∧ rank x < ⊤ := by
  constructor
  · intro h
    rw [rank_of_isFinite h]
    exact ⟨EReal.bot_lt_coe _, EReal.coe_lt_top _⟩
  · intro h
    rcases isFinite_or_infinity hx with hfinite | ⟨s, hs⟩
    · exact hfinite
    · unfold rank at h
      rw [hs] at h
      cases s with
      | negative => exact absurd h.1 (lt_irrefl _)
      | positive => exact absurd h.2 (lt_irrefl _)

/-- Adding a finite double to an infinity, or taking it away, changes nothing. -/
theorem add_sub_of_infinity {s : Sign} (hx : x.toModel.unpack = .infinity s)
    (hy : y.isFinite = true) :
    (x + y).toModel.unpack = .infinity s ∧ (x - y).toModel.unpack = .infinity s := by
  have hy' : y.toModel.unpack.isFinite = true := hy
  have hadd : UnpackedFloat.add Format.binary64 (.infinity s) y.toModel.unpack = .infinity s := by
    cases hunpack : y.toModel.unpack with
    | infinity t =>
        rw [hunpack] at hy'
        cases hy'
    | notANumber =>
        rw [hunpack] at hy'
        cases hy'
    | zero t => rfl
    | finite t m e hm => rfl
  have hsub : UnpackedFloat.sub Format.binary64 (.infinity s) y.toModel.unpack = .infinity s := by
    cases hunpack : y.toModel.unpack with
    | infinity t =>
        rw [hunpack] at hy'
        cases hy'
    | notANumber =>
        rw [hunpack] at hy'
        cases hy'
    | zero t => rfl
    | finite t m e hm => rfl
  constructor
  · show (Float.Model.pack (UnpackedFloat.add Format.binary64 x.toModel.unpack
      y.toModel.unpack)).unpack = _
    rw [hx, hadd, unpack_pack_infinity]
  · show (Float.Model.pack (UnpackedFloat.sub Format.binary64 x.toModel.unpack
      y.toModel.unpack)).unpack = _
    rw [hx, hsub, unpack_pack_infinity]

theorem isNaN_add (hx : x.isNaN = false) (hy : y.isFinite = true) : (x + y).isNaN = false := by
  rcases isFinite_or_infinity hx with hfinite | ⟨s, hs⟩
  · exact (gives_add hfinite hy).isNaN
  · show (x + y).toModel.unpack.isNaN = false
    rw [(add_sub_of_infinity hs hy).1]
    rfl

theorem isNaN_sub (hx : x.isNaN = false) (hy : y.isFinite = true) : (x - y).isNaN = false := by
  rcases isFinite_or_infinity hx with hfinite | ⟨s, hs⟩
  · exact (gives_sub hfinite hy).isNaN
  · show (x - y).toModel.unpack.isNaN = false
    rw [(add_sub_of_infinity hs hy).2]
    rfl

theorem add_le_add (hx : x.isNaN = false) (hy : y.isFinite = true) (hz : z.isFinite = true)
    (h : real y ≤ real z) : x + y ≤ x + z := by
  rw [le_iff (isNaN_add hx hy) (isNaN_add hx hz)]
  rcases isFinite_or_infinity hx with hfinite | ⟨s, hs⟩
  · rw [(gives_add hfinite hy).rank_eq, (gives_add hfinite hz).rank_eq]
    exact saturated_mono (rounded_mono (by linarith))
  · unfold rank
    rw [(add_sub_of_infinity hs hy).1, (add_sub_of_infinity hs hz).1]

theorem sub_le_add (hx : x.isNaN = false) (hy : y.isFinite = true) (hz : z.isFinite = true)
    (h : -real y ≤ real z) : x - y ≤ x + z := by
  rw [le_iff (isNaN_sub hx hy) (isNaN_add hx hz)]
  rcases isFinite_or_infinity hx with hfinite | ⟨s, hs⟩
  · rw [(gives_sub hfinite hy).rank_eq, (gives_add hfinite hz).rank_eq]
    exact saturated_mono (rounded_mono (by linarith))
  · unfold rank
    rw [(add_sub_of_infinity hs hy).2, (add_sub_of_infinity hs hz).1]

end Sums

end NodeLink.Double
