import NodeLink.Proofs.Double.Operations

/-! # Bounded doubles

A double that is finite and of at most a given size (`Within`).  An operation on bounded doubles
gives a bounded double, with the bound that holds of exact numbers, enlarged by the factor `grain`
for the rounding, as long as that is below the overflow.  Whole numbers of at most fifty-three bits
are exact. -/

namespace NodeLink.Double

open Float.Model
open Float.Model.UnpackedFloat

/-- A double is finite, and of at most the given size. -/
structure Within (bound : ℝ) (x : Float) : Prop where
  isFinite : x.isFinite = true
  abs_real_le : |real x| ≤ bound

/-- The factor by which rounding can enlarge a bound. -/
noncomputable def grain : ℝ := 1 + 1 / ((2 : ℕ) : ℝ) ^ 53

theorem grain_eq : grain = 1 + 1 / 2 ^ 53 := rfl

/-- The least number that rounding changes by a relative error only. -/
noncomputable def leastNormal : ℝ := ((2 : ℕ) : ℝ) ^ (-1022 : ℤ)

theorem leastNormal_eq : leastNormal = 2 ^ (-1022 : ℤ) := rfl

theorem leastNormal_pos : 0 < leastNormal := by
  rw [leastNormal_eq]
  positivity

theorem leastNormal_le {b : ℝ} (h : 1 / 2 ^ 64 ≤ b) : leastNormal ≤ b := by
  calc leastNormal ≤ 2 ^ (-64 : ℤ) := zpow_le_zpow_right₀ (by norm_num) (by norm_num)
    _ = 1 / 2 ^ 64 := by norm_num
    _ ≤ b := h

/-- The square root of the overflow: bounds below it have squares below the overflow. -/
noncomputable def rootOverflow : ℝ := ((2 : ℕ) : ℝ) ^ (512 : ℕ)

theorem rootOverflow_eq : rootOverflow = 2 ^ (512 : ℕ) := rfl

theorem rootOverflow_mul_self : rootOverflow * rootOverflow = overflow := by
  rw [rootOverflow_eq, overflow_eq, ← pow_add, ← zpow_natCast]
  norm_num

theorem le_rootOverflow {n : ℕ} (h : n ≤ 512) : (2 : ℝ) ^ n ≤ rootOverflow :=
  pow_le_pow_right₀ (by norm_num) h

theorem rootOverflow_pos : 0 < rootOverflow := by
  rw [rootOverflow_eq]
  positivity

theorem leastNormal_mul_rootOverflow : leastNormal * rootOverflow ≤ 1 := by
  rw [leastNormal_eq, rootOverflow_eq, ← zpow_natCast, ← zpow_add₀ (by norm_num)]
  exact zpow_le_one_of_nonpos₀ (by norm_num) (by norm_num)

theorem mul_rootOverflow_le : 2 ^ 200 * rootOverflow ≤ overflow := by
  have hle : (2 : ℝ) ^ 200 ≤ rootOverflow := le_rootOverflow (by norm_num)
  have hpos := rootOverflow_pos
  rw [← rootOverflow_mul_self]
  gcongr

theorem two_pow_lt_overflow : (2 : ℝ) ^ 200 < overflow := by
  have := mul_rootOverflow_le
  have := le_rootOverflow (n := 1) (by norm_num)
  linarith

/-! ### One rounding -/

section Rounding

variable {x : Float} {r a b : ℝ}

theorem Within.mono (h : Within a x) (hab : a ≤ b) : Within b x :=
  ⟨h.isFinite, h.abs_real_le.trans hab⟩

theorem Within.nonneg (h : Within a x) : 0 ≤ a := (abs_nonneg _).trans h.abs_real_le

theorem Within.isNaN (h : Within a x) : x.isNaN = false := isNaN_eq_false h.isFinite

theorem Gives.real_eq (h : Gives x r) (hfinite : x.isFinite = true) : real x = rounded r := by
  have hrank := h.rank_eq
  rw [rank_of_isFinite hfinite] at hrank
  unfold saturated at hrank
  split_ifs at hrank
  · exact absurd hrank (EReal.coe_ne_bot _)
  · exact absurd hrank (EReal.coe_ne_top _)
  · exact EReal.coe_eq_coe_iff.mp hrank

theorem Gives.isFinite (h : Gives x r) (hr : |rounded r| < overflow) : x.isFinite = true := by
  rw [isFinite_iff_rank h.isNaN, h.rank_eq, saturated_of_abs_lt hr]
  exact ⟨EReal.bot_lt_coe _, EReal.coe_lt_top _⟩

/-- A bound that rounding does not cross bounds the double. -/
theorem Gives.within_of_rounded (h : Gives x r) (hr : |rounded r| ≤ b) (hhigh : b < overflow) :
    Within b x := by
  have hfinite := h.isFinite (hr.trans_lt hhigh)
  exact ⟨hfinite, h.real_eq hfinite ▸ hr⟩

theorem Gives.within (h : Gives x r) (hr : |r| ≤ a) (hlow : leastNormal ≤ a)
    (hb : a * grain ≤ b) (hhigh : b < overflow) : Within b x := by
  have hgrain : (1 : ℝ) + 2 ^ (-53 : ℤ) = grain := by
    rw [grain_eq]
    norm_num
  have hrounded := abs_rounded_le hr hlow
  rw [hgrain] at hrounded
  exact h.within_of_rounded (hrounded.trans hb) hhigh

theorem Gives.le_real (h : Gives x r) (hfinite : x.isFinite = true) (hr : a ≤ r)
    (hlow : leastNormal ≤ a) (hb : b ≤ a * (2 - grain)) : b ≤ real x := by
  have hgrain : (1 : ℝ) - 2 ^ (-53 : ℤ) = 2 - grain := by
    rw [grain_eq]
    norm_num
  have hrounded := le_rounded hr hlow
  rw [hgrain] at hrounded
  rw [h.real_eq hfinite]
  exact hb.trans hrounded

theorem Gives.real_nonneg (h : Gives x r) (hfinite : x.isFinite = true) (hr : 0 ≤ r) :
    0 ≤ real x := by
  rw [h.real_eq hfinite]
  exact rounded_nonneg hr

end Rounding

/-! ### Operations -/

section Operations

variable {x y : Float} {a b c : ℝ}

theorem Within.add (hx : Within a x) (hy : Within b y) (hlow : leastNormal ≤ a + b)
    (hc : (a + b) * grain ≤ c) (hhigh : c < overflow) : Within c (x + y) := by
  refine (gives_add hx.isFinite hy.isFinite).within ?_ hlow hc hhigh
  have htriangle := abs_add_le (real x) (real y)
  have := hx.abs_real_le
  have := hy.abs_real_le
  linarith

theorem Within.sub (hx : Within a x) (hy : Within b y) (hlow : leastNormal ≤ a + b)
    (hc : (a + b) * grain ≤ c) (hhigh : c < overflow) : Within c (x - y) := by
  refine (gives_sub hx.isFinite hy.isFinite).within ?_ hlow hc hhigh
  have htriangle := abs_sub (real x) (real y)
  have := hx.abs_real_le
  have := hy.abs_real_le
  linarith

theorem Within.mul (hx : Within a x) (hy : Within b y) (hlow : leastNormal ≤ a * b)
    (hc : a * b * grain ≤ c) (hhigh : c < overflow) : Within c (x * y) := by
  refine (gives_mul hx.isFinite hy.isFinite).within ?_ hlow hc hhigh
  rw [abs_mul]
  exact mul_le_mul hx.abs_real_le hy.abs_real_le (abs_nonneg _) hx.nonneg

theorem Within.div (hx : Within a x) (hy : y.isFinite = true) (hb : 0 < b) (hle : b ≤ |real y|)
    (hlow : leastNormal ≤ a / b) (hc : a / b * grain ≤ c) (hhigh : c < overflow) :
    Within c (x / y) := by
  have hne : real y ≠ 0 := abs_pos.mp (hb.trans_le hle)
  refine (gives_div hx.isFinite hy hne).within ?_ hlow hc hhigh
  rw [abs_div]
  exact div_le_div₀ hx.nonneg hx.abs_real_le hb hle

theorem Within.sqrt (hx : Within a x) (hnonneg : 0 ≤ real x) (hle : √a ≤ b)
    (hlow : leastNormal ≤ b) (hc : b * grain ≤ c) (hhigh : c < overflow) :
    Within c x.sqrt := by
  refine (gives_sqrt hx.isFinite hnonneg).within ?_ hlow hc hhigh
  rw [abs_of_nonneg (Real.sqrt_nonneg _)]
  exact (Real.sqrt_le_sqrt ((le_abs_self _).trans hx.abs_real_le)).trans hle

end Operations

/-! ### Whole numbers -/

theorem real_of_unpack {x : Float} {m : ℕ} {e : ℤ} {hm : 0 < m}
    (h : x.toModel.unpack = .finite .positive m e hm) :
    x.isFinite = true ∧ real x = m * 2 ^ e := by
  constructor
  · show x.toModel.unpack.isFinite = true
    rw [h]
    rfl
  · unfold real
    rw [h]
    rfl

theorem rounded_natCast {n : ℕ} (h : n < 2 ^ 53) : rounded n = n := by
  have := roundMagnitude_of_mantissa h (by norm_num : (-1074 : ℤ) ≤ 0)
  rw [rounded_of_nonneg (Nat.cast_nonneg n)]
  simpa using this

theorem real_ofNat {n : ℕ} (h : n < 2 ^ 53) :
    (Scalar.ofNat n : Float).isFinite = true ∧ real (Scalar.ofNat n) = n := by
  have hmax : (n : ℝ) < overflow := by
    have hlt : (n : ℝ) < 2 ^ (53 : ℤ) := by exact_mod_cast h
    exact hlt.trans (zpow_lt_zpow_right₀ (by norm_num) (by norm_num))
  have hround := rounded_natCast h
  have hexact : ∀ {x : Float}, Gives x n → x.isFinite = true ∧ real x = n := by
    intro x hx
    have hfinite := hx.isFinite (by rwa [hround, abs_of_nonneg (Nat.cast_nonneg n)])
    exact ⟨hfinite, (hx.real_eq hfinite).trans hround⟩
  -- the number is read as a word, and multiplied by the power of ten with exponent zero
  have hpower : Float.exactlyRepresentablePowersOfTen[0].toModel.unpack =
      .finite .positive (2 ^ 52) (-52) (by decide) := by rfl
  obtain ⟨hpowerFinite, hpowerReal⟩ := real_of_unpack hpower
  have hword : n.toUInt64.toNat = n := by
    rw [Nat.toUInt64_eq, UInt64.toNat_ofNat']
    omega
  have hnearest := nearest_normalize (n.toUInt64.toNat : ℤ) 0 .positive
  rw [hword, zpow_zero, mul_one, Int.cast_natCast] at hnearest
  obtain ⟨hwordFinite, hwordReal⟩ := hexact (x := n.toUInt64.toFloat) (hnearest.gives (by
    show Float.Model.pack (UnpackedFloat.normalize Format.binary64 (n.toUInt64.toNat : ℤ) 0
      .positive) = _
    rw [hword]))
  have hproduct := gives_mul hwordFinite hpowerFinite
  rw [hwordReal, hpowerReal] at hproduct
  have heq : (Scalar.ofNat n : Float) =
      n.toUInt64.toFloat * Float.exactlyRepresentablePowersOfTen[0] := by
    show Float.ofScientific n false 0 = _
    unfold Float.ofScientific
    rw [dif_pos ⟨h, by decide⟩]
    rfl
  rw [heq]
  refine hexact ?_
  convert hproduct using 1
  norm_num

theorem within_ofNat {n : ℕ} (h : n < 2 ^ 53) : Within n (Scalar.ofNat n) := by
  obtain ⟨hfinite, hreal⟩ := real_ofNat h
  exact ⟨hfinite, by rw [hreal, abs_of_nonneg (Nat.cast_nonneg n)]⟩

theorem within_zero : Within 0 Scalar.zero := by
  have := within_ofNat (n := 0) (by norm_num)
  rwa [Nat.cast_zero] at this

theorem within_one : Within 1 Scalar.one := by
  have := within_ofNat (n := 1) (by norm_num)
  rwa [Nat.cast_one] at this

theorem gives_ratio {a b : ℕ} (ha : a < 2 ^ 53) (hb : b < 2 ^ 53) (hpos : 0 < b) :
    Gives (Scalar.ratio a b) (a / b) := by
  obtain ⟨hfiniteA, hrealA⟩ := real_ofNat ha
  obtain ⟨hfiniteB, hrealB⟩ := real_ofNat hb
  have hne : real (Scalar.ofNat b) ≠ 0 := by
    rw [hrealB]
    exact_mod_cast hpos.ne'
  have hgives := gives_div hfiniteA hfiniteB hne
  rwa [hrealA, hrealB] at hgives

/-- A fraction that is not too small and not too great is nearly exact. -/
theorem within_ratio {a b : ℕ} {low high : ℝ} (ha : a < 2 ^ 53) (hb : b < 2 ^ 53) (hpos : 0 < b)
    (hsmall : 1 / 2 ^ 64 ≤ (a : ℝ) / b) (hlow : low ≤ a / b * (2 - grain))
    (hhigh : a / b * grain ≤ high) (hgreat : high ≤ 2 ^ 200) :
    Within high (Scalar.ratio a b) ∧ low ≤ real (Scalar.ratio a b) := by
  have hgives := gives_ratio ha hb hpos
  have hwithin : Within high (Scalar.ratio a b) := by
    apply hgives.within _ (leastNormal_le hsmall) hhigh (hgreat.trans_lt two_pow_lt_overflow)
    rw [abs_of_nonneg (by positivity)]
  exact ⟨hwithin, hgives.le_real hwithin.isFinite le_rfl (leastNormal_le hsmall) hlow⟩

theorem exists_mantissa {x : Float} (hx : x.isFinite = true) :
    ∃ (m : ℕ) (e : ℤ), m < 2 ^ 53 ∧ -1074 ≤ e ∧ e ≤ 971 ∧ |real x| = m * 2 ^ e := by
  have hcanonical : Canonical x.toModel.unpack := (canonical_unpack _).1
  have hx' : x.toModel.unpack.isFinite = true := hx
  unfold real
  cases hunpack : x.toModel.unpack with
  | infinity s =>
      rw [hunpack] at hx'
      cases hx'
  | notANumber =>
      rw [hunpack] at hx'
      cases hx'
  | zero s => exact ⟨0, 0, by norm_num, by norm_num, by norm_num, by simp [realOf]⟩
  | finite s m e hm =>
      rw [hunpack] at hcanonical
      obtain ⟨hleast, hbits, -⟩ := hcanonical
      refine ⟨m, e, hbits, hleast, (canonical_unpack _).2 s m e hm hunpack, ?_⟩
      have hpos := realOf_finite_pos e hm
      cases s with
      | negative => exact (abs_neg _).trans (abs_of_pos hpos)
      | positive => exact abs_of_pos hpos

theorem rounded_real {x : Float} (hx : x.isFinite = true) : rounded (real x) = real x := by
  obtain ⟨m, e, hm, he, -, hmantissa⟩ := exists_mantissa hx
  exact rounded_of_mantissa hm he hmantissa

theorem abs_real_lt_overflow {x : Float} (hx : x.isFinite = true) : |real x| < overflow := by
  obtain ⟨m, e, hm, -, he, hmantissa⟩ := exists_mantissa hx
  have hm' : (m : ℝ) < 2 ^ (53 : ℤ) := by exact_mod_cast hm
  calc |real x| = m * 2 ^ e := hmantissa
    _ < 2 ^ (53 : ℤ) * 2 ^ e := by gcongr
    _ = 2 ^ (53 + e) := (zpow_add₀ (by norm_num) _ _).symm
    _ ≤ overflow := zpow_le_zpow_right₀ (by norm_num) (by omega)

theorem real_half {x : Float} (hx : x.isFinite = true) (hlow : 1 / 2 ^ 200 ≤ |real x|) :
    (x / Scalar.ofNat 2).isFinite = true ∧ real (x / Scalar.ofNat 2) = real x / 2 := by
  obtain ⟨hfinite, hreal⟩ := real_ofNat (n := 2) (by norm_num)
  have hgives : Gives (x / Scalar.ofNat 2) (real x / 2) := by
    have hgives := gives_div hx hfinite (by rw [hreal]; norm_num)
    rwa [hreal] at hgives
  -- the half has the same mantissa, and the exponent is not the least one
  obtain ⟨m, e, hm, -, -, hmantissa⟩ := exists_mantissa hx
  have hexponent : -1074 ≤ e - 1 := by
    have hm' : (m : ℝ) < 2 ^ (53 : ℤ) := by exact_mod_cast hm
    have hless : (2 : ℝ) ^ (-200 : ℤ) < 2 ^ (53 + e) := by
      calc (2 : ℝ) ^ (-200 : ℤ) = 1 / 2 ^ 200 := by norm_num
        _ ≤ m * 2 ^ e := hmantissa ▸ hlow
        _ < 2 ^ (53 : ℤ) * 2 ^ e := by gcongr
        _ = 2 ^ (53 + e) := (zpow_add₀ (by norm_num) _ _).symm
    have := (zpow_lt_zpow_iff_right₀ (by norm_num : (1 : ℝ) < 2)).mp hless
    omega
  have hhalf : |real x / 2| = m * 2 ^ (e - 1) := by
    rw [abs_div, hmantissa, zpow_sub_one₀ (by norm_num), abs_of_pos (by norm_num : (0 : ℝ) < 2)]
    ring
  have hrounded := rounded_of_mantissa hm hexponent hhalf
  have hsmall : |rounded (real x / 2)| < overflow := by
    have hless := abs_real_lt_overflow hx
    have hnonneg := abs_nonneg (real x)
    rw [hrounded, abs_div, abs_of_pos (by norm_num : (0 : ℝ) < 2)]
    linarith
  have hfinite' := hgives.isFinite hsmall
  exact ⟨hfinite', (hgives.real_eq hfinite').trans hrounded⟩

/-- A number that is clamped between zero and one is finite, even an infinity. -/
theorem within_clamp {x : Float} (hx : x.isNaN = false) :
    Within 1 (Scalar.clamp x Scalar.zero Scalar.one) := by
  have hzero : rank Scalar.zero = 0 := by
    rw [rank_of_isFinite within_zero.isFinite]
    exact congrArg Real.toEReal (abs_nonpos_iff.mp within_zero.abs_real_le)
  -- what is below zero is raised
  obtain ⟨y, hy, hnumber, hlow⟩ : ∃ y : Float,
      (if Scalar.lt x Scalar.zero then Scalar.zero else x) = y ∧ y.isNaN = false ∧
        0 ≤ rank y := by
    by_cases hless : Scalar.lt x Scalar.zero = true
    · exact ⟨_, if_pos hless, within_zero.isNaN, hzero.ge⟩
    · refine ⟨_, if_neg hless, hx, ?_⟩
      rwa [scalar_lt_iff hx within_zero.isNaN, hzero, not_lt] at hless
  unfold Scalar.clamp
  rw [hy]
  by_cases hgreater : Scalar.lt Scalar.one y = true
  · simp only [hgreater, if_true]
    exact within_one
  · show Within 1 (if Scalar.lt Scalar.one y = true then Scalar.one else y)
    rw [if_neg hgreater]
    rw [scalar_lt_iff within_one.isNaN hnumber, not_lt, rank_of_isFinite within_one.isFinite]
      at hgreater
    have hfinite : y.isFinite = true := by
      rw [isFinite_iff_rank hnumber]
      constructor
      · exact lt_of_lt_of_le EReal.bot_lt_zero hlow
      · exact lt_of_le_of_lt hgreater (EReal.coe_lt_top _)
    rw [rank_of_isFinite hfinite] at hlow hgreater
    refine ⟨hfinite, ?_⟩
    rw [abs_of_nonneg (EReal.coe_nonneg.mp hlow)]
    calc real y ≤ real Scalar.one := EReal.coe_le_coe_iff.mp hgreater
      _ ≤ |real Scalar.one| := le_abs_self _
      _ ≤ 1 := within_one.abs_real_le

end NodeLink.Double
