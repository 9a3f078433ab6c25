import NodeLink.Proofs.Double.Finite

/-! # The order of doubles

A double that is a number stands for a real number or for an infinity, its `rank`.  Comparisons of
doubles compare their ranks (`le_iff`, `lt_iff`, `beq_iff`), so that they order all numbers, the
infinities included.

The comparison of two finite doubles looks at their exponents first, and at their mantissas only
if the exponents are the same.  This is right because the mantissas of unpacked doubles have all
their fifty-three bits unless the exponent is the least one (`Canonical`). -/

namespace NodeLink.Double

open Float.Model
open Float.Model.UnpackedFloat

/-! ### Values -/

/-- A magnitude with a sign. -/
def signed : Sign → ℝ → ℝ
  | .negative, r => -r
  | .positive, r => r

/-- The real number that an unpacked double stands for, zero if it stands for none. -/
noncomputable def realOf : UnpackedFloat → ℝ
  | .finite s m e _ => signed s (m * 2 ^ e)
  | _ => 0

/-- The real number or the infinity that an unpacked double stands for. -/
noncomputable def rankOf : UnpackedFloat → EReal
  | .infinity .negative => ⊥
  | .infinity .positive => ⊤
  | x => (realOf x : EReal)

/-- The mantissa has all its bits, unless the exponent is the least one. -/
def Canonical : UnpackedFloat → Prop
  | .finite _ m e _ => -1074 ≤ e ∧ m < 2 ^ 53 ∧ (e = -1074 ∨ 2 ^ 52 ≤ m)
  | _ => True

/-- Unpacked doubles are canonical, and their exponents are not too great. -/
theorem canonical_unpack (b : BitVec Format.binary64.numBits) :
    Canonical (UnpackedFloat.unpack Format.binary64 b) ∧
      ∀ s m e hm, UnpackedFloat.unpack Format.binary64 b = .finite s m e hm → e ≤ 971 := by
  unfold UnpackedFloat.unpack
  by_cases h₁ : unpackExponent b = -1#_
  · rw [if_pos h₁]
    by_cases h₂ : unpackMantissa b = 0#_
    · rw [if_pos h₂]
      exact ⟨trivial, nofun⟩
    · rw [if_neg h₂]
      exact ⟨trivial, nofun⟩
  · rw [if_neg h₁]
    by_cases h₂ : unpackExponent b = 0#_
    · rw [if_pos h₂]
      by_cases h₃ : unpackMantissa b = 0#_
      · rw [dif_pos h₃]
        exact ⟨trivial, nofun⟩
      · rw [dif_neg h₃, h₂]
        have hlt : (unpackMantissa b).toNat < 2 ^ 52 := (unpackMantissa b).isLt
        refine ⟨⟨by decide, by omega, Or.inl (by decide)⟩, fun s m e hm h => ?_⟩
        cases h
        decide
    · rw [if_neg h₂]
      have hm : (unpackMantissa b).toNat < 2 ^ 52 := (unpackMantissa b).isLt
      have hhidden : (1#1 ++ unpackMantissa b).toNat = 2 ^ 52 + (unpackMantissa b).toNat :=
        hidden_append _
      have hpos : (unpackExponent b).toNat ≠ 0 := fun h => h₂ (BitVec.eq_of_toNat_eq h)
      have htop : (unpackExponent b).toNat ≠ 2047 := fun h => h₁ (BitVec.eq_of_toNat_eq h)
      have hlt : (unpackExponent b).toNat < 2 ^ 11 := (unpackExponent b).isLt
      have hbias : ((unpackExponent b).toNat : Int) - ((Format.binary64.exponentBias : Int) +
          (Format.binary64.mantissaBitsWithoutImplicit : Int)) =
          (unpackExponent b).toNat - 1075 := by
        show ((unpackExponent b).toNat : Int) - (1023 + 52) = _
        omega
      refine ⟨⟨?_, ?_, Or.inr ?_⟩, fun s m e hm h => ?_⟩
      · rw [hbias]
        omega
      · rw [hhidden]
        omega
      · rw [hhidden]
        omega
      · cases h
        rw [hbias]
        omega

/-! ### Comparison of unpacked doubles -/

theorem realOf_finite_pos {m : ℕ} (e : ℤ) (hm : 0 < m) : (0 : ℝ) < m * 2 ^ e := by positivity

theorem mul_two_zpow_lt {m₁ m₂ : ℕ} {e₁ e₂ : ℤ} (h₁ : m₁ < 2 ^ 53) (h₂ : 2 ^ 52 ≤ m₂)
    (he : e₁ < e₂) : (m₁ : ℝ) * 2 ^ e₁ < m₂ * 2 ^ e₂ := by
  have hm₁ : (m₁ : ℝ) < 2 ^ 53 := by exact_mod_cast h₁
  have hm₂ : (2 : ℝ) ^ 52 ≤ m₂ := by exact_mod_cast h₂
  have hexp : (2 : ℝ) ^ (e₁ + 1) ≤ 2 ^ e₂ := zpow_le_zpow_right₀ (by norm_num) (by omega)
  calc (m₁ : ℝ) * 2 ^ e₁ < 2 ^ 53 * 2 ^ e₁ := by gcongr
    _ = 2 ^ 52 * 2 ^ (e₁ + 1) := by rw [zpow_add_one₀ (by norm_num)]; ring
    _ ≤ m₂ * 2 ^ e₂ := by gcongr

/-- Exponents first, then mantissas: the order of the numbers. -/
theorem compare_then_eq {m₁ m₂ : ℕ} {e₁ e₂ : ℤ} (h₁ : m₁ < 2 ^ 53) (h₂ : m₂ < 2 ^ 53)
    (he₁ : -1074 ≤ e₁) (he₂ : -1074 ≤ e₂) (hf₁ : e₁ = -1074 ∨ 2 ^ 52 ≤ m₁)
    (hf₂ : e₂ = -1074 ∨ 2 ^ 52 ≤ m₂) :
    (compare e₁ e₂).then (compare m₁ m₂) = cmp ((m₁ : ℝ) * 2 ^ e₁) (m₂ * 2 ^ e₂) := by
  rcases lt_trichotomy e₁ e₂ with he | he | he
  · have hlt := mul_two_zpow_lt h₁ (hf₂.resolve_left (by omega)) he
    rw [compare_lt_iff_lt.mpr he, cmp_eq_lt_iff _ _ |>.mpr hlt]
    rfl
  · subst he
    have hpos : (0 : ℝ) < 2 ^ e₁ := by positivity
    rw [compare_eq_iff_eq.mpr rfl, Ordering.eq_then]
    rcases lt_trichotomy m₁ m₂ with hm | hm | hm
    · have hlt : (m₁ : ℝ) * 2 ^ e₁ < m₂ * 2 ^ e₁ :=
        mul_lt_mul_of_pos_right (by exact_mod_cast hm) hpos
      rw [compare_lt_iff_lt.mpr hm, (cmp_eq_lt_iff _ _).mpr hlt]
    · rw [hm, cmp_self_eq_eq, compare_eq_iff_eq.mpr rfl]
    · have hlt : (m₂ : ℝ) * 2 ^ e₁ < m₁ * 2 ^ e₁ :=
        mul_lt_mul_of_pos_right (by exact_mod_cast hm) hpos
      rw [compare_gt_iff_gt.mpr hm, (cmp_eq_gt_iff _ _).mpr hlt]
  · have hlt := mul_two_zpow_lt h₂ (hf₁.resolve_left (by omega)) he
    rw [compare_gt_iff_gt.mpr he, (cmp_eq_gt_iff _ _).mpr hlt]
    rfl

theorem compare_eq_cmp_realOf {x y : UnpackedFloat} (hx : Canonical x) (hy : Canonical y)
    (hx' : x.isFinite = true) (hy' : y.isFinite = true) :
    UnpackedFloat.compare x y = some (cmp (realOf x) (realOf y)) := by
  rcases x with _ | _ | s | ⟨s, m₁, e₁, h₁⟩
  · cases hx'
  · cases hx'
  · rcases y with _ | _ | t | ⟨t, m₂, e₂, h₂⟩
    · cases hy'
    · cases hy'
    · simp [UnpackedFloat.compare, realOf]
    · have hpos := realOf_finite_pos e₂ h₂
      cases t with
      | negative =>
          have hlt : -((m₂ : ℝ) * 2 ^ e₂) < 0 := by linarith
          exact congrArg some ((cmp_eq_gt_iff _ _).mpr hlt).symm
      | positive => exact congrArg some ((cmp_eq_lt_iff _ _).mpr hpos).symm
  · have hpos := realOf_finite_pos e₁ h₁
    rcases y with _ | _ | t | ⟨t, m₂, e₂, h₂⟩
    · cases hy'
    · cases hy'
    · cases s with
      | negative =>
          have hlt : -((m₁ : ℝ) * 2 ^ e₁) < 0 := by linarith
          exact congrArg some ((cmp_eq_lt_iff _ _).mpr hlt).symm
      | positive => exact congrArg some ((cmp_eq_gt_iff _ _).mpr hpos).symm
    · have hpos₂ := realOf_finite_pos e₂ h₂
      obtain ⟨he₁, hm₁, hf₁⟩ := hx
      obtain ⟨he₂, hm₂, hf₂⟩ := hy
      have hcmp := compare_then_eq hm₁ hm₂ he₁ he₂ hf₁ hf₂
      cases s with
      | negative =>
          cases t with
          | negative =>
              have hswap : UnpackedFloat.compare (.finite .negative m₁ e₁ h₁)
                  (.finite .negative m₂ e₂ h₂) =
                  some ((compare e₁ e₂).then (compare m₁ m₂)).swap := rfl
              have hanti : StrictAnti (Neg.neg : ℝ → ℝ) := fun _ _ h => neg_lt_neg h
              rw [hswap, hcmp, cmp_swap]
              exact congrArg some (hanti.cmp_map_eq _ _).symm
          | positive =>
              have hlt : -((m₁ : ℝ) * 2 ^ e₁) < m₂ * 2 ^ e₂ := by linarith
              exact congrArg some ((cmp_eq_lt_iff _ _).mpr hlt).symm
      | positive =>
          cases t with
          | negative =>
              have hlt : -((m₂ : ℝ) * 2 ^ e₂) < m₁ * 2 ^ e₁ := by linarith
              exact congrArg some ((cmp_eq_gt_iff _ _).mpr hlt).symm
          | positive => exact congrArg some hcmp

theorem rankOf_of_isFinite {x : UnpackedFloat} (h : x.isFinite = true) :
    rankOf x = (realOf x : EReal) := by
  cases x with
  | infinity s => cases h
  | notANumber => cases h
  | zero s => rfl
  | finite s m e hm => rfl

theorem compare_infinity {s : Sign} {y : UnpackedFloat} (h : y.isFinite = true) :
    UnpackedFloat.compare (.infinity s) y = some (cmp (rankOf (.infinity s)) (rankOf y)) := by
  have hlow : (⊥ : EReal) < rankOf y := rankOf_of_isFinite h ▸ EReal.bot_lt_coe _
  have htop : rankOf y < (⊤ : EReal) := rankOf_of_isFinite h ▸ EReal.coe_lt_top _
  have hcompare : UnpackedFloat.compare (.infinity s) y =
      some (match s with | .negative => .lt | .positive => .gt) := by
    cases y with
    | infinity t => cases h
    | notANumber => cases h
    | zero t => cases s <;> rfl
    | finite t m e hm => cases s <;> rfl
  rw [hcompare]
  cases s with
  | negative => exact congrArg some ((cmp_eq_lt_iff _ _).mpr hlow).symm
  | positive => exact congrArg some ((cmp_eq_gt_iff _ _).mpr htop).symm

theorem isFinite_or_infinity {x : UnpackedFloat} (h : x.isNaN = false) :
    x.isFinite = true ∨ ∃ s, x = .infinity s := by
  cases x with
  | infinity s => exact Or.inr ⟨s, rfl⟩
  | notANumber => cases h
  | zero s => exact Or.inl rfl
  | finite s m e hm => exact Or.inl rfl

theorem compare_eq_cmp {x y : UnpackedFloat} (hx : Canonical x) (hy : Canonical y)
    (hx' : x.isNaN = false) (hy' : y.isNaN = false) :
    UnpackedFloat.compare x y = some (cmp (rankOf x) (rankOf y)) := by
  rcases isFinite_or_infinity hx' with hfx | ⟨s, rfl⟩
  · rcases isFinite_or_infinity hy' with hfy | ⟨t, rfl⟩
    · rw [rankOf_of_isFinite hfx, rankOf_of_isFinite hfy, EReal.coe_strictMono.cmp_map_eq]
      exact compare_eq_cmp_realOf hx hy hfx hfy
    · rw [compare_swap (.infinity t), compare_infinity hfx, Option.map_some, cmp_swap]
  · rcases isFinite_or_infinity hy' with hfy | ⟨t, rfl⟩
    · exact compare_infinity hfy
    · cases s <;> cases t <;> simp [UnpackedFloat.compare, rankOf] <;> rfl

/-! ### Comparison of doubles -/

section Floats

variable {x y : Float}

/-- The real number that a double stands for, zero if it stands for none. -/
noncomputable def real (x : Float) : ℝ := realOf x.toModel.unpack

/-- The real number or the infinity that a double stands for. -/
noncomputable def rank (x : Float) : EReal := rankOf x.toModel.unpack

theorem rank_of_isFinite (h : x.isFinite = true) : rank x = (real x : EReal) :=
  rankOf_of_isFinite h

theorem compare_toModel (hx : x.isNaN = false) (hy : y.isNaN = false) :
    UnpackedFloat.compare x.toModel.unpack y.toModel.unpack = some (cmp (rank x) (rank y)) :=
  compare_eq_cmp (canonical_unpack _).1 (canonical_unpack _).1 hx hy

/-- A number is at most another exactly if its rank is. -/
theorem le_iff (hx : x.isNaN = false) (hy : y.isNaN = false) : x ≤ y ↔ rank x ≤ rank y := by
  have hle : x ≤ y ↔ UnpackedFloat.le x.toModel.unpack y.toModel.unpack = true :=
    ⟨of_decide_eq_true, decide_eq_true⟩
  rw [hle]
  unfold UnpackedFloat.le
  rw [compare_toModel hx hy, Option.any_some, Ordering.isLE_iff_ne_gt, cmp_eq_gt_iff,
    not_lt]

/-- A number is less than another exactly if its rank is. -/
theorem lt_iff (hx : x.isNaN = false) (hy : y.isNaN = false) : x < y ↔ rank x < rank y := by
  have hlt : x < y ↔ UnpackedFloat.lt x.toModel.unpack y.toModel.unpack = true :=
    ⟨of_decide_eq_true, decide_eq_true⟩
  rw [hlt]
  unfold UnpackedFloat.lt
  rw [compare_toModel hx hy, beq_iff_eq, Option.some_inj, cmp_eq_lt_iff]

theorem scalar_eq_self (hx : x.isNaN = false) : Scalar.eq x x = true := by
  show (x == x) = true
  rw [beq_self_eq, hx]
  rfl

theorem scalar_le_iff (hx : x.isNaN = false) (hy : y.isNaN = false) :
    Scalar.le x y = true ↔ rank x ≤ rank y :=
  decide_eq_true_iff.trans (le_iff hx hy)

theorem scalar_lt_iff (hx : x.isNaN = false) (hy : y.isNaN = false) :
    Scalar.lt x y = true ↔ rank x < rank y :=
  decide_eq_true_iff.trans (lt_iff hx hy)

/-! ### The greater and the smaller of two doubles -/

theorem max_of_isNaN (hx : x.isNaN = true) : Scalar.max x y = y := by
  unfold Scalar.max
  have hself : Scalar.eq x x = false := by
    show (x == x) = false
    rw [beq_self_eq, hx]
    rfl
  rw [hself]
  rfl

theorem max_of_isNumber (hx : x.isNaN = false) (hy : y.isNaN = false) :
    rank x ≤ rank y ∧ Scalar.max x y = y ∨ rank y < rank x ∧ Scalar.max x y = x := by
  unfold Scalar.max
  rw [scalar_eq_self hx, Bool.not_true, Bool.false_or]
  by_cases hle : rank x ≤ rank y
  · exact Or.inl ⟨hle, if_pos ((scalar_le_iff hx hy).mpr hle)⟩
  · exact Or.inr ⟨not_le.mp hle, if_neg fun h => hle ((scalar_le_iff hx hy).mp h)⟩

theorem min_of_isNumber (hx : x.isNaN = false) (hy : y.isNaN = false) :
    rank y ≤ rank x ∧ Scalar.min x y = y ∨ rank x < rank y ∧ Scalar.min x y = x := by
  unfold Scalar.min
  rw [scalar_eq_self hx, Bool.not_true, Bool.false_or]
  by_cases hle : rank y ≤ rank x
  · exact Or.inl ⟨hle, if_pos ((scalar_le_iff hy hx).mpr hle)⟩
  · exact Or.inr ⟨not_le.mp hle, if_neg fun h => hle ((scalar_le_iff hy hx).mp h)⟩

end Floats

end NodeLink.Double
