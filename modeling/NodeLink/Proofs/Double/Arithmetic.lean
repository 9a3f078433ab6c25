import NodeLink.Proofs.Double.Nearest

/-! # Arithmetic on doubles

Every operation on finite doubles gives the exact result, rounded; a result beyond the greatest
double becomes an infinity (`Gives`, with one lemma an operation). -/

namespace NodeLink.Double

open Float.Model
open Float.Model.UnpackedFloat

/-! ### Results beyond the greatest double -/

/-- The least power of two beyond the doubles. -/
noncomputable def overflow : ℝ := ((2 : ℕ) : ℝ) ^ (1024 : ℤ)

theorem overflow_eq : overflow = 2 ^ (1024 : ℤ) := rfl

theorem overflow_pos : 0 < overflow := by
  rw [overflow_eq]
  positivity

/-- A real number, or an infinity in the place of what is beyond the doubles. -/
noncomputable def saturated (r : ℝ) : EReal :=
  if r ≤ -overflow then ⊥ else if overflow ≤ r then ⊤ else (r : EReal)

theorem saturated_of_abs_lt {r : ℝ} (h : |r| < overflow) : saturated r = (r : EReal) := by
  obtain ⟨hlow, hhigh⟩ := abs_lt.mp h
  unfold saturated
  rw [if_neg (not_le.mpr hlow), if_neg (not_le.mpr hhigh)]

theorem saturated_mono : Monotone saturated := by
  intro r t h
  have hpos := overflow_pos
  unfold saturated
  split_ifs <;>
    first
      | exact bot_le
      | exact le_top
      | exact EReal.coe_le_coe_iff.mpr h
      | (exfalso; linarith)

theorem lt_overflow_iff {s : Sign} {m : ℕ} {e : ℤ} {hm : 0 < m}
    (h : Canonical (.finite s m e hm)) : (m : ℝ) * 2 ^ e < overflow ↔ e ≤ 971 := by
  obtain ⟨-, hbits, hfull⟩ := h
  rw [overflow_eq]
  constructor
  · intro hlt
    by_contra he
    have hlong : (2 : ℝ) ^ (52 : ℤ) ≤ m := by exact_mod_cast hfull.resolve_left (by omega)
    have hexp : (2 : ℝ) ^ (972 : ℤ) ≤ 2 ^ e := zpow_le_zpow_right₀ (by norm_num) (by omega)
    have hsplit : (2 : ℝ) ^ (1024 : ℤ) = 2 ^ (52 : ℤ) * 2 ^ (972 : ℤ) := by
      rw [← zpow_add₀ (by norm_num)]
      rfl
    have hle : (2 : ℝ) ^ (1024 : ℤ) ≤ m * 2 ^ e := hsplit ▸ by gcongr
    exact absurd hlt (not_lt.mpr hle)
  · intro he
    have hshort : (m : ℝ) < 2 ^ (53 : ℤ) := by exact_mod_cast hbits
    have hexp : (2 : ℝ) ^ e ≤ 2 ^ (971 : ℤ) := zpow_le_zpow_right₀ (by norm_num) he
    have hsplit : (2 : ℝ) ^ (1024 : ℤ) = 2 ^ (53 : ℤ) * 2 ^ (971 : ℤ) := by
      rw [← zpow_add₀ (by norm_num)]
      rfl
    calc (m : ℝ) * 2 ^ e < 2 ^ (53 : ℤ) * 2 ^ e := by gcongr
      _ ≤ 2 ^ (53 : ℤ) * 2 ^ (971 : ℤ) := by gcongr
      _ = 2 ^ (1024 : ℤ) := hsplit.symm

/-- What packing makes of a canonical number. -/
theorem rankOf_pack {y : UnpackedFloat} (hcanonical : Canonical y) (hfinite : y.isFinite = true) :
    (Float.Model.pack y).unpack.isNaN = false ∧
      rankOf (Float.Model.pack y).unpack = saturated (realOf y) := by
  have hoverflow := overflow_pos
  cases y with
  | infinity s => cases hfinite
  | notANumber => cases hfinite
  | zero s =>
      have hzero : |realOf (.zero s)| < overflow := by simpa [realOf] using hoverflow
      rw [unpack_pack_zero, saturated_of_abs_lt hzero]
      exact ⟨rfl, rfl⟩
  | finite s m e hm =>
      have hpos := realOf_finite_pos e hm
      by_cases he : e ≤ 971
      · have hsmall := (lt_overflow_iff hcanonical).mpr he
        have habs : |realOf (.finite s m e hm)| < overflow := by
          cases s with
          | negative => rwa [realOf, signed, abs_neg, abs_of_pos hpos]
          | positive => rwa [realOf, signed, abs_of_pos hpos]
        rw [unpack_pack hcanonical he, saturated_of_abs_lt habs]
        exact ⟨rfl, rfl⟩
      · have hgreat : overflow ≤ m * 2 ^ e :=
          not_lt.mp fun hlt => he ((lt_overflow_iff hcanonical).mp hlt)
        rw [unpack_pack_of_overflow (by omega)]
        refine ⟨rfl, ?_⟩
        unfold saturated
        cases s with
        | negative =>
            have hreal : realOf (.finite .negative m e hm) = -(m * 2 ^ e) := rfl
            rw [hreal, if_pos (by linarith)]
            rfl
        | positive =>
            have hreal : realOf (.finite .positive m e hm) = m * 2 ^ e := rfl
            rw [hreal, if_neg (by linarith), if_pos hgreat]
            rfl

/-! ### Unpacked operations -/

/-- An unpacked result is the exact one, rounded. -/
structure Nearest (y : UnpackedFloat) (r : ℝ) : Prop where
  canonical : Canonical y
  isFinite : y.isFinite = true
  realOf_eq : realOf y = rounded r

theorem nearest_zero (s : Sign) : Nearest (.zero s) 0 := ⟨trivial, rfl, by simp [realOf]⟩

theorem rounded_signed (s : Sign) {r : ℝ} (h : 0 ≤ r) :
    rounded (signed s r) = signed s (roundMagnitude r) := by
  cases s with
  | negative => exact (rounded_neg r).trans (congrArg Neg.neg (rounded_of_nonneg h))
  | positive => exact rounded_of_nonneg h

theorem nearest_self {y : UnpackedFloat} (hcanonical : Canonical y)
    (hfinite : y.isFinite = true) : Nearest y (realOf y) := by
  refine ⟨hcanonical, hfinite, ?_⟩
  cases y with
  | infinity s => cases hfinite
  | notANumber => cases hfinite
  | zero s => simp [realOf]
  | finite s m e hm =>
      obtain ⟨hleast, hbits, -⟩ := hcanonical
      have hpos := realOf_finite_pos e hm
      unfold realOf
      rw [rounded_signed s hpos.le, roundMagnitude_of_mantissa hbits hleast]

theorem nearest_normalize (m : ℤ) (e : ℤ) (s : Sign) :
    Nearest (UnpackedFloat.normalize Format.binary64 m e s) (m * 2 ^ e) :=
  let ⟨hcanonical, hfinite, hreal⟩ := normalize_spec m e s
  ⟨hcanonical, hfinite, hreal⟩

theorem signed_eq_apply (s : Sign) (m : ℕ) {e t : ℤ} (h : t ≤ e) :
    signed s (m * 2 ^ e) = (s.apply (m <<< (e - t).toNat : ℕ) : ℤ) * 2 ^ t := by
  have hexponent : e = ((e - t).toNat : ℤ) + t := by omega
  have hvalue : (m : ℝ) * 2 ^ e = ((m <<< (e - t).toNat : ℕ) : ℝ) * 2 ^ t := by
    rw [Nat.shiftLeft_eq]
    push_cast
    rw [mul_assoc, ← zpow_natCast, ← zpow_add₀ (by norm_num), ← hexponent]
  cases s with
  | negative =>
      show -((m : ℝ) * 2 ^ e) = ((-((m <<< (e - t).toNat : ℕ) : ℤ) : ℤ) : ℝ) * 2 ^ t
      rw [hvalue, Int.cast_neg, Int.cast_natCast, neg_mul]
  | positive =>
      show (m : ℝ) * 2 ^ e = (((m <<< (e - t).toNat : ℕ) : ℤ) : ℝ) * 2 ^ t
      rw [hvalue, Int.cast_natCast]

theorem realOf_neg (y : UnpackedFloat) : realOf y.neg = -realOf y := by
  cases y with
  | infinity s => simp [UnpackedFloat.neg, realOf]
  | notANumber => simp [UnpackedFloat.neg, realOf]
  | zero s => simp [UnpackedFloat.neg, realOf]
  | finite s m e hm =>
      cases s with
      | negative => exact (neg_neg _).symm
      | positive => rfl

theorem Nearest.neg {y : UnpackedFloat} {r : ℝ} (h : Nearest y r) : Nearest y.neg (-r) := by
  refine ⟨?_, ?_, ?_⟩
  · cases y <;> exact h.canonical
  · cases y <;> exact h.isFinite
  · rw [realOf_neg, h.realOf_eq, rounded_neg]

section Operations

variable {x y : UnpackedFloat} (hx : Canonical x) (hy : Canonical y) (hx' : x.isFinite = true)
  (hy' : y.isFinite = true)
include hx hy hx' hy'

theorem nearest_add : Nearest (UnpackedFloat.add Format.binary64 x y) (realOf x + realOf y) := by
  rcases x with _ | _ | s | ⟨s, m₁, e₁, h₁⟩
  · cases hx'
  · cases hx'
  · have hzero : realOf (.zero s) + realOf y = realOf y := zero_add _
    rw [hzero]
    rcases y with _ | _ | t | ⟨t, m₂, e₂, h₂⟩
    · cases hy'
    · cases hy'
    · cases s <;> cases t <;> exact nearest_zero _
    · exact nearest_self hy rfl
  · rcases y with _ | _ | t | ⟨t, m₂, e₂, h₂⟩
    · cases hy'
    · cases hy'
    · have hzero : realOf (.finite s m₁ e₁ h₁) + realOf (.zero t) = realOf (.finite s m₁ e₁ h₁) :=
        add_zero _
      rw [hzero]
      exact nearest_self hx rfl
    · have hnormal := nearest_normalize
        (s.apply (m₁ <<< (e₁ - min e₁ e₂).toNat : ℕ) + t.apply (m₂ <<< (e₂ - min e₁ e₂).toNat : ℕ))
        (min e₁ e₂) .positive
      rw [Int.cast_add, add_mul, ← signed_eq_apply s m₁ (min_le_left e₁ e₂),
        ← signed_eq_apply t m₂ (min_le_right e₁ e₂)] at hnormal
      exact hnormal

theorem nearest_sub : Nearest (UnpackedFloat.sub Format.binary64 x y) (realOf x - realOf y) := by
  rcases x with _ | _ | s | ⟨s, m₁, e₁, h₁⟩
  · cases hx'
  · cases hx'
  · have hzero : realOf (.zero s) - realOf y = -realOf y := zero_sub _
    rw [hzero]
    rcases y with _ | _ | t | ⟨t, m₂, e₂, h₂⟩
    · cases hy'
    · cases hy'
    · rw [show realOf (.zero t) = 0 from rfl, neg_zero]
      cases s <;> cases t <;> exact nearest_zero _
    · exact (nearest_self hy rfl).neg
  · rcases y with _ | _ | t | ⟨t, m₂, e₂, h₂⟩
    · cases hy'
    · cases hy'
    · have hzero : realOf (.finite s m₁ e₁ h₁) - realOf (.zero t) = realOf (.finite s m₁ e₁ h₁) :=
        sub_zero _
      rw [hzero]
      exact nearest_self hx rfl
    · have hnormal := nearest_normalize
        (s.apply (m₁ <<< (e₁ - min e₁ e₂).toNat : ℕ) - t.apply (m₂ <<< (e₂ - min e₁ e₂).toNat : ℕ))
        (min e₁ e₂) .positive
      rw [Int.cast_sub, sub_mul, ← signed_eq_apply s m₁ (min_le_left e₁ e₂),
        ← signed_eq_apply t m₂ (min_le_right e₁ e₂)] at hnormal
      exact hnormal

theorem nearest_mul : Nearest (UnpackedFloat.mul Format.binary64 x y) (realOf x * realOf y) := by
  rcases x with _ | _ | s | ⟨s, m₁, e₁, h₁⟩
  · cases hx'
  · cases hx'
  · rw [show realOf (.zero s) = 0 from rfl, zero_mul]
    rcases y with _ | _ | t | ⟨t, m₂, e₂, h₂⟩
    · cases hy'
    · cases hy'
    · exact nearest_zero _
    · exact nearest_zero _
  · rcases y with _ | _ | t | ⟨t, m₂, e₂, h₂⟩
    · cases hy'
    · cases hy'
    · rw [show realOf (.zero t) = 0 from rfl, mul_zero]
      exact nearest_zero _
    · obtain ⟨hleast₁, -, hfull₁⟩ := hx
      obtain ⟨hleast₂, -, hfull₂⟩ := hy
      have hproduct : realOf (.finite s m₁ e₁ h₁) * realOf (.finite t m₂ e₂ h₂) =
          signed (s * t) ((m₁ * m₂ : ℕ) * 2 ^ (e₁ + e₂)) := by
        have hmagnitude : ((m₁ * m₂ : ℕ) : ℝ) * 2 ^ (e₁ + e₂) =
            (m₁ * 2 ^ e₁) * (m₂ * 2 ^ e₂) := by
          rw [zpow_add₀ (by norm_num)]
          push_cast
          ring
        rw [hmagnitude]
        cases s <;> cases t
        · exact neg_mul_neg _ _
        · exact neg_mul _ _
        · exact mul_neg _ _
        · rfl
      have htarget : e₁ + e₂ ≤ Format.binary64.targetExponent
          (totalExponent (m₁ * m₂) (e₁ + e₂)) := by
        rw [targetExponent_eq]
        unfold totalExponent
        have hlong : ∀ {a b : ℕ}, 2 ^ 52 ≤ a → 0 < b → 52 ≤ (a * b).log2 := fun ha hb =>
          (Nat.le_log2 (by positivity)).mpr (ha.trans (Nat.le_mul_of_pos_right _ hb))
        by_cases hfull : 52 ≤ (m₁ * m₂).log2
        · omega
        · have hleast₁' : e₁ = -1074 := hfull₁.resolve_right fun h => hfull (hlong h h₂)
          have hleast₂' : e₂ = -1074 := hfull₂.resolve_right fun h =>
            hfull (Nat.mul_comm m₁ m₂ ▸ hlong h h₁)
          omega
      obtain ⟨hcanonical, hfinite, hreal⟩ := roundWithAccuracy_spec (s * t)
        (r := (m₁ * m₂ : ℕ) * 2 ^ (e₁ + e₂)) (by positivity) (represents_exact _ _) htarget
      refine ⟨hcanonical, hfinite, ?_⟩
      rw [hproduct, rounded_signed _ (by positivity)]
      exact hreal

end Operations

/-! ### Quotients and roots -/

theorem represents_quotient (a : ℕ) {b : ℕ} (hb : 0 < b) :
    Represents (ExtendedMantissa.ofMantissaAndAccuracy (a / b) (accuracyOfFraction (a % b) b))
      ((a : ℝ) / b) := by
  have hpos : (0 : ℝ) < b := by exact_mod_cast hb
  have hlt : ((a % b : ℕ) : ℝ) < b := by exact_mod_cast Nat.mod_lt a hb
  have hsplit : (a : ℝ) = b * (a / b : ℕ) + (a % b : ℕ) := by
    exact_mod_cast (Nat.div_add_mod a b).symm
  have hquotient : (a : ℝ) / b = (a / b : ℕ) + ((a % b : ℕ) : ℝ) / b := by
    rw [div_eq_iff hpos.ne', add_mul, div_mul_cancel₀ _ hpos.ne']
    linarith
  rw [hquotient]
  unfold accuracyOfFraction
  by_cases hzero : a % b = 0
  · rw [if_pos hzero, hzero]
    simp [ExtendedMantissa.ofMantissaAndAccuracy, Represents]
  · have hrest : (0 : ℝ) < ((a % b : ℕ) : ℝ) / b :=
      div_pos (by exact_mod_cast Nat.pos_of_ne_zero hzero) hpos
    have hone : ((a % b : ℕ) : ℝ) / b < 1 := (div_lt_one hpos).mpr hlt
    rw [if_neg hzero]
    rcases lt_trichotomy (2 * (a % b)) b with hcmp | hcmp | hcmp
    · have hhalf : ((a % b : ℕ) : ℝ) / b < 1 / 2 := by
        rw [div_lt_iff₀ hpos]
        have : (2 * (a % b : ℕ) : ℝ) < b := by exact_mod_cast hcmp
        linarith
      rw [compare_lt_iff_lt.mpr hcmp]
      simp only [ExtendedMantissa.ofMantissaAndAccuracy, Represents, Nat.cast_ofNat]
      constructor <;> linarith
    · have hhalf : ((a % b : ℕ) : ℝ) / b = 1 / 2 := by
        rw [div_eq_iff hpos.ne']
        have : (2 * (a % b : ℕ) : ℝ) = b := by exact_mod_cast hcmp
        linarith
      rw [compare_eq_iff_eq.mpr hcmp, hhalf]
      simp only [ExtendedMantissa.ofMantissaAndAccuracy, Represents, Nat.cast_ofNat]
    · have hhalf : 1 / 2 < ((a % b : ℕ) : ℝ) / b := by
        rw [lt_div_iff₀ hpos]
        have : (b : ℝ) < 2 * (a % b : ℕ) := by exact_mod_cast hcmp
        linarith
      rw [compare_gt_iff_gt.mpr hcmp]
      simp only [ExtendedMantissa.ofMantissaAndAccuracy, Represents, Nat.cast_ofNat]
      constructor <;> linarith

theorem represents_sqrt (a : ℕ) :
    Represents (ExtendedMantissa.ofMantissaAndAccuracy (Nat.sqrt a)
      (if a - Nat.sqrt a * Nat.sqrt a = 0 then .exact
        else .inexact (if a - Nat.sqrt a * Nat.sqrt a ≤ Nat.sqrt a then .lt else .gt)))
      (Real.sqrt a) := by
  have hle : Nat.sqrt a * Nat.sqrt a ≤ a := Nat.sqrt_le a
  have hlt : a < (Nat.sqrt a + 1) * (Nat.sqrt a + 1) := Nat.lt_succ_sqrt a
  generalize Nat.sqrt a = k at hle hlt
  obtain ⟨rest, rfl⟩ := Nat.exists_eq_add_of_le hle
  have hrest : k * k + rest - k * k = rest := by omega
  have hnonneg : (0 : ℝ) ≤ k := by positivity
  rw [hrest]
  push_cast
  by_cases hzero : rest = 0
  · rw [if_pos hzero, hzero]
    simp only [ExtendedMantissa.ofMantissaAndAccuracy, Represents, Nat.cast_zero, add_zero]
    exact Real.sqrt_mul_self hnonneg
  · have hpos : (1 : ℝ) ≤ rest := by exact_mod_cast Nat.pos_of_ne_zero hzero
    have hlow : (k : ℝ) < Real.sqrt (k * k + rest) := by
      apply Real.lt_sqrt_of_sq_lt
      nlinarith
    rw [if_neg hzero]
    by_cases hcmp : rest ≤ k
    · have hsmall : (rest : ℝ) ≤ k := by exact_mod_cast hcmp
      have hhalf : Real.sqrt (k * k + rest) < k + 1 / 2 := by
        rw [Real.sqrt_lt' (by linarith)]
        nlinarith
      rw [if_pos hcmp]
      exact ⟨hlow, hhalf⟩
    · have hgreat : (k : ℝ) + 1 ≤ rest := by exact_mod_cast Nat.lt_of_not_le hcmp
      have hhalf : (k : ℝ) + 1 / 2 < Real.sqrt (k * k + rest) := by
        apply Real.lt_sqrt_of_sq_lt
        nlinarith
      have hnext : Real.sqrt (k * k + rest) < k + 1 := by
        rw [Real.sqrt_lt' (by linarith)]
        have : ((k * k + rest : ℕ) : ℝ) < ((k + 1) * (k + 1) : ℕ) := by exact_mod_cast hlt
        push_cast at this
        nlinarith
      rw [if_neg hcmp]
      exact ⟨hhalf, hnext⟩

theorem targetExponent_mono {a b : ℤ} (h : a ≤ b) :
    Format.binary64.targetExponent a ≤ Format.binary64.targetExponent b := by
  rw [targetExponent_eq, targetExponent_eq]
  omega

/-- The quotient of mantissas has enough bits to be rounded. -/
theorem totalExponent_quotient {m₁ m₂ n : ℕ} {e₁ e₂ t : ℤ} (h₁ : 0 < m₁) (h₂ : 0 < m₂)
    (ht : t + n = e₁ - e₂) :
    totalExponent m₁ e₁ - totalExponent m₂ e₂ ≤ totalExponent ((m₁ <<< n) / m₂) t := by
  have hlog := log2_shiftLeft h₁ n
  have hlow : 2 ^ (m₁ <<< n).log2 ≤ m₁ <<< n :=
    Nat.log2_self_le (Nat.shiftLeft_pos_iff.mpr h₁).ne'
  have hhigh : m₂ < 2 ^ (m₂.log2 + 1) := Nat.lt_log2_self
  have hquotient : m₁ <<< n < 2 ^ (((m₁ <<< n) / m₂).log2 + 1) * m₂ :=
    (Nat.div_lt_iff_lt_mul h₂).mp Nat.lt_log2_self
  have hbits : (m₁ <<< n).log2 < ((m₁ <<< n) / m₂).log2 + 1 + (m₂.log2 + 1) := by
    apply (Nat.pow_lt_pow_iff_right (by norm_num : 1 < 2)).mp
    calc 2 ^ (m₁ <<< n).log2 ≤ m₁ <<< n := hlow
      _ < 2 ^ (((m₁ <<< n) / m₂).log2 + 1) * m₂ := hquotient
      _ ≤ 2 ^ (((m₁ <<< n) / m₂).log2 + 1) * 2 ^ (m₂.log2 + 1) :=
          Nat.mul_le_mul_left _ hhigh.le
      _ = 2 ^ (((m₁ <<< n) / m₂).log2 + 1 + (m₂.log2 + 1)) := (pow_add _ _ _).symm
  unfold totalExponent
  omega

theorem nearest_div {x y : UnpackedFloat} (hx' : x.isFinite = true) (hy' : y.isFinite = true)
    (hne : realOf y ≠ 0) :
    Nearest (UnpackedFloat.div Format.binary64 x y) (realOf x / realOf y) := by
  rcases y with _ | _ | t | ⟨t, m₂, e₂, h₂⟩
  · cases hy'
  · cases hy'
  · exact absurd rfl hne
  rcases x with _ | _ | s | ⟨s, m₁, e₁, h₁⟩
  · cases hx'
  · cases hx'
  · rw [show realOf (.zero s) = 0 from rfl, zero_div]
    exact nearest_zero _
  · set e := min (e₁ - e₂) (Format.binary64.targetExponent
      (totalExponent m₁ e₁ - totalExponent m₂ e₂)) with he
    set n := (e₁ - e₂ - e).toNat with hn
    have hshift : e + n = e₁ - e₂ := by omega
    have hpos₂ := realOf_finite_pos e₂ h₂
    have hquotient : realOf (.finite s m₁ e₁ h₁) / realOf (.finite t m₂ e₂ h₂) =
        signed (s / t) (m₁ * 2 ^ e₁ / (m₂ * 2 ^ e₂)) := by
      cases s <;> cases t
      · exact neg_div_neg_eq _ _
      · exact neg_div _ _
      · exact div_neg _
      · rfl
    have hvalue : ((m₁ * 2 ^ e₁ / (m₂ * 2 ^ e₂) : ℝ)) / 2 ^ e = ((m₁ <<< n : ℕ) : ℝ) / m₂ := by
      have hexponent : (2 : ℝ) ^ e₁ = 2 ^ n * (2 ^ e₂ * 2 ^ e) := by
        rw [← zpow_natCast, ← zpow_add₀ (by norm_num), ← zpow_add₀ (by norm_num)]
        congr 1
        omega
      rw [Nat.shiftLeft_eq, hexponent]
      push_cast
      field_simp
    have htarget : e ≤ Format.binary64.targetExponent (totalExponent ((m₁ <<< n) / m₂) e) :=
      (min_le_right _ _).trans (targetExponent_mono (totalExponent_quotient h₁ h₂ hshift))
    obtain ⟨hcanonical, hfinite, hreal⟩ := roundWithAccuracy_spec (s / t)
      (r := m₁ * 2 ^ e₁ / (m₂ * 2 ^ e₂)) (by positivity)
      (hvalue ▸ represents_quotient (m₁ <<< n) h₂) htarget
    refine ⟨hcanonical, hfinite, ?_⟩
    rw [hquotient, rounded_signed _ (by positivity)]
    exact hreal

theorem nearest_sqrt {x : UnpackedFloat} (hx' : x.isFinite = true) (hnonneg : 0 ≤ realOf x) :
    Nearest (UnpackedFloat.sqrt Format.binary64 x) (Real.sqrt (realOf x)) := by
  rcases x with _ | _ | s | ⟨_ | _, m, e, hm⟩
  · cases hx'
  · cases hx'
  · rw [show realOf (.zero s) = 0 from rfl, Real.sqrt_zero]
    exact nearest_zero _
  · have hpos := realOf_finite_pos e hm
    have hneg : realOf (.finite .negative m e hm) = -(m * 2 ^ e) := rfl
    linarith
  · set t := min (e.ediv 2) (Format.binary64.targetExponent ((totalExponent m e + 1).ediv 2))
      with ht
    set n := (e - 2 * t).toNat with hn
    have hle : t ≤ e.ediv 2 := min_le_left _ _
    have hhalf : 2 * (e.ediv 2) ≤ e := Int.mul_ediv_self_le (by norm_num)
    have hshift : 2 * t + n = e := by omega
    have hreal : realOf (.finite .positive m e hm) = m * 2 ^ e := rfl
    have hvalue : Real.sqrt (m * 2 ^ e) / 2 ^ t = Real.sqrt ((m <<< n : ℕ) : ℝ) := by
      have hexponent : (2 : ℝ) ^ e = 2 ^ n * (2 ^ t * 2 ^ t) := by
        rw [← zpow_natCast, ← zpow_add₀ (by norm_num), ← zpow_add₀ (by norm_num)]
        congr 1
        omega
      rw [Nat.shiftLeft_eq, hexponent, ← mul_assoc, Real.sqrt_mul (by positivity),
        Real.sqrt_mul_self (by positivity)]
      push_cast
      field_simp
    have hroot : 0 < Nat.sqrt (m <<< n) := Nat.sqrt_pos.mpr (Nat.shiftLeft_pos_iff.mpr hm)
    have htarget : t ≤ Format.binary64.targetExponent (totalExponent (Nat.sqrt (m <<< n)) t) := by
      have hlog := log2_shiftLeft hm n
      have hlow : 2 ^ (m <<< n).log2 ≤ m <<< n :=
        Nat.log2_self_le (Nat.shiftLeft_pos_iff.mpr hm).ne'
      have hbits : (m <<< n).log2 / 2 ≤ (Nat.sqrt (m <<< n)).log2 := by
        rw [Nat.le_log2 hroot.ne', Nat.le_sqrt, ← pow_add]
        exact (Nat.pow_le_pow_right (by norm_num) (by omega)).trans hlow
      have htotal : (totalExponent m e + 1).ediv 2 ≤ totalExponent (Nat.sqrt (m <<< n)) t := by
        unfold totalExponent
        show ((m.log2 : ℤ) + 1 + e + 1) / 2 ≤ _
        omega
      exact (min_le_right _ _).trans (targetExponent_mono htotal)
    obtain ⟨hcanonical, hfinite, hround⟩ := roundWithAccuracy_spec .positive
      (r := Real.sqrt (m * 2 ^ e)) (by positivity) (hvalue ▸ represents_sqrt (m <<< n)) htarget
    refine ⟨hcanonical, hfinite, ?_⟩
    rw [hreal, rounded_of_nonneg (Real.sqrt_nonneg _)]
    exact hround

end NodeLink.Double
