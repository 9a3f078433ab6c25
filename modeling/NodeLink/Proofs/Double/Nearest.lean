import NodeLink.Proofs.Double.Order
import NodeLink.Proofs.Double.Rounding

/-! # Rounding unpacked doubles

The arithmetic on unpacked doubles keeps a mantissa with two more bits: whether the next bit of the
exact result is set, and whether any bit after it is.  Shifting such a mantissa keeps what it says
about the exact result (`Represents.shift`), so that rounding it at the end rounds the exact result
(`roundWithAccuracy_spec`, `normalize_spec`).  Packing then leaves what it gives as it is, or makes
it an infinity (`rankOf_pack`). -/

namespace NodeLink.Double

open Float.Model
open Float.Model.UnpackedFloat

/-! ### Mantissas with two more bits -/

/-- What the two bits after a mantissa say about the exact value. -/
def Represents (em : ExtendedMantissa) (x : ℝ) : Prop :=
  match em.roundBit, em.stickyBit with
  | false, false => x = em.mantissa
  | false, true => em.mantissa < x ∧ x < em.mantissa + 1 / (2 : ℕ)
  | true, false => x = em.mantissa + 1 / (2 : ℕ)
  | true, true => em.mantissa + 1 / (2 : ℕ) < x ∧ x < em.mantissa + 1

namespace Represents

theorem bounds {em : ExtendedMantissa} {x : ℝ} (h : Represents em x) :
    (em.mantissa : ℝ) ≤ x ∧ x < em.mantissa + 1 := by
  rcases em with ⟨m, _ | _, _ | _⟩ <;> simp only [Represents, Nat.cast_ofNat] at h ⊢
  · constructor <;> linarith
  · constructor <;> linarith
  · constructor <;> linarith
  · constructor <;> linarith

theorem shiftRightOne {em : ExtendedMantissa} {x : ℝ} (h : Represents em x) :
    Represents em.shiftRightOne (x / 2) := by
  rcases em with ⟨m, round, sticky⟩
  obtain ⟨q, rfl | rfl⟩ : ∃ q, m = 2 * q ∨ m = 2 * q + 1 := ⟨m / 2, by omega⟩
  · have hdiv : 2 * q / 2 = q := by omega
    have hmod : 2 * q % 2 = 0 := by omega
    cases round <;> cases sticky <;>
      simp only [Represents, ExtendedMantissa.shiftRightOne, hdiv, hmod, bne_self_eq_false,
        Bool.or_self, Bool.or_true, Bool.or_false, Nat.cast_mul, Nat.cast_ofNat] at h ⊢
    · linarith
    · constructor <;> linarith
    · constructor <;> linarith
    · constructor <;> linarith
  · have hdiv : (2 * q + 1) / 2 = q := by omega
    have hmod : ((2 * q + 1) % 2 != 0) = true := by simp
    cases round <;> cases sticky <;>
      simp only [Represents, ExtendedMantissa.shiftRightOne, hdiv, hmod, Bool.or_self,
        Bool.or_true, Bool.or_false, Nat.cast_mul, Nat.cast_ofNat, Nat.cast_add,
        Nat.cast_one] at h ⊢
    · linarith
    · constructor <;> linarith
    · constructor <;> linarith
    · constructor <;> linarith

theorem shift {em : ExtendedMantissa} {x : ℝ} (h : Represents em x) (n : ℕ) :
    Represents (em >>> n) (x / 2 ^ n) := by
  induction n with
  | zero =>
      rw [pow_zero, div_one]
      exact h
  | succ n ih =>
      rw [pow_succ, ← div_div]
      exact ih.shiftRightOne

/-- The mantissa that the two bits round to is the nearest one. -/
theorem roundedMantissa {em : ExtendedMantissa} {x : ℝ} (h : Represents em x) :
    (em.roundedMantissa : ℤ) = nearestEven x := by
  have hfloor : ⌊x⌋ = em.mantissa := by
    rw [Int.floor_eq_iff]
    exact_mod_cast h.bounds
  have hfract : Int.fract x = x - em.mantissa := by
    unfold Int.fract
    rw [hfloor]
    norm_cast
  rw [nearestEven_eq, hfloor, hfract]
  rcases em with ⟨m, _ | _, _ | _⟩ <;> simp only [Represents, Nat.cast_ofNat] at h
  · rw [if_pos (by linarith)]
    rfl
  · rw [if_pos (by linarith)]
    rfl
  · rw [if_neg (by linarith), if_neg (by linarith)]
    rfl
  · rw [if_neg (by linarith), if_pos (by linarith)]
    rfl

end Represents

/-! ### Rounding -/

theorem targetExponent_eq (t : ℤ) :
    Format.binary64.targetExponent t = max (t - 53) (-1074) := rfl

/-- The exponent that a mantissa is shifted to is that with which its exact value is rounded. -/
theorem scaleOf_eq_targetExponent {m : ℕ} {e : ℤ} {r : ℝ} (hr : 0 < r)
    (hlow : (m : ℝ) ≤ r / 2 ^ e) (hhigh : r / 2 ^ e < m + 1)
    (he : e ≤ Format.binary64.targetExponent (totalExponent m e)) :
    scaleOf r = Format.binary64.targetExponent (totalExponent m e) := by
  rw [targetExponent_eq] at he ⊢
  unfold totalExponent at he ⊢
  rw [le_div_iff₀ (by positivity)] at hlow
  rw [div_lt_iff₀ (by positivity)] at hhigh
  apply scaleOf_eq (le_max_right _ _) _ _ hr
  · have hbits : (m : ℝ) + 1 ≤ 2 ^ (m.log2 + 1) := by exact_mod_cast Nat.lt_log2_self
    calc r < (m + 1) * 2 ^ e := hhigh
      _ ≤ 2 ^ (m.log2 + 1) * 2 ^ e := by gcongr
      _ = 2 ^ ((m.log2 : ℤ) + 1 + e) := by
          rw [zpow_add₀ (by norm_num)]
          norm_cast
      _ ≤ 2 ^ (max ((m.log2 : ℤ) + 1 + e - 53) (-1074) + 53) :=
          zpow_le_zpow_right₀ (by norm_num) (by omega)
  · rcases Nat.eq_zero_or_pos m with rfl | hm
    · left
      simp only [Nat.log2_zero] at he ⊢
      omega
    · by_cases hleast : max ((m.log2 : ℤ) + 1 + e - 53) (-1074) = -1074
      · exact Or.inl hleast
      · right
        have hbits : (2 : ℝ) ^ m.log2 ≤ m := by exact_mod_cast Nat.log2_self_le hm.ne'
        calc (2 : ℝ) ^ (max ((m.log2 : ℤ) + 1 + e - 53) (-1074) + 52)
            = 2 ^ ((m.log2 : ℤ) + e) := by
              congr 1
              omega
          _ = 2 ^ m.log2 * 2 ^ e := by
              rw [zpow_add₀ (by norm_num)]
              norm_cast
          _ ≤ m * 2 ^ e := by gcongr
          _ ≤ r := hlow

theorem shiftToTargetExponent_of_lt {k : ℕ} {e : ℤ} (hk : k < 2 ^ 53) (he : -1074 ≤ e) :
    shiftToTargetExponent Format.binary64 k e .exact = (⟨k, false, false⟩, e) := by
  have hlog : k.log2 < 53 := by
    rcases Nat.eq_zero_or_pos k with rfl | hpos
    · decide
    · exact (Nat.log2_lt hpos.ne').mpr hk
  have hshift : (Format.binary64.targetExponent (totalExponent k e) - e).toNat = 0 := by
    rw [targetExponent_eq]
    unfold totalExponent
    omega
  unfold shiftToTargetExponent shiftToExponent
  simp only [hshift, Nat.cast_zero, add_zero]
  rfl

/-- A mantissa that rounding made a bit longer is shifted by that bit. -/
theorem shiftToTargetExponent_two_pow {e : ℤ} (he : -1074 ≤ e) :
    shiftToTargetExponent Format.binary64 (2 ^ 53) e .exact =
      (⟨2 ^ 52, false, false⟩, e + 1) := by
  have hshift : (Format.binary64.targetExponent (totalExponent (2 ^ 53) e) - e).toNat = 1 := by
    rw [targetExponent_eq]
    unfold totalExponent
    rw [Nat.log2_two_pow]
    omega
  unfold shiftToTargetExponent shiftToExponent
  simp only [hshift]
  rfl

/-- The unpacked double of a rounded mantissa, which may have become a bit longer. -/
def ofRounded (s : Sign) (k : ℕ) (e : ℤ) : UnpackedFloat :=
  if h : k = 0 then .zero s
  else if k < 2 ^ 53 then .finite s k e (Nat.pos_of_ne_zero h)
  else .finite s (2 ^ 52) (e + 1) (by norm_num)

theorem roundWithAccuracy_eq_ofRounded (s : Sign) {m : ℕ} {e t : ℤ} {acc : Accuracy}
    {em : ExtendedMantissa} (hfirst : shiftToTargetExponent Format.binary64 m e acc = (em, t))
    (hupper : em.roundedMantissa ≤ 2 ^ 53) (ht : -1074 ≤ t) :
    roundWithAccuracy Format.binary64 s m e acc = ofRounded s em.roundedMantissa t := by
  unfold roundWithAccuracy ofRounded
  rw [hfirst]
  rcases hupper.lt_or_eq with hlt | heq
  · simp only [shiftToTargetExponent_of_lt hlt ht, hlt, if_true]
  · have hsecond := shiftToTargetExponent_two_pow ht
    rw [← heq] at hsecond
    have hne : em.roundedMantissa ≠ 0 := by omega
    have hnot : ¬ em.roundedMantissa < 2 ^ 53 := by omega
    simp only [hsecond, hne, hnot, if_false, dite_false]
    rfl

theorem ofRounded_spec (s : Sign) {k : ℕ} {e : ℤ} (hk : k ≤ 2 ^ 53) (he : -1074 ≤ e)
    (hlower : e = -1074 ∨ 2 ^ 52 ≤ k) :
    Canonical (ofRounded s k e) ∧ (ofRounded s k e).isFinite = true ∧
      realOf (ofRounded s k e) = signed s (k * 2 ^ e) := by
  unfold ofRounded
  by_cases hzero : k = 0
  · rw [dif_pos hzero, hzero]
    refine ⟨trivial, rfl, ?_⟩
    cases s <;> simp [realOf, signed]
  · rw [dif_neg hzero]
    rcases hk.lt_or_eq with hlt | rfl
    · rw [if_pos hlt]
      exact ⟨⟨he, hlt, hlower⟩, rfl, rfl⟩
    · rw [if_neg (lt_irrefl _)]
      refine ⟨⟨by omega, by norm_num, Or.inr (by norm_num)⟩, rfl, ?_⟩
      have hdouble : ((2 ^ 52 : ℕ) : ℝ) * 2 ^ (e + 1) = ((2 ^ 53 : ℕ) : ℝ) * 2 ^ e := by
        rw [zpow_add_one₀ (by norm_num)]
        push_cast
        ring
      rw [← hdouble]
      rfl

/-- Rounding a mantissa with what is known of the exact value rounds that value. -/
theorem roundWithAccuracy_spec (s : Sign) {m : ℕ} {e : ℤ} {acc : Accuracy} {r : ℝ} (hr : 0 < r)
    (h : Represents (ExtendedMantissa.ofMantissaAndAccuracy m acc) (r / 2 ^ e))
    (he : e ≤ Format.binary64.targetExponent (totalExponent m e)) :
    Canonical (roundWithAccuracy Format.binary64 s m e acc) ∧
      (roundWithAccuracy Format.binary64 s m e acc).isFinite = true ∧
      realOf (roundWithAccuracy Format.binary64 s m e acc) = signed s (roundMagnitude r) := by
  have hmantissa : (ExtendedMantissa.ofMantissaAndAccuracy m acc).mantissa = m := by
    rcases acc with _ | _ | _ | _ <;> rfl
  have hbounds := h.bounds
  rw [hmantissa] at hbounds
  have hscale := scaleOf_eq_targetExponent hr hbounds.1 hbounds.2 he
  set t := Format.binary64.targetExponent (totalExponent m e) with ht
  have hleast : -1074 ≤ t := hscale ▸ scaleOf_ge r
  have hexponent : e + ((t - e).toNat : ℤ) = t := by omega
  -- after the first shift the mantissa stands for the exact value in units of its scale
  set em := ExtendedMantissa.ofMantissaAndAccuracy m acc >>> (t - e).toNat with hem
  have hfirst : shiftToTargetExponent Format.binary64 m e acc = (em, t) := by
    unfold shiftToTargetExponent shiftToExponent
    simp only [← ht, hexponent]
    rfl
  have hrepresents : Represents em (r / 2 ^ t) := by
    have hshift := h.shift (t - e).toNat
    rw [div_div, ← zpow_natCast, ← zpow_add₀ (by norm_num), hexponent] at hshift
    exact hshift
  have hrounded := hrepresents.roundedMantissa
  have hvalue : roundMagnitude r = em.roundedMantissa * 2 ^ t := by
    rw [roundMagnitude_eq, hscale, ← hrounded]
    norm_cast
  have hupper : em.roundedMantissa ≤ 2 ^ 53 := by
    have hlt : r < 2 ^ (t + 53) := hscale ▸ lt_two_zpow_scaleOf
    have hle : r / 2 ^ t ≤ ((2 ^ 53 : ℤ) : ℝ) := by
      rw [div_le_iff₀ (by positivity)]
      rw [zpow_add₀ (by norm_num)] at hlt
      push_cast
      linarith
    have hnearest := nearestEven_mono hle
    rw [nearestEven_intCast, ← hrounded] at hnearest
    exact_mod_cast hnearest
  have hlower : t = -1074 ∨ 2 ^ 52 ≤ em.roundedMantissa := by
    rcases hscale ▸ two_zpow_scaleOf_le hr with heq | hbits
    · exact Or.inl heq
    · right
      have hle : ((2 ^ 52 : ℤ) : ℝ) ≤ r / 2 ^ t := by
        rw [le_div_iff₀ (by positivity)]
        rw [zpow_add₀ (by norm_num)] at hbits
        push_cast
        linarith
      have hnearest := nearestEven_mono hle
      rw [nearestEven_intCast, ← hrounded] at hnearest
      exact_mod_cast hnearest
  rw [roundWithAccuracy_eq_ofRounded s hfirst hupper hleast, hvalue]
  exact ofRounded_spec s hupper hleast hlower

theorem represents_exact (m : ℕ) (e : ℤ) :
    Represents (ExtendedMantissa.ofMantissaAndAccuracy m .exact) ((m * 2 ^ e : ℝ) / 2 ^ e) :=
  mul_div_cancel_right₀ _ (by positivity)

theorem log2_shiftLeft {m : ℕ} (hm : 0 < m) (n : ℕ) : (m <<< n).log2 = m.log2 + n := by
  have hpos : 0 < 2 ^ n := by positivity
  rw [Nat.shiftLeft_eq, Nat.log2_eq_iff (by positivity), pow_add, pow_add, pow_add]
  constructor
  · exact Nat.mul_le_mul_right _ (Nat.log2_self_le hm.ne')
  · have := Nat.mul_lt_mul_of_pos_right (Nat.lt_log2_self (n := m)) hpos
    rw [pow_succ] at this
    linarith

theorem round_spec (s : Sign) {m : ℕ} (e : ℤ) (hm : 0 < m) :
    Canonical (UnpackedFloat.round Format.binary64 s m e) ∧
      (UnpackedFloat.round Format.binary64 s m e).isFinite = true ∧
      realOf (UnpackedFloat.round Format.binary64 s m e) =
        signed s (roundMagnitude (m * 2 ^ e)) := by
  set t := Format.binary64.targetExponent (totalExponent m e) with ht
  set n := (e - t).toNat with hn
  have htotal : totalExponent (m <<< n) (e - n) = totalExponent m e := by
    unfold totalExponent
    rw [log2_shiftLeft hm]
    push_cast
    ring
  have hvalue : ((m <<< n : ℕ) : ℝ) * 2 ^ (e - n : ℤ) = m * 2 ^ e := by
    rw [Nat.shiftLeft_eq, zpow_sub₀ (by norm_num), zpow_natCast]
    push_cast
    field_simp
  have hspec := roundWithAccuracy_spec s (r := m * 2 ^ e) (by positivity)
    (hvalue ▸ represents_exact (m <<< n) (e - n)) (by rw [htotal, ← ht]; omega)
  exact hspec

/-- Normalising a whole multiple of a power of two rounds it. -/
theorem normalize_spec (m : ℤ) (e : ℤ) (s : Sign) :
    Canonical (UnpackedFloat.normalize Format.binary64 m e s) ∧
      (UnpackedFloat.normalize Format.binary64 m e s).isFinite = true ∧
      realOf (UnpackedFloat.normalize Format.binary64 m e s) = rounded (m * 2 ^ e) := by
  unfold UnpackedFloat.normalize
  rcases lt_trichotomy m 0 with hm | rfl | hm
  · rw [compare_lt_iff_lt.mpr hm]
    have hneg : (m : ℝ) * 2 ^ e < 0 :=
      mul_neg_of_neg_of_pos (by exact_mod_cast hm) (by positivity)
    have hcast : (((-m).toNat : ℕ) : ℝ) = -m := by
      have : (((-m).toNat : ℕ) : ℤ) = -m := by omega
      exact_mod_cast this
    obtain ⟨hcanonical, hfinite, hreal⟩ := round_spec .negative e (m := (-m).toNat) (by omega)
    refine ⟨hcanonical, hfinite, hreal.trans ?_⟩
    unfold rounded
    rw [if_pos hneg, hcast, neg_mul]
    rfl
  · rw [compare_eq_iff_eq.mpr rfl]
    exact ⟨trivial, rfl, by simp [realOf]⟩
  · rw [compare_gt_iff_gt.mpr hm]
    have hpos : 0 ≤ (m : ℝ) * 2 ^ e := mul_nonneg (by exact_mod_cast hm.le) (by positivity)
    have hcast : ((m.toNat : ℕ) : ℝ) = m := by
      have : ((m.toNat : ℕ) : ℤ) = m := by omega
      exact_mod_cast this
    obtain ⟨hcanonical, hfinite, hreal⟩ := round_spec .positive e (m := m.toNat) (by omega)
    refine ⟨hcanonical, hfinite, hreal.trans ?_⟩
    rw [rounded_of_nonneg hpos, hcast]
    rfl

/-! ### Packing -/

theorem unpack_packComponents_subnormal (s : Sign) {m : BitVec 52} (hm : 0 < m.toNat) :
    UnpackedFloat.unpack Format.binary64 (packComponents Format.binary64 s 0 m) =
      .finite s m.toNat (-1074) hm := by
  have hne : m ≠ 0#52 := fun h => by
    rw [h] at hm
    exact absurd hm (by decide)
  unfold UnpackedFloat.unpack
  simp only [unpackExponent_packComponents, unpackMantissa_packComponents,
    unpackSign_packComponents, Sign.ofBitVec_toBitVec]
  rw [if_neg (by decide), if_pos (show (0 : BitVec 11) = 0#11 from rfl), dif_neg hne]
  rfl

theorem unpack_packComponents_normal (s : Sign) {e : BitVec 11} {m : BitVec 52}
    (htop : e ≠ -1#11) (hbottom : e ≠ 0#11) (hm : 0 < (1#1 ++ m).toNat) :
    UnpackedFloat.unpack Format.binary64 (packComponents Format.binary64 s e m) =
      .finite s (1#1 ++ m).toNat ((e.toNat : ℤ) - 1075) hm := by
  unfold UnpackedFloat.unpack
  simp only [unpackExponent_packComponents, unpackMantissa_packComponents,
    unpackSign_packComponents, Sign.ofBitVec_toBitVec]
  rw [if_neg htop, if_neg hbottom]
  rfl

theorem unpack_pack {s : Sign} {m : ℕ} {e : ℤ} {hm : 0 < m} (h : Canonical (.finite s m e hm))
    (he : e ≤ 971) : (Float.Model.pack (.finite s m e hm)).unpack = .finite s m e hm := by
  obtain ⟨hleast, hbits, hfull⟩ := h
  show UnpackedFloat.unpack Format.binary64 (UnpackedFloat.pack Format.binary64 _) = _
  by_cases hshort : m < 2 ^ 52
  · obtain rfl : e = -1074 := hfull.resolve_right (by omega)
    obtain ⟨mantissa, rfl⟩ : ∃ mantissa : BitVec 52, mantissa.toNat = m :=
      ⟨BitVec.ofNat 52 m, Nat.mod_eq_of_lt hshort⟩
    rw [pack_subnormal, unpack_packComponents_subnormal]
  · obtain ⟨mantissa, rfl⟩ : ∃ mantissa : BitVec 52, (1#1 ++ mantissa).toNat = m := by
      have hlow : m - 2 ^ 52 < 2 ^ 52 := by omega
      refine ⟨BitVec.ofNat 52 (m - 2 ^ 52), ?_⟩
      rw [hidden_append, BitVec.toNat_ofNat, Nat.mod_eq_of_lt hlow]
      omega
    obtain ⟨exponent, rfl⟩ : ∃ exponent : BitVec 11, (exponent.toNat : ℤ) - 1075 = e := by
      have hlow : (e + 1075).toNat < 2 ^ 11 := by omega
      refine ⟨BitVec.ofNat 11 (e + 1075).toNat, ?_⟩
      rw [BitVec.toNat_ofNat, Nat.mod_eq_of_lt hlow]
      omega
    have htop : exponent ≠ -1#11 := fun h => by
      rw [h] at he
      exact absurd he (by decide)
    have hbottom : exponent ≠ 0#11 := fun h => by
      rw [h] at hleast
      exact absurd hleast (by decide)
    rw [pack_normal _ _ _ htop, unpack_packComponents_normal _ htop hbottom]

/-- A number with too great an exponent is packed as an infinity. -/
theorem unpack_pack_of_overflow {s : Sign} {m : ℕ} {e : ℤ} {hm : 0 < m} (he : 971 < e) :
    (Float.Model.pack (.finite s m e hm)).unpack = .infinity s := by
  have hpack : UnpackedFloat.pack Format.binary64 (.finite s m e hm) =
      UnpackedFloat.pack Format.binary64 (.infinity s) := by
    unfold UnpackedFloat.pack
    rw [if_pos]
    show 2 ^ 11 ≤ (e + 1023 + 52).toNat + 1
    omega
  show UnpackedFloat.unpack Format.binary64 (UnpackedFloat.pack Format.binary64 _) = _
  rw [hpack]
  cases s <;> rfl

end NodeLink.Double
