import NodeLink.Proofs.Double.Within

/-! # Whole doubles

A whole double is finite and stands for an integer (`IsWhole`).  Rounding an integer to a double
gives an integer (`exists_rounded_intCast`), so sums and differences of whole doubles are whole
unless they overflow.  `roundHalfAway` of any double is whole unless it is not finite
(`isWhole_roundHalfAway`), and leaves whole doubles where they are (`roundHalfAway_beq`).

The whole part of a double is read as a word and written back as a double; both are exact below
`2 ^ 53` (`toNat_toUInt64`, `real_toFloat`). -/

namespace NodeLink.Double

open Float.Model
open Float.Model.UnpackedFloat

/-! ### Comparison of finite doubles -/

section Comparison

variable {x y : Float}

theorem beq_iff (hx : x.isFinite = true) (hy : y.isFinite = true) :
    (x == y) = true ↔ real x = real y := by
  have hbeq : (x == y) = UnpackedFloat.beq x.toModel.unpack y.toModel.unpack := rfl
  rw [hbeq]
  unfold UnpackedFloat.beq
  rw [compare_toModel (isNaN_eq_false hx) (isNaN_eq_false hy), beq_iff_eq, Option.some_inj,
    cmp_eq_eq_iff, rank_of_isFinite hx, rank_of_isFinite hy, EReal.coe_eq_coe_iff]

theorem lt_iff_real (hx : x.isFinite = true) (hy : y.isFinite = true) :
    x < y ↔ real x < real y := by
  rw [lt_iff (isNaN_eq_false hx) (isNaN_eq_false hy), rank_of_isFinite hx, rank_of_isFinite hy,
    EReal.coe_lt_coe_iff]

theorem isFinite_of_beq (h : (x == y) = true) (hy : y.isFinite = true) : x.isFinite = true := by
  have hbeq : UnpackedFloat.beq x.toModel.unpack y.toModel.unpack = true := h
  have hy' : y.toModel.unpack.isFinite = true := hy
  show x.toModel.unpack.isFinite = true
  generalize x.toModel.unpack = x at hbeq ⊢
  generalize y.toModel.unpack = y at hbeq hy'
  cases x with
  | notANumber => cases hbeq
  | infinity s =>
    cases y with
    | infinity t => cases hy'
    | notANumber => cases hy'
    | zero t => cases s <;> cases hbeq
    | finite t m e hm => cases s <;> cases t <;> cases hbeq
  | zero s => rfl
  | finite s m e hm => rfl

theorem isFinite_of_pack {z : UnpackedFloat}
    (h : (Float.Model.pack z).unpack.isFinite = true) : z.isFinite = true := by
  cases z with
  | infinity s =>
    rw [unpack_pack_infinity] at h
    cases h
  | notANumber =>
    rw [unpack_pack_notANumber] at h
    cases h
  | zero s => rfl
  | finite s m e hm => rfl

theorem isFinite_of_add (h : (x + y).isFinite = true) :
    x.isFinite = true ∧ y.isFinite = true := by
  have hsum : (UnpackedFloat.add Format.binary64 x.toModel.unpack y.toModel.unpack).isFinite =
      true := isFinite_of_pack h
  show x.toModel.unpack.isFinite = true ∧ y.toModel.unpack.isFinite = true
  generalize x.toModel.unpack = x at hsum ⊢
  generalize y.toModel.unpack = y at hsum ⊢
  rcases x with ⟨_ | _⟩ | _ | _ | _ <;> rcases y with ⟨_ | _⟩ | _ | _ | _ <;>
    first | exact ⟨rfl, rfl⟩ | cases hsum

theorem isFinite_of_sub (h : (x - y).isFinite = true) :
    x.isFinite = true ∧ y.isFinite = true := by
  have hdifference : (UnpackedFloat.sub Format.binary64 x.toModel.unpack
      y.toModel.unpack).isFinite = true := isFinite_of_pack h
  show x.toModel.unpack.isFinite = true ∧ y.toModel.unpack.isFinite = true
  generalize x.toModel.unpack = x at hdifference ⊢
  generalize y.toModel.unpack = y at hdifference ⊢
  rcases x with ⟨_ | _⟩ | _ | _ | _ <;> rcases y with ⟨_ | _⟩ | _ | _ | _ <;>
    first | exact ⟨rfl, rfl⟩ | cases hdifference

end Comparison

/-! ### Rounded integers -/

/-- An integer is rounded to an integer. -/
theorem exists_rounded_intCast (n : ℤ) : ∃ k : ℤ, rounded (n : ℝ) = k := by
  have hnat : ∀ n : ℕ, ∃ k : ℤ, rounded (n : ℝ) = k := by
    intro n
    rw [rounded_of_nonneg (Nat.cast_nonneg n)]
    rcases le_or_gt 0 (scaleOf n) with hscale | hscale
    · -- the last place is a whole number
      obtain ⟨e, he⟩ := Int.eq_ofNat_of_zero_le hscale
      refine ⟨nearestEven ((n : ℝ) / 2 ^ scaleOf n) * 2 ^ e, ?_⟩
      rw [roundMagnitude_eq, he]
      push_cast
      rw [zpow_natCast]
    · -- the last place divides the number
      obtain ⟨e, he⟩ := Int.eq_ofNat_of_zero_le (neg_nonneg.mpr hscale.le)
      refine ⟨n, ?_⟩
      have hmultiple : (n : ℝ) = ((n * 2 ^ e : ℤ) : ℝ) * 2 ^ scaleOf n := by
        have hinverse : scaleOf n = -(e : ℤ) := by omega
        rw [hinverse, zpow_neg, zpow_natCast]
        push_cast
        field_simp
      rw [roundMagnitude_of_multiple hmultiple]
      rfl
  obtain ⟨m, rfl | rfl⟩ := n.eq_nat_or_neg
  · exact_mod_cast hnat m
  · obtain ⟨k, hk⟩ := hnat m
    refine ⟨-k, ?_⟩
    push_cast
    rw [rounded_neg, hk]

/-- A finite double that stands for an integer. -/
structure IsWhole (x : Float) : Prop where
  isFinite : x.isFinite = true
  integer : ∃ n : ℤ, real x = n

section Whole

variable {x y : Float}

theorem isWhole_add (hx : IsWhole x) (hy : IsWhole y) (h : (x + y).isFinite = true) :
    IsWhole (x + y) := by
  obtain ⟨m, hm⟩ := hx.integer
  obtain ⟨n, hn⟩ := hy.integer
  obtain ⟨k, hk⟩ := exists_rounded_intCast (m + n)
  refine ⟨h, k, ?_⟩
  rw [(gives_add hx.isFinite hy.isFinite).real_eq h, hm, hn, ← hk]
  push_cast
  rfl

theorem isWhole_neg (hx : IsWhole x) : IsWhole (-x) := by
  obtain ⟨n, hn⟩ := hx.integer
  refine ⟨isFinite_neg hx.isFinite, -n, ?_⟩
  rw [real_neg, hn]
  push_cast
  rfl

theorem isWhole_sub (hx : IsWhole x) (hy : IsWhole y) (h : (x - y).isFinite = true) :
    IsWhole (x - y) := by
  obtain ⟨m, hm⟩ := hx.integer
  obtain ⟨n, hn⟩ := hy.integer
  obtain ⟨k, hk⟩ := exists_rounded_intCast (m - n)
  refine ⟨h, k, ?_⟩
  rw [(gives_sub hx.isFinite hy.isFinite).real_eq h, hm, hn, ← hk]
  push_cast
  rfl

theorem IsWhole.of_beq (hy : IsWhole y) (h : (x == y) = true) : IsWhole x := by
  have hx := isFinite_of_beq h hy.isFinite
  obtain ⟨n, hn⟩ := hy.integer
  exact ⟨hx, n, ((beq_iff hx hy.isFinite).mp h).trans hn⟩

theorem isWhole_of_le (hx : x.isFinite = true) (hle : 2 ^ 52 ≤ |real x|) : IsWhole x := by
  obtain ⟨m, e, hm, -, -, hmantissa⟩ := exists_mantissa hx
  have he : 0 ≤ e := by
    by_contra hneg
    have hm' : (m : ℝ) < 2 ^ 53 := by exact_mod_cast hm
    have hhalf : (2 : ℝ) ^ e ≤ 2 ^ (-1 : ℤ) :=
      zpow_le_zpow_right₀ (by norm_num) (by omega)
    have hpos : (0 : ℝ) < 2 ^ e := by positivity
    have : (m : ℝ) * 2 ^ e < 2 ^ 53 * 2 ^ (-1 : ℤ) := by
      calc (m : ℝ) * 2 ^ e < 2 ^ 53 * 2 ^ e := by gcongr
        _ ≤ 2 ^ 53 * 2 ^ (-1 : ℤ) := by gcongr
    norm_num at this hle hmantissa
    linarith
  obtain ⟨k, rfl⟩ := Int.eq_ofNat_of_zero_le he
  have habs : |real x| = ((m * 2 ^ k : ℤ) : ℝ) := by
    rw [hmantissa]
    push_cast
    rw [zpow_natCast]
  rcases abs_eq_abs.mp (habs.trans (abs_of_nonneg (habs ▸ abs_nonneg _)).symm) with h | h
  · exact ⟨hx, _, h⟩
  · exact ⟨hx, -(m * 2 ^ k : ℤ), by rw [h]; push_cast; rfl⟩

end Whole

/-! ### Whole parts -/

/-- The whole part of a positive unpacked double. -/
theorem roundToInt_eq_floor (m : ℕ) (e : ℤ) :
    roundToInt .positive m e = ⌊(m : ℝ) * 2 ^ e⌋ := by
  set n := (e - 0).toNat with hn
  set k := (0 - (e - n)).toNat with hk
  have hmantissa : roundToInt .positive m e =
      ((ExtendedMantissa.ofMantissaAndAccuracy (m <<< n) .exact >>> k).mantissa : ℤ) := rfl
  have hexact := (represents_exact (m <<< n) 0).shift k
  have hvalue : (((m <<< n : ℕ) : ℝ) * 2 ^ (0 : ℤ) / 2 ^ (0 : ℤ)) / 2 ^ k = m * 2 ^ e := by
    have he : e = n - k := by omega
    rw [Nat.shiftLeft_eq, he, zpow_sub₀ (by norm_num), zpow_natCast, zpow_natCast]
    push_cast
    field_simp
  rw [hvalue] at hexact
  rw [hmantissa]
  symm
  rw [Int.floor_eq_iff]
  exact_mod_cast hexact.bounds

/-- The whole part of a double that fits a word. -/
theorem toNat_toUInt64 {x : Float} (hx : x.isFinite = true) (hnonneg : 0 ≤ real x)
    (hlt : real x < 2 ^ 53) : (x.toUInt64.toNat : ℤ) = ⌊real x⌋ := by
  have hword : x.toUInt64 =
      UInt64.ofNatClamp (x.toModel.unpack.toInt 0 (UInt64.size - 1)).toNat := rfl
  have hinteger : x.toModel.unpack.toInt 0 (UInt64.size - 1) = ⌊real x⌋ := by
    have hx' : x.toModel.unpack.isFinite = true := hx
    unfold real at hnonneg ⊢
    cases hunpack : x.toModel.unpack with
    | infinity s => rw [hunpack] at hx'; cases hx'
    | notANumber => rw [hunpack] at hx'; cases hx'
    | zero s => simp [UnpackedFloat.toInt, realOf]
    | finite s m e hm =>
      rw [hunpack] at hnonneg
      have hpos := realOf_finite_pos e hm
      cases s with
      | negative =>
        simp only [realOf, signed] at hnonneg
        linarith
      | positive => exact roundToInt_eq_floor m e
  have hfloor : 0 ≤ ⌊real x⌋ := Int.floor_nonneg.mpr hnonneg
  have hsmall : ⌊real x⌋ < 2 ^ 53 := Int.floor_lt.mpr (by exact_mod_cast hlt)
  have hsize : ⌊real x⌋.toNat < UInt64.size := by
    have : UInt64.size = 18446744073709551616 := rfl
    omega
  rw [hword, hinteger, UInt64.ofNatClamp_eq_ofNat _ hsize, UInt64.toNat_ofNat_of_lt' hsize]
  exact Int.toNat_of_nonneg hfloor

/-- A word of at most fifty-three bits is exact as a double. -/
theorem real_toFloat {n : UInt64} (h : n.toNat < 2 ^ 53) :
    n.toFloat.isFinite = true ∧ real n.toFloat = n.toNat := by
  have hnearest := nearest_normalize (n.toNat : ℤ) 0 .positive
  have hgives : Gives n.toFloat (((n.toNat : ℤ) : ℝ) * 2 ^ (0 : ℤ)) := hnearest.gives rfl
  rw [zpow_zero, mul_one, Int.cast_natCast] at hgives
  have hround := rounded_natCast h
  have hmax : (n.toNat : ℝ) < overflow := by
    have hlt : (n.toNat : ℝ) < 2 ^ (53 : ℤ) := by exact_mod_cast h
    exact hlt.trans (zpow_lt_zpow_right₀ (by norm_num) (by norm_num))
  have hfinite := hgives.isFinite (by rwa [hround, abs_of_nonneg (Nat.cast_nonneg _)])
  exact ⟨hfinite, (hgives.real_eq hfinite).trans hround⟩

theorem real_toUInt64_toFloat {x : Float} (hx : x.isFinite = true) (hnonneg : 0 ≤ real x)
    (hlt : real x < 2 ^ 53) :
    x.toUInt64.toFloat.isFinite = true ∧ real x.toUInt64.toFloat = ⌊real x⌋ := by
  have hword := toNat_toUInt64 hx hnonneg hlt
  have hsmall : ⌊real x⌋ < 2 ^ 53 := Int.floor_lt.mpr (by exact_mod_cast hlt)
  obtain ⟨hfinite, hreal⟩ := real_toFloat (n := x.toUInt64) (by omega)
  exact ⟨hfinite, by rw [hreal, ← hword, Int.cast_natCast]⟩

/-! ### Signs of bits -/

theorem sign_of_unpack {b : BitVec 64} {s : Sign} {m : ℕ} {e : ℤ} {hm : 0 < m}
    (h : UnpackedFloat.unpack Format.binary64 b = .finite s m e hm) :
    s = Sign.ofBitVec (@unpackSign Format.binary64 b) := by
  unfold UnpackedFloat.unpack at h
  dsimp only at h
  split_ifs at h <;> cases h <;> rfl

theorem shift_eq_zero_iff (b : BitVec 64) :
    b >>> 63 = 0 ↔ @unpackSign Format.binary64 b = 0#1 := by
  have hsign : (@unpackSign Format.binary64 b).toNat = b.toNat >>> 63 % 2 := rfl
  have hlt : b.toNat < 2 ^ 64 := b.isLt
  rw [BitVec.toNat_eq, BitVec.toNat_eq, hsign, BitVec.toNat_ushiftRight,
    Nat.shiftRight_eq_div_pow]
  show b.toNat / 2 ^ 63 = 0 ↔ b.toNat / 2 ^ 63 % 2 = 0
  omega

theorem toBits_shift_eq_zero_iff {x : Float} (hx : x.isFinite = true) (hne : real x ≠ 0) :
    x.toBits >>> 63 = 0 ↔ 0 < real x := by
  have hx' : x.toModel.unpack.isFinite = true := hx
  have hbits : x.toBits >>> 63 = 0 ↔ x.toModel.toBits.toBitVec >>> 63 = 0 :=
    UInt64.toBitVec_inj.symm
  rw [hbits, shift_eq_zero_iff]
  unfold real at hne ⊢
  cases hunpack : x.toModel.unpack with
  | infinity s => rw [hunpack] at hx'; cases hx'
  | notANumber => rw [hunpack] at hx'; cases hx'
  | zero s =>
    rw [hunpack] at hne
    exact absurd rfl hne
  | finite s m e hm =>
    have hsign := sign_of_unpack hunpack
    have hpos := realOf_finite_pos e hm
    rw [Sign.ofBitVec] at hsign
    split_ifs at hsign with hzero
    · subst hsign
      exact iff_of_true hzero hpos
    · subst hsign
      refine iff_of_false hzero ?_
      simp only [realOf, signed]
      linarith

/-! ### Rounding to whole doubles -/

section Round

variable {x y : Float}

/-- The bound below which a double may have a fraction. -/
theorem lt_wholeBound_iff (hx : x.isFinite = true) :
    x.abs < 4503599627370496 ↔ |real x| < 2 ^ 52 := by
  obtain ⟨hfinite, hreal⟩ := real_ofNat (n := 4503599627370496) (by norm_num)
  have hlt := lt_iff_real (isFinite_abs hx) hfinite
  rw [hreal, real_abs] at hlt
  refine hlt.trans ?_
  norm_num

theorem isFinite_of_abs_lt (h : x.abs < y) : x.isFinite = true := by
  have hlt : UnpackedFloat.lt x.abs.toModel.unpack y.toModel.unpack = true := of_decide_eq_true h
  rw [unpack_abs] at hlt
  show x.toModel.unpack.isFinite = true
  generalize x.toModel.unpack = x at hlt ⊢
  generalize y.toModel.unpack = y at hlt
  rcases x with ⟨_ | _⟩ | _ | _ | _ <;> rcases y with ⟨_ | _⟩ | _ | _ | ⟨_ | _, _, _, _⟩ <;>
    first | rfl | cases hlt

theorem exists_wholePart (h : x.abs < 4503599627370496) :
    ∃ k : ℕ, k < 2 ^ 52 ∧ ⌊|real x|⌋ = k ∧ x.abs.toUInt64.toFloat.isFinite = true ∧
      real x.abs.toUInt64.toFloat = k := by
  have hx := isFinite_of_abs_lt h
  have hlt := (lt_wholeBound_iff hx).mp h
  obtain ⟨hfinite, hreal⟩ := real_toUInt64_toFloat (isFinite_abs hx)
    (by rw [real_abs]; exact abs_nonneg _) (by rw [real_abs]; linarith)
  rw [real_abs] at hreal
  obtain ⟨k, hk⟩ := Int.eq_ofNat_of_zero_le (Int.floor_nonneg.mpr (abs_nonneg (real x)))
  have hbound : ⌊|real x|⌋ < 2 ^ 52 := Int.floor_lt.mpr (by exact_mod_cast hlt)
  refine ⟨k, by omega, hk, hfinite, ?_⟩
  rw [hreal, hk]
  norm_cast

/-- Rounding a double gives a whole one, unless it gives no finite one. -/
theorem isWhole_roundHalfAway (h : (roundHalfAway x).isFinite = true) :
    IsWhole (roundHalfAway x) := by
  unfold roundHalfAway at h ⊢
  dsimp only at h ⊢
  by_cases hsmall : x.abs < 4503599627370496
  · rw [if_pos hsmall]
    obtain ⟨k, hk, -, hfinite, hreal⟩ := exists_wholePart hsmall
    have hwhole : IsWhole x.abs.toUInt64.toFloat := ⟨hfinite, k, by exact_mod_cast hreal⟩
    obtain ⟨hone, hrealOne⟩ := real_ofNat (n := 1) (by norm_num)
    have hnext : IsWhole (x.abs.toUInt64.toFloat + Scalar.ofNat 1) := by
      have hgives := gives_add hfinite hone
      have hsum : real x.abs.toUInt64.toFloat + real (Scalar.ofNat 1) = ((k + 1 : ℕ) : ℝ) := by
        rw [hreal, hrealOne]
        push_cast
        rfl
      have hexact : rounded ((k + 1 : ℕ) : ℝ) = (k + 1 : ℕ) := rounded_natCast (by omega)
      refine isWhole_add hwhole ⟨hone, 1, by exact_mod_cast hrealOne⟩ (hgives.isFinite ?_)
      rw [hsum, hexact, abs_of_nonneg (Nat.cast_nonneg _)]
      have hsmall : ((k + 1 : ℕ) : ℝ) < 2 ^ 200 := by
        exact_mod_cast lt_of_lt_of_le (by omega : k + 1 < 2 ^ 53) (by norm_num)
      exact hsmall.trans two_pow_lt_overflow
    -- either candidate is whole, with its sign or without
    have hsigned : ∀ {r : Float}, IsWhole r →
        IsWhole (if x.toBits >>> 63 = 0 then r else -r) := by
      intro r hr
      split_ifs
      · exact hr
      · exact isWhole_neg hr
    apply hsigned
    split_ifs
    · exact hwhole
    · exact hnext
  · rw [if_neg hsmall] at h ⊢
    exact isWhole_of_le h (not_lt.mp fun hlt => hsmall ((lt_wholeBound_iff h).mpr hlt))

theorem real_oneHalf : (0.5 : Float).isFinite = true ∧ real 0.5 = 1 / 2 := by
  have hunpack : (0.5 : Float).toModel.unpack = .finite .positive (2 ^ 52) (-53) (by decide) := by
    rfl
  obtain ⟨hfinite, hreal⟩ := real_of_unpack hunpack
  refine ⟨hfinite, hreal.trans ?_⟩
  norm_num

/-- Rounding leaves a whole double where it is. -/
theorem roundHalfAway_beq (hx : IsWhole x) : (roundHalfAway x == x) = true := by
  obtain ⟨n, hn⟩ := hx.integer
  unfold roundHalfAway
  dsimp only
  by_cases hsmall : x.abs < 4503599627370496
  · rw [if_pos hsmall]
    obtain ⟨k, hk, hfloor, hfinite, hreal⟩ := exists_wholePart hsmall
    have hexact : real x.abs.toUInt64.toFloat = |real x| := by
      have habs : |real x| = ((|n| : ℤ) : ℝ) := by rw [hn, Int.cast_abs]
      rw [habs, Int.floor_intCast] at hfloor
      rw [hreal, habs, hfloor]
      norm_cast
    have hrest : x.abs - x.abs.toUInt64.toFloat < 0.5 := by
      have hgives := gives_sub (isFinite_abs hx.isFinite) hfinite
      rw [real_abs, hexact, sub_self] at hgives
      have hrest := hgives.isFinite (by rw [rounded_zero, abs_zero]; exact overflow_pos)
      rw [lt_iff_real hrest real_oneHalf.1, hgives.real_eq hrest, rounded_zero, real_oneHalf.2]
      norm_num
    rw [if_pos hrest]
    have hnegative : real (-x.abs.toUInt64.toFloat) = -|real x| := by rw [real_neg, hexact]
    rcases lt_trichotomy (real x) 0 with hlt | hzero | hgt
    · have hsign := mt (toBits_shift_eq_zero_iff hx.isFinite hlt.ne).mp hlt.not_gt
      rw [if_neg hsign, beq_iff (isFinite_neg hfinite) hx.isFinite, hnegative, abs_of_neg hlt,
        neg_neg]
    · rw [hzero, abs_zero] at hexact hnegative
      split_ifs
      · rw [beq_iff hfinite hx.isFinite, hexact, hzero]
      · rw [beq_iff (isFinite_neg hfinite) hx.isFinite, hnegative, hzero, neg_zero]
    · have hsign := (toBits_shift_eq_zero_iff hx.isFinite hgt.ne').mpr hgt
      rw [if_pos hsign, beq_iff hfinite hx.isFinite, hexact, abs_of_pos hgt]
  · rw [if_neg hsmall]
    exact (beq_iff hx.isFinite hx.isFinite).mpr rfl

end Round

end NodeLink.Double
