import Mathlib

/-! # Rounding real numbers

Real numbers are rounded to the nearest number with a mantissa of fifty-three bits, and to the one
with the even mantissa if two are nearest (`rounded`).  The exponent is not bounded from above
here.  Rounding is monotone, and leaves numbers alone that have such a mantissa
(`rounded_of_mantissa`).  A power of two absorbs what is small against it
(`abs_rounded_le_of_absorbed`), and from other numbers rounding is off by a relative error
(`abs_rounded_sub_le`).  What is nearer to the lower one of two such numbers is not rounded to the
upper one (`rounded_lt_of_nearer`). -/

namespace NodeLink.Double

/-! ### Whole numbers -/

/-- The nearest whole number, the even one if two are nearest. -/
noncomputable def nearestEven (x : ℝ) : ℤ :=
  if Int.fract x < 1 / (2 : ℕ) then ⌊x⌋
  else if 1 / (2 : ℕ) < Int.fract x then ⌊x⌋ + 1
  else ⌊x⌋ + ⌊x⌋ % 2

theorem nearestEven_eq (x : ℝ) :
    nearestEven x =
      if Int.fract x < 1 / 2 then ⌊x⌋
      else if 1 / 2 < Int.fract x then ⌊x⌋ + 1
      else ⌊x⌋ + ⌊x⌋ % 2 := rfl

theorem floor_le_nearestEven (x : ℝ) : ⌊x⌋ ≤ nearestEven x := by
  rw [nearestEven_eq]
  split_ifs <;> omega

theorem nearestEven_le_floor_add_one (x : ℝ) : nearestEven x ≤ ⌊x⌋ + 1 := by
  rw [nearestEven_eq]
  split_ifs <;> omega

theorem nearestEven_intCast (n : ℤ) : nearestEven n = n := by
  rw [nearestEven_eq, Int.fract_intCast, if_pos (by norm_num), Int.floor_intCast]

theorem nearestEven_mono : Monotone nearestEven := by
  intro x y hxy
  have hfloor : ⌊x⌋ ≤ ⌊y⌋ := Int.floor_mono hxy
  rcases hfloor.lt_or_eq with hlt | heq
  · have hx := nearestEven_le_floor_add_one x
    have hy := floor_le_nearestEven y
    omega
  · have hfract : Int.fract x ≤ Int.fract y := by
      unfold Int.fract
      rw [heq]
      linarith
    rw [nearestEven_eq, nearestEven_eq, heq]
    split_ifs <;> first | omega | (exfalso; linarith)

theorem abs_nearestEven_sub_le (x : ℝ) : |(nearestEven x : ℝ) - x| ≤ 1 / 2 := by
  have hfract : Int.fract x = x - ⌊x⌋ := rfl
  have hlow := Int.fract_nonneg x
  have hhigh := Int.fract_lt_one x
  rw [abs_le]
  rw [nearestEven_eq]
  split_ifs with hless hmore
  · constructor <;> linarith
  · push_cast
    constructor <;> linarith
  · have hhalf : Int.fract x = 1 / 2 := by linarith
    rcases Int.emod_two_eq_zero_or_one ⌊x⌋ with heven | hodd
    · rw [heven]
      push_cast
      constructor <;> linarith
    · rw [hodd]
      push_cast
      constructor <;> linarith

theorem nearestEven_le_two_mul {x : ℝ} (h : 0 ≤ x) : (nearestEven x : ℝ) ≤ 2 * x := by
  have hfloor : (⌊x⌋ : ℝ) + Int.fract x = x := Int.floor_add_fract x
  have hnonneg : (0 : ℝ) ≤ ⌊x⌋ := by exact_mod_cast Int.floor_nonneg.mpr h
  have hfract := Int.fract_nonneg x
  rw [nearestEven_eq]
  split_ifs with hless hmore
  · linarith
  · push_cast
    linarith
  · have hmod : ((⌊x⌋ % 2 : ℤ) : ℝ) ≤ 1 := by
      exact_mod_cast Int.lt_add_one_iff.mp (Int.emod_lt_of_pos _ two_pos)
    push_cast
    linarith

/-! ### Magnitudes -/

/-- The exponent with which a magnitude is rounded. -/
noncomputable def scaleOf (r : ℝ) : ℤ := max (Int.log 2 r - 52) (-1074)

theorem scaleOf_ge (r : ℝ) : -1074 ≤ scaleOf r := le_max_right _ _

theorem lt_two_zpow_scaleOf {r : ℝ} : r < 2 ^ (scaleOf r + 53) := by
  have hlog : r < (2 : ℝ) ^ (Int.log 2 r + 1) := by
    exact_mod_cast Int.lt_zpow_succ_log_self (by norm_num) r
  have hle : Int.log 2 r - 52 ≤ scaleOf r := le_max_left _ _
  exact hlog.trans_le (zpow_le_zpow_right₀ (by norm_num) (by omega))

theorem two_zpow_scaleOf_le {r : ℝ} (h : 0 < r) :
    scaleOf r = -1074 ∨ 2 ^ (scaleOf r + 52) ≤ r := by
  rcases max_choice (Int.log 2 r - 52) (-1074) with hmax | hmax
  · right
    have hlog : (2 : ℝ) ^ Int.log 2 r ≤ r := by
      exact_mod_cast Int.zpow_log_le_self (by norm_num) h
    unfold scaleOf
    rw [hmax, sub_add_cancel]
    exact hlog
  · exact Or.inl hmax

/-- The exponent of a magnitude is the least one with which its mantissa has at most fifty-three
bits, unless that is less than the least exponent of all. -/
theorem scaleOf_eq {r : ℝ} {e : ℤ} (he : -1074 ≤ e) (hlt : r < 2 ^ (e + 53))
    (hle : e = -1074 ∨ 2 ^ (e + 52) ≤ r) (h : 0 < r) : scaleOf r = e := by
  have hbase : (1 : ℝ) < 2 := by norm_num
  have hupper : ∀ {a b : ℤ}, (2 : ℝ) ^ (a + 52) ≤ r → r < 2 ^ (b + 53) → a ≤ b := by
    intro a b ha hb
    have := (zpow_lt_zpow_iff_right₀ hbase).mp (ha.trans_lt hb)
    omega
  have hge := scaleOf_ge r
  apply le_antisymm
  · rcases two_zpow_scaleOf_le h with hleast | hbits
    · omega
    · exact hupper hbits hlt
  · rcases hle with hleast | hbits
    · omega
    · exact hupper hbits lt_two_zpow_scaleOf

theorem scaleOf_mono {r t : ℝ} (hr : 0 < r) (h : r ≤ t) : scaleOf r ≤ scaleOf t :=
  max_le_max_right _ (sub_le_sub_right (Int.log_mono_right hr h) _)

/-- A magnitude, rounded. -/
noncomputable def roundMagnitude (r : ℝ) : ℝ :=
  nearestEven (r / (2 : ℕ) ^ scaleOf r) * (2 : ℕ) ^ scaleOf r

theorem roundMagnitude_eq (r : ℝ) :
    roundMagnitude r = nearestEven (r / 2 ^ scaleOf r) * 2 ^ scaleOf r := rfl

theorem roundMagnitude_nonneg {r : ℝ} (h : 0 ≤ r) : 0 ≤ roundMagnitude r := by
  have hfloor : 0 ≤ ⌊r / 2 ^ scaleOf r⌋ := Int.floor_nonneg.mpr (by positivity)
  have hnearest : 0 ≤ nearestEven (r / 2 ^ scaleOf r) := hfloor.trans (floor_le_nearestEven _)
  have hcast : (0 : ℝ) ≤ nearestEven (r / 2 ^ scaleOf r) := by exact_mod_cast hnearest
  rw [roundMagnitude_eq]
  positivity

@[simp]
theorem roundMagnitude_zero : roundMagnitude 0 = 0 := by
  rw [roundMagnitude_eq, zero_div]
  have hzero : nearestEven 0 = 0 := by exact_mod_cast nearestEven_intCast 0
  rw [hzero, Int.cast_zero, zero_mul]

theorem roundMagnitude_of_multiple {r : ℝ} {n : ℤ} (h : r = n * 2 ^ scaleOf r) :
    roundMagnitude r = r := by
  have hpos : (0 : ℝ) < 2 ^ scaleOf r := by positivity
  have hquotient : r / 2 ^ scaleOf r = n := by
    rw [div_eq_iff hpos.ne']
    exact h
  rw [roundMagnitude_eq, hquotient, nearestEven_intCast]
  exact h.symm

theorem roundMagnitude_of_mantissa {m : ℕ} {e : ℤ} (hm : m < 2 ^ 53) (he : -1074 ≤ e) :
    roundMagnitude (m * 2 ^ e) = m * 2 ^ e := by
  rcases Nat.eq_zero_or_pos m with rfl | hpos
  · simp
  · have hr : (0 : ℝ) < m * 2 ^ e := by positivity
    have hm' : (m : ℝ) < 2 ^ (53 : ℤ) := by exact_mod_cast hm
    have hscale : scaleOf (m * 2 ^ e) ≤ e := by
      rcases two_zpow_scaleOf_le hr with hleast | hbits
      · omega
      · have hlt : (m : ℝ) * 2 ^ e < 2 ^ (53 + e) := by
          rw [zpow_add₀ (by norm_num)]
          exact mul_lt_mul_of_pos_right hm' (by positivity)
        have := (zpow_lt_zpow_iff_right₀ (by norm_num : (1 : ℝ) < 2)).mp (hbits.trans_lt hlt)
        omega
    obtain ⟨k, hk⟩ : ∃ k : ℕ, e = scaleOf (m * 2 ^ e) + k :=
      ⟨(e - scaleOf (m * 2 ^ e)).toNat, by omega⟩
    apply roundMagnitude_of_multiple (n := m * 2 ^ k)
    have hsplit : (2 : ℝ) ^ e = 2 ^ k * 2 ^ scaleOf (m * 2 ^ e) := by
      rw [← zpow_natCast, ← zpow_add₀ (by norm_num)]
      congr 1
      omega
    push_cast
    rw [mul_assoc, ← hsplit]

theorem roundMagnitude_mono {r t : ℝ} (hr : 0 ≤ r) (h : r ≤ t) :
    roundMagnitude r ≤ roundMagnitude t := by
  rcases hr.eq_or_lt with rfl | hpos
  · rw [roundMagnitude_zero]
    exact roundMagnitude_nonneg h
  rcases (scaleOf_mono hpos h).eq_or_lt with heq | hlt
  · have hle : r / 2 ^ scaleOf t ≤ t / 2 ^ scaleOf t := by gcongr
    have hcast : (nearestEven (r / 2 ^ scaleOf t) : ℝ) ≤ nearestEven (t / 2 ^ scaleOf t) := by
      exact_mod_cast nearestEven_mono hle
    rw [roundMagnitude_eq, roundMagnitude_eq, heq]
    gcongr
  · -- the power of two at which the greater scale begins lies between the two
    have hbits : (2 : ℝ) ^ (scaleOf t + 52) ≤ t :=
      (two_zpow_scaleOf_le (hpos.trans_le h)).resolve_left (by have := scaleOf_ge r; omega)
    have hlow : roundMagnitude r ≤ 2 ^ (scaleOf r + 53) := by
      have hle : r / 2 ^ scaleOf r ≤ ((2 ^ 53 : ℤ) : ℝ) := by
        rw [div_le_iff₀ (by positivity)]
        have := (lt_two_zpow_scaleOf (r := r)).le
        rw [zpow_add₀ (by norm_num)] at this
        push_cast
        linarith
      have hnearest := nearestEven_mono hle
      rw [nearestEven_intCast] at hnearest
      have hcast : (nearestEven (r / 2 ^ scaleOf r) : ℝ) ≤ 2 ^ 53 := by exact_mod_cast hnearest
      rw [roundMagnitude_eq, zpow_add₀ (by norm_num), mul_comm ((2 : ℝ) ^ scaleOf r)]
      gcongr
      exact hcast
    have hhigh : (2 : ℝ) ^ (scaleOf t + 52) ≤ roundMagnitude t := by
      have hle : ((2 ^ 52 : ℤ) : ℝ) ≤ t / 2 ^ scaleOf t := by
        rw [le_div_iff₀ (by positivity)]
        rw [zpow_add₀ (by norm_num)] at hbits
        push_cast
        linarith
      have hnearest := nearestEven_mono hle
      rw [nearestEven_intCast] at hnearest
      have hcast : (2 : ℝ) ^ 52 ≤ nearestEven (t / 2 ^ scaleOf t) := by exact_mod_cast hnearest
      rw [roundMagnitude_eq, zpow_add₀ (by norm_num), mul_comm ((2 : ℝ) ^ scaleOf t)]
      gcongr
      exact hcast
    have hbetween : (2 : ℝ) ^ (scaleOf r + 53) ≤ 2 ^ (scaleOf t + 52) :=
      zpow_le_zpow_right₀ (by norm_num) (by omega)
    linarith

theorem abs_roundMagnitude_sub_le (r : ℝ) : |roundMagnitude r - r| ≤ 2 ^ scaleOf r / 2 := by
  have hpos : (0 : ℝ) < 2 ^ scaleOf r := by positivity
  have hdiff : roundMagnitude r - r =
      (nearestEven (r / 2 ^ scaleOf r) - r / 2 ^ scaleOf r) * 2 ^ scaleOf r := by
    rw [roundMagnitude_eq]
    field_simp
  rw [hdiff, abs_mul, abs_of_pos hpos]
  have := mul_le_mul_of_nonneg_right (abs_nearestEven_sub_le (r / 2 ^ scaleOf r)) hpos.le
  linarith

/-! ### Real numbers -/

/-- A real number, rounded. -/
noncomputable def rounded (r : ℝ) : ℝ :=
  if r < 0 then -roundMagnitude (-r) else roundMagnitude r

theorem rounded_of_nonneg {r : ℝ} (h : 0 ≤ r) : rounded r = roundMagnitude r :=
  if_neg (not_lt.mpr h)

@[simp]
theorem rounded_zero : rounded 0 = 0 := by rw [rounded_of_nonneg le_rfl, roundMagnitude_zero]

@[simp]
theorem rounded_neg (r : ℝ) : rounded (-r) = -rounded r := by
  unfold rounded
  rcases lt_trichotomy r 0 with h | h | h
  · rw [if_neg (by linarith), if_pos h, neg_neg]
  · simp [h]
  · rw [if_pos (by linarith), if_neg (by linarith), neg_neg]

theorem rounded_nonneg {r : ℝ} (h : 0 ≤ r) : 0 ≤ rounded r := by
  rw [rounded_of_nonneg h]
  exact roundMagnitude_nonneg h

theorem rounded_mono : Monotone rounded := by
  intro r t h
  rcases le_or_gt 0 r with hr | hr
  · rw [rounded_of_nonneg hr, rounded_of_nonneg (hr.trans h)]
    exact roundMagnitude_mono hr h
  · rcases le_or_gt 0 t with ht | ht
    · have hneg := rounded_nonneg (r := -r) (by linarith)
      rw [rounded_neg] at hneg
      have hpos := rounded_nonneg ht
      linarith
    · have := roundMagnitude_mono (r := -t) (t := -r) (by linarith) (by linarith)
      unfold rounded
      rw [if_pos hr, if_pos ht]
      linarith

theorem abs_rounded (r : ℝ) : |rounded r| = rounded |r| := by
  rcases le_or_gt 0 r with h | h
  · rw [abs_of_nonneg h, abs_of_nonneg (rounded_nonneg h)]
  · have hpos := rounded_nonneg (r := -r) (by linarith)
    rw [abs_of_neg h, rounded_neg]
    rw [rounded_neg] at hpos
    exact abs_of_nonpos (by linarith)

/-- Numbers with a mantissa of at most fifty-three bits are left alone, whatever their sign. -/
theorem rounded_of_mantissa {r : ℝ} {m : ℕ} {e : ℤ} (hm : m < 2 ^ 53) (he : -1074 ≤ e)
    (h : |r| = m * 2 ^ e) : rounded r = r := by
  have hround := roundMagnitude_of_mantissa hm he
  rw [← h] at hround
  rcases le_or_gt 0 r with hr | hr
  · rw [abs_of_nonneg hr] at hround
    rw [rounded_of_nonneg hr, hround]
  · rw [abs_of_neg hr] at hround
    unfold rounded
    rw [if_pos hr, hround, neg_neg]

/-- A power of two absorbs what is less than half the distance to the next number. -/
theorem abs_rounded_le_of_absorbed {r d : ℝ} {e : ℤ} (he : -1074 ≤ e) (hd : 0 ≤ d)
    (hless : d < 2 ^ e / 2) (h : |r| ≤ 2 ^ (e + 52) + d) : |rounded r| ≤ 2 ^ (e + 52) := by
  have hpos : (0 : ℝ) < 2 ^ e := by positivity
  have hsplit : (2 : ℝ) ^ (e + 52) = ((2 ^ 52 : ℤ) : ℝ) * 2 ^ e := by
    rw [zpow_add₀ (by norm_num), mul_comm]
    norm_num
  have hsum : (0 : ℝ) < 2 ^ (e + 52) + d := by positivity
  have hscale : scaleOf (2 ^ (e + 52) + d) = e := by
    refine scaleOf_eq he ?_ (Or.inr (by linarith)) hsum
    have htwice : (2 : ℝ) ^ (e + 53) = 2 ^ (e + 52) + 2 ^ (e + 52) := by
      rw [show e + 53 = e + 52 + 1 by ring, zpow_add_one₀ (by norm_num), mul_two]
    have hle : (2 : ℝ) ^ e ≤ 2 ^ (e + 52) := zpow_le_zpow_right₀ (by norm_num) (by omega)
    linarith
  have hquotient : (2 ^ (e + 52) + d) / 2 ^ e = ((2 ^ 52 : ℤ) : ℝ) + d / 2 ^ e := by
    rw [hsplit, add_div, mul_div_assoc, div_self hpos.ne', mul_one]
  have hfraction : d / 2 ^ e < 1 / 2 := by
    rw [div_lt_iff₀ hpos]
    linarith
  have hfract : Int.fract (d / 2 ^ e) = d / 2 ^ e :=
    Int.fract_eq_self.mpr ⟨by positivity, by linarith⟩
  have hfloor : ⌊d / 2 ^ e⌋ = 0 := Int.floor_eq_zero_iff.mpr ⟨by positivity, by linarith⟩
  have hnearest : nearestEven (((2 ^ 52 : ℤ) : ℝ) + d / 2 ^ e) = 2 ^ 52 := by
    rw [nearestEven_eq, Int.fract_intCast_add, hfract, if_pos hfraction, Int.floor_intCast_add,
      hfloor, add_zero]
  have hmono := rounded_mono h
  rw [rounded_of_nonneg hsum.le, roundMagnitude_eq, hscale, hquotient, hnearest, ← hsplit] at hmono
  rw [abs_rounded]
  exact hmono

/-- The error of rounding a number that is not too small, relative to it. -/
theorem abs_rounded_sub_le {r : ℝ} (h : 2 ^ (-1022 : ℤ) ≤ |r|) :
    |rounded r - r| ≤ |r| * 2 ^ (-53 : ℤ) := by
  have hmagnitude : ∀ {t : ℝ}, (2 : ℝ) ^ (-1022 : ℤ) ≤ t →
      |roundMagnitude t - t| ≤ t * 2 ^ (-53 : ℤ) := by
    intro t ht
    have hpos : 0 < t := lt_of_lt_of_le (by positivity) ht
    have hscale : (2 : ℝ) ^ (scaleOf t + 52) ≤ t := by
      rcases two_zpow_scaleOf_le hpos with hleast | hbits
      · rw [hleast]
        exact ht
      · exact hbits
    have hhalf : (2 : ℝ) ^ scaleOf t / 2 = 2 ^ (scaleOf t + 52) * 2 ^ (-53 : ℤ) := by
      rw [← zpow_add₀ (by norm_num), div_eq_mul_inv, ← zpow_neg_one, ← zpow_add₀ (by norm_num)]
      congr 1
      omega
    calc |roundMagnitude t - t| ≤ 2 ^ scaleOf t / 2 := abs_roundMagnitude_sub_le t
      _ = 2 ^ (scaleOf t + 52) * 2 ^ (-53 : ℤ) := hhalf
      _ ≤ t * 2 ^ (-53 : ℤ) := by gcongr
  rcases le_or_gt 0 r with hr | hr
  · rw [abs_of_nonneg hr] at h ⊢
    rw [rounded_of_nonneg hr]
    exact hmagnitude h
  · rw [abs_of_neg hr] at h ⊢
    have := hmagnitude h
    unfold rounded
    rw [if_pos hr, ← abs_neg]
    convert this using 2
    ring

theorem abs_rounded_le {r b : ℝ} (h : |r| ≤ b) (hb : 2 ^ (-1022 : ℤ) ≤ b) :
    |rounded r| ≤ b * (1 + 2 ^ (-53 : ℤ)) := by
  have hpos : 0 < b := lt_of_lt_of_le (by positivity) hb
  have hmono := rounded_mono h
  have herror := abs_rounded_sub_le (r := b) (by rwa [abs_of_pos hpos])
  rw [abs_of_pos hpos] at herror
  have := (abs_le.mp herror).2
  rw [abs_rounded]
  linarith

theorem le_rounded {r b : ℝ} (h : b ≤ r) (hb : 2 ^ (-1022 : ℤ) ≤ b) :
    b * (1 - 2 ^ (-53 : ℤ)) ≤ rounded r := by
  have hpos : 0 < b := lt_of_lt_of_le (by positivity) hb
  have hmono := rounded_mono h
  have herror := abs_rounded_sub_le (r := b) (by rwa [abs_of_pos hpos])
  rw [abs_of_pos hpos] at herror
  have := (abs_le.mp herror).1
  linarith

/-! ### The nearest number -/

theorem exists_multiple_rounded (r : ℝ) : ∃ k : ℤ, rounded r = k * 2 ^ scaleOf |r| := by
  rcases le_or_gt 0 r with h | h
  · rw [abs_of_nonneg h, rounded_of_nonneg h]
    exact ⟨_, roundMagnitude_eq r⟩
  · refine ⟨-nearestEven (-r / 2 ^ scaleOf (-r)), ?_⟩
    rw [abs_of_neg h, rounded, if_pos h, roundMagnitude_eq]
    push_cast
    ring

theorem abs_rounded_sub_le_half (r : ℝ) : |rounded r - r| ≤ 2 ^ scaleOf |r| / 2 := by
  rcases le_or_gt 0 r with h | h
  · rw [abs_of_nonneg h, rounded_of_nonneg h]
    exact abs_roundMagnitude_sub_le r
  · have hsign : rounded r - r = -(roundMagnitude (-r) - -r) := by
      rw [rounded, if_pos h]
      ring
    rw [abs_of_neg h, hsign, abs_neg]
    exact abs_roundMagnitude_sub_le (-r)

/-- Between a number that rounding leaves alone and a greater one stands a multiple of the unit of
the greater one. -/
theorem exists_multiple_between {d r : ℝ} (hd : rounded d = d) (hle : d ≤ r) (hne : r ≠ 0) :
    ∃ m : ℤ, d ≤ m * 2 ^ scaleOf |r| ∧ m * 2 ^ scaleOf |r| ≤ r := by
  rcases le_or_gt (scaleOf |r|) (scaleOf |d|) with hscale | hscale
  · -- `d` is such a multiple itself
    obtain ⟨j, hj⟩ := exists_multiple_rounded d
    obtain ⟨n, hn⟩ := Int.le.dest hscale
    have hmultiple : d = ((j * 2 ^ n : ℤ) : ℝ) * 2 ^ scaleOf |r| := by
      rw [← hd, hj, ← hn, zpow_add₀ (by norm_num), zpow_natCast]
      push_cast
      ring
    exact ⟨j * 2 ^ n, hmultiple.le, hmultiple ▸ hle⟩
  · -- the least number with the unit of `r` stands between the two
    have hpos : 0 < r := by
      by_contra hneg
      have hmono := scaleOf_mono (abs_pos.mpr hne) (abs_le_abs_of_nonpos (not_lt.mp hneg) hle)
      omega
    have hbits : (2 : ℝ) ^ (scaleOf |r| + 52) ≤ r := by
      rcases two_zpow_scaleOf_le (abs_pos.mpr hne) with hleast | hbits
      · have := scaleOf_ge |d|
        omega
      · rwa [abs_of_pos hpos] at hbits ⊢
    have hleast : ((2 ^ 52 : ℤ) : ℝ) * 2 ^ scaleOf |r| = 2 ^ (scaleOf |r| + 52) := by
      rw [zpow_add₀ (by norm_num), mul_comm]
      norm_num
    refine ⟨2 ^ 52, ?_, hleast ▸ hbits⟩
    rw [hleast]
    calc d ≤ |d| := le_abs_self d
      _ ≤ 2 ^ (scaleOf |d| + 53) := lt_two_zpow_scaleOf.le
      _ ≤ 2 ^ (scaleOf |r| + 52) := zpow_le_zpow_right₀ (by norm_num) (by omega)

/-- What is nearer to a number from below than to one above it is not rounded to the latter. -/
theorem rounded_lt_of_nearer {low high r : ℝ} (hlow : rounded low = low)
    (hhigh : rounded high = high) (hle : low ≤ r) (hnear : r - low < high - r) :
    rounded r < high := by
  rcases eq_or_ne r 0 with rfl | hne
  · rw [rounded_zero]
    linarith
  by_contra hge
  have hunit : (0 : ℝ) < 2 ^ scaleOf |r| := by positivity
  obtain ⟨k, hk⟩ := exists_multiple_rounded r
  obtain ⟨m, hlowm, hmr⟩ := exists_multiple_between hlow hle hne
  have hneg : rounded (-high) = -high := by rw [rounded_neg, hhigh]
  obtain ⟨n, hhighn, hnr⟩ := exists_multiple_between hneg (by linarith : -high ≤ -r)
    (neg_ne_zero.mpr hne)
  rw [abs_neg] at hhighn hnr
  have hhalf := abs_le.mp (abs_rounded_sub_le_half r)
  generalize (2 : ℝ) ^ scaleOf |r| = u at *
  -- the multiples on both sides of `r` are less than a unit apart, and so they are `r`
  have hsame : -n - m < 1 := by
    have : ((-n - m : ℤ) : ℝ) * u < 1 * u := by
      push_cast
      linarith
    exact_mod_cast lt_of_mul_lt_mul_right this hunit.le
  have hle' : ((-n : ℤ) : ℝ) * u ≤ m * u :=
    mul_le_mul_of_nonneg_right (by exact_mod_cast Int.lt_add_one_iff.mp (by omega)) hunit.le
  push_cast at hle'
  -- so `r` is rounded to itself
  have hk' : ((m + 1 : ℤ) : ℝ) * u ≤ k * u := by
    have : (m : ℝ) * u < k * u := by linarith
    have hlt : m < k := by exact_mod_cast lt_of_mul_lt_mul_right this hunit.le
    exact mul_le_mul_of_nonneg_right (by exact_mod_cast hlt) hunit.le
  push_cast at hk'
  linarith

theorem rounded_le_two_mul {r : ℝ} (h : 0 ≤ r) : rounded r ≤ 2 * r := by
  have hunit : (0 : ℝ) < 2 ^ scaleOf r := by positivity
  rw [rounded_of_nonneg h, roundMagnitude_eq]
  calc (nearestEven (r / 2 ^ scaleOf r) : ℝ) * 2 ^ scaleOf r
      ≤ 2 * (r / 2 ^ scaleOf r) * 2 ^ scaleOf r := by
        gcongr
        exact nearestEven_le_two_mul (by positivity)
    _ = 2 * r := by field_simp

end NodeLink.Double
