import NodeLink.Proofs.Double.Magnitude
import NodeLink.Proofs.Bundling.Exchange

/-! # Operations that commute

Sums and products of doubles do not depend on the order of the two operands, not even in their last
bit and not for infinities, zeros or what is not a number (`Double.add_comm`, `Double.mul_comm`).
The smaller and the greater of two doubles do: of two zeros with different signs the second one is
taken.  They commute on doubles that are their own magnitudes (`min_comm_of_abs_eq`,
`max_comm_of_abs_eq`).  Sums, products and roots that a length is made of are such doubles, and so
is everything that a magnitude is below. -/

namespace NodeLink.Double

open Float.Model
open Float.Model.UnpackedFloat

/-! ### Sums and products -/

theorem sign_mul_comm (s t : Sign) : s * t = t * s := by
  cases s <;> cases t <;> rfl

theorem add_comm_unpacked (x y : UnpackedFloat) :
    UnpackedFloat.add Format.binary64 x y = UnpackedFloat.add Format.binary64 y x := by
  rcases x with s | _ | s | ⟨s, m₁, e₁, h₁⟩ <;> rcases y with t | _ | t | ⟨t, m₂, e₂, h₂⟩
  case finite.finite =>
    simp only [UnpackedFloat.add]
    rw [min_comm e₂ e₁, Int.add_comm]
  case infinity.infinity => cases s <;> cases t <;> rfl
  case zero.zero => cases s <;> cases t <;> rfl
  all_goals rfl

theorem mul_comm_unpacked (x y : UnpackedFloat) :
    UnpackedFloat.mul Format.binary64 x y = UnpackedFloat.mul Format.binary64 y x := by
  rcases x with s | _ | s | ⟨s, m₁, e₁, h₁⟩ <;> rcases y with t | _ | t | ⟨t, m₂, e₂, h₂⟩ <;>
    simp only [UnpackedFloat.mul]
  case finite.finite => rw [sign_mul_comm, Nat.mul_comm, Int.add_comm]
  all_goals rw [sign_mul_comm]

protected theorem add_comm (x y : Float) : x + y = y + x := by
  show Float.ofModel (Float.Model.pack (UnpackedFloat.add Format.binary64 _ _)) =
    Float.ofModel (Float.Model.pack (UnpackedFloat.add Format.binary64 _ _))
  rw [add_comm_unpacked]

protected theorem mul_comm (x y : Float) : x * y = y * x := by
  show Float.ofModel (Float.Model.pack (UnpackedFloat.mul Format.binary64 _ _)) =
    Float.ofModel (Float.Model.pack (UnpackedFloat.mul Format.binary64 _ _))
  rw [mul_comm_unpacked]

/-! ### Doubles that are their own magnitudes -/

theorem eq_of_unpack_eq {x y : Float} (h : x.toModel.unpack = y.toModel.unpack) : x = y := by
  have hmodel : x.toModel = y.toModel := by rw [← pack_unpack x.toModel, h, pack_unpack]
  cases x
  cases y
  exact congrArg Float.ofModel hmodel

theorem abs_eq_self_iff {x : Float} : x.abs = x ↔ x.toModel.unpack.abs = x.toModel.unpack := by
  rw [← unpack_abs]
  exact ⟨congrArg fun x : Float => x.toModel.unpack, eq_of_unpack_eq⟩

theorem abs_ofModel_pack {y : UnpackedFloat} (h : y.abs = y) :
    (Float.ofModel (Float.Model.pack y)).abs = Float.ofModel (Float.Model.pack y) := by
  rw [abs_eq_self_iff, ← unpack_pack_abs, h]

theorem abs_roundWithAccuracy (m : ℕ) (e : ℤ) (accuracy : Accuracy) :
    (UnpackedFloat.roundWithAccuracy Format.binary64 .positive m e accuracy).abs =
      UnpackedFloat.roundWithAccuracy Format.binary64 .positive m e accuracy := by
  unfold UnpackedFloat.roundWithAccuracy
  dsimp only
  split_ifs <;> rfl

theorem abs_mul_self (x : Float) : (x * x).abs = x * x := by
  refine abs_ofModel_pack ?_
  rcases x.toModel.unpack with s | _ | s | ⟨s, m, e, hm⟩
  case notANumber => rfl
  all_goals cases s
  case finite.negative => exact abs_roundWithAccuracy _ _ _
  case finite.positive => exact abs_roundWithAccuracy _ _ _
  all_goals rfl

theorem abs_normalize_of_pos {m : ℤ} (hm : 0 < m) (e : ℤ) (s : Sign) :
    (UnpackedFloat.normalize Format.binary64 m e s).abs =
      UnpackedFloat.normalize Format.binary64 m e s := by
  unfold UnpackedFloat.normalize
  rw [compare_gt_iff_gt.mpr hm]
  exact abs_round ..

theorem abs_add_of_abs_eq {x y : Float} (hx : x.abs = x) (hy : y.abs = y) :
    (x + y).abs = x + y := by
  rw [abs_eq_self_iff] at hx hy
  refine abs_ofModel_pack ?_
  rw [← hx, ← hy]
  rcases x.toModel.unpack with s | _ | s | ⟨s, m₁, e₁, h₁⟩ <;>
    rcases y.toModel.unpack with t | _ | t | ⟨t, m₂, e₂, h₂⟩
  case finite.finite =>
    have hpos : 0 < ((m₁ <<< (e₁ - min e₁ e₂).toNat : ℕ) : ℤ) +
        (m₂ <<< (e₂ - min e₁ e₂).toNat : ℕ) :=
      add_pos (Int.natCast_pos.mpr (Nat.shiftLeft_pos_iff.mpr h₁))
        (Int.natCast_pos.mpr (Nat.shiftLeft_pos_iff.mpr h₂))
    exact abs_normalize_of_pos hpos (min e₁ e₂) .positive
  all_goals rfl

theorem abs_sqrt_of_abs_eq {x : Float} (hx : x.abs = x) : x.sqrt.abs = x.sqrt := by
  rw [abs_eq_self_iff] at hx
  refine abs_ofModel_pack ?_
  rw [← hx]
  rcases x.toModel.unpack with s | _ | s | ⟨s, m, e, hm⟩
  case finite => exact abs_roundWithAccuracy _ _ _
  all_goals rfl

theorem abs_norm (v : Vec Float) : v.norm.abs = v.norm :=
  abs_sqrt_of_abs_eq (abs_add_of_abs_eq (abs_mul_self v.x) (abs_mul_self v.y))

theorem abs_eq_of_lt_unpacked {x y : UnpackedFloat} (h : UnpackedFloat.lt x.abs y = true) :
    y.abs = y := by
  rcases y with ⟨_ | _⟩ | _ | ⟨_ | _⟩ | ⟨_ | _, m, e, hm⟩
  case infinity.positive => rfl
  case notANumber => rfl
  case zero.positive => rfl
  case finite.positive => rfl
  all_goals cases x <;> cases h

/-- What a magnitude is below has no sign. -/
theorem abs_eq_of_lt {x y : Float} (h : Scalar.lt x.abs y = true) : y.abs = y := by
  have hlt : UnpackedFloat.lt x.abs.toModel.unpack y.toModel.unpack = true :=
    of_decide_eq_true (of_decide_eq_true h)
  rw [unpack_abs] at hlt
  exact abs_eq_self_iff.mpr (abs_eq_of_lt_unpacked hlt)

theorem abs_eq_of_not_le_zero_unpacked {x : UnpackedFloat} {s : Sign}
    (h : UnpackedFloat.le x (.zero s) = false) : x.abs = x := by
  rcases x with ⟨_ | _⟩ | _ | t | ⟨_ | _, m, e, hm⟩
  case infinity.positive => rfl
  case notANumber => rfl
  case finite.positive => rfl
  all_goals cases h

theorem le_eq_unpacked (x y : Float) :
    Scalar.le x y = UnpackedFloat.le x.toModel.unpack y.toModel.unpack := by
  show decide (x ≤ y) = _
  rw [Bool.eq_iff_iff, decide_eq_true_iff]
  exact ⟨of_decide_eq_true, decide_eq_true⟩

theorem abs_max_zero (x : Float) :
    (Scalar.max x Scalar.zero).abs = Scalar.max x Scalar.zero := by
  unfold Scalar.max
  split
  · rfl
  · next h =>
    rw [Bool.or_eq_true, not_or, Bool.not_eq_true, le_eq_unpacked, unpack_zero] at h
    exact abs_eq_self_iff.mpr (abs_eq_of_not_le_zero_unpacked (Bool.not_eq_true _ ▸ h.2))

/-! ### The smaller and the greater of two doubles -/

theorem eq_nan_of_isNaN {x : Float} (h : x.isNaN = true) : x = Float.nan := by
  rwa [Float.isNaN_eq_decide_eq_nan, decide_eq_true_eq] at h

theorem unpack_nan : Float.nan.toModel.unpack = .notANumber := rfl

theorem le_eq_false_of_isNaN {x y : Float} (h : x.isNaN = true ∨ y.isNaN = true) :
    Scalar.le x y = false := by
  rw [le_eq_unpacked]
  rcases h with h | h
  · rw [eq_nan_of_isNaN h, unpack_nan]
    rfl
  · rw [eq_nan_of_isNaN h, unpack_nan]
    cases x.toModel.unpack <;> rfl

section Magnitudes

variable {x y : Float}

theorem beq_of_rank_eq (hx : x.isNaN = false) (hy : y.isNaN = false) (h : rank x = rank y) :
    (x == y) = true := by
  show UnpackedFloat.beq x.toModel.unpack y.toModel.unpack = true
  unfold UnpackedFloat.beq
  rw [compare_toModel hx hy, h, cmp_self_eq_eq]
  rfl

variable (hx : x.abs = x) (hy : y.abs = y)
include hx hy

/-- Doubles that are their own magnitudes are the same if they compare equal. -/
theorem eq_of_beq_of_abs_eq (h : (x == y) = true) : x = y := by
  obtain ⟨-, -, heq | ⟨-, hzero⟩ | ⟨hzero, -⟩⟩ := Float.beq_iff_ne_nan_and_eq.mp h
  · exact heq
  · rw [hzero] at hy
    exact absurd hy (by decide)
  · rw [hzero] at hx
    exact absurd hx (by decide)

/-- Which of two doubles is taken does not depend on the one that is looked at first.  The greater
one is wanted where `r` is the order, and the smaller one where it is the reverse order. -/
theorem taken_comm {r : Float → Float → Bool}
    (hr : r = Scalar.le ∨ r = fun x y => Scalar.le y x) :
    (if !Scalar.eq x x || r x y then y else x) = if !Scalar.eq y y || r y x then x else y := by
  have hself (z : Float) : (!Scalar.eq z z) = z.isNaN := by
    rw [show Scalar.eq z z = (z == z) from rfl, beq_self_eq, Bool.not_not]
  have hnan (h : x.isNaN = true ∨ y.isNaN = true) : r x y = false ∧ r y x = false := by
    rcases hr with rfl | rfl
    · exact ⟨le_eq_false_of_isNaN h, le_eq_false_of_isNaN h.symm⟩
    · exact ⟨le_eq_false_of_isNaN h.symm, le_eq_false_of_isNaN h⟩
  rw [hself, hself]
  cases hx' : x.isNaN <;> cases hy' : y.isNaN
  case false.false =>
    have htotal : r x y = true ∨ r y x = true := by
      rcases hr with rfl | rfl <;> simp only [scalar_le_iff, hx', hy', le_total]
    have hantisymm (hxy : r x y = true) (hyx : r y x = true) : x = y := by
      refine eq_of_beq_of_abs_eq hx hy (beq_of_rank_eq hx' hy' ?_)
      rcases hr with rfl | rfl
      · exact le_antisymm ((scalar_le_iff hx' hy').mp hxy) ((scalar_le_iff hy' hx').mp hyx)
      · exact le_antisymm ((scalar_le_iff hx' hy').mp hyx) ((scalar_le_iff hy' hx').mp hxy)
    cases hxy : r x y <;> cases hyx : r y x
    case false.false => simp [hxy, hyx] at htotal
    case false.true => rfl
    case true.false => rfl
    case true.true => exact (hantisymm hxy hyx).symm
  case false.true =>
    rw [(hnan (.inr hy')).1]
    rfl
  case true.false =>
    rw [(hnan (.inl hx')).2]
    rfl
  case true.true => exact (eq_nan_of_isNaN hy').trans (eq_nan_of_isNaN hx').symm

theorem min_comm_of_abs_eq : Scalar.min x y = Scalar.min y x :=
  taken_comm hx hy (.inr rfl)

theorem max_comm_of_abs_eq : Scalar.max x y = Scalar.max y x :=
  taken_comm hx hy (.inl rfl)

end Magnitudes

instance commutes : Scalar.Commutes Float where
  add_comm := Double.add_comm
  mul_comm := Double.mul_comm
  sub_mul_self_comm := sub_mul_self_comm
  min_comm := min_comm_of_abs_eq
  max_comm := max_comm_of_abs_eq
  abs_norm := abs_norm
  abs_eq_of_lt := abs_eq_of_lt
  abs_max_zero := abs_max_zero

end NodeLink.Double
