import NodeLink.Proofs.Double.Operations

/-! # Differences and their squares

A difference of two doubles has the same magnitude the other way around, whatever the two doubles
are (`abs_sub_comm`): infinities, numbers whose difference overflows, and what is not a number.  A
square is that of the magnitude (`abs_mul_abs_self`), so squares of differences do not depend on the
order of the two doubles, not even in their last bit (`sub_mul_self_comm`). -/

namespace NodeLink.Double

open Float.Model
open Float.Model.UnpackedFloat

/-! ### Magnitudes of unpacked doubles -/

theorem unpack_packComponents_abs (s : Sign) (e : BitVec 11) (m : BitVec 52) :
    UnpackedFloat.unpack Format.binary64 (packComponents Format.binary64 .positive e m) =
      (UnpackedFloat.unpack Format.binary64 (packComponents Format.binary64 s e m)).abs := by
  unfold UnpackedFloat.unpack
  simp only [unpackExponent_packComponents, unpackMantissa_packComponents,
    unpackSign_packComponents, Sign.ofBitVec_toBitVec]
  split_ifs <;> rfl

/-- Packing keeps magnitudes apart from signs, also of what is too great to be packed. -/
theorem unpack_pack_abs (x : UnpackedFloat) :
    (Float.Model.pack x.abs).unpack = (Float.Model.pack x).unpack.abs := by
  cases x with
  | notANumber => rfl
  | infinity s => exact unpack_packComponents_abs s _ _
  | zero s => exact unpack_packComponents_abs s _ _
  | finite s m e hm =>
    show UnpackedFloat.unpack Format.binary64 (UnpackedFloat.pack Format.binary64 _) =
      (UnpackedFloat.unpack Format.binary64 (UnpackedFloat.pack Format.binary64 _)).abs
    simp only [UnpackedFloat.abs, UnpackedFloat.pack]
    split_ifs <;> exact unpack_packComponents_abs s _ _

theorem abs_round (s : Sign) (m : ℕ) (e : ℤ) :
    (UnpackedFloat.round Format.binary64 s m e).abs =
      UnpackedFloat.round Format.binary64 .positive m e := by
  unfold UnpackedFloat.round UnpackedFloat.roundWithAccuracy
  dsimp only
  split_ifs <;> rfl

theorem abs_normalize_neg (m e : ℤ) (s : Sign) :
    (UnpackedFloat.normalize Format.binary64 (-m) e s).abs =
      (UnpackedFloat.normalize Format.binary64 m e s).abs := by
  unfold UnpackedFloat.normalize
  rcases lt_trichotomy m 0 with h | rfl | h
  · rw [compare_gt_iff_gt.mpr (by omega : -m > 0), compare_lt_iff_lt.mpr h]
    exact (abs_round ..).trans (abs_round ..).symm
  · rfl
  · rw [compare_lt_iff_lt.mpr (by omega : -m < 0), compare_gt_iff_gt.mpr h]
    dsimp only
    rw [neg_neg, abs_round, abs_round]

theorem abs_sub_unpacked (x y : UnpackedFloat) :
    (UnpackedFloat.sub Format.binary64 x y).abs = (UnpackedFloat.sub Format.binary64 y x).abs := by
  rcases x with s | _ | s | ⟨s, m₁, e₁, h₁⟩ <;> rcases y with t | _ | t | ⟨t, m₂, e₂, h₂⟩
  case finite.finite =>
    simp only [UnpackedFloat.sub]
    rw [min_comm e₂ e₁, ← abs_normalize_neg, neg_sub]
  case infinity.infinity => cases s <;> cases t <;> rfl
  case zero.zero => cases s <;> cases t <;> rfl
  all_goals rfl

theorem abs_mul_abs_unpacked (x : UnpackedFloat) :
    UnpackedFloat.mul Format.binary64 x.abs x.abs = UnpackedFloat.mul Format.binary64 x x := by
  cases x with
  | notANumber => rfl
  | infinity s => cases s <;> rfl
  | zero s => cases s <;> rfl
  | finite s m e hm => cases s <;> rfl

/-! ### Magnitudes of doubles -/

/-- A difference has the same magnitude the other way around. -/
theorem abs_sub_comm (x y : Float) : (x - y).abs = (y - x).abs := by
  have hunpack : (x - y).toModel.unpack.abs = (y - x).toModel.unpack.abs := by
    show (Float.Model.pack _).unpack.abs = (Float.Model.pack _).unpack.abs
    rw [← unpack_pack_abs, ← unpack_pack_abs, abs_sub_unpacked]
  show Float.ofModel (Float.Model.pack _) = Float.ofModel (Float.Model.pack _)
  rw [hunpack]

theorem abs_mul_abs_self (x : Float) : x.abs * x.abs = x * x := by
  show Float.ofModel (Float.Model.pack (UnpackedFloat.mul Format.binary64 x.abs.toModel.unpack
    x.abs.toModel.unpack)) =
      Float.ofModel (Float.Model.pack (UnpackedFloat.mul Format.binary64 _ _))
  rw [unpack_abs, abs_mul_abs_unpacked]

/-- The square of a difference does not depend on the order of the two doubles. -/
theorem sub_mul_self_comm (x y : Float) : (x - y) * (x - y) = (y - x) * (y - x) := by
  rw [← abs_mul_abs_self, abs_sub_comm, abs_mul_abs_self]

end NodeLink.Double
