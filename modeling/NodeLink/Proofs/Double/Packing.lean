import NodeLink.Geometry.Scalar
import Mathlib

/-! # Doubles, packed and unpacked

Arithmetic on doubles unpacks its operands, computes on the unpacked form and packs the result.
Packing undoes unpacking (`pack_unpack`), so an operation that hands back one of its operands
unchanged on the unpacked form hands it back unchanged altogether.  The case that matters here
is a sum with zero: it differs from the other summand at most in the sign of zero, which no
comparison sees (`add_zero_beq`). -/

namespace NodeLink.Double

open Float.Model
open Float.Model.UnpackedFloat

/-! ### The fields of a pattern -/

theorem append_fields (b : BitVec 64) :
    b.extractLsb' 63 1 ++ b.extractLsb' 52 11 ++ b.extractLsb' 0 52 = b := by
  rw [BitVec.extractLsb'_append_extractLsb'_eq_extractLsb' (by omega),
    BitVec.extractLsb'_append_extractLsb'_eq_extractLsb' (by omega)]
  exact BitVec.extractLsb'_eq_self

theorem toBitVec_ofBitVec : ∀ s : BitVec 1, (Sign.ofBitVec s).toBitVec = s := by decide

theorem packComponents_fields (b : BitVec Format.binary64.numBits) :
    packComponents Format.binary64 (Sign.ofBitVec (unpackSign b)) (unpackExponent b)
      (unpackMantissa b) = b := by
  unfold packComponents
  rw [toBitVec_ofBitVec]
  exact append_fields b

/-- The hidden bit of a normal number stands above its mantissa. -/
theorem hidden_append (m : BitVec 52) : (1#1 ++ m).toNat = 2 ^ 52 + m.toNat := by
  rw [BitVec.toNat_append, ← Nat.shiftLeft_add_eq_or_of_lt m.isLt]
  rfl

/-! ### Packing undoes unpacking -/

theorem pack_subnormal (s : Sign) (m : BitVec 52) (hm : 0 < m.toNat) :
    UnpackedFloat.pack Format.binary64 (.finite s m.toNat (-1074) hm) =
      packComponents Format.binary64 s 0 m := by
  have hlog : m.toNat.log2 < 52 := by
    rw [Nat.log2_lt (by omega)]
    exact m.isLt
  unfold UnpackedFloat.pack
  rw [if_neg (by decide), if_neg (by show ¬ m.toNat.log2 + 1 = 53; omega),
    BitVec.ofNat_toNat, BitVec.setWidth_eq]
  rfl

theorem pack_normal (s : Sign) (e : BitVec 11) (m : BitVec 52) (he : e ≠ -1#11)
    (hm : 0 < (1#1 ++ m).toNat) :
    UnpackedFloat.pack Format.binary64 (.finite s (1#1 ++ m).toNat ((e.toNat : Int) - 1075) hm) =
      packComponents Format.binary64 s e m := by
  have hlt : e.toNat + 1 < 2 ^ 11 := by
    have : e.toNat ≠ 2047 := fun h => he (BitVec.eq_of_toNat_eq h)
    have := e.isLt
    omega
  have hlog : (1#1 ++ m).toNat.log2 = 52 := by
    have := m.isLt
    rw [hidden_append, Nat.log2_eq_iff (by omega)]
    omega
  have hbias : (((e.toNat : Int) - 1075) + (Format.binary64.exponentBias : Int) +
      (Format.binary64.mantissaBitsWithoutImplicit : Int)).toNat = e.toNat := by
    show ((e.toNat : Int) - 1075 + 1023 + 52).toNat = e.toNat
    omega
  have hlow : BitVec.ofNat 52 (1#1 ++ m).toNat = m := by
    have := m.isLt
    apply BitVec.eq_of_toNat_eq
    rw [BitVec.toNat_ofNat, hidden_append]
    omega
  unfold UnpackedFloat.pack
  simp only [hbias, hlog]
  rw [if_neg (by show ¬ 2 ^ 11 ≤ e.toNat + 1; omega), if_pos (by decide), hlow,
    BitVec.ofNat_toNat, BitVec.setWidth_eq]

/-- The unpacked form with another sign; what is not a number has none. -/
def resign (t : Sign) : UnpackedFloat → UnpackedFloat
  | .notANumber => .notANumber
  | .infinity _ => .infinity t
  | .zero _ => .zero t
  | .finite _ m e hm => .finite t m e hm

theorem resign_unpack (b : BitVec Format.binary64.numBits) :
    resign (Sign.ofBitVec (unpackSign b)) (UnpackedFloat.unpack Format.binary64 b) =
      UnpackedFloat.unpack Format.binary64 b := by
  fun_cases UnpackedFloat.unpack <;> rfl

/-- Packing the unpacked form of a number with another sign changes the sign of its pattern. -/
theorem pack_resign (t : Sign) (b : BitVec Format.binary64.numBits)
    (h : unpackExponent b = -1#_ → unpackMantissa b = 0#_) :
    UnpackedFloat.pack Format.binary64 (resign t (UnpackedFloat.unpack Format.binary64 b)) =
      packComponents Format.binary64 t (unpackExponent b) (unpackMantissa b) := by
  unfold UnpackedFloat.unpack
  by_cases h₁ : unpackExponent b = -1#_
  · rw [if_pos h₁, if_pos (h h₁), h₁, h h₁]
    rfl
  · rw [if_neg h₁]
    by_cases h₂ : unpackExponent b = 0#_
    · rw [if_pos h₂, h₂]
      by_cases h₃ : unpackMantissa b = 0#_
      · rw [dif_pos h₃, h₃]
        rfl
      · rw [dif_neg h₃]
        exact pack_subnormal _ _ _
    · rw [if_neg h₂]
      exact pack_normal _ _ _ h₁ _

theorem pack_unpack_bits (b : BitVec Format.binary64.numBits) (h : Format.binary64.Valid b) :
    UnpackedFloat.pack Format.binary64 (UnpackedFloat.unpack Format.binary64 b) = b := by
  by_cases hnan : unpackExponent b = -1#_ → unpackMantissa b = 0#_
  · rw [← resign_unpack b, pack_resign _ b hnan, packComponents_fields]
  · obtain ⟨h₁, h₂⟩ := Classical.not_imp.mp hnan
    unfold UnpackedFloat.unpack
    rw [if_pos h₁, if_neg h₂]
    exact (h.eq_packedNaN h₁ h₂).symm

/-- Packing the unpacked form of a double yields the double. -/
theorem pack_unpack (x : Float.Model) : Float.Model.pack x.unpack = x := by
  have hbits := pack_unpack_bits x.toBits.toBitVec x.valid
  cases x with
  | mk bits valid =>
      unfold Float.Model.pack Float.Model.unpack
      congr 1
      exact UInt64.toBitVec_inj.mp hbits

/-! ### Sums with zero -/

theorem unpack_pack_zero (s : Sign) : (Float.Model.pack (.zero s)).unpack = .zero s := by
  cases s <;> rfl

theorem unpack_zero : (Scalar.zero : Float).toModel.unpack = .zero .positive :=
  unpack_pack_zero .positive

theorem compare_zero (s t : Sign) (y : UnpackedFloat) :
    UnpackedFloat.compare (.zero s) y = UnpackedFloat.compare (.zero t) y := by
  rcases y with ⟨_ | _⟩ | _ | _ | ⟨_ | _, _, _, _⟩ <;> rfl

/-- Adding zero to a double leaves it the same to comparisons. -/
theorem add_zero_beq (x y : Float) : (x + Scalar.zero == y) = (x == y) := by
  show UnpackedFloat.beq (Float.Model.add x.toModel (Scalar.zero : Float).toModel).unpack _ =
    UnpackedFloat.beq x.toModel.unpack _
  unfold Float.Model.add
  rw [unpack_zero]
  cases hx : x.toModel.unpack with
  | notANumber =>
      show UnpackedFloat.beq (Float.Model.pack .notANumber).unpack _ = _
      rw [← hx, pack_unpack]
  | infinity s =>
      show UnpackedFloat.beq (Float.Model.pack (.infinity s)).unpack _ = _
      rw [← hx, pack_unpack]
  | zero s =>
      have hsum : (Float.Model.pack (UnpackedFloat.add Format.binary64 (.zero s)
          (.zero .positive))).unpack = .zero .positive := by
        cases s <;> exact unpack_pack_zero _
      rw [hsum]
      unfold UnpackedFloat.beq
      rw [compare_zero]
  | finite s m e hm =>
      show UnpackedFloat.beq (Float.Model.pack (.finite s m e hm)).unpack _ = _
      rw [← hx, pack_unpack]

theorem beq_self_eq (x : Float) : (x == x) = !x.isNaN := by
  show UnpackedFloat.beq x.toModel.unpack x.toModel.unpack =
    !UnpackedFloat.isNaN x.toModel.unpack
  cases x.toModel.unpack with
  | notANumber => rfl
  | infinity s => cases s <;> rfl
  | zero s => rfl
  | finite s m e hm =>
      cases s <;> simp [UnpackedFloat.beq, UnpackedFloat.compare, UnpackedFloat.isNaN]

end NodeLink.Double
