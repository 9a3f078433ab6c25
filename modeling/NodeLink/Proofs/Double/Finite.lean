import NodeLink.Proofs.Double.Packing

/-! # Finite doubles

Changing the sign of a finite double leaves it finite, two finite doubles always compare, and a
finite double differs from itself by a finite amount. -/

namespace NodeLink.Double

open Float.Model
open Float.Model.UnpackedFloat

/-! ### Signs -/

/-- A pattern stands for a finite number unless all bits of its exponent are set. -/
theorem isFinite_unpack (b : BitVec Format.binary64.numBits) :
    (UnpackedFloat.unpack Format.binary64 b).isFinite = true ↔ unpackExponent b ≠ -1#_ := by
  unfold UnpackedFloat.unpack
  by_cases h₁ : unpackExponent b = -1#_
  · rw [if_pos h₁]
    refine iff_of_false ?_ (fun h => h h₁)
    by_cases h₂ : unpackMantissa b = 0#_
    · rw [if_pos h₂]
      exact Bool.false_ne_true
    · rw [if_neg h₂]
      exact Bool.false_ne_true
  · rw [if_neg h₁]
    refine iff_of_true ?_ h₁
    by_cases h₂ : unpackExponent b = 0#_
    · rw [if_pos h₂]
      by_cases h₃ : unpackMantissa b = 0#_
      · rw [dif_pos h₃]
        rfl
      · rw [dif_neg h₃]
        rfl
    · rw [if_neg h₂]
      rfl

theorem isFinite_pack_resign (t : Sign) (x : Float.Model) (h : x.unpack.isFinite = true) :
    (Float.Model.pack (resign t x.unpack)).unpack.isFinite = true := by
  have hexp := (isFinite_unpack _).mp h
  show (UnpackedFloat.unpack Format.binary64
    (UnpackedFloat.pack Format.binary64 (resign t x.unpack))).isFinite = true
  rw [isFinite_unpack]
  unfold Float.Model.unpack
  rw [pack_resign t _ (absurd · hexp), unpackExponent_packComponents]
  exact hexp

theorem exists_neg_eq_resign (x : UnpackedFloat) : ∃ t, x.neg = resign t x := by
  cases x with
  | notANumber => exact ⟨.positive, rfl⟩
  | infinity s => exact ⟨-s, rfl⟩
  | zero s => exact ⟨-s, rfl⟩
  | finite s m e hm => exact ⟨-s, rfl⟩

theorem abs_eq_resign (x : UnpackedFloat) : x.abs = resign .positive x := by
  cases x <;> rfl

theorem isFinite_neg {x : Float} (h : x.isFinite = true) : (-x).isFinite = true := by
  obtain ⟨t, ht⟩ := exists_neg_eq_resign x.toModel.unpack
  show (Float.Model.pack (UnpackedFloat.neg x.toModel.unpack)).unpack.isFinite = true
  rw [ht]
  exact isFinite_pack_resign t x.toModel h

theorem isFinite_abs {x : Float} (h : x.isFinite = true) : x.abs.isFinite = true := by
  show (Float.Model.pack (UnpackedFloat.abs x.toModel.unpack)).unpack.isFinite = true
  rw [abs_eq_resign]
  exact isFinite_pack_resign .positive x.toModel h

/-! ### Order -/

theorem compare_swap (x y : UnpackedFloat) :
    UnpackedFloat.compare y x = (UnpackedFloat.compare x y).map Ordering.swap := by
  rcases x with ⟨_ | _⟩ | _ | _ | ⟨_ | _, m₁, e₁, _⟩ <;>
    rcases y with ⟨_ | _⟩ | _ | _ | ⟨_ | _, m₂, e₂, _⟩ <;> try rfl
  · simp only [UnpackedFloat.compare, Option.map_some]
    rw [Ordering.swap_then, Int.compare_swap, Nat.compare_swap, Ordering.swap_swap]
  · simp only [UnpackedFloat.compare, Option.map_some]
    rw [Ordering.swap_then, Int.compare_swap, Nat.compare_swap]

theorem exists_compare {x y : UnpackedFloat} (hx : x.isFinite = true) (hy : y.isFinite = true) :
    ∃ o, UnpackedFloat.compare x y = some o := by
  rcases x with _ | _ | _ | ⟨_ | _, _, _, _⟩ <;>
    rcases y with _ | _ | _ | ⟨_ | _, _, _, _⟩ <;>
    first
      | exact ⟨_, rfl⟩
      | exact absurd hx Bool.false_ne_true
      | exact absurd hy Bool.false_ne_true

theorem lt_of_not_le {x y : Float} (hx : x.isFinite = true) (hy : y.isFinite = true)
    (h : ¬ x ≤ y) : y < x := by
  obtain ⟨o, ho⟩ := exists_compare hx hy
  have hle : ¬ UnpackedFloat.le x.toModel.unpack y.toModel.unpack = true :=
    fun hle => h (decide_eq_true hle)
  have hlt : UnpackedFloat.lt y.toModel.unpack x.toModel.unpack = true := by
    unfold UnpackedFloat.le at hle
    unfold UnpackedFloat.lt
    rw [ho] at hle
    rw [compare_swap x.toModel.unpack, ho]
    cases o with
    | lt => exact absurd rfl hle
    | eq => exact absurd rfl hle
    | gt => rfl
  exact decide_eq_true hlt

theorem not_lt_self (x : Float) : ¬ x < x := by
  intro hlt
  have hself := compare_swap x.toModel.unpack x.toModel.unpack
  have hlt' : UnpackedFloat.lt x.toModel.unpack x.toModel.unpack = true := of_decide_eq_true hlt
  unfold UnpackedFloat.lt at hlt'
  rw [eq_of_beq hlt'] at hself
  cases hself

theorem isNaN_of_lt {x y : Float} (h : x < y) : x.isNaN = false := by
  have hlt : UnpackedFloat.lt x.toModel.unpack y.toModel.unpack = true := of_decide_eq_true h
  show x.toModel.unpack.isNaN = false
  cases hx : x.toModel.unpack with
  | notANumber =>
      rw [hx] at hlt
      cases hlt
  | _ => rfl

theorem isNaN_eq_false {x : Float} (h : x.isFinite = true) : x.isNaN = false := by
  have h' : x.toModel.unpack.isFinite = true := h
  show x.toModel.unpack.isNaN = false
  cases hx : x.toModel.unpack with
  | notANumber =>
      rw [hx] at h'
      cases h'
  | infinity s => rfl
  | zero s => rfl
  | finite s m e hm => rfl

/-- The smaller and the greater of two finite doubles are finite, and the same or in order. -/
theorem min_max_of_isFinite {x y : Float} (hx : x.isFinite = true) (hy : y.isFinite = true) :
    (Scalar.min x y).isFinite = true ∧ (Scalar.max x y).isFinite = true ∧
      (Scalar.min x y < Scalar.max x y ∨ Scalar.max x y = Scalar.min x y) := by
  have heq : Scalar.eq x x = true := by
    show (x == x) = true
    rw [beq_self_eq, isNaN_eq_false hx]
    rfl
  have hmin : Scalar.min x y = if y ≤ x then y else x := by
    unfold Scalar.min
    rw [heq]
    by_cases h : y ≤ x
    · rw [if_pos h]
      exact if_pos (decide_eq_true h)
    · rw [if_neg h]
      exact if_neg (fun hle => h (of_decide_eq_true hle))
  have hmax : Scalar.max x y = if x ≤ y then y else x := by
    unfold Scalar.max
    rw [heq]
    by_cases h : x ≤ y
    · rw [if_pos h]
      exact if_pos (decide_eq_true h)
    · rw [if_neg h]
      exact if_neg (fun hle => h (of_decide_eq_true hle))
  rw [hmin, hmax]
  by_cases hyx : y ≤ x
  · by_cases hxy : x ≤ y
    · rw [if_pos hyx, if_pos hxy]
      exact ⟨hy, hy, Or.inr rfl⟩
    · rw [if_pos hyx, if_neg hxy]
      exact ⟨hy, hx, Or.inl (lt_of_not_le hx hy hxy)⟩
  · by_cases hxy : x ≤ y
    · rw [if_neg hyx, if_pos hxy]
      exact ⟨hx, hy, Or.inl (lt_of_not_le hy hx hyx)⟩
    · rw [if_neg hyx, if_neg hxy]
      exact ⟨hx, hx, Or.inr rfl⟩

/-! ### Differences -/

theorem normalize_zero (e : Int) (s : Sign) :
    UnpackedFloat.normalize Format.binary64 0 e s = .zero s := rfl

theorem isFinite_sub_self {x : Float} (h : x.isFinite = true) : (x - x).isFinite = true := by
  have hsub : ∃ s, UnpackedFloat.sub Format.binary64 x.toModel.unpack x.toModel.unpack =
      .zero s := by
    have h' : x.toModel.unpack.isFinite = true := h
    cases hx : x.toModel.unpack with
    | notANumber =>
        rw [hx] at h'
        cases h'
    | infinity s =>
        rw [hx] at h'
        cases h'
    | zero s => cases s <;> exact ⟨_, rfl⟩
    | finite s m e hm =>
        refine ⟨.positive, ?_⟩
        simp only [UnpackedFloat.sub, Int.sub_self]
        exact normalize_zero _ _
  obtain ⟨s, hs⟩ := hsub
  show (Float.Model.pack (UnpackedFloat.sub Format.binary64 x.toModel.unpack
    x.toModel.unpack)).unpack.isFinite = true
  rw [hs, unpack_pack_zero]
  rfl

end NodeLink.Double
