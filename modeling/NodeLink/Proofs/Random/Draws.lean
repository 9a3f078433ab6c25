import NodeLink.Random.Stream
import NodeLink.Proofs.Double.Whole

/-! # Draws from a range

A number is drawn anew until it is below the upper end of its range, at most `maxAttempts` times.
The limit makes a loop that ends, and it does not show: a share of less than one eighth is accepted
whatever the ends are, rounding included (`add_lt_of_share_lt`), and once a share is accepted, more
attempts change nothing (`drawBelow_add`).  So the number is the one that is drawn without a limit,
unless none of so many words has three leading zeros (`between_unlimited`). -/

namespace NodeLink.Random

open NodeLink.Double

/-! ### Attempts -/

/-- The word that a stream hands out after a number of others. -/
def Stream.word (stream : Stream) : Nat → UInt64
  | 0 => stream.next.1
  | n + 1 => Stream.word stream.next.2 n

/-- The share of a word. -/
def shareOf {α : Type} [Scalar α] (word : UInt64) : α :=
  Scalar.ratio (word >>> 12).toNat (Nat.pow 2 52)

section Attempts

variable {α : Type} [Scalar α] {low high scale : α}

theorem Stream.drawBelow_succ (stream : Stream) (attempts : Nat) :
    stream.drawBelow low high scale (attempts + 1) =
      if Scalar.lt (shareOf (stream.word 0) * scale + low) high then
        (shareOf (stream.word 0) * scale + low, stream.next.2)
      else stream.next.2.drawBelow low high scale attempts := rfl

/-- Once an attempt is accepted, more attempts change nothing, and the number is below the limit. -/
theorem drawBelow_add (more : Nat) : ∀ {attempts : Nat} {stream : Stream},
    (∃ i < attempts, Scalar.lt (shareOf (stream.word i) * scale + low) high = true) →
      stream.drawBelow low high scale (attempts + more) =
          stream.drawBelow low high scale attempts ∧
        Scalar.lt (stream.drawBelow low high scale attempts).1 high = true
  | 0, _, ⟨_, hlt, _⟩ => absurd hlt (Nat.not_lt_zero _)
  | attempts + 1, stream, ⟨i, hlt, haccepted⟩ => by
      rw [Nat.add_right_comm, Stream.drawBelow_succ, Stream.drawBelow_succ]
      split
      · next hfirst => exact ⟨rfl, hfirst⟩
      · next hfirst =>
        cases i with
        | zero => exact absurd haccepted hfirst
        | succ i => exact drawBelow_add more ⟨i, Nat.lt_of_succ_lt_succ hlt, haccepted⟩

end Attempts

theorem isNaN_drawBelow {low : Float} (hlow : low.isNaN = false) (high scale : Float) :
    ∀ (attempts : Nat) (stream : Stream),
      (Stream.drawBelow low high scale attempts stream).1.isNaN = false
  | 0, _ => hlow
  | attempts + 1, stream => by
      unfold Stream.drawBelow
      dsimp only
      split
      · next hlt => exact Double.isNaN_of_lt (of_decide_eq_true hlt)
      · exact isNaN_drawBelow hlow high scale attempts _

/-! ### Shares of doubles -/

theorem toNat_shiftRight_twelve (word : UInt64) : (word >>> 12).toNat = word.toNat / 2 ^ 12 := by
  rw [UInt64.toNat_shiftRight, Nat.shiftRight_eq_div_pow]
  rfl

theorem real_shareOf (word : UInt64) :
    (shareOf word : Float).isFinite = true ∧
      real (shareOf word) = (word >>> 12).toNat / 2 ^ 52 := by
  have hbits : (word >>> 12).toNat < 2 ^ 52 := by
    have := word.toNat_lt
    rw [toNat_shiftRight_twelve]
    omega
  have hexact : rounded ((word >>> 12).toNat / 2 ^ 52) = (word >>> 12).toNat / 2 ^ 52 := by
    have hmantissa : |((word >>> 12).toNat : ℝ) / 2 ^ 52| =
        (word >>> 12).toNat * 2 ^ (-52 : ℤ) := by
      rw [abs_of_nonneg (by positivity), zpow_neg, div_eq_mul_inv]
      norm_num
    exact rounded_of_mantissa (by omega) (by norm_num) hmantissa
  have hgives : Gives (shareOf word) ((word >>> 12).toNat / 2 ^ 52) := by
    have hratio := gives_ratio (a := (word >>> 12).toNat) (b := Nat.pow 2 52) (by omega)
      (by norm_num) (by norm_num)
    rwa [show ((Nat.pow 2 52 : ℕ) : ℝ) = 2 ^ 52 by norm_num] at hratio
  have hless : ((word >>> 12).toNat : ℝ) / 2 ^ 52 < 1 := by
    rw [div_lt_one (by norm_num)]
    exact_mod_cast hbits
  have hfinite : (shareOf word : Float).isFinite = true := by
    refine hgives.isFinite ?_
    rw [hexact, abs_of_nonneg (by positivity)]
    have := two_pow_lt_overflow
    linarith
  exact ⟨hfinite, (hgives.real_eq hfinite).trans hexact⟩

section Shares

variable {low high share : Float}

theorem add_lt_of_lt_half {d : Float} (hlow : low.isFinite = true) (hhigh : high.isFinite = true)
    (hd : d.isFinite = true) (hnonneg : 0 ≤ real d) (hless : real d < (real high - real low) / 2) :
    d + low < high := by
  have hsum := gives_add hd hlow
  have hrounded : rounded (real d + real low) < real high :=
    rounded_lt_of_nearer (rounded_real hlow) (rounded_real hhigh) (by linarith) (by linarith)
  have hlower : rounded (real low) ≤ rounded (real d + real low) := rounded_mono (by linarith)
  rw [rounded_real hlow] at hlower
  have hfinite : (d + low).isFinite = true := by
    refine hsum.isFinite (lt_of_le_of_lt (abs_le_max_abs_abs hlower hrounded.le) ?_)
    exact max_lt (abs_real_lt_overflow hlow) (abs_real_lt_overflow hhigh)
  rw [lt_iff_real hfinite hhigh, hsum.real_eq hfinite]
  exact hrounded

/-- Less than an eighth of a distance stays below half of it, even if rounding doubles both the
distance and the product. -/
theorem mul_sub_lt_half (hlow : low.isFinite = true) (hhigh : high.isFinite = true)
    (hlt : low < high) (hscale : (high - low).isFinite = true) (hshare : share.isFinite = true)
    (hnonneg : 0 ≤ real share) (hsmall : real share < 1 / 8) :
    (share * (high - low)).isFinite = true ∧ 0 ≤ real (share * (high - low)) ∧
      real (share * (high - low)) < (real high - real low) / 2 := by
  have hreal := (lt_iff_real hlow hhigh).mp hlt
  have hdistance : real (high - low) = rounded (real high - real low) :=
    (gives_sub hhigh hlow).real_eq hscale
  have hpos : 0 ≤ real (high - low) := by
    rw [hdistance]
    exact rounded_nonneg (by linarith)
  have hupper : real (high - low) ≤ 2 * (real high - real low) := by
    rw [hdistance]
    exact rounded_le_two_mul (by linarith)
  have hproduct := gives_mul hshare hscale
  have hexact : 0 ≤ real share * real (high - low) := by positivity
  have hle : real share * real (high - low) ≤ real (high - low) :=
    mul_le_of_le_one_left hpos (by linarith)
  have hfinite : (share * (high - low)).isFinite = true := by
    refine hproduct.isFinite ?_
    rw [abs_of_nonneg (rounded_nonneg hexact)]
    calc rounded (real share * real (high - low)) ≤ rounded (real (high - low)) := rounded_mono hle
      _ = real (high - low) := rounded_real hscale
      _ ≤ |real (high - low)| := le_abs_self _
      _ < overflow := abs_real_lt_overflow hscale
  refine ⟨hfinite, hproduct.real_nonneg hfinite hexact, ?_⟩
  calc real (share * (high - low)) = rounded (real share * real (high - low)) :=
        hproduct.real_eq hfinite
    _ ≤ 2 * (real share * real (high - low)) := rounded_le_two_mul hexact
    _ ≤ 2 * (real share * (2 * (real high - real low))) := by gcongr
    _ < (real high - real low) / 2 := by nlinarith

/-- A share below one eighth is accepted, whatever the ends are. -/
theorem add_lt_of_share_lt (hlow : low.isFinite = true) (hhigh : high.isFinite = true)
    (hlt : low < high) (hscale : (high - low).isFinite = true) (hshare : share.isFinite = true)
    (hnonneg : 0 ≤ real share) (hsmall : real share < 1 / 8) :
    share * (high - low) + low < high := by
  obtain ⟨hfinite, hproduct, hhalf⟩ := mul_sub_lt_half hlow hhigh hlt hscale hshare hnonneg hsmall
  exact add_lt_of_lt_half hlow hhigh hfinite hproduct hhalf

end Shares

/-- **The limit of attempts does not show.**  If one of the words up to it has three leading zeros,
any number of attempts more would draw the same number, and that is below the upper end. -/
theorem between_unlimited {low high : Float} (hlow : low.isFinite = true)
    (hhigh : high.isFinite = true) (hlt : low < high) (hscale : (high - low).isFinite = true)
    {stream : Stream} (hword : ∃ i < maxAttempts, (stream.word i).toNat < 2 ^ 61) (more : Nat) :
    stream.between low high = stream.drawBelow low high (high - low) (maxAttempts + more) ∧
      (stream.between low high).1 < high := by
  obtain ⟨i, hi, hsmall⟩ := hword
  obtain ⟨hshare, hreal⟩ := real_shareOf (stream.word i)
  have hless : real (shareOf (stream.word i)) < 1 / 8 := by
    have hbits : ((stream.word i >>> 12).toNat : ℝ) < 2 ^ 49 := by
      have : (stream.word i >>> 12).toNat < 2 ^ 49 := by
        rw [toNat_shiftRight_twelve]
        omega
      exact_mod_cast this
    rw [hreal, div_lt_iff₀ (by norm_num)]
    refine hbits.trans_eq ?_
    norm_num
  have hnonneg : 0 ≤ real (shareOf (stream.word i)) := by
    rw [hreal]
    positivity
  have haccepted := add_lt_of_share_lt hlow hhigh hlt hscale hshare hnonneg hless
  have hdrawn : Scalar.lt (shareOf (stream.word i) * (high - low) + low) high = true :=
    decide_eq_true haccepted
  obtain ⟨hsame, hbelow⟩ := drawBelow_add more ⟨i, hi, hdrawn⟩
  exact ⟨hsame.symm, of_decide_eq_true hbelow⟩

end NodeLink.Random
