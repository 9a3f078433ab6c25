import NodeLink.Geometry.Polyline

/-! # The turns of resampling

Resampling is a loop in a loop: for every target it walks on along the path until it has found the
point there.  All targets share one walk, and no number bounds the inner loop; it stops on a
comparison of lengths, which fails whenever one of them is no number.

A turn of the inner loop (`Placing.turn?`) either places a point for the current target or leaves a
piece of the path behind, however the lengths compare (`turn_of_turn?`).  So the targets and the
pieces that are left get fewer by one with every turn (`Turns.left`), and a run of the loop is over
after as many turns as there were targets and pieces, at the latest.  What it has placed then is the
resampled path without its last point, one point for every target (`turns_walk`,
`resample_turns`). -/

namespace NodeLink.Polyline

variable {α : Type} [Scalar α]

/-! ### Turns -/

/-- Where resampling stands: the points placed so far, the numbers of the targets from the current
one on, and the walk along the path. -/
structure Placing (α : Type) where
  placed : List (Point α)
  targets : List Nat
  walk : Walk α

namespace Placing

/-- Before the first turn the first point of the path is placed, and the whole path lies ahead. -/
def start (first : Point α) (rest : List (Point α)) (count : Nat) : Placing α :=
  ⟨[first], List.range' 1 count, ⟨pieces (first :: rest), Scalar.zero⟩⟩

/-- One turn of the inner loop, as long as there is a target.  When no piece is left the last point
of the path takes the place of the point at the target. -/
def turn? (last : Point α) (step : α) : Placing α → Option (Placing α)
  | ⟨_, [], _⟩ => none
  | ⟨placed, _ :: targets, ⟨[], walked⟩⟩ => some ⟨placed ++ [last], targets, ⟨[], walked⟩⟩
  | ⟨placed, k :: targets, ⟨(a, b) :: ahead, walked⟩⟩ =>
    let length := a.distance b
    let target := step * Scalar.ofNat k
    if Scalar.le target (walked + length) then
      let share :=
        if Scalar.lt Scalar.zero length then (target - walked) / length else Scalar.zero
      let point := a.lerp b (Scalar.clamp share Scalar.zero Scalar.one)
      some ⟨placed ++ [point], targets, ⟨(a, b) :: ahead, walked⟩⟩
    else some ⟨placed, k :: targets, ⟨ahead, walked + length⟩⟩

/-- How many targets and pieces are left. -/
def left (placing : Placing α) : Nat := placing.targets.length + placing.walk.ahead.length

end Placing

/-- What a turn may do: it places a point for the current target and leaves the walk where it is, or
it leaves the current piece behind and places nothing. -/
inductive Turn : Placing α → Placing α → Prop where
  | place (placed : List (Point α)) (point : Point α) (k : Nat) (targets : List Nat)
      (walk : Walk α) :
      Turn ⟨placed, k :: targets, walk⟩ ⟨placed ++ [point], targets, walk⟩
  | pass (placed : List (Point α)) (k : Nat) (targets : List Nat) (piece : Point α × Point α)
      (ahead : List (Point α × Point α)) (walked further : α) :
      Turn ⟨placed, k :: targets, ⟨piece :: ahead, walked⟩⟩ ⟨placed, k :: targets, ⟨ahead, further⟩⟩

section Run

variable (last : Point α) (step : α)

/-- As long as there is a target, there is a turn, and it places a point or leaves a piece
behind. -/
theorem exists_turn {placing : Placing α} (h : placing.targets ≠ []) :
    ∃ next, placing.turn? last step = some next ∧ Turn placing next := by
  obtain ⟨placed, targets, ahead, walked⟩ := placing
  cases targets with
  | nil => exact absurd rfl h
  | cons k targets =>
    cases ahead with
    | nil => exact ⟨_, rfl, .place ..⟩
    | cons piece ahead =>
      unfold Placing.turn?
      dsimp only
      split
      · exact ⟨_, rfl, .place ..⟩
      · exact ⟨_, rfl, .pass ..⟩

theorem turn_of_turn? {placing next : Placing α} (h : placing.turn? last step = some next) :
    Turn placing next := by
  have htargets : placing.targets ≠ [] := by
    intro hnone
    obtain ⟨placed, targets, walk⟩ := placing
    obtain rfl : targets = [] := hnone
    cases h
  obtain ⟨found, hfound, hturn⟩ := exists_turn last step htargets
  rw [h] at hfound
  exact Option.some.inj hfound ▸ hturn

/-- A number of turns, one after another. -/
inductive Turns : Nat → Placing α → Placing α → Prop where
  | refl (placing : Placing α) : Turns 0 placing placing
  | turn {n : Nat} {placing next final : Placing α}
      (h : placing.turn? last step = some next) (hrest : Turns n next final) :
      Turns (n + 1) placing final

end Run

variable {last : Point α} {step : α}

theorem Turns.trans {m n : Nat} {placing next final : Placing α}
    (h : Turns last step m placing next) (hrest : Turns last step n next final) :
    Turns last step (m + n) placing final := by
  induction h with
  | refl placing => rwa [Nat.zero_add]
  | turn h _ ih =>
    rw [Nat.succ_add]
    exact .turn h (ih hrest)

/-- With every turn there is one target or piece less. -/
theorem Turns.left {n : Nat} {placing final : Placing α} (h : Turns last step n placing final) :
    n + final.left = placing.left := by
  induction h with
  | refl placing => exact Nat.zero_add _
  | @turn n placing next final h _ ih =>
    have hleft : next.left + 1 = placing.left := by
      cases turn_of_turn? last step h with
      | place => exact (Nat.succ_add ..).symm
      | pass => rfl
    omega

/-! ### Runs -/

/-- The turns for one target find the point where a walk to it ends. -/
theorem turns_reach (placed : List (Point α)) (k : Nat) (targets : List Nat) :
    ∀ (ahead : List (Point α × Point α)) (walked : α),
      ∃ n, Turns last step n ⟨placed, k :: targets, ⟨ahead, walked⟩⟩
        ⟨placed ++ [(reach last (step * Scalar.ofNat k) walked ahead).1], targets,
          (reach last (step * Scalar.ofNat k) walked ahead).2⟩
  | [], walked => ⟨1, .turn rfl (.refl _)⟩
  | (a, b) :: ahead, walked => by
      rw [reach]
      by_cases h : Scalar.le (step * Scalar.ofNat k) (walked + a.distance b) = true
      · rw [if_pos h]
        exact ⟨1, .turn (if_pos h) (.refl _)⟩
      · rw [if_neg h]
        obtain ⟨n, hrest⟩ := turns_reach placed k targets ahead (walked + a.distance b)
        exact ⟨n + 1, .turn (if_neg h) hrest⟩

/-- The turns for all targets place the points of the whole walk. -/
theorem turns_walk : ∀ (targets : List Nat) (placed : List (Point α)) (state : Walk α),
    ∃ n final, Turns last step n ⟨placed, targets, state⟩ final ∧ final.targets = [] ∧
      final.placed = placed ++ walk last step state targets
  | [], placed, state => ⟨0, _, .refl _, rfl, (List.append_nil placed).symm⟩
  | k :: targets, placed, ⟨ahead, walked⟩ => by
      obtain ⟨m, hfirst⟩ := turns_reach placed k targets ahead walked
      obtain ⟨n, final, hrest, hdone, hplaced⟩ := turns_walk targets _ _
      refine ⟨m + n, final, hfirst.trans hrest, hdone, ?_⟩
      rw [hplaced, List.append_assoc]
      rfl

theorem left_start (first : Point α) (rest : List (Point α)) (count : Nat) :
    (Placing.start first rest count).left = count + rest.length := by
  unfold Placing.left Placing.start pieces
  simp

/-- **Resampling terminates with one point for every target**, whatever the coordinates are and
however lengths compare.  Every turn of the loop places a point or leaves a piece behind, every run
is over after as many turns as there are targets and pieces, and what a finished run has placed is
the resampled path without its last point.  The ends of the path are kept as they are. -/
theorem resample_turns (first : Point α) (rest : List (Point α)) (count : Nat) :
    let last := rest.getLastD first
    let step := length (first :: rest) / Scalar.ofNat (count + 1)
    (∀ placing : Placing α, placing.targets ≠ [] →
      ∃ next, placing.turn? last step = some next ∧ Turn placing next) ∧
    (∀ turns placing, Turns last step turns (.start first rest count) placing →
      turns + placing.left = count + rest.length) ∧
    (∃ turns final, Turns last step turns (.start first rest count) final ∧ final.targets = [] ∧
      resample (first :: rest) count = final.placed ++ [last]) ∧
    (resample (first :: rest) count).length = count + 2 ∧
    (resample (first :: rest) count).head? = some first ∧
    (resample (first :: rest) count).getLast? = some last := by
  intro last step
  have hresample : resample (first :: rest) count =
      first :: (walk last step ⟨pieces (first :: rest), Scalar.zero⟩ (List.range' 1 count) ++
        [last]) := rfl
  obtain ⟨turns, final, hturns, hdone, hplaced⟩ :
      ∃ turns final, Turns last step turns (.start first rest count) final ∧ final.targets = [] ∧
        final.placed = [first] ++
          walk last step ⟨pieces (first :: rest), Scalar.zero⟩ (List.range' 1 count) :=
    turns_walk (List.range' 1 count) [first] ⟨pieces (first :: rest), Scalar.zero⟩
  refine ⟨fun placing => exists_turn last step, fun turns placing h => ?_,
    ⟨turns, final, hturns, hdone, ?_⟩, length_resample first rest count,
    head?_resample first rest count, getLast?_resample first rest count⟩
  · rw [h.left, left_start]
  · rw [hplaced, hresample, List.singleton_append, List.cons_append]

end NodeLink.Polyline
