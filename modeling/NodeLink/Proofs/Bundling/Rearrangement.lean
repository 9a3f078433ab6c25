import NodeLink.Proofs.Bundling.Restriction
import NodeLink.Proofs.Bundling.Scores
import NodeLink.Proofs.Exact.ArcLength

/-! # Edges in another order, or the other way around

In exact arithmetic a run of the schedule goes in step with a run on the same edges at other
positions, some of them turned (`bundleKept_rearranged`): between two passes the paths of both runs
are the same ones at the rearranged positions, the turned ones from their other end
(`InStep`).  Unlike in a run on a part of the edges, the pulls on a point come in another order,
and edges are scored in the other order; neither matters to real numbers.  That an edge is turned
shows only to those that attract it, as they pull at the points of the same index: so edges that
attract each other are to be turned alike, unless paths have so few points that every inner one
stands where it stood. -/

namespace NodeLink

open scoped Exact

/-- A segment, with its ends exchanged if it is turned. -/
def Segment.turn {α : Type} (turned : Bool) (segment : Segment α) : Segment α :=
  if turned then segment.reverse else segment

namespace Bundling

/-- A path, from its last point to its first one if it is turned. -/
def turn {α : Type} (turned : Bool) (path : Array (Point α)) : Array (Point α) :=
  if turned then path.reverse else path

theorem turn_empty {α : Type} (turned : Bool) : turn turned (#[] : Array (Point α)) = #[] := by
  cases turned <;> rfl

/-- How things stand in another list: at which position, and whether they are turned there. -/
structure Rearrangement where
  position : Equiv.Perm ℕ
  turned : ℕ → Bool

variable {r : Rearrangement}

/-- What stands at an index stands in the whole at its position, turned or not. -/
def Rearrangement.Relates {β : Type} (r : Rearrangement) (turn : Bool → β → β)
    (xs whole : Array β) : Prop :=
  ∀ i : ℕ, xs[i]? = whole[r.position i]?.map (turn (r.turned i))

theorem Rearrangement.Relates.lt_iff {β : Type} {turn : Bool → β → β} {xs whole : Array β}
    (h : r.Relates turn xs whole) (i : ℕ) : i < xs.size ↔ r.position i < whole.size := by
  have hnone : xs[i]? = none ↔ whole[r.position i]? = none := by rw [h i, Option.map_eq_none_iff]
  rw [Array.getElem?_eq_none_iff, Array.getElem?_eq_none_iff] at hnone
  omega

/-! ### Points of turned paths -/

section Points

variable {count : ℕ} {path : Array (Point ℝ)}

/-- Where a point stands on a path with some inner points if the path is turned. -/
def mirror (turned : Bool) (count index : ℕ) : ℕ :=
  if turned then count + 1 - index else index

/-- Turned or not, a point with too few neighbours stands where it stands. -/
theorem mirror_eq {t u : Bool} {k : ℕ} (h : t = u ∨ count ≤ 1) (h₁ : 1 ≤ k) (h₂ : k ≤ count) :
    mirror t count k = mirror u count k := by
  rcases h with rfl | h
  · rfl
  · unfold mirror
    split_ifs <;> omega

theorem getElem?_turn (turned : Bool) (hsize : path.size = count + 2) {k : ℕ}
    (hk : k ≤ count + 1) : (turn turned path)[k]? = path[mirror turned count k]? := by
  unfold turn mirror
  cases turned with
  | false => rfl
  | true =>
      rw [if_pos rfl, if_pos rfl, Array.getElem?_reverse (by omega), hsize]
      congr 1

end Points

section Runs

variable {parameters : BundlingParameters ℝ} {segments whole : Array (Segment ℝ)} {count : ℕ}
  {paths wholePaths : Array (Array (Point ℝ))} {compatible wholeCompatible : Array (List ℕ)}

/-! ### Two runs -/

/-- Two runs stand at the same point of a cycle, with rearranged paths. -/
structure InStep (r : Rearrangement) (segments whole : Array (Segment ℝ)) (count : ℕ)
    (paths wholePaths : Array (Array (Point ℝ))) : Prop where
  regular : Regular (fun _ _ => True) segments count paths
  regularWhole : Regular (fun _ _ => True) whole count wholePaths
  relates : r.Relates turn paths wholePaths

/-- An edge attracts what it attracts in the whole, and edges that attract each other are turned
alike or have too few points for it to show. -/
structure ListsAgree (r : Rearrangement) (count : ℕ) (compatible wholeCompatible : Array (List ℕ)) :
    Prop where
  perm : ∀ {i : ℕ} {others : List ℕ}, compatible[i]? = some others →
    ∃ wholeOthers, wholeCompatible[r.position i]? = some wholeOthers ∧
      (others.map r.position).Perm wholeOthers
  turned : ∀ {i : ℕ} {others : List ℕ}, compatible[i]? = some others →
    ∀ other ∈ others, r.turned other = r.turned i ∨ count ≤ 1

theorem InStep.getElem?_point (h : InStep r segments whole count paths wholePaths) (i : ℕ) {k : ℕ}
    (hk : k ≤ count + 1) :
    paths[i]?.bind (·[k]?) =
      wholePaths[r.position i]?.bind (·[mirror (r.turned i) count k]?) := by
  rw [h.relates i]
  cases hpath : wholePaths[r.position i]? with
  | none => rfl
  | some path =>
      exact getElem?_turn _ (h.regularWhole.size_of_mem (Array.mem_of_getElem? hpath)) hk

theorem inStep_straight (hs : r.Relates Segment.turn segments whole) :
    InStep r segments whole 0 (straight segments) (straight whole) where
  regular := regular_straight (fun _ => trivial) segments
  regularWhole := regular_straight (fun _ => trivial) whole
  relates := by
    intro i
    unfold straight
    rw [Array.getElem?_map, Array.getElem?_map, hs i]
    cases whole[r.position i]? with
    | none => rfl
    | some segment =>
        cases r.turned i with
        | false => rfl
        | true =>
            have hreverse : #[segment.tail, segment.head].reverse = #[segment.head, segment.tail] :=
              List.reverse_toArray
            exact congrArg some hreverse.symm

variable [DivisionByZero]

/-! ### Forces -/

theorem springForce_turn (turned : Bool) {path : Array (Point ℝ)} (hsize : path.size = count + 2)
    {k : ℕ} (h₁ : 1 ≤ k) (h₂ : k ≤ count) (stiffness : ℝ) :
    springForce? (turn turned path) k stiffness =
      springForce? path (mirror turned count k) stiffness := by
  cases turned with
  | false => rfl
  | true =>
      have hbefore := getElem?_turn (k := k - 1) true hsize (by omega)
      have hhere := getElem?_turn (k := k) true hsize (by omega)
      have hafter := getElem?_turn (k := k + 1) true hsize (by omega)
      have hprevious : mirror true count (k - 1) = mirror true count k + 1 := by
        show count + 1 - (k - 1) = count + 1 - k + 1
        omega
      have hnext : mirror true count (k + 1) = mirror true count k - 1 := by
        show count + 1 - (k + 1) = count + 1 - k - 1
        omega
      have hinner : 0 < mirror true count k ∧ mirror true count k + 1 < path.size := by
        show 0 < count + 1 - k ∧ count + 1 - k + 1 < path.size
        omega
      unfold springForce?
      rw [if_neg (by omega), if_neg (by omega), hbefore, hhere, hafter, hprevious, hnext,
        Array.getElem?_eq_getElem (by omega : mirror true count k + 1 < path.size),
        Array.getElem?_eq_getElem (by omega : mirror true count k < path.size),
        Array.getElem?_eq_getElem (by omega : mirror true count k - 1 < path.size)]
      show some (_ : Vec ℝ) = some _
      rw [Vec.add_comm_real]

theorem addUnit_comm (threshold : ℝ) (total a b : Vec ℝ) :
    addUnit threshold (addUnit threshold total a) b =
      addUnit threshold (addUnit threshold total b) a := by
  unfold addUnit
  split_ifs
  · exact Vec.add_right_comm_real _ _ _
  · rfl
  · rfl
  · rfl

theorem pulls_perm (paths : Array (Array (Point ℝ))) (index : ℕ) (threshold : ℝ)
    (current : Point ℝ) {others others' : List ℕ} (h : others.Perm others') (total : Vec ℝ) :
    pulls? paths index threshold current total others =
      pulls? paths index threshold current total others' := by
  induction h generalizing total with
  | nil => rfl
  | cons other h ih =>
      unfold pulls?
      cases paths[other]?.bind (·[index]?) with
      | none => rfl
      | some point => exact ih _
  | swap a b others =>
      simp only [pulls?]
      cases paths[a]?.bind (·[index]?) with
      | none => cases paths[b]?.bind (·[index]?) <;> rfl
      | some p =>
          cases paths[b]?.bind (·[index]?) with
          | none => rfl
          | some q =>
              dsimp only
              rw [addUnit_comm]
  | trans _ _ ih₁ ih₂ => exact (ih₁ total).trans (ih₂ total)

theorem pulls_map {index wholeIndex : ℕ} (threshold : ℝ) (current : Point ℝ) (f : ℕ → ℕ) :
    ∀ (others : List ℕ) (total : Vec ℝ),
      (∀ other ∈ others,
        paths[other]?.bind (·[index]?) = wholePaths[f other]?.bind (·[wholeIndex]?)) →
        pulls? paths index threshold current total others =
          pulls? wholePaths wholeIndex threshold current total (others.map f)
  | [], _, _ => rfl
  | other :: others, total, h => by
      rw [List.map_cons]
      unfold pulls?
      rw [h other List.mem_cons_self]
      cases wholePaths[f other]?.bind (·[wholeIndex]?) with
      | none => rfl
      | some point =>
          exact pulls_map threshold current f others _ fun o ho => h o (List.mem_cons_of_mem _ ho)

theorem InStep.displacement (h : InStep r segments whole count paths wholePaths)
    (hc : ListsAgree r count compatible wholeCompatible) {i : ℕ} {others wholeOthers : List ℕ}
    (hothers : compatible[i]? = some others)
    (hwhole : wholeCompatible[r.position i]? = some wholeOthers) {path : Array (Point ℝ)}
    (hpath : wholePaths[r.position i]? = some path) (stiffness stepSize : ℝ) {k : ℕ} (h₁ : 1 ≤ k)
    (h₂ : k ≤ count) :
    displacement? paths others i (turn (r.turned i) path) stiffness stepSize k =
      displacement? wholePaths wholeOthers (r.position i) path stiffness stepSize
        (mirror (r.turned i) count k) := by
  have hsize := h.regularWhole.size_of_mem (Array.mem_of_getElem? hpath)
  obtain ⟨wholeOthers', hwhole', hperm⟩ := hc.perm hothers
  obtain rfl : wholeOthers = wholeOthers' := Option.some.inj (hwhole.symm.trans hwhole')
  unfold displacement? electrostaticForce?
  rw [springForce_turn _ hsize h₁ h₂, h.getElem?_point i (by omega)]
  cases wholePaths[r.position i]?.bind (·[mirror (r.turned i) count k]?) with
  | none => rfl
  | some current =>
      have hpulls : ∀ other ∈ others, paths[other]?.bind (·[k]?) =
          wholePaths[r.position other]?.bind (·[mirror (r.turned i) count k]?) := by
        intro other hother
        rw [h.getElem?_point other (by omega), mirror_eq (hc.turned hothers other hother) h₁ h₂]
      simp only [pulls_map stepSize current r.position others Vec.zero hpulls,
        pulls_perm _ _ _ _ hperm]

/-! ### A pass -/

theorem displacement_of_displacements {path : Array (Point ℝ)} {i : ℕ} {others : List ℕ}
    {segment : Segment ℝ} {stepSize : ℝ} {inner : List (Vec ℝ)} (hp : paths[i]? = some path)
    (hsize : path.size = count + 2)
    (hd : displacements? paths others i segment stepSize parameters =
      some (Vec.zero :: (inner ++ [Vec.zero]))) {k : ℕ} (hk : k < count) :
    inner[k]? = displacement? paths others i path
      (@HDiv.hDiv ℝ ℝ ℝ (@instHDiv ℝ Scalar.toDiv) parameters.stiffness
        (segment.lengthAtLeast parameters.lengthTolerance * Scalar.ofNat (count + 1)))
      stepSize (k + 1) := by
  unfold displacements? at hd
  rw [hp] at hd
  simp only [hsize, Nat.add_sub_cancel] at hd
  split at hd
  · cases hd
  · rename_i found hfound
    rw [if_pos (by omega)] at hd
    have hinner : found = inner := by simpa using hd
    subst hinner
    refine getElem?_mapM hfound ?_
    rw [List.getElem?_range' hk, Nat.one_mul, Nat.add_comm]

theorem lengthAtLeast_turn (turned : Bool) (segment : Segment ℝ) (tolerance : ℝ) :
    (segment.turn turned).lengthAtLeast tolerance = segment.lengthAtLeast tolerance := by
  cases turned with
  | false => rfl
  | true => exact Segment.lengthAtLeast_reverse segment tolerance

/-- The inner points of a path move as they move in the whole, from the other end if the path is
turned. -/
theorem InStep.inner_eq (h : InStep r segments whole count paths wholePaths)
    (hc : ListsAgree r count compatible wholeCompatible) {i : ℕ} {others wholeOthers : List ℕ}
    (hothers : compatible[i]? = some others)
    (hwhole : wholeCompatible[r.position i]? = some wholeOthers) {path : Array (Point ℝ)}
    (hpath : wholePaths[r.position i]? = some path) {segment : Segment ℝ} {stepSize : ℝ}
    {inner wholeInner : List (Vec ℝ)} (hlength : inner.length = count)
    (hwholeLength : wholeInner.length = count)
    (hinner : displacements? paths others i (segment.turn (r.turned i)) stepSize parameters =
      some (Vec.zero :: (inner ++ [Vec.zero])))
    (hwholeInner : displacements? wholePaths wholeOthers (r.position i) segment stepSize
      parameters = some (Vec.zero :: (wholeInner ++ [Vec.zero]))) :
    inner = if r.turned i then wholeInner.reverse else wholeInner := by
  have hp : paths[i]? = some (turn (r.turned i) path) := by
    rw [h.relates i, hpath, Option.map_some]
  have hsize := h.regular.size_of_mem (Array.mem_of_getElem? hp)
  have hwholeSize := h.regularWhole.size_of_mem (Array.mem_of_getElem? hpath)
  refine List.ext_getElem? fun k => ?_
  by_cases hk : k < count
  · rw [displacement_of_displacements hp hsize hinner hk, lengthAtLeast_turn,
      h.displacement hc hothers hwhole hpath _ _ (by omega) hk]
    unfold mirror
    split_ifs with hturned
    · rw [List.getElem?_reverse (by omega), hwholeLength,
        displacement_of_displacements hpath hwholeSize hwholeInner (by omega)]
      congr 1
      omega
    · rw [displacement_of_displacements hpath hwholeSize hwholeInner hk]
  · rw [List.getElem?_eq_none (by omega), List.getElem?_eq_none]
    split_ifs
    · rw [List.length_reverse]
      omega
    · omega

theorem displace_turn (turned : Bool) {path : Array (Point ℝ)} {inner wholeInner : List (Vec ℝ)}
    (hsize : path.size = count + 2) (hlength : wholeInner.length = count)
    (hinner : inner = if turned then wholeInner.reverse else wholeInner) :
    displace (turn turned path) (Vec.zero :: (inner ++ [Vec.zero])) =
      turn turned (displace path (Vec.zero :: (wholeInner ++ [Vec.zero]))) := by
  subst hinner
  cases turned with
  | false => rfl
  | true =>
      have hds : (Vec.zero :: (wholeInner.reverse ++ [Vec.zero]) : List (Vec ℝ)) =
          (Vec.zero :: (wholeInner ++ [Vec.zero])).reverse := by simp
      have hpath : path.size = (Vec.zero :: (wholeInner ++ [Vec.zero]) : List (Vec ℝ)).length := by
        simp [hsize, hlength]
      show displace path.reverse (Vec.zero :: (wholeInner.reverse ++ [Vec.zero])) =
        (displace path (Vec.zero :: (wholeInner ++ [Vec.zero]))).reverse
      rw [hds, displace_eq _ (by rw [Array.size_reverse, List.length_reverse, hpath]),
        displace_eq _ hpath, Array.toList_reverse, ← List.reverse_zipWith hpath,
        List.reverse_toArray]

theorem InStep.pass (hs : r.Relates Segment.turn segments whole)
    (hindexed : Indexed segments compatible) (hindexedWhole : Indexed whole wholeCompatible)
    (hc : ListsAgree r count compatible wholeCompatible) (stepSize : ℝ)
    (h : InStep r segments whole count paths wholePaths) :
    InStep r segments whole count (pass parameters segments compatible stepSize paths)
      (pass parameters whole wholeCompatible stepSize wholePaths) where
  regular := h.regular.pass (fun _ _ _ => trivial) hindexed parameters stepSize
  regularWhole := h.regularWhole.pass (fun _ _ _ => trivial) hindexedWhole parameters stepSize
  relates := by
    intro i
    have hp := h.relates i
    unfold Bundling.pass
    rw [Array.getElem?_mapIdx, Array.getElem?_mapIdx, hp]
    cases hpath : wholePaths[r.position i]? with
    | none => rfl
    | some path =>
        have hwholeSize : r.position i < whole.size :=
          h.regularWhole.size ▸ (Array.getElem?_eq_some_iff.mp hpath).1
        have hwhole := Array.getElem?_eq_getElem hwholeSize
        have hi := hs i
        rw [hwhole, Option.map_some] at hi
        rw [hpath, Option.map_some] at hp
        have hsize : i < segments.size := (Array.getElem?_eq_some_iff.mp hi).1
        have hothers := Array.getElem?_eq_getElem (hindexed.size ▸ hsize)
        have hwholeOthers := Array.getElem?_eq_getElem (hindexedWhole.size ▸ hwholeSize)
        obtain ⟨inner, hinner, hlength⟩ :=
          h.regular.exists_displacements hi hp (hindexed.lt hothers) stepSize parameters
        obtain ⟨wholeInner, hwholeInner, hwholeLength⟩ :=
          h.regularWhole.exists_displacements hwhole hpath (hindexedWhole.lt hwholeOthers)
            stepSize parameters
        rw [Option.map_some, hwhole, hwholeOthers, hi, hothers]
        simp only [hinner, hwholeInner, Option.map_some, Option.getD_some]
        exact congrArg some (displace_turn _ (h.regularWhole.spans hwhole hpath).size hwholeLength
          (h.inner_eq hc hothers hwholeOthers hpath hlength hwholeLength hinner hwholeInner))

/-! ### The schedule -/

theorem resample_turn (turned : Bool) (path : Array (Point ℝ)) (k : ℕ) :
    (Polyline.resample (turn turned path).toList k).toArray =
      turn turned (Polyline.resample path.toList k).toArray := by
  cases turned with
  | false => rfl
  | true =>
      show (Polyline.resample path.reverse.toList k).toArray =
        (Polyline.resample path.toList k).toArray.reverse
      rw [Array.toList_reverse, Polyline.resample_reverse, List.reverse_toArray]

theorem InStep.resampleAll (h : InStep r segments whole count paths wholePaths) (k : ℕ) :
    InStep r segments whole k (resampleAll paths k) (resampleAll wholePaths k) where
  regular := h.regular.resampleAll k
  regularWhole := h.regularWhole.resampleAll k
  relates := by
    intro i
    unfold Bundling.resampleAll
    rw [Array.getElem?_map, Array.getElem?_map, h.relates i]
    cases wholePaths[r.position i]? with
    | none => rfl
    | some path => exact congrArg some (resample_turn _ path k)

/-- Two runs stand at the same point of the schedule, with rearranged paths. -/
structure Cycle.InStep (r : Rearrangement) (segments whole : Array (Segment ℝ))
    (cycle wholeCycle : Cycle ℝ) : Prop where
  paths : Bundling.InStep r segments whole wholeCycle.subdivision cycle.paths wholeCycle.paths
  stepSize : cycle.stepSize = wholeCycle.stepSize
  subdivision : cycle.subdivision = wholeCycle.subdivision
  iterations : cycle.iterations = wholeCycle.iterations

theorem Cycle.InStep.next (hs : r.Relates Segment.turn segments whole)
    (hindexed : Indexed segments compatible) (hindexedWhole : Indexed whole wholeCompatible)
    {cycle wholeCycle : Cycle ℝ}
    (hc : ListsAgree r wholeCycle.subdivision compatible wholeCompatible)
    (h : Cycle.InStep r segments whole cycle wholeCycle) :
    Cycle.InStep r segments whole (cycle.next parameters segments compatible)
      (wholeCycle.next parameters whole wholeCompatible) := by
  have hpasses : Bundling.InStep r segments whole wholeCycle.subdivision
      (Nat.repeat (pass parameters segments compatible cycle.stepSize) cycle.passes cycle.paths)
      (Nat.repeat (pass parameters whole wholeCompatible wholeCycle.stepSize) wholeCycle.passes
        wholeCycle.paths) := by
    unfold Cycle.passes
    rw [h.stepSize, h.iterations]
    exact repeat_related
      (fun _ _ hp => hp.pass hs hindexed hindexedWhole hc wholeCycle.stepSize) _ h.paths
  unfold Cycle.next Cycle.refine
  rw [h.subdivision]
  exact ⟨hpasses.resampleAll _, by rw [h.stepSize], rfl, by rw [h.iterations]⟩

/-! ### What attracts what -/

theorem attracts_iff (parameters : BundlingParameters ℝ) (segments : Array (Segment ℝ))
    (p q : ℕ) :
    attracts parameters segments p q = true ↔
      p ≠ q ∧ ∃ a b, segments[p]? = some a ∧ segments[q]? = some b ∧ Compatible parameters a b := by
  rw [attracts_eq_true_iff]
  refine and_congr_right fun _ => ?_
  rcases Nat.le_total p q with h | h
  · rw [min_eq_left h, max_eq_right h]
  · rw [min_eq_right h, max_eq_left h]
    unfold Compatible
    constructor
    · rintro ⟨a, b, ha, hb, hscore⟩
      exact ⟨b, a, hb, ha, by rwa [Compatibility.score_comm]⟩
    · rintro ⟨a, b, ha, hb, hscore⟩
      exact ⟨b, a, hb, ha, by rwa [Compatibility.score_comm]⟩

theorem isDegenerate_turn (turned : Bool) (segment : Segment ℝ) :
    (segment.turn turned).isDegenerate = segment.isDegenerate := by
  cases turned with
  | false => rfl
  | true => exact segment.isDegenerate_reverse

theorem score_turn {a b : Segment ℝ} (ha : a.isDegenerate = false) (hb : b.isDegenerate = false)
    (t u : Bool) (tolerance : ℝ) :
    Compatibility.score (a.turn t) (b.turn u) tolerance = Compatibility.score a b tolerance := by
  have hfirst {a b : Segment ℝ} (ha : a.isDegenerate = false) (hb : b.isDegenerate = false)
      (t : Bool) : Compatibility.score (a.turn t) b tolerance =
        Compatibility.score a b tolerance := by
    cases t with
    | false => rfl
    | true => exact Compatibility.score_reverse ha hb tolerance
  rw [hfirst ha (by rw [isDegenerate_turn, hb]), Compatibility.score_comm, hfirst hb ha,
    Compatibility.score_comm]

theorem compatible_turn {a b : Segment ℝ} (ha : a.isDegenerate = false)
    (hb : b.isDegenerate = false) (t u : Bool) :
    Compatible parameters (a.turn t) (b.turn u) ↔ Compatible parameters a b := by
  unfold Compatible
  rw [score_turn ha hb]

/-- Edges attract each other as they do in the whole. -/
theorem attracts_rearranged (hs : r.Relates Segment.turn segments whole)
    (hkept : ∀ segment ∈ whole, segment.isDegenerate = false) (p q : ℕ) :
    attracts parameters segments p q =
      attracts parameters whole (r.position p) (r.position q) := by
  rw [Bool.eq_iff_iff, attracts_iff, attracts_iff, hs p, hs q, r.position.injective.ne_iff]
  refine and_congr_right fun _ => ?_
  constructor
  · rintro ⟨_, _, hp, hq, hcompatible⟩
    obtain ⟨a, ha, rfl⟩ := Option.map_eq_some_iff.mp hp
    obtain ⟨b, hb, rfl⟩ := Option.map_eq_some_iff.mp hq
    exact ⟨a, b, ha, hb, (compatible_turn (hkept a (Array.mem_of_getElem? ha))
      (hkept b (Array.mem_of_getElem? hb)) _ _).mp hcompatible⟩
  · rintro ⟨a, b, ha, hb, hcompatible⟩
    exact ⟨_, _, Option.map_eq_some_iff.mpr ⟨a, ha, rfl⟩, Option.map_eq_some_iff.mpr ⟨b, hb, rfl⟩,
      (compatible_turn (hkept a (Array.mem_of_getElem? ha))
        (hkept b (Array.mem_of_getElem? hb)) _ _).mpr hcompatible⟩

/-- The lists of attracted edges agree, if edges that attract each other are turned alike or have
too few points for it to show. -/
theorem listsAgree (hs : r.Relates Segment.turn segments whole)
    (hkept : ∀ segment ∈ whole, segment.isDegenerate = false)
    (hturned : ∀ p q, attracts parameters segments p q = true →
      r.turned q = r.turned p ∨ count ≤ 1) :
    ListsAgree r count (compatibilityLists parameters segments)
      (compatibilityLists parameters whole) where
  perm := by
    intro i others hothers
    unfold compatibilityLists at hothers ⊢
    rw [Array.getElem?_ofFn] at hothers ⊢
    by_cases hi : i < segments.size
    · rw [dif_pos hi] at hothers
      rw [dif_pos ((hs.lt_iff i).mp hi)]
      refine ⟨_, rfl, ?_⟩
      obtain rfl := Option.some.inj hothers
      rw [List.perm_ext_iff_of_nodup
        ((List.nodup_range.filter _).map r.position.injective) (List.nodup_range.filter _)]
      intro j
      obtain ⟨k, rfl⟩ := r.position.surjective j
      rw [List.mem_map_of_injective r.position.injective, List.mem_filter, List.mem_filter,
        List.mem_range, List.mem_range, hs.lt_iff, attracts_rearranged hs hkept]
    · rw [dif_neg hi] at hothers
      cases hothers
  turned := by
    intro i others hothers other hother
    unfold compatibilityLists at hothers
    rw [Array.getElem?_ofFn] at hothers
    split_ifs at hothers
    obtain rfl := Option.some.inj hothers
    exact hturned i other (List.mem_filter.mp hother).2

/-- **Rearranged edges end with rearranged paths.** -/
theorem bundleKept_rearranged (hs : r.Relates Segment.turn segments whole)
    (hkept : ∀ segment ∈ whole, segment.isDegenerate = false)
    (hturned : (∀ p q, attracts parameters segments p q = true → r.turned q = r.turned p) ∨
      ∀ n < parameters.cycleCount,
        parameters.initialSubdivision * parameters.subdivisionRate ^ n ≤ 1) :
    r.Relates turn (bundleKept parameters segments) (bundleKept parameters whole) := by
  unfold bundleKept
  by_cases hnone : parameters.cycleCount = 0
  · rw [if_pos hnone, if_pos hnone]
    exact (inStep_straight hs).relates
  · rw [if_neg hnone, if_neg hnone]
    have hcycles : ∀ n ≤ parameters.cycleCount, Cycle.InStep r segments whole
        (Nat.repeat (Cycle.next parameters segments (compatibilityLists parameters segments)) n
          (Cycle.first parameters segments))
        (Nat.repeat (Cycle.next parameters whole (compatibilityLists parameters whole)) n
          (Cycle.first parameters whole)) := by
      intro n
      induction n with
      | zero => exact fun _ => ⟨(inStep_straight hs).resampleAll _, rfl, rfl, rfl⟩
      | succ n ih =>
          intro hn
          refine (ih (by omega)).next hs (indexed_compatibilityLists parameters segments)
            (indexed_compatibilityLists parameters whole)
            (listsAgree hs hkept fun p q hattracts => ?_)
          rcases hturned with halike | hfew
          · exact Or.inl (halike p q hattracts)
          · rw [subdivision_repeat]
            exact Or.inr ((Nat.min_le_left _ _).trans (hfew n (by omega)))
    exact (hcycles _ le_rfl).paths.relates

end Runs

end Bundling

end NodeLink
