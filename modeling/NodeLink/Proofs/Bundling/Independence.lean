import NodeLink.Proofs.Bundling.Kept
import NodeLink.Proofs.Bundling.Rearrangement
import NodeLink.Proofs.Exact.Straight

/-! # What bundling does not depend on

In exact arithmetic, with any value for a division by zero, the order in which edges are declared
does not matter: bundling them in another order yields the same paths in that order
(`bundle_permute`).  Which end of an edge is written first does not matter to what it attracts, but
it does to where: the points of two paths that attract each other are counted from the ends that are
written first.  Turning edges turns their paths and changes no other if none of them attracts an
edge that is not turned (`bundle_turned`); two edges between the same points end on different paths
when only one of them is turned (`bundle_antiparallel`). -/

namespace NodeLink.Bundling

open scoped Exact

section Exact

variable [DivisionByZero] {r : Rearrangement} {parameters : BundlingParameters ℝ}
  {segments whole : List (Segment ℝ)}

/-! ### All edges -/

theorem keptIndices_perm
    (hs : ∀ i : ℕ, segments[i]? = whole[r.position i]?.map (Segment.turn (r.turned i))) :
    ((keptIndices segments).map r.position).Perm (keptIndices whole) := by
  rw [List.perm_ext_iff_of_nodup ((nodup_keptIndices segments).map r.position.injective)
    (nodup_keptIndices whole)]
  intro j
  obtain ⟨i, rfl⟩ := r.position.surjective j
  rw [List.mem_map_of_injective r.position.injective, mem_keptIndices, mem_keptIndices, hs i]
  constructor
  · rintro ⟨_, hsegment, hkept⟩
    obtain ⟨segment, hwhole, rfl⟩ := Option.map_eq_some_iff.mp hsegment
    exact ⟨segment, hwhole, by rwa [isDegenerate_turn] at hkept⟩
  · rintro ⟨segment, hwhole, hkept⟩
    exact ⟨_, Option.map_eq_some_iff.mpr ⟨segment, hwhole, rfl⟩, by rwa [isDegenerate_turn]⟩

theorem exists_rearrangement_kept
    (hs : ∀ i : ℕ, segments[i]? = whole[r.position i]?.map (Segment.turn (r.turned i))) :
    ∃ r' : Rearrangement,
      r'.Relates Segment.turn (kept segments).toArray (kept whole).toArray ∧
      ∀ {k i : ℕ}, (keptIndices segments)[k]? = some i →
        (keptIndices whole)[r'.position k]? = some (r.position i) ∧ r'.turned k = r.turned i := by
  obtain ⟨f, hf⟩ := exists_perm_getElem? (keptIndices_perm hs)
  have hposition {k i : ℕ} (hk : (keptIndices segments)[k]? = some i) :
      (keptIndices whole)[f k]? = some (r.position i) := by
    rw [← hf k, List.getElem?_map, hk, Option.map_some]
  refine ⟨⟨f, fun k => r.turned ((keptIndices segments)[k]?.getD 0)⟩, fun k => ?_,
    fun {k i} hk => ⟨hposition hk, by dsimp only; rw [hk, Option.getD_some]⟩⟩
  rw [List.getElem?_toArray, List.getElem?_toArray, getElem?_kept, getElem?_kept]
  cases hk : (keptIndices segments)[k]? with
  | none =>
      have hnone := hf k
      rw [List.getElem?_map, hk] at hnone
      rw [← hnone]
      rfl
  | some i =>
      dsimp only
      rw [hposition hk, hk, Option.getD_some]
      exact hs i

/-- Edges that attract each other are turned alike. -/
def Rearrangement.TurnsAlike (r : Rearrangement) (parameters : BundlingParameters ℝ)
    (segments : List (Segment ℝ)) : Prop :=
  ∀ {i j : ℕ} {a b : Segment ℝ}, i ≠ j → segments[i]? = some a → segments[j]? = some b →
    a.isDegenerate = false → b.isDegenerate = false → Compatible parameters a b →
      r.turned i = r.turned j

/-- Edges that attract each other in a run are edges of the list that are turned alike. -/
theorem Rearrangement.TurnsAlike.of_attracts (h : r.TurnsAlike parameters segments) {p q : ℕ}
    (hattracts : attracts parameters (kept segments).toArray p q = true) :
    ∃ i j : ℕ, (keptIndices segments)[p]? = some i ∧ (keptIndices segments)[q]? = some j ∧
      r.turned i = r.turned j := by
  obtain ⟨hne, a, b, ha, hb, hcompatible⟩ := (attracts_iff _ _ _ _).mp hattracts
  rw [List.getElem?_toArray, getElem?_kept] at ha hb
  obtain ⟨i, hi, ha⟩ := Option.bind_eq_some_iff.mp ha
  obtain ⟨j, hj, hb⟩ := Option.bind_eq_some_iff.mp hb
  have hindices : i ≠ j := by
    rintro rfl
    have hp := (List.getElem?_eq_some_iff.mp hi).1
    exact hne ((List.getElem?_inj hp (nodup_keptIndices segments)).mp (hi.trans hj.symm))
  exact ⟨i, j, hi, hj, h hindices ha hb (isDegenerate_of_keptIndices hi ha)
    (isDegenerate_of_keptIndices hj hb) hcompatible⟩

/-- **Rearranged edges are bundled along rearranged paths**, if edges that attract each other are
turned alike, or no path has more than one inner point as long as its points move. -/
theorem bundle_rearranged
    (hs : ∀ i : ℕ, segments[i]? = whole[r.position i]?.map (Segment.turn (r.turned i)))
    (hturned : r.TurnsAlike parameters segments ∨ ∀ n < parameters.cycleCount,
      parameters.initialSubdivision * parameters.subdivisionRate ^ n ≤ 1) (i : ℕ) :
    (bundle parameters segments)[i]? =
      (bundle parameters whole)[r.position i]?.map (turn (r.turned i)) := by
  obtain ⟨r', hkept, hr'⟩ := exists_rearrangement_kept hs
  have hpaths : r'.Relates turn (bundleKept parameters (kept segments).toArray)
      (bundleKept parameters (kept whole).toArray) := by
    refine bundleKept_rearranged hkept (fun segment hsegment => ?_) (hturned.imp_left ?_)
    · simpa using (List.mem_filter.mp (List.mem_toArray.mp hsegment)).2
    · intro halike p q hattracts
      obtain ⟨i, j, hi, hj, hij⟩ := Rearrangement.TurnsAlike.of_attracts halike hattracts
      rw [(hr' hi).2, (hr' hj).2, hij]
  have hsegment := hs i
  unfold bundle
  cases hwhole : whole[r.position i]? with
  | none =>
      rw [hwhole, Option.map_none, List.getElem?_eq_none_iff] at hsegment
      rw [List.getElem?_eq_none_iff] at hwhole
      rw [List.getElem?_eq_none (by rwa [length_deal]),
        List.getElem?_eq_none (by rwa [length_deal])]
      rfl
  | some segment =>
      rw [hwhole, Option.map_some] at hsegment
      cases hd : segment.isDegenerate with
      | true =>
          rw [getElem?_deal_degenerate hwhole hd,
            getElem?_deal_degenerate hsegment (by rw [isDegenerate_turn, hd]), Option.map_some,
            turn_empty]
      | false =>
          have hmem : i ∈ keptIndices segments :=
            mem_keptIndices.mpr ⟨_, hsegment, by rw [isDegenerate_turn, hd]⟩
          obtain ⟨k, hk⟩ := List.mem_iff_getElem?.mp hmem
          obtain ⟨hposition, hturned⟩ := hr' hk
          rw [getElem?_deal hk, getElem?_deal hposition, Array.getElem?_toList,
            Array.getElem?_toList, hpaths k, hturned, Option.map_some]
          cases (bundleKept parameters (kept whole).toArray)[r'.position k]? with
          | none => exact congrArg some (turn_empty _).symm
          | some path => rfl

/-! ### The order of the edges -/

/-- A list in another order: at every position stands what stood where the permutation leads. -/
def permute {β : Type} {n : ℕ} (σ : Equiv.Perm (Fin n)) (xs : List β) (h : xs.length = n) :
    List β :=
  List.ofFn fun i => xs.get ((σ i).cast h.symm)

/-- A permutation of the first numbers, of all numbers. -/
def extendPerm {n : ℕ} (σ : Equiv.Perm (Fin n)) : Equiv.Perm ℕ := σ.extendDomain Fin.equivSubtype

omit [DivisionByZero] in
theorem getElem?_permute {β : Type} {n : ℕ} (σ : Equiv.Perm (Fin n)) {xs : List β}
    (h : xs.length = n) (i : ℕ) : (permute σ xs h)[i]? = xs[extendPerm σ i]? := by
  unfold permute extendPerm
  rw [List.getElem?_ofFn]
  by_cases hi : i < n
  · rw [dif_pos hi, Equiv.Perm.extendDomain_apply_subtype (b := i) _ _ hi, List.getElem?_eq_getElem]
    rfl
  · rw [dif_neg hi, Equiv.Perm.extendDomain_apply_not_subtype (b := i) _ _ hi,
      List.getElem?_eq_none (by omega)]

theorem length_bundle (parameters : BundlingParameters ℝ) (segments : List (Segment ℝ)) :
    (bundle parameters segments).length = segments.length := length_deal _ _

/-- **The order in which edges are declared does not matter**: bundling them in another order yields
the same paths in that order. -/
theorem bundle_permute (parameters : BundlingParameters ℝ) (segments : List (Segment ℝ))
    (σ : Equiv.Perm (Fin segments.length)) :
    bundle parameters (permute σ segments rfl) =
      permute σ (bundle parameters segments) (length_bundle parameters segments) := by
  refine List.ext_getElem? fun i => ?_
  have hs : ∀ i : ℕ, (permute σ segments rfl)[i]? =
      segments[extendPerm σ i]?.map (Segment.turn false) := by
    intro i
    rw [getElem?_permute, show Segment.turn (α := ℝ) false = id from rfl, Option.map_id, id]
  have hrearranged : (bundle parameters (permute σ segments rfl))[i]? =
      (bundle parameters segments)[extendPerm σ i]?.map (turn false) :=
    bundle_rearranged (r := ⟨extendPerm σ, fun _ => false⟩) hs (Or.inl fun _ _ _ _ _ _ => rfl) i
  rw [hrearranged, getElem?_permute]
  exact congrFun Option.map_id _

/-! ### One edge twice

An edge and the same edge again, the other way around or not, in one cycle with one pass: the
points of the first path stay where they are if they are matched with themselves, and change places
if the second path counts its points from the other end. -/

/-- An edge along the axis. -/
def strand : Segment ℝ := ⟨⟨0, 0⟩, ⟨(3 : ℕ), 0⟩⟩

/-- One cycle with one pass over two inner points. -/
noncomputable def onePass : BundlingParameters ℝ where
  stiffness := 1 / (10 : ℕ)
  initialStepSize := (3 : ℕ) / (4 : ℕ)
  initialSubdivision := 2
  subdivisionRate := 1
  cycleCount := 1
  initialIterationCount := 1
  iterationDecreaseRate := (2 : ℕ) / (3 : ℕ)
  compatibilityThreshold := (6 : ℕ) / (10 : ℕ)
  lengthTolerance := 1 / (1000000 : ℕ)

theorem strand_isDegenerate : strand.isDegenerate = false := by
  refine Segment.isDegenerate_eq_false_iff.mpr fun h => ?_
  have := congrArg Point.x h
  norm_num [strand] at this

theorem compatible_strand (turned : Bool) : Compatible onePass strand (strand.turn turned) := by
  have hlong : strand.lengthAtLeast onePass.lengthTolerance =
      strand.tail.distance strand.head := by
    unfold Segment.lengthAtLeast
    rw [if_neg]
    norm_num [strand, onePass]
  have hscore := score_turn strand_isDegenerate strand_isDegenerate false turned
    onePass.lengthTolerance
  rw [show strand.turn false = strand from rfl,
    Compatibility.score_self strand_isDegenerate hlong] at hscore
  unfold Compatible
  rw [hscore]
  norm_num [onePass]

theorem compatibilityLists_strands (turned : Bool) :
    compatibilityLists onePass #[strand, strand.turn turned] = #[[1], [0]] := by
  have hforth : attracts onePass #[strand, strand.turn turned] 0 1 = true :=
    (attracts_iff _ _ _ _).mpr ⟨by decide, _, _, rfl, rfl, compatible_strand turned⟩
  have hback : attracts onePass #[strand, strand.turn turned] 1 0 = true := hforth
  have hself (p : ℕ) : attracts onePass #[strand, strand.turn turned] p p = false := if_pos rfl
  unfold compatibilityLists
  simp [Array.ofFn_succ, List.range_succ, hforth, hback, hself]

theorem bundle_strands (turned : Bool) :
    (bundle onePass [strand, strand.turn turned])[0]? =
      some ((resampleAll (pass onePass #[strand, strand.turn turned] #[[1], [0]] (3 / 4)
        (resampleAll (straight #[strand, strand.turn turned]) 2)) 2)[0]?.getD #[]) := by
  have hkept : kept [strand, strand.turn turned] = [strand, strand.turn turned] := by
    simp [kept, isDegenerate_turn, strand_isDegenerate]
  have hfirst : (keptIndices [strand, strand.turn turned])[0]? = some 0 := by
    rw [keptIndices_cons, if_neg (by simp [strand_isDegenerate])]
    rfl
  have hpasses : (Cycle.first onePass #[strand, strand.turn turned]).passes = 1 := by
    have hround : roundAway 1 = 1 := by simpa using roundAway_intCast 1
    show Nat.min ⌊Scalar.max (roundAway 1 : ℝ) Scalar.zero⌋₊ (2 ^ 64 - 1) = 1
    rw [hround, Scalar.max_real, Scalar.zero_real, Int.cast_one, max_eq_left zero_le_one,
      Nat.floor_one]
    rfl
  have hcycle : bundleKept onePass #[strand, strand.turn turned] =
      ((Cycle.first onePass #[strand, strand.turn turned]).next onePass
        #[strand, strand.turn turned] #[[1], [0]]).paths := by
    rw [← compatibilityLists_strands turned]
    rfl
  unfold bundle
  rw [getElem?_deal hfirst, hkept, Array.getElem?_toList, hcycle]
  unfold Cycle.next Cycle.refine
  rw [hpasses]
  rfl

/-- A point on the axis. -/
def onAxis (x : ℝ) : Point ℝ := ⟨x, 0⟩

theorem addUnit_axis {x : ℝ} (h : x = 0 ∨ |x| = 1) :
    addUnit (3 / 4) Vec.zero (⟨x, 0⟩ : Vec ℝ) = ⟨x, 0⟩ := by
  unfold addUnit
  rcases h with rfl | hx
  · rw [if_neg (by norm_num), Vec.zero, Scalar.zero_real]
  · have hnorm : Vec.norm (⟨x, 0⟩ : Vec ℝ) = 1 := by
      show Real.sqrt (x * x + 0 * 0) = 1
      rw [mul_zero, add_zero, Real.sqrt_mul_self_eq_abs, hx]
    have hone : @HDiv.hDiv ℝ ℝ ℝ (@instHDiv ℝ Scalar.toDiv) Scalar.one 1 = 1 := by
      rw [Scalar.div_real _ one_ne_zero, Scalar.one_real, div_one]
    rw [if_pos (by norm_num [hx]), hnorm]
    show (⟨Scalar.zero + x * (@HDiv.hDiv ℝ ℝ ℝ (@instHDiv ℝ Scalar.toDiv) Scalar.one 1),
      Scalar.zero + 0 * (@HDiv.hDiv ℝ ℝ ℝ (@instHDiv ℝ Scalar.toDiv) Scalar.one 1)⟩ : Vec ℝ) = _
    rw [hone, Scalar.zero_real, zero_add, zero_add, mul_one, mul_one]

theorem pass_strands (s t : Segment ℝ) {q₀ q₃ : Point ℝ} {q₁ q₂ : ℝ}
    (h₁ : q₁ - 1 = 0 ∨ |q₁ - 1| = 1) (h₂ : q₂ - 2 = 0 ∨ |q₂ - 2| = 1) :
    (pass onePass #[s, t] #[[1], [0]] (3 / 4) #[#[onAxis 0, onAxis 1, onAxis 2, onAxis 3],
      #[q₀, onAxis q₁, onAxis q₂, q₃]])[0]? =
        some #[onAxis 0, onAxis (1 + (q₁ - 1) * (3 / 4)), onAxis (2 + (q₂ - 2) * (3 / 4)),
          onAxis 3] := by
  have hpull (x y : ℝ) : (onAxis x - onAxis y : Vec ℝ) = ⟨x - y, 0⟩ :=
    congrArg (Vec.mk (x - y)) (sub_self (0 : ℝ))
  obtain ⟨stiffness, hpass⟩ : ∃ stiffness : ℝ, (pass onePass #[s, t] #[[1], [0]] (3 / 4)
      #[#[onAxis 0, onAxis 1, onAxis 2, onAxis 3], #[q₀, onAxis q₁, onAxis q₂, q₃]])[0]? =
        some #[onAxis 0 + (Vec.zero : Vec ℝ),
          onAxis 1 + (((onAxis 0 - onAxis 1 : Vec ℝ) + (onAxis 2 - onAxis 1 : Vec ℝ)) * stiffness +
            addUnit (3 / 4) Vec.zero (onAxis q₁ - onAxis 1)) * (3 / 4 : ℝ),
          onAxis 2 + (((onAxis 1 - onAxis 2 : Vec ℝ) + (onAxis 3 - onAxis 2 : Vec ℝ)) * stiffness +
            addUnit (3 / 4) Vec.zero (onAxis q₂ - onAxis 2)) * (3 / 4 : ℝ),
          onAxis 3 + (Vec.zero : Vec ℝ)] := ⟨_, rfl⟩
  have hmove (x y : ℝ) : onAxis x + (⟨y, 0⟩ : Vec ℝ) = onAxis (x + y) :=
    congrArg (Point.mk (x + y)) (add_zero 0)
  have hspring (x y z : ℝ) (h : x - y + (z - y) = 0) (stiffness : ℝ) :
      ((⟨x - y, 0⟩ : Vec ℝ) + (⟨z - y, 0⟩ : Vec ℝ)) * stiffness = (⟨0, 0⟩ : Vec ℝ) := by
    show (⟨(x - y + (z - y)) * stiffness, (0 + 0) * stiffness⟩ : Vec ℝ) = _
    rw [h, add_zero, zero_mul]
  have hsum (x : ℝ) : ((⟨0, 0⟩ : Vec ℝ) + (⟨x, 0⟩ : Vec ℝ)) * (3 / 4 : ℝ) = ⟨x * (3 / 4), 0⟩ := by
    show (⟨(0 + x) * (3 / 4), (0 + 0) * (3 / 4)⟩ : Vec ℝ) = _
    rw [zero_add, add_zero, zero_mul]
  have hzero : (Vec.zero : Vec ℝ) = ⟨0, 0⟩ := by rw [Vec.zero, Scalar.zero_real]
  rw [hpass]
  simp only [hpull, addUnit_axis h₁, addUnit_axis h₂]
  rw [hspring 0 1 2 (by norm_num), hspring 1 2 3 (by norm_num), hsum, hsum, hzero, hmove, hmove,
    hmove, hmove, add_zero, add_zero]

theorem getElem?_resample_axis {a b c : ℝ} (ha : 0 < a) (h : |a - b| + |b - c| ≤ 2 * a) :
    (Polyline.resample [onAxis 0, onAxis a, onAxis b, onAxis c] 2)[1]? =
      some (onAxis ((a + (|a - b| + |b - c|)) / 3)) := by
  have hdistance (x y : ℝ) : (onAxis x).distance (onAxis y) = |x - y| :=
    Point.distance_of_level rfl
  obtain ⟨inner, hinner, hsize, hat⟩ :=
    Polyline.at_resample (onAxis 0) [onAxis a, onAxis b, onAxis c] 2
  have hpoint := List.getElem?_eq_getElem (by omega : 0 < inner.length)
  rw [hinner, List.getElem?_cons_succ, List.getElem?_append_left (by omega), hpoint]
  have hlength : Polyline.length [onAxis 0, onAxis a, onAxis b, onAxis c] =
      a + (|a - b| + |b - c|) := by
    rw [Polyline.length_cons_cons, Polyline.length_cons_cons, Polyline.length_cons_cons,
      Polyline.length_singleton, hdistance, hdistance, hdistance, zero_sub, abs_neg,
      abs_of_pos ha, add_zero]
  have hfirst := Polyline.At.within (a := onAxis 0) (b := onAxis a) [onAxis b, onAxis c]
    (t := (a + (|a - b| + |b - c|)) / 3 / a) (by positivity)
    (by rw [div_le_one ha]; linarith)
  have heq : (a + (|a - b| + |b - c|)) / 3 / a * (onAxis 0).distance (onAxis a) =
      (((0 : ℕ) : ℝ) + 1) *
        (Polyline.length [onAxis 0, onAxis a, onAxis b, onAxis c] / ((2 : ℕ) + 1)) := by
    rw [hdistance, zero_sub, abs_neg, abs_of_pos ha, div_mul_cancel₀ _ ha.ne', hlength]
    push_cast
    ring
  rw [heq] at hfirst
  rw [(hat hpoint).unique hfirst, Point.lerp_eq]
  congr 1
  simp only [onAxis, Point.mk.injEq]
  constructor <;> field_simp <;> ring

theorem path_strands (turned : Bool) :
    (bundle onePass [strand, strand.turn turned])[0]?.bind (·[1]?) =
      some (onAxis (if turned then 4 / 3 else 1)) := by
  have hlerp (x y t : ℝ) : (onAxis x).lerp (onAxis y) t = onAxis (x + t * (y - x)) := by
    rw [Point.lerp_eq]
    simp only [onAxis, sub_self, mul_zero, add_zero]
  have hresample (x y : ℝ) : Polyline.resample [onAxis x, onAxis y] 2 =
      [onAxis x, onAxis (x + (1 / 3) * (y - x)), onAxis (x + (2 / 3) * (y - x)), onAxis y] := by
    rw [Polyline.resample_pair, Polyline.evenly_eq_cons]
    norm_num [List.range_succ, hlerp]
  have hstraight : resampleAll (straight #[strand, strand.turn turned]) 2 =
      #[#[onAxis 0, onAxis 1, onAxis 2, onAxis 3],
        #[onAxis (if turned then 3 else 0), onAxis (if turned then 2 else 1),
          onAxis (if turned then 1 else 2), onAxis (if turned then 0 else 3)]] := by
    have hstrand : strand = ⟨onAxis 0, onAxis 3⟩ := rfl
    unfold resampleAll straight
    cases turned <;> norm_num [hstrand, Segment.turn, Segment.reverse, hresample]
  rw [bundle_strands, hstraight]
  unfold resampleAll
  rw [Array.getElem?_map, pass_strands]
  · simp only [Option.map_some, Option.getD_some, Option.bind_some, List.getElem?_toArray]
    rw [getElem?_resample_axis]
    · cases turned <;> norm_num
    · cases turned <;> norm_num
    · cases turned <;> norm_num
  · cases turned <;> norm_num
  · cases turned <;> norm_num

/-! ### The ends of the edges -/

/-- **Turned edges have turned paths, and other edges keep theirs**, if no edge that is turned
attracts one that is not, or no path has more than one inner point as long as its points move. -/
theorem bundle_turned {turned : ℕ → Bool}
    (h : Apart parameters turned segments ∨ ∀ n < parameters.cycleCount,
      parameters.initialSubdivision * parameters.subdivisionRate ^ n ≤ 1) :
    bundle parameters (segments.mapIdx fun i => Segment.turn (turned i)) =
      (bundle parameters segments).mapIdx fun i => turn (turned i) := by
  refine List.ext_getElem? fun i => ?_
  rw [List.getElem?_mapIdx]
  refine bundle_rearranged (r := ⟨Equiv.refl ℕ, turned⟩) (fun i => List.getElem?_mapIdx)
    (h.imp_left fun hapart => ?_) i
  intro i j a b hne ha hb hkept hkept' hcompatible
  rw [List.getElem?_mapIdx] at ha hb
  obtain ⟨a, hi, rfl⟩ := Option.map_eq_some_iff.mp ha
  obtain ⟨b, hj, rfl⟩ := Option.map_eq_some_iff.mp hb
  rw [isDegenerate_turn] at hkept hkept'
  rw [compatible_turn hkept hkept'] at hcompatible
  have hmem : (a, i) ∈ segments.zipIdx := List.mem_zipIdx_iff_getElem?.mpr hi
  have hmem' : (b, j) ∈ segments.zipIdx := List.mem_zipIdx_iff_getElem?.mpr hj
  by_contra hmarks
  rcases rel_or_rel_of_pairwise hapart hmem hmem' with heq | hab | hba
  · exact hne (congrArg Prod.snd heq)
  · exact hab hkept hkept' hmarks hcompatible
  · refine hba hkept' hkept (Ne.symm hmarks) ?_
    unfold Compatible
    rwa [Compatibility.score_comm]

end Exact

/-- An edge at a right angle to the strand. -/
def across : Segment ℝ := ⟨⟨1, -1⟩, ⟨1, 1⟩⟩

theorem across_isDegenerate [DivisionByZero] : across.isDegenerate = false := by
  refine Segment.isDegenerate_eq_false_iff.mpr fun h => ?_
  have := congrArg Point.y h
  norm_num [across] at this

/-- Two edges that attract each other are turned, and one at a right angle to them is not. -/
theorem bundle_turned_strands :
    letI := DivisionByZero.zero
    Compatible onePass strand strand ∧ Apart onePass (fun i => i < 2) [strand, strand, across] ∧
      bundle onePass [strand.reverse, strand.reverse, across] =
        (bundle onePass [strand, strand, across]).mapIdx fun i => turn (i < 2) := by
  let := DivisionByZero.zero
  have hdot : strand.vector.dot across.vector = 0 := by
    show (3 - 0) * (1 - 1) + (0 - 0) * (1 - -1) = (0 : ℝ)
    norm_num
  have hfar : ¬ Compatible onePass strand across := by
    unfold Compatible
    rw [Compatibility.score_of_perpendicular strand_isDegenerate across_isDegenerate hdot]
    norm_num [onePass]
  have hapart : Apart onePass (fun i => i < 2) [strand, strand, across] := by
    unfold Apart
    simp [hfar]
  exact ⟨compatible_strand false, hapart, bundle_turned (Or.inl hapart)⟩

/-- If only one of two edges between the same points is turned, the other one changes its path. -/
theorem bundle_antiparallel :
    letI := DivisionByZero.zero
    bundle onePass ([strand, strand].mapIdx fun i => Segment.turn (i == 1)) ≠
      (bundle onePass [strand, strand]).mapIdx fun i => turn (i == 1) := by
  let := DivisionByZero.zero
  intro h
  have hturned : (bundle onePass [strand, strand.turn true])[0]? =
      ((bundle onePass [strand, strand.turn false]).mapIdx fun i => turn (i == 1))[0]? :=
    congrArg (·[0]?) h
  rw [List.getElem?_mapIdx, show turn (α := ℝ) (0 == 1) = id from rfl, Option.map_id, id] at hturned
  have hpoint := path_strands true
  rw [hturned, path_strands false] at hpoint
  have hx : (1 : ℝ) = 4 / 3 := congrArg Point.x (Option.some.inj hpoint)
  norm_num at hx

end NodeLink.Bundling
