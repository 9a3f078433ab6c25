import NodeLink.Proofs.Bundling.Accesses
import NodeLink.Proofs.Bundling.Independence
import NodeLink.Proofs.Exact.Straight

/-! # Edges that attract no other

In exact arithmetic, with any value for a division by zero, the springs at a point halfway between
its neighbours cancel.  So an edge divided into equal parts stays as it is in a pass if it attracts
no other (`getElem?_pass`), resampling divides it into other equal parts, and at the end its path is
the edge itself divided into equal parts (`bundle_isolated`), whatever happens to other edges. -/

namespace NodeLink.Bundling

open scoped Exact

variable [DivisionByZero] {parameters : BundlingParameters ℝ}

/-! ### No forces -/

theorem springs_cancel (a b : Point ℝ) {t u v : ℝ} (h : t - u = u - v) :
    (a.lerp b v - a.lerp b u : Vec ℝ) + (a.lerp b t - a.lerp b u : Vec ℝ) = Vec.zero := by
  have hcoordinate (x y : ℝ) :
      x + v * (y - x) - (x + u * (y - x)) + (x + t * (y - x) - (x + u * (y - x))) = 0 := by
    linear_combination (y - x) * h
  show (⟨_ + v * _ - (_ + u * _) + (_ + t * _ - (_ + u * _)),
    _ + v * _ - (_ + u * _) + (_ + t * _ - (_ + u * _))⟩ : Vec ℝ) =
      ⟨Scalar.zero, Scalar.zero⟩
  rw [hcoordinate, hcoordinate, Scalar.zero_real]

section Forces

variable (segment : Segment ℝ) (count : ℕ)

/-- The path of an edge divided into equal parts. -/
noncomputable def divided (segment : Segment ℝ) (count : ℕ) : Array (Point ℝ) :=
  (Polyline.evenly segment.tail segment.head count).toArray

theorem size_divided : (divided segment count).size = count + 2 := Polyline.length_evenly _ _ _

theorem getElem?_divided {i : ℕ} (hi : i ≤ count + 1) :
    (divided segment count)[i]? = some (segment.tail.lerp segment.head (i / (count + 1))) := by
  unfold divided
  rw [List.getElem?_toArray, Polyline.getElem?_evenly _ _ _ hi]

/-- The springs between equal parts pull nowhere. -/
theorem springForce_divided {index : ℕ} (hlow : 1 ≤ index) (hhigh : index ≤ count)
    (stiffness : ℝ) : springForce? (divided segment count) index stiffness = some Vec.zero := by
  have hspring := springs_cancel segment.tail segment.head
    (t := ((index + 1 : ℕ) : ℝ) / (count + 1)) (u := (index : ℝ) / (count + 1))
    (v := ((index - 1 : ℕ) : ℝ) / (count + 1)) (by
      rw [← sub_div, ← sub_div, Nat.cast_sub hlow, Nat.cast_add, Nat.cast_one, add_sub_cancel_left,
        sub_sub_cancel])
  unfold springForce?
  rw [if_neg (by omega), getElem?_divided _ _ (by omega), getElem?_divided _ _ (by omega),
    getElem?_divided _ _ (by omega)]
  dsimp only
  rw [hspring, Vec.zero_mul_real]

variable {paths : Array (Array (Point ℝ))} {edge : ℕ}

/-- Without edges that it attracts, no point of a divided edge is displaced. -/
theorem displacement_divided (hpath : paths[edge]? = some (divided segment count)) {index : ℕ}
    (hlow : 1 ≤ index) (hhigh : index ≤ count) (stiffness stepSize : ℝ) :
    displacement? paths [] edge (divided segment count) stiffness stepSize index =
      some Vec.zero := by
  have hpoint : paths[edge]?.bind (·[index]?) =
      some (segment.tail.lerp segment.head (index / (count + 1))) := by
    rw [hpath]
    exact getElem?_divided segment count (by omega)
  unfold displacement? electrostaticForce?
  rw [springForce_divided segment count hlow hhigh, hpoint]
  dsimp only [pulls?]
  rw [Vec.add_zero_real, Vec.zero_mul_real]

theorem displacements_divided (hpath : paths[edge]? = some (divided segment count))
    (stepSize : ℝ) :
    displacements? paths [] edge segment stepSize parameters =
      some (List.replicate (count + 2) Vec.zero) := by
  have hinner (stiffness : ℝ) : (List.range' 1 count).mapM
      (displacement? paths [] edge (divided segment count) stiffness stepSize) =
        some (List.replicate count Vec.zero) := by
    have heach : ∀ index ∈ List.range' 1 count,
        displacement? paths [] edge (divided segment count) stiffness stepSize index =
          some Vec.zero := by
      intro index hindex
      obtain ⟨hlow, hhigh⟩ := List.mem_range'_1.mp hindex
      exact displacement_divided segment count hpath hlow (by omega) stiffness stepSize
    obtain ⟨moves, hmoves, hlength⟩ := exists_mapM _ fun index hindex => ⟨_, heach index hindex⟩
    rw [hmoves]
    refine congrArg some (List.eq_replicate_iff.mpr
      ⟨hlength.trans List.length_range', fun move hmove => ?_⟩)
    obtain ⟨index, hindex, hvalue⟩ := exists_of_mem_mapM _ hmoves move hmove
    exact Option.some.inj (hvalue.symm.trans (heach index hindex))
  unfold displacements?
  rw [hpath]
  dsimp only
  rw [size_divided, Nat.add_sub_cancel, hinner, if_pos (by omega)]
  dsimp only
  rw [List.replicate_succ, ← List.replicate_one, List.replicate_append_replicate]

theorem displace_zero (path : Array (Point ℝ)) :
    displace path (List.replicate path.size Vec.zero) = path := by
  rw [displace_eq path (List.length_replicate).symm, ← Array.toList_inj]
  refine List.ext_getElem (by simp) fun i _ _ => ?_
  rw [List.getElem_zipWith, List.getElem_replicate, Point.add_zero_real]

end Forces

/-! ### The schedule -/

section Schedule

variable (parameters) {segments : Array (Segment ℝ)} {compatible : Array (List ℕ)}
  {paths : Array (Array (Point ℝ))} {edge : ℕ} {segment : Segment ℝ} {count : ℕ}

/-- A pass leaves a divided edge as it is if it attracts no other, whatever the other paths are. -/
theorem getElem?_pass (hsegment : segments[edge]? = some segment)
    (hothers : compatible[edge]? = some []) (hpath : paths[edge]? = some (divided segment count))
    (stepSize : ℝ) :
    (pass parameters segments compatible stepSize paths)[edge]? =
      some (divided segment count) := by
  have hzero := displace_zero (divided segment count)
  rw [size_divided] at hzero
  unfold pass
  rw [Array.getElem?_mapIdx, hpath, Option.map_some, hsegment, hothers]
  dsimp only
  rw [displacements_divided segment count hpath, Option.getD_some, hzero]

/-- The path of the edge is the edge divided into equal parts, as many as the cycle says. -/
def Cycle.Divides (cycle : Cycle ℝ) (edge : ℕ) (segment : Segment ℝ) : Prop :=
  cycle.paths[edge]? = some (divided segment cycle.subdivision)

theorem divides_first (hsegment : segments[edge]? = some segment) :
    (Cycle.first parameters segments).Divides edge segment := by
  show (resampleAll (straight segments) _)[edge]? = _
  unfold resampleAll straight
  rw [Array.getElem?_map, Array.getElem?_map, hsegment, Option.map_some, Option.map_some,
    Polyline.resample_pair]
  rfl

theorem Cycle.Divides.next {cycle : Cycle ℝ} (hsegment : segments[edge]? = some segment)
    (hothers : compatible[edge]? = some []) (h : cycle.Divides edge segment) :
    (cycle.next parameters segments compatible).Divides edge segment := by
  have hpasses := repeat_preserves
    (P := fun paths : Array (Array (Point ℝ)) =>
      paths[edge]? = some (divided segment cycle.subdivision))
    (fun _ hpath => getElem?_pass parameters hsegment hothers hpath cycle.stepSize)
    cycle.passes h
  show (resampleAll _ _)[edge]? = _
  unfold resampleAll
  rw [Array.getElem?_map, hpasses, Option.map_some]
  unfold divided
  rw [Polyline.resample_evenly]
  rfl

/-- An edge that attracts no other ends as it is, divided into equal parts. -/
theorem getElem?_bundleKept (hcycles : parameters.cycleCount ≠ 0)
    (hsegment : segments[edge]? = some segment)
    (hothers : (compatibilityLists parameters segments)[edge]? = some []) :
    (bundleKept parameters segments)[edge]? = some (divided segment (min
      (parameters.initialSubdivision * parameters.subdivisionRate ^ parameters.cycleCount)
        maxSubdivision)) := by
  have hdivides := repeat_preserves (P := fun cycle : Cycle ℝ => cycle.Divides edge segment)
    (fun _ h => h.next parameters hsegment hothers) parameters.cycleCount
    (divides_first parameters hsegment)
  unfold bundleKept
  rw [if_neg hcycles, ← subdivision_repeat parameters segments]
  exact hdivides

end Schedule

/-! ### The bundler -/

namespace Bundler

/-- **An edge that attracts no other stays straight**, and is divided into equal parts: whatever
happens to other edges, and however many cycles and passes there are. -/
theorem bundle_isolated {segments : List (Segment ℝ)} {bundler : Bundler ℝ}
    (hcycles : 1 ≤ parameters.cycleCount)
    (hlists : (new parameters segments).computeCompatibility? = some bundler) {i : ℕ}
    {segment : Segment ℝ} (hsegment : segments[i]? = some segment)
    (hends : segment.tail ≠ segment.head)
    (hempty : ∀ k : ℕ, bundler.kept[k]? = some i → bundler.compatibility[k]? = some []) :
    ∃ (paths : Array (Array (Point ℝ))) (path : Array (Point ℝ)) (n : ℕ),
      (new parameters segments).bundle? = some paths ∧ paths[i]? = some path ∧
        n = min (parameters.initialSubdivision * parameters.subdivisionRate ^
          parameters.cycleCount) maxSubdivision ∧ path.size = n + 2 ∧
        ∀ j ≤ n + 1, path[j]? = some (segment.tail.lerp segment.head (j / (n + 1))) := by
  rw [computeCompatibility?_eq] at hlists
  obtain rfl := Option.some.inj hlists
  have hkept := Segment.isDegenerate_eq_false_iff.mpr hends
  obtain ⟨k, hk⟩ := List.mem_iff_getElem?.mp (mem_keptIndices.mpr ⟨segment, hsegment, hkept⟩)
  have hat : (Bundling.kept segments).toArray[k]? = some segment := by
    rw [List.getElem?_toArray, getElem?_kept, hk]
    exact hsegment
  have hpath := getElem?_bundleKept parameters (by omega) hat (hempty k hk)
  refine ⟨_, _, _, bundle?_eq parameters segments, ?_, rfl, size_divided segment _,
    fun j hj => getElem?_divided segment _ hj⟩
  unfold bundle
  rw [List.getElem?_toArray, getElem?_deal hk, Array.getElem?_toList, hpath, Option.getD_some]

/-! ### An edge across two others -/

/-- An edge at a right angle to two others. -/
def crossing : List (Segment ℝ) := [across, strand, strand]

theorem segments_crossing : (filled onePass crossing).segments = #[across, strand, strand] := by
  simp [filled, new, crossing, Bundling.kept, across_isDegenerate, strand_isDegenerate]

theorem kept_crossing : (filled onePass crossing).kept = [0, 1, 2] := by
  simp [filled, new, crossing, keptIndices_eq_map, across_isDegenerate, strand_isDegenerate]

theorem not_compatible_across : ¬ Compatible onePass across strand := by
  have hdot : across.vector.dot strand.vector = 0 := by
    show (1 - 1) * (3 - 0) + (1 - -1) * (0 - 0) = (0 : ℝ)
    norm_num
  unfold Compatible
  rw [Compatibility.score_of_perpendicular across_isDegenerate strand_isDegenerate hdot]
  norm_num [onePass]

theorem not_lists_across (q : ℕ) : ¬ (filled onePass crossing).Lists 0 q := by
  rw [lists_compatibilityLists rfl, segments_crossing]
  intro h
  rcases q with _ | _ | _ | q
  · rw [attracts_self] at h
    cases h
  · exact not_compatible_across ((attracts_of_lt (by decide) rfl rfl).mp h)
  · exact not_compatible_across ((attracts_of_lt (by decide) rfl rfl).mp h)
  · have hlt : q + 3 < 3 := (lt_of_attracts h).2
    omega

theorem compatibility_across (k : ℕ) (hk : (filled onePass crossing).kept[k]? = some 0) :
    (filled onePass crossing).compatibility[k]? = some [] := by
  obtain rfl : k = 0 := by
    rw [kept_crossing] at hk
    rcases k with _ | _ | _ | k <;> simp at hk ⊢
  have hsize : (filled onePass crossing).compatibility.size = 3 :=
    Array.size_ofFn.trans (congrArg Array.size segments_crossing)
  have hlist := Array.getElem?_eq_getElem (hsize ▸ (by decide : 0 < 3))
  rw [hlist, Option.some.injEq, List.eq_nil_iff_forall_not_mem]
  exact fun q hq => not_lists_across q ⟨_, hlist, hq⟩

omit [DivisionByZero] in
/-- The edge across two others that attract each other. -/
theorem bundle_across :
    letI := DivisionByZero.zero
    ∃ bundler, (new onePass crossing).computeCompatibility? = some bundler ∧
      bundler.Lists 1 2 ∧ across.tail ≠ across.head ∧
      (∀ k : ℕ, bundler.kept[k]? = some 0 → bundler.compatibility[k]? = some []) ∧
      ∃ (paths : Array (Array (Point ℝ))) (path : Array (Point ℝ)) (n : ℕ),
        (new onePass crossing).bundle? = some paths ∧ paths[0]? = some path ∧
          n = min (onePass.initialSubdivision * onePass.subdivisionRate ^ onePass.cycleCount)
            maxSubdivision ∧ path.size = n + 2 ∧
          ∀ j ≤ n + 1, path[j]? = some (across.tail.lerp across.head (j / (n + 1))) := by
  let := DivisionByZero.zero
  have hlists : (new onePass crossing).computeCompatibility? = some (filled onePass crossing) :=
    computeCompatibility?_eq (new onePass crossing)
  have hends := Segment.isDegenerate_eq_false_iff.mp across_isDegenerate
  have hcompatible : (filled onePass crossing).Lists 1 2 := by
    rw [lists_compatibilityLists rfl, segments_crossing, attracts_of_lt (by decide) rfl rfl]
    exact compatible_strand false
  exact ⟨_, hlists, hcompatible, hends, compatibility_across,
    bundle_isolated (by decide) hlists rfl hends compatibility_across⟩

end Bundler

end NodeLink.Bundling
