import NodeLink.Proofs.Bundling.Regular
import NodeLink.Proofs.Geometry.Bounded

/-! # What a pass can do to the size of coordinates

The springs of a point pull with at most four times the size of the coordinates, times their
stiffness.  The compatible paths pull with vectors of nearly unit length, however many they are:
a sum of them that has reached `2 ^ 55` no longer changes, since it absorbs what is added to it.
So a pass multiplies a bound of the coordinates by a factor that depends on the stiffness and
the step size alone (`growth`, `pass_within`). -/

namespace NodeLink.Bundling

open NodeLink.Double

/-- By how much a pass can multiply a bound of the coordinates. -/
noncomputable def growth (stiffness step : ℝ) : ℝ :=
  1 + (4001 / 1000 * stiffness + 1 / 256) * step

/-- All points of all paths are bounded. -/
def PathsWithin (bound : ℝ) (paths : Array (Array (Point Float))) : Prop :=
  ∀ path ∈ paths, ∀ point ∈ path, point.Within bound

theorem PathsWithin.mono {a b : ℝ} {paths : Array (Array (Point Float))}
    (h : PathsWithin a paths) (hab : a ≤ b) : PathsWithin b paths :=
  fun path hpath point hpoint => (h path hpath point hpoint).mono hab

/-- The stiffness of the springs on a path. -/
@[reducible] def stiffnessOf (parameters : BundlingParameters Float) (segment : Segment Float)
    (interior : ℕ) : Float :=
  parameters.stiffness /
    (segment.lengthAtLeast parameters.lengthTolerance * Scalar.ofNat (interior + 1))

/-! ### Forces -/

section Forces

variable {bound : ℝ} (hlow : 2 ^ 64 ≤ bound) (hbound : 16 * bound ≤ rootOverflow)
include hlow hbound

theorem within_stretch {previous current next : Float} (hprevious : Double.Within bound previous)
    (hcurrent : Double.Within bound current) (hnext : Double.Within bound next) :
    Double.Within (40003 / 10000 * bound) (previous - current + (next - current)) := by
  have hdiff : ∀ {x : Float}, Double.Within bound x →
      Double.Within (20001 / 10000 * bound) (x - current) := by
    intro x hx
    apply hx.sub hcurrent (leastNormal_le (by linarith))
    · rw [grain_eq]
      linarith
    · apply lt_overflow_of_le (by linarith) hbound
      linarith
  apply (hdiff hprevious).add (hdiff hnext) (leastNormal_le (by linarith))
  · rw [grain_eq]
    linarith
  · apply lt_overflow_of_le (by linarith) hbound
    linarith

theorem springForce_within {points : Array (Point Float)} {index : ℕ} {stiffness : Float}
    {K : ℝ} {force : Vec Float} (hpoints : ∀ point ∈ points, point.Within bound)
    (hK : Double.Within K stiffness) (hKlow : 1 / 16 ≤ K) (hKhigh : K ≤ 2 ^ 10)
    (h : springForce? points index stiffness = some force) :
    force.Within (40004 / 10000 * (bound * K)) := by
  have hproduct : bound * (1 / 16) ≤ bound * K := by gcongr
  have hproduct' : bound * K ≤ bound * 2 ^ 10 := by gcongr
  have hscaled : ∀ {x : Float}, Double.Within (40003 / 10000 * bound) x →
      Double.Within (40004 / 10000 * (bound * K)) (x * stiffness) := by
    intro x hx
    apply hx.mul hK (leastNormal_le (by linarith))
    · rw [grain_eq]
      linarith
    · apply lt_overflow_of_le (by linarith) hbound
      linarith
  unfold springForce? at h
  split_ifs at h with hzero
  split at h
  · rename_i previous current next hprevious hcurrent hnext
    have hp := hpoints _ (Array.mem_of_getElem? hprevious)
    have hc := hpoints _ (Array.mem_of_getElem? hcurrent)
    have hn := hpoints _ (Array.mem_of_getElem? hnext)
    obtain rfl := Option.some.inj h
    exact ⟨hscaled (within_stretch hlow hbound hp.x hc.x hn.x),
      hscaled (within_stretch hlow hbound hp.y hc.y hn.y)⟩
  · cases h

/-- A sum of short vectors stays bounded, since it absorbs them once it is long. -/
theorem addUnit_within {threshold : Float} {total pull : Vec Float}
    (hthreshold : threshold.isFinite = true) (hpositive : 1 / 2 ^ 16 ≤ real threshold)
    (htotal : total.Within (2 ^ 55)) (hpull : pull.Within (3 * bound)) :
    (addUnit threshold total pull).Within (2 ^ 55) := by
  have hlong : ∀ {x : Float}, x.isFinite = true →
      Scalar.lt threshold (Scalar.abs x) = true → 1 / 2 ^ 16 ≤ |real x| := by
    intro x hx hlt
    have habs : x.abs.isFinite = true := isFinite_abs hx
    have hlt' : rank threshold < rank x.abs :=
      (scalar_lt_iff (isNaN_eq_false hthreshold) (isNaN_eq_false habs)).mp hlt
    rw [rank_of_isFinite hthreshold, rank_of_isFinite habs, EReal.coe_lt_coe_iff, real_abs] at hlt'
    linarith
  have habsorbed : ∀ {x y : Float}, Double.Within (2 ^ 55) x → Double.Within 2 y →
      Double.Within (2 ^ 55) (x + y) := by
    intro x y hx hy
    have htriangle := abs_add_le (real x) (real y)
    have hxle := hx.abs_real_le
    have hyle := hy.abs_real_le
    have hsum : |real x + real y| ≤ 2 ^ ((3 : ℤ) + 52) + 2 := by
      norm_num
      linarith
    have hrounded := abs_rounded_le_of_absorbed (by norm_num) (by norm_num) (by norm_num) hsum
    apply (gives_add hx.isFinite hy.isFinite).within_of_rounded
    · exact_mod_cast hrounded
    · apply lt_overflow_of_le (by linarith) hbound
      linarith
  unfold addUnit
  by_cases hcondition : (Scalar.lt threshold (Scalar.abs pull.x) ||
      Scalar.lt threshold (Scalar.abs pull.y)) = true
  · rw [if_pos hcondition]
    have hunit : (pull / pull.norm).Within 2 := by
      apply hpull.unit (by linarith) (by linarith)
      rcases Bool.or_eq_true_iff.mp hcondition with hx | hy
      · exact Or.inl (hlong hpull.x.isFinite hx)
      · exact Or.inr (hlong hpull.y.isFinite hy)
    exact ⟨habsorbed htotal.x hunit.x, habsorbed htotal.y hunit.y⟩
  · rw [if_neg hcondition]
    exact htotal

/-- The pull of compatible paths, however many they are. -/
theorem pulls_within {paths : Array (Array (Point Float))} {index : ℕ} {threshold : Float}
    {current : Point Float} (hpaths : PathsWithin bound paths)
    (hcurrent : current.Within bound) (hthreshold : threshold.isFinite = true)
    (hpositive : 1 / 2 ^ 16 ≤ real threshold) : ∀ (others : List ℕ) {total force : Vec Float},
      total.Within (2 ^ 55) → pulls? paths index threshold current total others = some force →
        force.Within (2 ^ 55)
  | [], _, _, htotal, h => Option.some.inj h ▸ htotal
  | other :: others, total, force, htotal, h => by
      unfold pulls? at h
      split at h
      · rename_i point hpoint
        obtain ⟨path, hpath, hmem⟩ := Option.bind_eq_some_iff.mp hpoint
        have hwithin := hpaths path (Array.mem_of_getElem? hpath) point
          (Array.mem_of_getElem? hmem)
        have hpull := (hwithin.sub hcurrent (by linarith) hbound).mono
          (by linarith : 20001 / 10000 * bound ≤ 3 * bound)
        exact pulls_within hpaths hcurrent hthreshold hpositive others
          (addUnit_within hlow hbound hthreshold hpositive htotal hpull) h
      · cases h

theorem electrostaticForce_within {paths : Array (Array (Point Float))} {compatible : List ℕ}
    {path index : ℕ} {threshold : Float} {force : Vec Float}
    (hpaths : PathsWithin bound paths)
    (hthreshold : threshold.isFinite = true) (hpositive : 1 / 2 ^ 16 ≤ real threshold)
    (h : electrostaticForce? paths compatible path index threshold = some force) :
    force.Within (2 ^ 55) := by
  unfold electrostaticForce? at h
  split at h
  · rename_i current hcurrent
    obtain ⟨points, hpoints, hmem⟩ := Option.bind_eq_some_iff.mp hcurrent
    have hwithin := hpaths points (Array.mem_of_getElem? hpoints) current
      (Array.mem_of_getElem? hmem)
    have hzero : (Vec.zero : Vec Float).Within (2 ^ 55) :=
      ⟨within_zero.mono (by norm_num), within_zero.mono (by norm_num)⟩
    exact pulls_within hlow hbound hpaths hwithin hthreshold hpositive compatible hzero h
  · cases h

end Forces

/-! ### Displacements -/

/-- A displaced path consists of points that stay, and of displaced ones. -/
theorem mem_displace {α : Type} [Scalar α] {points : Array (Point α)}
    {displacements : List (Vec α)} {point : Point α} (h : point ∈ displace points displacements) :
    point ∈ points ∨ ∃ before ∈ points, ∃ v ∈ displacements, point = before + v := by
  unfold displace at h
  rcases List.mem_append.mp (List.mem_toArray.mp h) with hmoved | hrest
  · rw [← List.map_uncurry_zip_eq_zipWith] at hmoved
    obtain ⟨⟨before, v⟩, hmem, rfl⟩ := List.mem_map.mp hmoved
    obtain ⟨hbefore, hv⟩ := List.of_mem_zip hmem
    exact Or.inr ⟨before, Array.mem_toList_iff.mp hbefore, v, hv, rfl⟩
  · exact Or.inl (Array.mem_toList_iff.mp (List.mem_of_mem_drop hrest))

/-- The bounds under which a pass is looked at: of the coordinates, of the stiffness of an edge,
and of the step size. -/
structure Tame (bound K H : ℝ) (stepSize : Float) : Prop where
  bound_ge : 2 ^ 64 ≤ bound
  bound_le : 16 * bound ≤ rootOverflow
  stiffness_ge : 1 / 16 ≤ K
  stiffness_le : K ≤ 2 ^ 10
  step_ge : 1 / 2 ^ 10 ≤ real stepSize
  step_le : H ≤ 1
  step : Double.Within H stepSize

section Pass

variable {bound K H : ℝ} {stepSize : Float} (ht : Tame bound K H stepSize)
include ht

theorem Tame.le_step : 1 / 2 ^ 10 ≤ H :=
  ht.step_ge.trans ((le_abs_self _).trans ht.step.abs_real_le)

theorem displacement_within {paths : Array (Array (Point Float))} {compatible : List ℕ}
    {path index : ℕ} {points : Array (Point Float)} {stiffness : Float} {v : Vec Float}
    (hpaths : PathsWithin bound paths) (hpoints : points ∈ paths)
    (hK : Double.Within K stiffness)
    (h : displacement? paths compatible path points stiffness stepSize index = some v) :
    v.Within ((40006 / 10000 * (bound * K) + bound / 400) * H) := by
  have hlow := ht.bound_ge
  have hstepLow := ht.le_step
  have hproduct : bound * (1 / 16) ≤ bound * K := by
    have := ht.stiffness_ge
    gcongr
  have hproduct' : bound * K ≤ bound * 2 ^ 10 := by
    have := ht.stiffness_le
    gcongr
  have hcoordinate : ∀ {x y : Float}, Double.Within (40004 / 10000 * (bound * K)) x →
      Double.Within (2 ^ 55) y →
        Double.Within ((40006 / 10000 * (bound * K) + bound / 400) * H) ((x + y) * stepSize) := by
    intro x y hx hy
    have hsum : Double.Within (40005 / 10000 * (bound * K) + bound / 450) (x + y) := by
      apply hx.add hy (leastNormal_le (by linarith))
      · rw [grain_eq]
        linarith
      · apply lt_overflow_of_le (by linarith) ht.bound_le
        linarith
    have hscaled : (40005 / 10000 * (bound * K) + bound / 450) * (1 / 2 ^ 10) ≤
        (40005 / 10000 * (bound * K) + bound / 450) * H := by
      gcongr
      linarith
    have hscaled' : (40006 / 10000 * (bound * K) + bound / 400) * H ≤
        (40006 / 10000 * (bound * K) + bound / 400) * 1 := by
      have := ht.step_le
      gcongr
      linarith
    apply hsum.mul ht.step (leastNormal_le (by linarith))
    · rw [mul_right_comm]
      gcongr
      rw [grain_eq]
      linarith
    · apply lt_overflow_of_le (by linarith) ht.bound_le
      linarith
  unfold displacement? at h
  split at h
  · rename_i spring electrostatic hspring helectrostatic
    have hs := springForce_within hlow ht.bound_le (hpaths points hpoints) hK ht.stiffness_ge
      ht.stiffness_le hspring
    have he := electrostaticForce_within hlow ht.bound_le hpaths ht.step.isFinite
      ((by norm_num : (1 : ℝ) / 2 ^ 16 ≤ 1 / 2 ^ 10).trans ht.step_ge) helectrostatic
    obtain rfl := Option.some.inj h
    exact ⟨hcoordinate hs.x he.x, hcoordinate hs.y he.y⟩
  · cases h

theorem Tame.displaced {point : Point Float} {v : Vec Float} (hpoint : point.Within bound)
    (hv : v.Within ((40006 / 10000 * (bound * K) + bound / 400) * H)) :
    (point + v).Within (bound * growth K H) := by
  have hlow := ht.bound_ge
  have hstepLow := ht.le_step
  have hKlow := ht.stiffness_ge
  have hbound : bound * (1 / 2 ^ 10) ≤ bound * H := by gcongr
  have hbound' : bound * H ≤ bound * 1 := by
    have := ht.step_le
    gcongr
  have hproduct : bound * H * (1 / 16) ≤ bound * H * K := by gcongr
  have hproduct' : bound * H * K ≤ bound * 1 * 2 ^ 10 := by
    have := ht.stiffness_le
    gcongr
  have hcoordinate : ∀ {x y : Float}, Double.Within bound x →
      Double.Within ((40006 / 10000 * (bound * K) + bound / 400) * H) y →
        Double.Within (bound * growth K H) (x + y) := by
    intro x y hx hy
    unfold growth
    apply hx.add hy (leastNormal_le (by linarith))
    · rw [grain_eq]
      linarith
    · apply lt_overflow_of_le (by linarith) ht.bound_le
      linarith
  exact ⟨hcoordinate hpoint.x hv.x, hcoordinate hpoint.y hv.y⟩

theorem Tame.one_le_growth : 1 ≤ growth K H := by
  have hstepLow := ht.le_step
  have hKlow := ht.stiffness_ge
  unfold growth
  have : 0 ≤ (4001 / 1000 * K + 1 / 256) * H := by
    apply mul_nonneg <;> linarith
  linarith

theorem displacements_within {paths : Array (Array (Point Float))} {compatible : List ℕ}
    {path : ℕ} {points : Array (Point Float)} {segment : Segment Float}
    {parameters : BundlingParameters Float} (hpaths : PathsWithin bound paths)
    (hpoints : paths[path]? = some points)
    (hK : Double.Within K (stiffnessOf parameters segment (points.size - 2))) :
    ∀ v ∈ (displacements? paths compatible path segment stepSize parameters).getD [],
      v.Within ((40006 / 10000 * (bound * K) + bound / 400) * H) := by
  have hzero : (Vec.zero : Vec Float).Within
      ((40006 / 10000 * (bound * K) + bound / 400) * H) := by
    have hnonneg : 0 ≤ (40006 / 10000 * (bound * K) + bound / 400) * H := by
      have := ht.bound_ge
      have := ht.stiffness_ge
      have := ht.le_step
      positivity
    exact ⟨within_zero.mono hnonneg, within_zero.mono hnonneg⟩
  intro v hv
  unfold displacements? at hv
  simp only [hpoints] at hv
  split at hv
  · exact absurd hv List.not_mem_nil
  · rename_i inner hinner
    rw [Option.getD_some] at hv
    rcases List.mem_cons.mp hv with rfl | hv
    · exact hzero
    rcases List.mem_append.mp hv with hv | hv
    · obtain ⟨index, -, hindex⟩ := exists_of_mem_mapM _ hinner v hv
      exact displacement_within ht hpaths (Array.mem_of_getElem? hpoints) hK hindex
    · split_ifs at hv with hsize
      · rw [List.mem_singleton.mp hv]
        exact hzero
      · exact absurd hv List.not_mem_nil

/-- **A pass multiplies a bound of the coordinates by a factor** that depends on the stiffness and
the step size, but not on the number of paths that attract each other. -/
theorem pass_within {paths : Array (Array (Point Float))} {segments : Array (Segment Float)}
    {compatible : Array (List ℕ)} {parameters : BundlingParameters Float}
    (hpaths : PathsWithin bound paths)
    (hK : ∀ {i : ℕ} {segment : Segment Float} {points : Array (Point Float)},
      segments[i]? = some segment → paths[i]? = some points →
        Double.Within K (stiffnessOf parameters segment (points.size - 2))) :
    PathsWithin (bound * growth K H) (pass parameters segments compatible stepSize paths) := by
  have hbound : bound ≤ bound * growth K H := by
    have := ht.bound_ge
    have := ht.one_le_growth
    apply le_mul_of_one_le_right <;> linarith
  intro path hpath point hpoint
  obtain ⟨i, hi⟩ := Array.getElem?_of_mem hpath
  unfold pass at hi
  rw [Array.getElem?_mapIdx] at hi
  obtain ⟨points, hpoints, rfl⟩ := Option.map_eq_some_iff.mp hi
  have hold := hpaths points (Array.mem_of_getElem? hpoints)
  split at hpoint
  · rename_i segment others hsegment hothers
    rcases mem_displace hpoint with hstays | ⟨before, hbefore, v, hv, rfl⟩
    · exact (hold point hstays).mono hbound
    · exact ht.displaced (hold before hbefore)
        (displacements_within ht hpaths hpoints (hK hsegment hpoints) v hv)
  · exact (hold point hpoint).mono hbound

end Pass

end NodeLink.Bundling
