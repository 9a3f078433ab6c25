import NodeLink.Proofs.Bundling.Growth

/-! # Bundled paths are finite

With the default constants, paths of edges that are not too short stay finite.  A cycle with `n`
inner points a path has springs of a stiffness that is inverse to the length of the edge and to
`n + 1`, so its passes multiply a bound of the coordinates by a known power of two (`doublings`).
Over the six cycles this stays far below the greatest double (`bundleKept_within`).  For very short
edges the springs are so stiff that the passes enlarge rounding errors beyond all doubles, so
some least length is needed. -/

namespace NodeLink

open NodeLink.Double

/-- Both coordinates are finite. -/
def Point.IsFinite (point : Point Float) : Prop :=
  point.x.isFinite = true ∧ point.y.isFinite = true

/-- Both coordinates are finite, and of at most the given size. -/
def Point.AtMost (limit : Float) (point : Point Float) : Prop :=
  (point.x.isFinite = true ∧ point.x.abs ≤ limit) ∧ point.y.isFinite = true ∧ point.y.abs ≤ limit

theorem Point.AtMost.within {n : ℕ} (hn : n < 2 ^ 53) {point : Point Float}
    (h : point.AtMost (Scalar.ofNat n)) : point.Within n := by
  obtain ⟨hfinite, hreal⟩ := real_ofNat hn
  have hcoordinate : ∀ {x : Float}, x.isFinite = true → x.abs ≤ Scalar.ofNat n →
      Double.Within n x := by
    intro x hx hle
    have habs := isFinite_abs hx
    rw [le_iff (isNaN_eq_false habs) (isNaN_eq_false hfinite), rank_of_isFinite habs,
      rank_of_isFinite hfinite, EReal.coe_le_coe_iff, real_abs, hreal] at hle
    exact ⟨hx, hle⟩
  exact ⟨hcoordinate h.1.1 h.1.2, hcoordinate h.2.1 h.2.2⟩

namespace Bundling

/-! ### A cycle -/

section Cycles

variable {segments : Array (Segment Float)} {compatible : Array (List ℕ)} {count : ℕ}
  {parameters : BundlingParameters Float} {bound K H : ℝ} {stepSize : Float}

theorem passes_within (hc : Indexed segments compatible) (ht : Tame bound K H stepSize)
    (hK : ∀ segment ∈ segments, Double.Within K (stiffnessOf parameters segment count))
    {paths : Array (Array (Point Float))}
    (hregular : Regular (fun _ _ => True) segments count paths) (hpaths : PathsWithin bound paths) :
    ∀ n : ℕ, 16 * (bound * growth K H ^ n) ≤ rootOverflow →
      Regular (fun _ _ => True) segments count
          (Nat.repeat (pass parameters segments compatible stepSize) n paths) ∧
        PathsWithin (bound * growth K H ^ n)
          (Nat.repeat (pass parameters segments compatible stepSize) n paths)
  | 0, _ => by
      rw [pow_zero, mul_one]
      exact ⟨hregular, hpaths⟩
  | n + 1, hn => by
      have hgrowth := ht.one_le_growth
      have hlow := ht.bound_ge
      have hmono : bound * growth K H ^ n ≤ bound * growth K H ^ (n + 1) := by
        apply mul_le_mul_of_nonneg_left _ (by linarith)
        exact pow_le_pow_right₀ hgrowth (Nat.le_succ n)
      have hstart : bound ≤ bound * growth K H ^ n :=
        le_mul_of_one_le_right (by linarith) (one_le_pow₀ hgrowth)
      obtain ⟨hbefore, hwithin⟩ := passes_within hc ht hK hregular hpaths n (by linarith)
      refine ⟨hbefore.pass (fun _ _ _ => trivial) hc parameters stepSize, ?_⟩
      have ht' : Tame (bound * growth K H ^ n) K H stepSize :=
        { ht with bound_ge := by linarith, bound_le := by linarith }
      rw [pow_succ, ← mul_assoc]
      refine pass_within ht' hwithin ?_
      intro i segment points hsegment hpoints
      have hsize := (hbefore.spans hsegment hpoints).size
      rw [show points.size - 2 = count by omega]
      exact hK segment (Array.mem_of_getElem? hsegment)

theorem resampleAll_within {paths : Array (Array (Point Float))} (hone : 1 ≤ bound)
    (hbound : 16 * bound ≤ rootOverflow) (hpaths : PathsWithin bound paths)
    (hsize : ∀ path ∈ paths, path.size ≤ 8192) (hcount : count < 8192) :
    PathsWithin (4 * bound) (resampleAll paths count) := by
  intro path hpath point hpoint
  unfold resampleAll at hpath
  obtain ⟨before, hbefore, rfl⟩ := Array.mem_map.mp hpath
  have hpoints : ∀ p ∈ before.toList, p.Within bound := by
    intro p hp
    exact hpaths before hbefore p (Array.mem_toList_iff.mp hp)
  have hlength : before.toList.length ≤ 8192 := by
    rw [Array.length_toList]
    exact hsize before hbefore
  exact Polyline.resample_within hone hbound hpoints hlength hcount point
    (List.mem_toArray.mp hpoint)

theorem next_within {cycle : Cycle Float} (hc : Indexed segments compatible)
    (ht : Tame bound K H cycle.stepSize)
    (hK : ∀ segment ∈ segments, Double.Within K (stiffnessOf parameters segment cycle.subdivision))
    (hregular : Regular (fun _ _ => True) segments cycle.subdivision cycle.paths)
    (hpaths : PathsWithin bound cycle.paths)
    (hgrown : 16 * (bound * growth K H ^ cycle.passes) ≤ rootOverflow)
    (hsubdivision : cycle.subdivision ≤ maxSubdivision) :
    PathsWithin (4 * (bound * growth K H ^ cycle.passes))
      (cycle.next parameters segments compatible).paths := by
  obtain ⟨hbefore, hwithin⟩ := passes_within hc ht hK hregular hpaths cycle.passes hgrown
  have hlow := ht.bound_ge
  have hstart : bound ≤ bound * growth K H ^ cycle.passes :=
    le_mul_of_one_le_right (by linarith) (one_le_pow₀ ht.one_le_growth)
  unfold maxSubdivision at hsubdivision
  refine resampleAll_within (by linarith) hgrown hwithin ?_ ?_
  · intro path hpath
    have := hbefore.size_of_mem hpath
    omega
  · have : min (cycle.subdivision * parameters.subdivisionRate) 4096 ≤ 4096 := Nat.min_le_right _ _
    show min (cycle.subdivision * parameters.subdivisionRate) 4096 < 8192
    omega

end Cycles

/-! ### The constants of the cycles -/

section Constants

variable (parameters : BundlingParameters Float) (segments : Array (Segment Float))
  (compatible : Array (List ℕ))

/-- The state before a cycle. -/
def cycleAt (n : ℕ) : Cycle Float :=
  Nat.repeat (Cycle.next parameters segments compatible) n (Cycle.first parameters segments)

theorem stepSize_cycleAt (n : ℕ) : (cycleAt parameters segments compatible n).stepSize =
    Nat.repeat (fun stepSize => stepSize / Scalar.ofNat 2) n parameters.initialStepSize := by
  induction n with
  | zero => rfl
  | succ n ih => exact congrArg (fun stepSize => stepSize / Scalar.ofNat 2) ih

theorem iterations_cycleAt (n : ℕ) : (cycleAt parameters segments compatible n).iterations =
    Nat.repeat (fun iterations => iterations * parameters.iterationDecreaseRate) n
      parameters.initialIterationCount := by
  induction n with
  | zero => rfl
  | succ n ih => exact congrArg (fun iterations => iterations * parameters.iterationDecreaseRate) ih

end Constants

theorem real_stepSize {x : Float} (hx : x.isFinite = true) (n : ℕ) :
    2 ^ n * (1 / 2 ^ 200) ≤ |real x| →
      (Nat.repeat (fun stepSize => stepSize / Scalar.ofNat 2) n x).isFinite = true ∧
        real (Nat.repeat (fun stepSize => stepSize / Scalar.ofNat 2) n x) = real x / 2 ^ n := by
  induction n with
  | zero =>
      intro _
      exact ⟨hx, by rw [pow_zero, div_one]; rfl⟩
  | succ n ih =>
      intro hlow
      rw [pow_succ] at hlow
      have hpos : (0 : ℝ) < 2 ^ n := by positivity
      obtain ⟨hfinite, hreal⟩ := ih (by linarith)
      have hhalf := real_half hfinite (by
        rw [hreal, abs_div, abs_of_pos hpos, le_div_iff₀ hpos]
        linarith)
      rw [hreal] at hhalf
      refine ⟨hhalf.1, hhalf.2.trans ?_⟩
      rw [pow_succ, div_div]

theorem within_tenth : Double.Within (1001 / 10000) (Scalar.ratio 1 10) ∧
    999 / 10000 ≤ real (Scalar.ratio 1 10) := by
  apply within_ratio <;> norm_num [grain_eq]

/-- The number of passes in a cycle. -/
def passesOf (cycle : ℕ) : ℕ := [90, 60, 40, 27, 18, 12].getD cycle 0

/-- How many times the bound of the coordinates is doubled by the passes of a cycle, at most. -/
def doublings (cycle : ℕ) : ℕ := [236, 87, 24, 6, 1, 1].getD cycle 0

/-- The bound of the coordinates before a cycle, as a power of two. -/
def bits : ℕ → ℕ
  | 0 => 64
  | cycle + 1 => bits cycle + doublings cycle + 2

/-- A bound of the stiffness in a cycle. -/
noncomputable def stiffnessBound (count : ℕ) : ℝ := 2563 / 100 / (count + 1)

/-- A bound of the step size in a cycle. -/
noncomputable def stepBound (cycle : ℕ) : ℝ := 1001 / 10000 / (2 : ℕ) ^ cycle

theorem stepBound_eq (cycle : ℕ) : stepBound cycle = 1001 / 10000 / 2 ^ cycle := rfl

/-- The passes of a cycle enlarge a bound by a power of two at most. -/
theorem growth_pow_le {cycle : ℕ} (h : cycle < 6) :
    growth (stiffnessBound (2 ^ cycle)) (stepBound cycle) ^ passesOf cycle ≤
      2 ^ doublings cycle := by
  rw [stepBound_eq]
  unfold growth stiffnessBound passesOf doublings
  interval_cases cycle <;> norm_num

theorem passes_cycleAt (segments : Array (Segment Float)) (compatible : Array (List ℕ))
    {n : ℕ} (h : n < 6) :
    (cycleAt BundlingParameters.default segments compatible n).passes = passesOf n := by
  unfold Cycle.passes
  rw [iterations_cycleAt]
  interval_cases n <;> decide +kernel

/-! ### The default schedule -/

/-- The length of an edge that the default schedule computes with. -/
abbrev flooredLength (segment : Segment Float) : Float :=
  segment.lengthAtLeast (BundlingParameters.default : BundlingParameters Float).lengthTolerance

/-- An edge that the default schedule keeps finite: its ends are within a million, and it is not too
short. -/
structure Sizable (segment : Segment Float) : Prop where
  tail : segment.tail.AtMost (Scalar.ofNat 1000000)
  head : segment.head.AtMost (Scalar.ofNat 1000000)
  length : Scalar.ratio 1 256 ≤ flooredLength segment

section Edges

variable {segment : Segment Float} (h : Sizable segment)
include h

theorem Sizable.within_length : Double.Within (10 ^ 7) (flooredLength segment) := by
  unfold flooredLength Segment.lengthAtLeast
  split_ifs with hshort
  · have htolerance : Double.Within 1 (Scalar.ratio 1 1000000) ∧
        0 ≤ real (Scalar.ratio 1 1000000) := by
      apply within_ratio <;> norm_num [grain_eq]
    exact htolerance.1.mono (by norm_num)
  · have hroot := le_rootOverflow (n := 200) (by norm_num)
    have htail : segment.tail.Within (10 ^ 6) := (h.tail.within (by norm_num)).mono (by norm_num)
    have hhead : segment.head.Within (10 ^ 6) := (h.head.within (by norm_num)).mono (by norm_num)
    apply (htail.distance hhead (by norm_num) (by linarith)).mono
    norm_num

theorem Sizable.le_length : 3906 / 10 ^ 6 ≤ real (flooredLength segment) := by
  have hleast : Double.Within 1 (Scalar.ratio 1 256) ∧
      3906 / 10 ^ 6 ≤ real (Scalar.ratio 1 256) := by
    apply within_ratio <;> norm_num [grain_eq]
  have hlength := h.within_length
  have hle := h.length
  rw [le_iff hleast.1.isNaN hlength.isNaN, rank_of_isFinite hleast.1.isFinite,
    rank_of_isFinite hlength.isFinite, EReal.coe_le_coe_iff] at hle
  exact hleast.2.trans hle

theorem Sizable.le_divisor {count : ℕ} (hcount : count < 4096) :
    (flooredLength segment * Scalar.ofNat (count + 1)).isFinite = true ∧
      39059 / 10 ^ 7 * (count + 1) ≤
        real (flooredLength segment * Scalar.ofNat (count + 1)) := by
  have hoverflow := two_pow_lt_overflow
  obtain ⟨hfinite, hreal⟩ := real_ofNat (n := count + 1) (by omega)
  have hpos : (0 : ℝ) ≤ count := Nat.cast_nonneg count
  have hcast : (count : ℝ) + 1 ≤ 4096 := by exact_mod_cast hcount
  rw [Nat.cast_add, Nat.cast_one] at hreal
  have hfactor : Double.Within 4096 (Scalar.ofNat (count + 1)) := by
    refine ⟨hfinite, ?_⟩
    rw [hreal, abs_of_nonneg (by linarith)]
    exact hcast
  have hproduct : Double.Within (10 ^ 11) (flooredLength segment * Scalar.ofNat (count + 1)) := by
    apply h.within_length.mul hfactor
    · exact leastNormal_le (by norm_num)
    · rw [grain_eq]
      norm_num
    · linarith
  refine ⟨hproduct.isFinite, ?_⟩
  have hexact : 3906 / 10 ^ 6 * ((count : ℝ) + 1) ≤
      real (flooredLength segment) * real (Scalar.ofNat (count + 1)) := by
    rw [hreal]
    have := h.le_length
    gcongr
  apply (gives_mul h.within_length.isFinite hfinite).le_real hproduct.isFinite hexact
  · apply leastNormal_le
    linarith
  · rw [grain_eq]
    linarith

theorem Sizable.within_stiffness {count : ℕ} (hcount : count < 4096) :
    Double.Within (stiffnessBound count)
      (stiffnessOf BundlingParameters.default segment count) := by
  have hoverflow := two_pow_lt_overflow
  obtain ⟨hfinite, hdivisor⟩ := h.le_divisor hcount
  have hpos : (0 : ℝ) < count + 1 := by positivity
  have hquotient : 1001 / 10000 / (39059 / 10 ^ 7 * ((count : ℝ) + 1)) =
      1001000 / 39059 * (1 / (count + 1)) := by
    field_simp
    norm_num
  have hbound : stiffnessBound count = 2563 / 100 * (1 / (count + 1)) := by
    unfold stiffnessBound
    exact div_eq_mul_one_div _ _
  have hsmall : (1 : ℝ) / 4096 ≤ 1 / (count + 1) := by
    apply one_div_le_one_div_of_le hpos
    exact_mod_cast hcount
  have hless : (1 : ℝ) / (count + 1) ≤ 1 := by
    rw [div_le_one hpos]
    linarith [(Nat.cast_nonneg count : (0 : ℝ) ≤ count)]
  apply within_tenth.1.div hfinite (by positivity) (hdivisor.trans (le_abs_self _))
  · rw [hquotient]
    exact leastNormal_le (by linarith)
  · rw [hquotient, hbound]
    rw [grain_eq]
    linarith
  · rw [hbound]
    linarith

end Edges

/-- The bounds of a cycle of the default schedule. -/
theorem tame_cycleAt (segments : Array (Segment Float)) (compatible : Array (List ℕ)) {n : ℕ}
    (h : n < 6) : Tame (2 ^ bits n) (stiffnessBound (2 ^ n)) (stepBound n)
      (cycleAt BundlingParameters.default segments compatible n).stepSize := by
  have hbits : 64 ≤ bits n ∧ bits n ≤ 508 := by
    interval_cases n <;> decide
  obtain ⟨hwithin, hlow⟩ := within_tenth
  have hhigh := (le_abs_self _).trans hwithin.abs_real_le
  have hpos : (0 : ℝ) < 2 ^ n := by positivity
  have hpow : (2 : ℝ) ^ n ≤ 2 ^ 5 := pow_le_pow_right₀ (by norm_num) (by omega)
  have hone : (1 : ℝ) ≤ 2 ^ n := one_le_pow₀ (by norm_num)
  have hstart : 2 ^ n * (1 / 2 ^ 200) ≤ |real (Scalar.ratio 1 10)| := by
    rw [abs_of_nonneg (by linarith)]
    linarith
  obtain ⟨hstepFinite, hstep⟩ := real_stepSize hwithin.isFinite n hstart
  have heq : (cycleAt BundlingParameters.default segments compatible n).stepSize =
      Nat.repeat (fun stepSize => stepSize / Scalar.ofNat 2) n (Scalar.ratio 1 10) :=
    stepSize_cycleAt _ _ _ n
  refine ⟨?_, ?_, ?_, ?_, ?_, ?_, ?_⟩
  · exact pow_le_pow_right₀ (by norm_num) hbits.1
  · calc (16 : ℝ) * 2 ^ bits n = 2 ^ (bits n + 4) := by rw [pow_add]; ring
      _ ≤ rootOverflow := le_rootOverflow (by omega)
  · unfold stiffnessBound
    rw [le_div_iff₀ (by positivity)]
    push_cast
    linarith
  · unfold stiffnessBound
    rw [div_le_iff₀ (by positivity)]
    push_cast
    linarith
  · rw [heq, hstep, le_div_iff₀ hpos]
    linarith
  · rw [stepBound_eq]
    rw [div_le_iff₀ hpos]
    linarith
  · rw [heq]
    refine ⟨hstepFinite, ?_⟩
    rw [stepBound_eq, hstep, abs_of_nonneg (div_nonneg (by linarith) hpos.le)]
    gcongr

theorem subdivision_cycleAt (segments : Array (Segment Float)) (compatible : Array (List ℕ))
    {n : ℕ} (h : n ≤ 6) :
    (cycleAt BundlingParameters.default segments compatible n).subdivision = 2 ^ n := by
  have hcap : 1 * 2 ^ n ≤ maxSubdivision := by
    unfold maxSubdivision
    interval_cases n <;> decide
  calc (cycleAt BundlingParameters.default segments compatible n).subdivision
      = min (1 * 2 ^ n) maxSubdivision := subdivision_repeat _ _ _ n
    _ = 2 ^ n := by rw [Nat.min_eq_left hcap, one_mul]

theorem paths_first {segments : Array (Segment Float)}
    (hsegments : ∀ segment ∈ segments, Sizable segment) :
    PathsWithin (2 ^ bits 0) (Cycle.first BundlingParameters.default segments).paths := by
  have hstraight : PathsWithin (10 ^ 6) (straight segments) := by
    intro path hpath point hpoint
    unfold straight at hpath
    obtain ⟨segment, hsegment, rfl⟩ := Array.mem_map.mp hpath
    have hsizable := hsegments segment hsegment
    have hends : point = segment.tail ∨ point = segment.head := by simpa using hpoint
    rcases hends with rfl | rfl
    · exact (hsizable.tail.within (by norm_num)).mono (by norm_num)
    · exact (hsizable.head.within (by norm_num)).mono (by norm_num)
  have hsize : ∀ path ∈ straight segments, path.size ≤ 8192 := by
    intro path hpath
    unfold straight at hpath
    obtain ⟨segment, -, rfl⟩ := Array.mem_map.mp hpath
    simp
  have hroot := le_rootOverflow (n := 200) (by norm_num)
  have hresampled : PathsWithin (4 * 10 ^ 6) (resampleAll (straight segments) 1) :=
    resampleAll_within (by norm_num) (by linarith) hstraight hsize (by norm_num)
  exact hresampled.mono (by norm_num [bits])

theorem paths_next {segments : Array (Segment Float)} {compatible : Array (List ℕ)}
    (hc : Indexed segments compatible) (hsegments : ∀ segment ∈ segments, Sizable segment)
    {n : ℕ} (h : n < 6)
    (hregular : Regular (fun _ _ => True) segments
      (cycleAt BundlingParameters.default segments compatible n).subdivision
      (cycleAt BundlingParameters.default segments compatible n).paths)
    (hpaths : PathsWithin (2 ^ bits n)
      (cycleAt BundlingParameters.default segments compatible n).paths) :
    PathsWithin (2 ^ bits (n + 1))
      (cycleAt BundlingParameters.default segments compatible (n + 1)).paths := by
  have hsubdivision := subdivision_cycleAt segments compatible h.le
  have hcount : 2 ^ n < 4096 ∧ bits n + doublings n + 4 ≤ 512 := by
    interval_cases n <;> decide
  have hgrowth := growth_pow_le h
  rw [← passes_cycleAt segments compatible h] at hgrowth
  have hgrown : 2 ^ bits n * growth (stiffnessBound (2 ^ n)) (stepBound n) ^
      (cycleAt BundlingParameters.default segments compatible n).passes ≤
        2 ^ (bits n + doublings n) := by
    rw [pow_add]
    gcongr
  have hroom : 16 * (2 : ℝ) ^ (bits n + doublings n) ≤ rootOverflow := by
    calc 16 * (2 : ℝ) ^ (bits n + doublings n) = 2 ^ (bits n + doublings n + 4) := by
          rw [pow_add _ _ 4]
          ring
      _ ≤ rootOverflow := le_rootOverflow hcount.2
  have hstiff : ∀ segment ∈ segments, Double.Within (stiffnessBound (2 ^ n))
      (stiffnessOf BundlingParameters.default segment
        (cycleAt BundlingParameters.default segments compatible n).subdivision) := by
    intro segment hsegment
    rw [hsubdivision]
    exact_mod_cast (hsegments segment hsegment).within_stiffness hcount.1
  have hcap : (cycleAt BundlingParameters.default segments compatible n).subdivision ≤
      maxSubdivision := by
    rw [hsubdivision]
    unfold maxSubdivision
    omega
  have hnext := next_within hc (tame_cycleAt segments compatible h) hstiff hregular hpaths
    (by linarith) hcap
  refine hnext.mono ?_
  show _ ≤ (2 : ℝ) ^ (bits n + doublings n + 2)
  rw [pow_add _ _ 2]
  linarith

theorem paths_cycleAt {segments : Array (Segment Float)} {compatible : Array (List ℕ)}
    (hc : Indexed segments compatible) (hsegments : ∀ segment ∈ segments, Sizable segment)
    (n : ℕ) : n ≤ 6 →
      Regular (fun _ _ => True) segments
          (cycleAt BundlingParameters.default segments compatible n).subdivision
          (cycleAt BundlingParameters.default segments compatible n).paths ∧
        PathsWithin (2 ^ bits n)
          (cycleAt BundlingParameters.default segments compatible n).paths := by
  induction n with
  | zero =>
      intro _
      exact ⟨regular_first (fun _ => trivial) BundlingParameters.default segments,
        paths_first hsegments⟩
  | succ n ih =>
      intro hn
      obtain ⟨hregular, hpaths⟩ := ih (by omega)
      constructor
      · exact hregular.next (fun _ _ _ => trivial) hc BundlingParameters.default
      · exact paths_next hc hsegments (by omega) hregular hpaths

/-- The bundled paths of sizable edges are bounded. -/
theorem bundleKept_within {segments : Array (Segment Float)}
    (hsegments : ∀ segment ∈ segments, Sizable segment) :
    PathsWithin (2 ^ bits 6) (bundleKept BundlingParameters.default segments) :=
  (paths_cycleAt (indexed_compatibilityLists BundlingParameters.default segments) hsegments 6
    le_rfl).2

/-- **Bundled paths are finite**: with the default constants, if the ends of all edges are within a
million, and no edge whose ends differ is shorter than `1 / 256`, then all points of all paths have
finite coordinates, however many edges there are and however they attract each other. -/
theorem bundle_isFinite {segments : List (Segment Float)}
    (hends : ∀ segment ∈ segments, segment.tail.AtMost (Scalar.ofNat 1000000) ∧
      segment.head.AtMost (Scalar.ofNat 1000000))
    (hlength : ∀ segment ∈ segments, segment.isDegenerate = false →
      Scalar.ratio 1 256 ≤ flooredLength segment) :
    ∀ path ∈ bundle BundlingParameters.default segments, ∀ point ∈ path, point.IsFinite := by
  intro path hpath point hpoint
  rcases mem_deal segments path hpath with rfl | hmem
  · exact absurd hpoint (Array.not_mem_empty point)
  · have hsizable : ∀ segment ∈ (kept segments).toArray, Sizable segment := by
      intro segment hsegment
      obtain ⟨hin, hkept⟩ := List.mem_filter.mp (List.mem_toArray.mp hsegment)
      obtain ⟨htail, hhead⟩ := hends segment hin
      exact ⟨htail, hhead, hlength segment hin (by simpa using hkept)⟩
    have hwithin := bundleKept_within hsizable path (Array.mem_toList_iff.mp hmem) point hpoint
    exact ⟨hwithin.x.isFinite, hwithin.y.isFinite⟩

/-- Two long edges that attract each other, one of the least length, and one without length. -/
def mixedLengths : List (Segment Float) :=
  [⟨⟨-1000000, 0⟩, ⟨1000000, 0⟩⟩, ⟨⟨-1000000, 9⟩, ⟨1000000, 9⟩⟩,
    ⟨⟨5, 5⟩, ⟨5.00390625, 5⟩⟩, ⟨⟨7, 7⟩, ⟨7, 7⟩⟩]

/-- Their paths are finite. -/
theorem bundle_isFinite_mixedLengths :
    (∀ segment ∈ mixedLengths, segment.tail.AtMost (Scalar.ofNat 1000000) ∧
        segment.head.AtMost (Scalar.ofNat 1000000)) ∧
      (∀ segment ∈ mixedLengths, segment.isDegenerate = false →
        Scalar.ratio 1 256 ≤ flooredLength segment) ∧
      ∀ path ∈ bundle BundlingParameters.default mixedLengths, ∀ point ∈ path,
        point.IsFinite := by
  have hends : ∀ segment ∈ mixedLengths, segment.tail.AtMost (Scalar.ofNat 1000000) ∧
      segment.head.AtMost (Scalar.ofNat 1000000) := by
    unfold Point.AtMost
    decide +kernel
  have hlength : ∀ segment ∈ mixedLengths, segment.isDegenerate = false →
      Scalar.ratio 1 256 ≤ flooredLength segment := by
    decide +kernel
  exact ⟨hends, hlength, bundle_isFinite hends hlength⟩

end Bundling

end NodeLink
