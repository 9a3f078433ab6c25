import NodeLink.Bundling.Schedule
import NodeLink.Proofs.Sequences
import Mathlib

/-! # Paths during the bundling schedule

Between two passes all paths have the same number of inner points, and the ends of a path are
those of its edge, moved by zero vectors only (`Regular`).  A pass keeps this, since the points
that its forces look up then all exist (`Regular.exists_displacements`), and a cycle keeps it
with a new number of inner points (`Regular.next`).  When an end counts as that of the edge is
left open: any relation does that a sum with the zero vector preserves. -/

namespace NodeLink.Bundling

variable {α : Type}

/-! ### One path -/

/-- The path has `count` inner points, and its ends are near those of the edge. -/
def Spans (near : Point α → Point α → Prop) (segment : Segment α) (count : Nat)
    (path : Array (Point α)) : Prop :=
  ∃ first inner last, path.toList = first :: (inner ++ [last]) ∧ inner.length = count ∧
    near first segment.tail ∧ near last segment.head

section Path

variable {near : Point α → Point α → Prop} {segment : Segment α} {count : Nat}
  {path : Array (Point α)}

theorem Spans.size (h : Spans near segment count path) : path.size = count + 2 := by
  obtain ⟨first, inner, last, hpath, hlen, -, -⟩ := h
  rw [← Array.length_toList, hpath]
  simp [hlen]

theorem spans_straight (hrefl : ∀ p, near p p) :
    Spans near segment 0 #[segment.tail, segment.head] :=
  ⟨segment.tail, [], segment.head, rfl, rfl, hrefl _, hrefl _⟩

variable [Scalar α]

theorem Spans.resample (h : Spans near segment count path) (k : Nat) :
    Spans near segment k (Polyline.resample path.toList k).toArray := by
  obtain ⟨first, inner, last, hpath, -, hfirst, hlast⟩ := h
  have hend : (inner ++ [last]).getLastD first = last := by simp
  rw [hpath]
  simp only [Polyline.resample, hend]
  refine ⟨first, _, last, rfl, ?_, hfirst, hlast⟩
  rw [Polyline.length_walk, List.length_range']

theorem displace_eq (path : Array (Point α)) {displacements : List (Vec α)}
    (h : path.size = displacements.length) :
    displace path displacements =
      (path.toList.zipWith (fun point v => point + v) displacements).toArray := by
  have hdrop : path.toList.drop
      (path.toList.zipWith (fun point v => point + v) displacements).length = [] :=
    List.drop_eq_nil_of_le (by rw [List.length_zipWith, Array.length_toList]; omega)
  unfold displace
  simp only [hdrop, List.append_nil]

theorem Spans.displace (hzero : ∀ p q, near p q → near (p + (Vec.zero : Vec α)) q)
    (h : Spans near segment count path) {inner : List (Vec α)} (hinner : inner.length = count) :
    Spans near segment count (displace path (Vec.zero :: (inner ++ [Vec.zero]))) := by
  have hsize : path.size = (Vec.zero :: (inner ++ [Vec.zero]) : List (Vec α)).length := by
    simp [h.size, hinner]
  obtain ⟨first, points, last, hpath, hlen, hfirst, hlast⟩ := h
  rw [displace_eq path hsize, hpath, List.zipWith_cons_cons, List.zipWith_append (by omega)]
  refine ⟨_, points.zipWith (fun point v => point + v) inner, _, rfl, ?_,
    hzero _ _ hfirst, hzero _ _ hlast⟩
  rw [List.length_zipWith, hlen, hinner, Nat.min_self]

end Path

/-! ### The points that forces look up -/

section Forces

variable [Scalar α]

theorem exists_springForce (points : Array (Point α)) (index : Nat) (stiffness : α)
    (h₀ : index ≠ 0) (h : index + 1 < points.size) :
    ∃ force, springForce? points index stiffness = some force := by
  unfold springForce?
  rw [if_neg h₀, Array.getElem?_eq_getElem (by omega), Array.getElem?_eq_getElem (by omega),
    Array.getElem?_eq_getElem h]
  exact ⟨_, rfl⟩

theorem exists_pulls {paths : Array (Array (Point α))} {index : Nat} (threshold : α)
    (current : Point α) : ∀ (others : List Nat) (total : Vec α),
    (∀ other ∈ others, ∃ point, paths[other]?.bind (·[index]?) = some point) →
      ∃ force, pulls? paths index threshold current total others = some force
  | [], total, _ => ⟨total, rfl⟩
  | other :: others, total, h => by
      obtain ⟨point, hpoint⟩ := h other List.mem_cons_self
      unfold pulls?
      rw [hpoint]
      exact exists_pulls threshold current others _ fun o ho => h o (List.mem_cons_of_mem _ ho)

end Forces

/-! ### All paths -/

/-- There is one path an edge, and every path spans its edge with the same number of inner
points. -/
structure Regular (near : Point α → Point α → Prop) (segments : Array (Segment α)) (count : Nat)
    (paths : Array (Array (Point α))) : Prop where
  size : paths.size = segments.size
  spans : ∀ {i : Nat} {segment : Segment α} {path : Array (Point α)},
    segments[i]? = some segment → paths[i]? = some path → Spans near segment count path

/-- There is one list of attracted edges an edge, and it lists edges only. -/
structure Indexed (segments : Array (Segment α)) (compatible : Array (List Nat)) : Prop where
  size : compatible.size = segments.size
  lt : ∀ {i : Nat} {others : List Nat}, compatible[i]? = some others →
    ∀ other ∈ others, other < segments.size

section Paths

variable {near : Point α → Point α → Prop} {segments : Array (Segment α)} {count : Nat}
  {paths : Array (Array (Point α))} {compatible : Array (List Nat)}

theorem regular_straight (hrefl : ∀ p, near p p) (segments : Array (Segment α)) :
    Regular near segments 0 (straight segments) where
  size := Array.size_map
  spans := by
    intro i segment path hs hp
    unfold straight at hp
    rw [Array.getElem?_map, hs] at hp
    cases hp
    exact spans_straight hrefl

theorem Regular.exists_point (h : Regular near segments count paths) {i index : Nat}
    (hi : i < segments.size) (hindex : index < count + 2) :
    ∃ point, paths[i]?.bind (·[index]?) = some point := by
  have hp : i < paths.size := h.size ▸ hi
  have hpath := Array.getElem?_eq_getElem hp
  have hsize := (h.spans (Array.getElem?_eq_getElem hi) hpath).size
  rw [hpath]
  exact ⟨_, Array.getElem?_eq_getElem (by omega)⟩

theorem Regular.size_of_mem (h : Regular near segments count paths) {path : Array (Point α)}
    (hpath : path ∈ paths) : path.size = count + 2 := by
  obtain ⟨i, hi⟩ := Array.getElem?_of_mem hpath
  have hlt : i < segments.size := h.size ▸ (Array.getElem?_eq_some_iff.mp hi).1
  exact (h.spans (Array.getElem?_eq_getElem hlt) hi).size

variable [Scalar α]

theorem indexed_compatibilityLists (parameters : BundlingParameters α)
    (segments : Array (Segment α)) :
    Indexed segments (compatibilityLists parameters segments) where
  size := Array.size_ofFn
  lt := by
    intro i others hothers other hother
    obtain ⟨p, rfl⟩ := Array.mem_ofFn.mp (Array.mem_of_getElem? hothers)
    exact List.mem_range.mp (List.mem_filter.mp hother).1

/-- No look-up of a pass fails: every edge has its displacements, zero at both ends. -/
theorem Regular.exists_displacements (h : Regular near segments count paths) {i : Nat}
    {segment : Segment α} {path : Array (Point α)} (hs : segments[i]? = some segment)
    (hp : paths[i]? = some path) {others : List Nat}
    (hothers : ∀ other ∈ others, other < segments.size) (stepSize : α)
    (parameters : BundlingParameters α) :
    ∃ inner, displacements? paths others i segment stepSize parameters =
      some (Vec.zero :: (inner ++ [Vec.zero])) ∧ inner.length = count := by
  have hi : i < segments.size := (Array.getElem?_eq_some_iff.mp hs).1
  have hsize := (h.spans hs hp).size
  have hinner : ∀ stiffness : α, ∀ index ∈ List.range' 1 count,
      ∃ v, displacement? paths others i path stiffness stepSize index = some v := by
    intro stiffness index hindex
    obtain ⟨h₁, h₂⟩ := List.mem_range'_1.mp hindex
    have hlt : index < count + 2 := by omega
    obtain ⟨spring, hspring⟩ :=
      exists_springForce path index stiffness (by omega) (by omega)
    obtain ⟨point, hpoint⟩ := h.exists_point hi hlt
    obtain ⟨pull, hpull⟩ := exists_pulls stepSize point others Vec.zero
      fun other hother => h.exists_point (hothers other hother) hlt
    unfold displacement? electrostaticForce?
    rw [hspring, hpoint]
    simp only [hpull]
    exact ⟨_, rfl⟩
  unfold displacements?
  rw [hp]
  simp only [hsize, Nat.add_sub_cancel]
  obtain ⟨inner, hmap, hlen⟩ := exists_mapM (List.range' 1 count) (hinner _)
  rw [hmap, if_pos (by omega)]
  exact ⟨inner, rfl, hlen.trans List.length_range'⟩

theorem Regular.pass (hzero : ∀ p q, near p q → near (p + (Vec.zero : Vec α)) q)
    (hc : Indexed segments compatible) (parameters : BundlingParameters α) (stepSize : α)
    (h : Regular near segments count paths) :
    Regular near segments count (pass parameters segments compatible stepSize paths) where
  size := by
    unfold Bundling.pass
    rw [Array.size_mapIdx, h.size]
  spans := by
    intro i segment path hs hp
    have hi : i < segments.size := (Array.getElem?_eq_some_iff.mp hs).1
    have hothers := Array.getElem?_eq_getElem (hc.size ▸ hi)
    unfold Bundling.pass at hp
    rw [Array.getElem?_mapIdx] at hp
    obtain ⟨points, hpoints, rfl⟩ := Option.map_eq_some_iff.mp hp
    obtain ⟨inner, hd, hlen⟩ :=
      h.exists_displacements hs hpoints (hc.lt hothers) stepSize parameters
    rw [hs, hothers]
    simp only [hd, Option.getD_some]
    exact (h.spans hs hpoints).displace hzero hlen

theorem Regular.resampleAll (h : Regular near segments count paths) (k : Nat) :
    Regular near segments k (resampleAll paths k) where
  size := by
    unfold Bundling.resampleAll
    rw [Array.size_map, h.size]
  spans := by
    intro i segment path hs hp
    unfold Bundling.resampleAll at hp
    rw [Array.getElem?_map] at hp
    obtain ⟨points, hpoints, rfl⟩ := Option.map_eq_some_iff.mp hp
    exact (h.spans hs hpoints).resample k

/-! ### The cycles -/

theorem regular_first (hrefl : ∀ p, near p p) (parameters : BundlingParameters α)
    (segments : Array (Segment α)) :
    Regular near segments (Cycle.first parameters segments).subdivision
      (Cycle.first parameters segments).paths :=
  (regular_straight hrefl segments).resampleAll _

/-- A cycle keeps its state regular. -/
theorem Regular.next (hzero : ∀ p q, near p q → near (p + (Vec.zero : Vec α)) q)
    (hc : Indexed segments compatible) (parameters : BundlingParameters α) {cycle : Cycle α}
    (h : Regular near segments cycle.subdivision cycle.paths) :
    Regular near segments (cycle.next parameters segments compatible).subdivision
      (cycle.next parameters segments compatible).paths := by
  have hpasses : Regular near segments cycle.subdivision
      (Nat.repeat (Bundling.pass parameters segments compatible cycle.stepSize) cycle.passes
        cycle.paths) :=
    repeat_preserves (fun _ hs => Regular.pass hzero hc parameters cycle.stepSize hs) _ h
  exact hpasses.resampleAll _

/-- A cap before a multiplication does not show under the same cap after it. -/
theorem min_mul_min (a rate cap : Nat) : min (min a cap * rate) cap = min (a * rate) cap := by
  rcases Nat.eq_zero_or_pos rate with rfl | hrate
  · rfl
  · have hcap : cap ≤ cap * rate := Nat.le_mul_of_pos_right cap hrate
    rw [← Nat.mul_min_mul_right, Nat.min_assoc, Nat.min_eq_right hcap]

/-- The number of inner points after some cycles: what the subdivision rate makes of the initial
number, capped. -/
theorem subdivision_repeat (parameters : BundlingParameters α) (segments : Array (Segment α))
    (compatible : Array (List Nat)) (n : Nat) :
    (Nat.repeat (Cycle.next parameters segments compatible) n
      (Cycle.first parameters segments)).subdivision =
      min (parameters.initialSubdivision * parameters.subdivisionRate ^ n) maxSubdivision := by
  induction n with
  | zero =>
      show min parameters.initialSubdivision maxSubdivision = _
      rw [Nat.pow_zero, Nat.mul_one]
  | succ n ih =>
      show min ((Nat.repeat (Cycle.next parameters segments compatible) n
        (Cycle.first parameters segments)).subdivision * parameters.subdivisionRate)
        maxSubdivision = _
      rw [ih, Nat.pow_succ, ← Nat.mul_assoc]
      exact min_mul_min _ _ _

/-- The finished paths are regular; after cycles the parameters decide the number of inner
points. -/
theorem exists_regular_bundleKept (hrefl : ∀ p, near p p)
    (hzero : ∀ p q, near p q → near (p + (Vec.zero : Vec α)) q)
    (parameters : BundlingParameters α) (segments : Array (Segment α)) :
    ∃ count, Regular near segments count (bundleKept parameters segments) ∧
      (parameters.cycleCount ≠ 0 → count = min (parameters.initialSubdivision *
        parameters.subdivisionRate ^ parameters.cycleCount) maxSubdivision) := by
  unfold bundleKept
  by_cases hnone : parameters.cycleCount = 0
  · rw [if_pos hnone]
    exact ⟨0, regular_straight hrefl segments, fun h => absurd hnone h⟩
  · rw [if_neg hnone]
    have hregular := repeat_preserves
      (P := fun cycle : Cycle α => Regular near segments cycle.subdivision cycle.paths)
      (fun _ h => h.next hzero (indexed_compatibilityLists parameters segments) parameters)
      parameters.cycleCount (regular_first hrefl parameters segments)
    exact ⟨_, hregular, fun _ => subdivision_repeat _ _ _ _⟩

end Paths

/-! ### Dealing the paths out -/

section Deal

variable [Scalar α] {R : Segment α → Array (Point α) → Prop}

theorem forall₂_deal (hempty : ∀ segment, segment.isDegenerate = true → R segment #[]) :
    ∀ (segments : List (Segment α)) {paths : List (Array (Point α))},
      List.Forall₂ R (kept segments) paths → List.Forall₂ R segments (deal segments paths)
  | [], _, _ => .nil
  | segment :: segments, paths, h => by
      unfold deal
      by_cases hd : segment.isDegenerate = true
      · rw [if_pos hd]
        have hkept : kept (segment :: segments) = kept segments :=
          List.filter_cons_of_neg (by simp [hd])
        rw [hkept] at h
        exact .cons (hempty segment hd) (forall₂_deal hempty segments h)
      · rw [if_neg hd]
        have hkept : kept (segment :: segments) = segment :: kept segments :=
          List.filter_cons_of_pos (by simp [hd])
        rw [hkept] at h
        cases h with
        | cons hhead htail => exact .cons hhead (forall₂_deal hempty segments htail)

theorem mem_deal : ∀ (segments : List (Segment α))
    {paths : List (Array (Point α))}, ∀ path ∈ deal segments paths, path = #[] ∨ path ∈ paths
  | [], _, path, h => absurd h List.not_mem_nil
  | segment :: segments, paths, path, h => by
      unfold deal at h
      split_ifs at h with hdegenerate
      · rcases List.mem_cons.mp h with rfl | h
        · exact Or.inl rfl
        · exact mem_deal segments path h
      · cases paths with
        | nil =>
            rcases List.mem_cons.mp h with rfl | h
            · exact Or.inl rfl
            · exact mem_deal segments path h
        | cons first rest =>
            rcases List.mem_cons.mp h with rfl | h
            · exact Or.inr List.mem_cons_self
            · rcases mem_deal segments path h with hempty | hmem
              · exact Or.inl hempty
              · exact Or.inr (List.mem_cons_of_mem first hmem)

/-- What holds of the finished paths of edges that take part, and of empty paths of the others,
holds of what bundling yields. -/
theorem forall₂_bundle (hempty : ∀ segment, segment.isDegenerate = true → R segment #[])
    {parameters : BundlingParameters α} {segments : List (Segment α)}
    (hsize : (bundleKept parameters (kept segments).toArray).size = (kept segments).toArray.size)
    (hkept : ∀ {i : Nat} {segment : Segment α} {path : Array (Point α)},
      (kept segments).toArray[i]? = some segment →
        (bundleKept parameters (kept segments).toArray)[i]? = some path → R segment path) :
    List.Forall₂ R segments (bundle parameters segments) := by
  refine forall₂_deal hempty segments ?_
  refine List.forall₂_iff_get.mpr ⟨?_, fun i h₁ h₂ => ?_⟩
  · rw [← List.size_toArray, ← hsize, ← Array.length_toList]
  · refine hkept (i := i) ?_ ?_
    · rw [List.getElem?_toArray, List.get_eq_getElem, List.getElem?_eq_getElem]
    · rw [← Array.getElem?_toList, List.get_eq_getElem, List.getElem?_eq_getElem]

theorem forall₂_spans_bundle {near : Point α → Point α → Prop} (hrefl : ∀ p, near p p)
    (hzero : ∀ p q, near p q → near (p + (Vec.zero : Vec α)) q)
    (parameters : BundlingParameters α) (segments : List (Segment α)) :
    List.Forall₂ (fun segment path => path = #[] ∨ ∃ count, Spans near segment count path)
      segments (bundle parameters segments) := by
  obtain ⟨count, hregular, -⟩ :=
    exists_regular_bundleKept hrefl hzero parameters (kept segments).toArray
  exact forall₂_bundle (fun _ _ => Or.inl rfl) hregular.size
    fun hs hp => Or.inr ⟨count, hregular.spans hs hp⟩

end Deal

end NodeLink.Bundling
