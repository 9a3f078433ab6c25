import NodeLink.Graph.Basic
import NodeLink.Proofs.Bundling.Regular

/-! # How many points a path has

The number of points on a bundled path depends on the bundling parameters alone, and on whether the
ends of the edge coincide.  An edge whose ends do has no stored path and is drawn straight. -/

namespace NodeLink

variable {α : Type}

namespace BundlingParameters

/-- The number of points on the path of an edge that takes part in bundling: two without cycles,
else the ends and what the rate makes of the initial inner points, capped. -/
def pointCount (parameters : BundlingParameters α) : Nat :=
  if parameters.cycleCount = 0 then 2
  else min (parameters.initialSubdivision * parameters.subdivisionRate ^ parameters.cycleCount)
    Bundling.maxSubdivision + 2

theorem two_le_pointCount (parameters : BundlingParameters α) : 2 ≤ parameters.pointCount := by
  unfold pointCount
  split_ifs <;> omega

end BundlingParameters

theorem Graph.storedPath?_of_getElem? {graph : Graph α} {index : Nat}
    {paths : List (Array (Point α))} {path : Array (Point α)}
    (hpaths : graph.paths = some paths) (hpath : paths[index]? = some path) :
    graph.storedPath? index = if path.isEmpty then none else some path := by
  unfold storedPath?
  rw [hpaths, Option.bind_some, hpath, Option.filter_some]
  cases path.isEmpty <;> rfl

variable [Scalar α]

namespace Bundling

theorem size_bundleKept (parameters : BundlingParameters α) (segments : Array (Segment α)) :
    (bundleKept parameters segments).size = segments.size ∧
      ∀ {i : Nat} {segment : Segment α} {path : Array (Point α)},
        segments[i]? = some segment → (bundleKept parameters segments)[i]? = some path →
          path.size = parameters.pointCount := by
  -- where the ends of a path are does not count here
  have hregular : ∃ count,
      Regular (fun _ _ : Point α => True) segments count (bundleKept parameters segments) ∧
        (parameters.cycleCount ≠ 0 → count = min (parameters.initialSubdivision *
          parameters.subdivisionRate ^ parameters.cycleCount) maxSubdivision) :=
    exists_regular_bundleKept (fun _ => trivial) (fun _ _ _ => trivial) parameters segments
  obtain ⟨count, hregular, hcount⟩ := hregular
  refine ⟨hregular.size, fun {i segment path} hs hp => ?_⟩
  unfold BundlingParameters.pointCount
  by_cases hcycles : parameters.cycleCount = 0
  · rw [if_pos hcycles]
    unfold bundleKept straight at hp
    rw [if_pos hcycles, Array.getElem?_map, hs] at hp
    cases hp
    rfl
  · rw [if_neg hcycles, (hregular.spans hs hp).size, hcount hcycles]

theorem forall₂_size_bundle (parameters : BundlingParameters α) (segments : List (Segment α)) :
    List.Forall₂ (fun segment path =>
        path.size = if segment.isDegenerate then 0 else parameters.pointCount)
      segments (bundle parameters segments) := by
  obtain ⟨hsize, hpaths⟩ := size_bundleKept parameters (kept segments).toArray
  refine forall₂_bundle (fun segment hd => by rw [if_pos hd]; rfl) hsize
    fun {i segment path} hs hp => ?_
  have hkept := (List.mem_filter.mp (List.mem_toArray.mp (Array.mem_of_getElem? hs))).2
  rw [if_neg (by simpa using hkept)]
  exact hpaths hs hp

end Bundling

namespace Graph

variable {graph : Graph α} {index : Nat} {edge : Edge α}

theorem getElem?_segments (hedge : graph.edges[index]? = some edge) :
    graph.segments[index]? = some (graph.segment edge) := by
  unfold segments
  rw [List.getElem?_map, Array.getElem?_toList, hedge]
  rfl

theorem edgePath_of_storedPath?_eq_none (hedge : graph.edges[index]? = some edge)
    (h : graph.storedPath? index = none) :
    graph.edgePath index = #[graph.position edge.tail, graph.position edge.head] := by
  unfold edgePath
  rw [h, hedge]

/-- The stored path of an edge is empty if its ends coincide, and has the number of points that the
parameters decide if not. -/
theorem exists_getElem?_bundle (bundling : BundlingParameters α)
    (hedge : graph.edges[index]? = some edge) :
    ∃ path, (Bundling.bundle bundling graph.segments)[index]? = some path ∧
      path.size = if (graph.segment edge).isDegenerate then 0 else bundling.pointCount := by
  have hsizes := List.forall₂_iff_zip.mp (Bundling.forall₂_size_bundle bundling graph.segments)
  have hsegment := getElem?_segments hedge
  have hlt : index < (Bundling.bundle bundling graph.segments).length :=
    hsizes.1 ▸ (List.getElem?_eq_some_iff.mp hsegment).1
  have hpath := List.getElem?_eq_getElem hlt
  exact ⟨_, hpath,
    hsizes.2 (List.mem_of_getElem? (List.getElem?_zip_eq_some.mpr ⟨hsegment, hpath⟩))⟩

theorem edgePath_of_storedPath?_eq_some {path : Array (Point α)}
    (h : graph.storedPath? index = some path) : graph.edgePath index = path := by
  unfold edgePath
  rw [h]

/-- After bundling, an edge whose ends coincide is straight, and the path of any other edge has
the number of points that the parameters decide. -/
theorem size_edgePath_bundleEdges (bundling : BundlingParameters α)
    (hedge : graph.edges[index]? = some edge) :
    ((graph.bundleEdges bundling).edgePath index).size =
      if (graph.segment edge).isDegenerate then 2 else bundling.pointCount := by
  obtain ⟨path, hpath, hsize⟩ := exists_getElem?_bundle bundling hedge
  have hstored : (graph.bundleEdges bundling).storedPath? index =
      if path.isEmpty then none else some path := storedPath?_of_getElem? rfl hpath
  by_cases hd : (graph.segment edge).isDegenerate = true
  · rw [if_pos hd] at hsize ⊢
    rw [Array.size_eq_zero_iff.mp hsize] at hstored
    have hsame : (graph.bundleEdges bundling).edges[index]? = some edge := hedge
    rw [edgePath_of_storedPath?_eq_none hsame hstored]
    rfl
  · rw [if_neg hd] at hsize ⊢
    have hnonempty : path.isEmpty = false := by
      have := bundling.two_le_pointCount
      rw [Array.isEmpty_eq_false_iff, ← Array.size_pos_iff]
      omega
    rw [hnonempty] at hstored
    rw [edgePath_of_storedPath?_eq_some hstored, hsize]

end Graph

end NodeLink
