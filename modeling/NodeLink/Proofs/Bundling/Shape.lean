import NodeLink.Proofs.Bundling.Regular
import NodeLink.Proofs.Double.Packing

/-! # The shape of bundled paths

Bundling yields one path an edge, in the order of the edges (`bundle_shape`).  The path of an edge
whose ends coincide is empty; that of any other edge has a number of points that the parameters
alone decide, and starts and ends at the ends of the edge.  Every pass adds a zero vector to the
ends of a path, so on doubles they are only kept up to the sign of zero, and only where no
coordinate fails to be a number. -/

namespace NodeLink

/-- Both coordinates are numbers. -/
def Point.IsNumber (point : Point Float) : Prop :=
  point.x.isNaN = false ∧ point.y.isNaN = false

namespace Bundling

/-- What bundling makes of an edge. -/
structure Bundled (parameters : BundlingParameters Float) (segment : Segment Float)
    (path : Array (Point Float)) : Prop where
  /-- Only an edge whose ends coincide has no path. -/
  empty : path = #[] ↔ segment.isDegenerate = true
  /-- Without cycles an edge stays straight. -/
  straight : segment.isDegenerate = false → parameters.cycleCount = 0 →
    path = #[segment.tail, segment.head]
  /-- With cycles the number of inner points is the product of the rates, capped. -/
  size : segment.isDegenerate = false → 1 ≤ parameters.cycleCount →
    path.size = min (parameters.initialSubdivision *
      parameters.subdivisionRate ^ parameters.cycleCount) 4096 + 2
  /-- The path starts at the tail. -/
  first : segment.isDegenerate = false → segment.tail.IsNumber →
    ∃ point, path[0]? = some point ∧ point.same segment.tail = true
  /-- The path ends at the head. -/
  last : segment.isDegenerate = false → segment.head.IsNumber →
    ∃ point, path.back? = some point ∧ point.same segment.head = true

/-! ### Ends up to the sign of zero -/

/-- The point compares equal to the other one if that one can. -/
def Stays (p q : Point Float) : Prop := q.IsNumber → p.same q = true

theorem stays_refl (p : Point Float) : Stays p p := by
  intro hp
  show ((p.x == p.x) && (p.y == p.y)) = true
  rw [Double.beq_self_eq, Double.beq_self_eq, hp.1, hp.2]
  rfl

theorem Stays.add_zero (p q : Point Float) (h : Stays p q) :
    Stays (p + (Vec.zero : Vec Float)) q := by
  intro hq
  show ((p.x + Scalar.zero == q.x) && (p.y + Scalar.zero == q.y)) = true
  rw [Double.add_zero_beq, Double.add_zero_beq]
  exact h hq

/-! ### The paths of edges that take part -/

theorem bundled_degenerate (parameters : BundlingParameters Float) {segment : Segment Float}
    (hd : segment.isDegenerate = true) : Bundled parameters segment #[] where
  empty := iff_of_true rfl hd
  straight h := absurd hd (by simp [h])
  size h := absurd hd (by simp [h])
  first h := absurd hd (by simp [h])
  last h := absurd hd (by simp [h])

/-- A path that spans its edge with the right number of inner points is the bundled one. -/
theorem Spans.bundled {parameters : BundlingParameters Float} {segment : Segment Float}
    {count : Nat} {path : Array (Point Float)} (h : Spans Stays segment count path)
    (hd : segment.isDegenerate = false)
    (hstraight : parameters.cycleCount = 0 → path = #[segment.tail, segment.head])
    (hcount : 1 ≤ parameters.cycleCount → count = min (parameters.initialSubdivision *
      parameters.subdivisionRate ^ parameters.cycleCount) 4096) :
    Bundled parameters segment path := by
  have hsize := h.size
  obtain ⟨first, inner, last, hpath, -, hfirst, hlast⟩ := h
  refine ⟨iff_of_false ?_ (by simp [hd]), fun _ => hstraight, ?_, ?_, ?_⟩
  · rintro rfl
    cases hsize
  · intro _ hcycles
    rw [hsize, hcount hcycles]
  · intro _ htail
    refine ⟨first, ?_, hfirst htail⟩
    rw [← Array.getElem?_toList, hpath]
    rfl
  · intro _ hhead
    refine ⟨last, ?_, hlast hhead⟩
    rw [← Array.getLast?_toList, hpath, ← List.cons_append, List.getLast?_concat]

theorem bundled_bundleKept (parameters : BundlingParameters Float)
    {segments : Array (Segment Float)}
    (hkept : ∀ segment ∈ segments, segment.isDegenerate = false) :
    (bundleKept parameters segments).size = segments.size ∧
      ∀ {i : Nat} {segment : Segment Float} {path : Array (Point Float)},
        segments[i]? = some segment → (bundleKept parameters segments)[i]? = some path →
          Bundled parameters segment path := by
  obtain ⟨count, hregular, hcount⟩ :=
    exists_regular_bundleKept stays_refl Stays.add_zero parameters segments
  refine ⟨hregular.size, fun {i segment path} hs hp => ?_⟩
  refine (hregular.spans hs hp).bundled (hkept _ (Array.mem_of_getElem? hs)) (fun hnone => ?_)
    (fun hcycles => hcount (by omega))
  unfold bundleKept straight at hp
  rw [if_pos hnone, Array.getElem?_map, hs] at hp
  exact (Option.some.inj hp).symm

/-- **Bundling yields one path an edge, in the order of the edges**: none where the ends of the
edge coincide, the straight path without cycles, and else one with the capped number of inner
points; and every path that there is starts and ends at the ends of its edge. -/
theorem bundle_shape (parameters : BundlingParameters Float) (segments : List (Segment Float)) :
    List.Forall₂ (Bundled parameters) segments (bundle parameters segments) := by
  have hkept : ∀ segment ∈ (kept segments).toArray, segment.isDegenerate = false := by
    intro segment hmem
    have := (List.mem_filter.mp (List.mem_toArray.mp hmem)).2
    simpa using this
  obtain ⟨hsize, hbundled⟩ := bundled_bundleKept parameters hkept
  exact forall₂_bundle (fun _ hd => bundled_degenerate parameters hd) hsize hbundled

end Bundling

end NodeLink
