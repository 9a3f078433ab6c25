import NodeLink.Proofs.Bundling.Kept
import NodeLink.Proofs.Bundling.Lists

/-! # Indices in range

No look-up of the bundler is out of range, so that it always has a result, and this result is what
`bundle` yields (`bundle?_inRange`).  What a pass looks up are the points of one path at the indices
of another one, for the edges that the lists name; so all paths together have to have the same
number of points, and the lists have to name edges that there are (`Ready`).  The scoring of pairs
comes first and only names such edges; passes and cycles keep the rest, since between two passes the
paths are regular. -/

namespace NodeLink.Bundling

variable {α : Type}

/-- A partial step that is a total one wherever an invariant holds is that one when repeated. -/
theorem repeat?_eq {σ : Type} {step? : σ → Option σ} {step : σ → σ} {P : σ → Prop}
    (hstep : ∀ s, P s → step? s = some (step s)) (hkeep : ∀ s, P s → P (step s)) (n : ℕ) {s : σ}
    (hs : P s) : repeat? step? n s = some (Nat.repeat step n s) := by
  induction n with
  | zero => rfl
  | succ n ih =>
      rw [repeat?_succ, ih]
      exact hstep _ (repeat_preserves hkeep n hs)

theorem length_keptIndices [Scalar α] (segments : List (Segment α)) :
    (keptIndices segments).length = (kept segments).length := by
  rw [keptIndices_eq_map, kept_eq_map, List.length_map, List.length_map]

namespace Bundler

variable [Scalar α] {near : Point α → Point α → Prop} {bundler : Bundler α} {count : ℕ}
  {paths : Array (Array (Point α))}

/-! ### What a pass looks up -/

/-- What holds before a pass: its look-ups find points of paths and edges that there are, and it has
one displacement for every point. -/
structure Ready (bundler : Bundler α) (cycle : Cycle α) (paths : Array (Array (Point α))) :
    Prop where
  /-- There is one path an edge. -/
  size : paths.size = bundler.segments.size
  /-- All paths have the same number of points. -/
  points : ∀ path ∈ paths, path.size = cycle.subdivision + 2
  /-- There is one list an edge. -/
  lists : bundler.compatibility.size = bundler.segments.size
  /-- The lists name edges that there are. -/
  listed : ∀ others ∈ bundler.compatibility, ∀ other ∈ others, other < bundler.segments.size
  /-- An inner point has two neighbours. -/
  neighbours : ∀ path ∈ paths, ∀ index, 1 ≤ index → index ≤ cycle.subdivision →
    ∀ stiffness, ∃ force, springForce? path index stiffness = some force
  /-- The paths of listed edges have a point of the same index. -/
  alike : ∀ {edge : ℕ} {others : List ℕ}, bundler.compatibility[edge]? = some others →
    ∀ index, 1 ≤ index → index ≤ cycle.subdivision →
      ∃ force, electrostaticForce? paths others edge index cycle.stepSize = some force
  /-- All points are displaced, and no displacement is left over. -/
  displaced : ∃ displacements,
    bundler.allDisplacements? cycle.stepSize paths = some displacements ∧
      List.Forall₂ (fun path moves => moves.length = path.size) paths.toList displacements ∧
        bundler.pass? cycle.stepSize paths = some (paths.toList.zipWith
          (fun path moves => (path.toList.zipWith (fun point v => point + v) moves).toArray)
            displacements).toArray

section Pass

variable (h : Regular near bundler.segments count paths)
  (hc : Indexed bundler.segments bundler.compatibility)

include h hc

theorem exists_displacementsAt (stepSize : α) {edge : ℕ} (hedge : edge < bundler.segments.size) :
    ∃ moves, bundler.displacementsAt? stepSize paths edge = some moves ∧
      moves.length = count + 2 := by
  have hsegment := Array.getElem?_eq_getElem hedge
  have hothers := Array.getElem?_eq_getElem (hc.size ▸ hedge)
  have hpath := Array.getElem?_eq_getElem (h.size ▸ hedge)
  obtain ⟨inner, hinner, hlength⟩ :=
    h.exists_displacements hsegment hpath (hc.lt hothers) stepSize bundler.parameters
  unfold displacementsAt?
  rw [hothers, hsegment]
  exact ⟨_, hinner, by simp [hlength]⟩

theorem exists_allDisplacements (stepSize : α) :
    ∃ displacements, bundler.allDisplacements? stepSize paths = some displacements ∧
      displacements.length = paths.size ∧
        ∀ {edge : ℕ}, edge < bundler.segments.size →
          displacements[edge]? = bundler.displacementsAt? stepSize paths edge := by
  obtain ⟨displacements, hall, hlength⟩ :=
    exists_mapM (List.range bundler.segments.size) (f := bundler.displacementsAt? stepSize paths)
      fun edge hedge => (exists_displacementsAt h hc stepSize
        (List.mem_range.mp hedge)).imp fun _ hmoves => hmoves.1
  rw [List.length_range, ← h.size] at hlength
  exact ⟨displacements, hall, hlength, fun hedge => getElem?_mapM hall (List.getElem?_range hedge)⟩

/-- A pass finds what it looks up, moves all points, and does what the pass of the schedule does. -/
theorem exists_pass (stepSize : α) :
    ∃ displacements, bundler.allDisplacements? stepSize paths = some displacements ∧
      List.Forall₂ (fun path moves => moves.length = path.size) paths.toList displacements ∧
        displaceAll paths displacements = (paths.toList.zipWith
          (fun path moves => (path.toList.zipWith (fun point v => point + v) moves).toArray)
            displacements).toArray ∧
        displaceAll paths displacements = pass bundler.parameters bundler.segments
          bundler.compatibility stepSize paths := by
  obtain ⟨displacements, hall, hlength, hat⟩ := exists_allDisplacements h hc stepSize
  have hsizes : List.Forall₂ (fun path moves => moves.length = path.size) paths.toList
      displacements := by
    refine List.forall₂_iff_get.mpr ⟨by rw [Array.length_toList, hlength], fun i hi hi' => ?_⟩
    have hedge : i < bundler.segments.size := by
      rw [← h.size, ← hlength]
      exact hi'
    obtain ⟨moves, hmoves, hcount⟩ := exists_displacementsAt h hc stepSize hedge
    have hget := hat hedge
    rw [hmoves, List.getElem?_eq_getElem hi'] at hget
    rw [List.get_eq_getElem, List.get_eq_getElem, Option.some.inj hget, hcount,
      h.size_of_mem (Array.mem_toList_iff.mp (List.getElem_mem hi))]
  have hmoved : displaceAll paths displacements =
      (paths.toList.zipWith displace displacements).toArray := by
    have hdrop : paths.toList.drop (paths.toList.zipWith displace displacements).length = [] :=
      List.drop_eq_nil_of_le (by rw [List.length_zipWith, Array.length_toList, hlength]; omega)
    unfold displaceAll
    simp only [hdrop, List.append_nil]
  refine ⟨displacements, hall, hsizes, ?_, ?_⟩
  · rw [hmoved]
    congr 1
    refine List.zipWith_congr _ _ _ _ (hsizes.imp fun path moves hsize => ?_)
    exact displace_eq path hsize.symm
  · rw [hmoved]
    refine Array.ext_getElem? fun i => ?_
    unfold pass
    rw [List.getElem?_toArray, List.getElem?_zipWith, Array.getElem?_mapIdx,
      Array.getElem?_toList]
    cases hpath : paths[i]? with
    | none => rfl
    | some path =>
        have hedge : i < bundler.segments.size :=
          h.size ▸ (Array.getElem?_eq_some_iff.mp hpath).1
        have hsegment := Array.getElem?_eq_getElem hedge
        have hothers := Array.getElem?_eq_getElem (hc.size ▸ hedge)
        obtain ⟨moves, hmoves, -⟩ := exists_displacementsAt h hc stepSize hedge
        rw [hat hedge, hmoves]
        unfold displacementsAt? at hmoves
        rw [hothers, hsegment] at hmoves
        dsimp only at hmoves
        rw [hsegment, hothers, Option.map_some]
        dsimp only
        rw [hmoves, Option.getD_some]

theorem pass?_eq (stepSize : α) :
    bundler.pass? stepSize paths = some (pass bundler.parameters bundler.segments
      bundler.compatibility stepSize paths) := by
  obtain ⟨displacements, hall, -, -, hpass⟩ := exists_pass h hc stepSize
  unfold pass?
  rw [hall]
  exact congrArg some hpass

/-- Between two passes everything is ready for the next one. -/
theorem ready_of_regular {cycle : Cycle α} (hcount : cycle.subdivision = count) :
    bundler.Ready cycle paths where
  size := h.size
  points path hpath := by rw [h.size_of_mem hpath, hcount]
  lists := hc.size
  listed others hothers := by
    obtain ⟨i, hi⟩ := Array.getElem?_of_mem hothers
    exact hc.lt hi
  neighbours path hpath index hlow hhigh stiffness := by
    have hsize := h.size_of_mem hpath
    exact exists_springForce path index stiffness (by omega) (by omega)
  alike {edge others} hothers index hlow hhigh := by
    have hedge : edge < bundler.segments.size :=
      hc.size ▸ (Array.getElem?_eq_some_iff.mp hothers).1
    obtain ⟨point, hpoint⟩ := h.exists_point hedge (by omega : index < count + 2)
    unfold electrostaticForce?
    rw [hpoint]
    exact exists_pulls cycle.stepSize point others Vec.zero fun other hother =>
      h.exists_point (hc.lt hothers other hother) (by omega)
  displaced := by
    obtain ⟨displacements, hall, hsizes, hmoved, -⟩ := exists_pass h hc cycle.stepSize
    refine ⟨displacements, hall, hsizes, ?_⟩
    unfold pass?
    rw [hall]
    exact congrArg some hmoved

end Pass

/-! ### Cycles -/

section Cycles

variable (hc : Indexed bundler.segments bundler.compatibility)

include hc

theorem regular_passes (stepSize : α) (n : ℕ)
    (h : Regular (fun _ _ => True) bundler.segments count paths) :
    Regular (fun _ _ => True) bundler.segments count (Nat.repeat
      (pass bundler.parameters bundler.segments bundler.compatibility stepSize) n paths) :=
  repeat_preserves (fun _ hs => hs.pass (fun _ _ _ => trivial) hc bundler.parameters stepSize) n h

theorem passes_eq (stepSize : α) (n : ℕ)
    (h : Regular (fun _ _ => True) bundler.segments count paths) :
    repeat? (bundler.pass? stepSize) n paths = some (Nat.repeat
      (pass bundler.parameters bundler.segments bundler.compatibility stepSize) n paths) :=
  repeat?_eq (P := Regular (fun _ _ => True) bundler.segments count)
    (fun _ hs => pass?_eq hs hc stepSize)
    (fun _ hs => hs.pass (fun _ _ _ => trivial) hc bundler.parameters stepSize) n h

/-- The paths of a cycle are regular. -/
def CycleRegular (bundler : Bundler α) (cycle : Cycle α) : Prop :=
  Regular (fun _ _ => True) bundler.segments cycle.subdivision cycle.paths

theorem CycleRegular.next {cycle : Cycle α} (h : bundler.CycleRegular cycle) :
    bundler.CycleRegular
      (cycle.next bundler.parameters bundler.segments bundler.compatibility) :=
  Regular.next (fun _ _ _ => trivial) hc bundler.parameters h

theorem CycleRegular.cycles (n : ℕ) {cycle : Cycle α} (h : bundler.CycleRegular cycle) :
    bundler.CycleRegular (Nat.repeat
      (Cycle.next bundler.parameters bundler.segments bundler.compatibility) n cycle) :=
  repeat_preserves (fun _ hs => hs.next hc) n h

theorem next?_eq {cycle : Cycle α} (h : bundler.CycleRegular cycle) :
    bundler.next? cycle =
      some (cycle.next bundler.parameters bundler.segments bundler.compatibility) := by
  unfold next?
  rw [passes_eq hc cycle.stepSize cycle.passes h]
  rfl

theorem cycles_eq (n : ℕ) {cycle : Cycle α} (h : bundler.CycleRegular cycle) :
    repeat? bundler.next? n cycle = some (Nat.repeat
      (Cycle.next bundler.parameters bundler.segments bundler.compatibility) n cycle) :=
  repeat?_eq (P := bundler.CycleRegular) (fun _ hs => next?_eq hc hs) (fun _ hs => hs.next hc) n h

end Cycles

/-! ### The paths of all edges -/

omit [Scalar α] in
theorem exists_placed : ∀ (placed : List (ℕ × Array (Point α)))
    (output : Array (Array (Point α))), (∀ x ∈ placed, x.1 < output.size) →
      (placed.map Prod.fst).Nodup →
        ∃ result, placed.foldlM place? output = some result ∧ result.size = output.size ∧
          (∀ x ∈ placed, result[x.1]? = some x.2) ∧
            ∀ i, i ∉ placed.map Prod.fst → result[i]? = output[i]?
  | [], output, _, _ => ⟨output, rfl, rfl, fun _ h => absurd h List.not_mem_nil, fun _ _ => rfl⟩
  | x :: placed, output, hlt, hnodup => by
      obtain ⟨hx, hnodup⟩ := List.nodup_cons.mp hnodup
      obtain ⟨result, hresult, hsize, hat, helse⟩ :=
        exists_placed placed (output.setIfInBounds x.1 x.2)
          (fun y hy => by
            rw [Array.size_setIfInBounds]
            exact hlt y (List.mem_cons_of_mem x hy)) hnodup
      have hfirst : place? output x = some (output.setIfInBounds x.1 x.2) :=
        if_pos (hlt x List.mem_cons_self)
      rw [Array.size_setIfInBounds] at hsize
      refine ⟨result, ?_, hsize, fun y hy => ?_, fun i hi => ?_⟩
      · rw [List.foldlM_cons, hfirst]
        exact hresult
      · rcases List.mem_cons.mp hy with rfl | hy
        · rw [helse y.1 hx, Array.getElem?_setIfInBounds_self_of_lt (hlt y List.mem_cons_self)]
        · exact hat y hy
      · rw [List.map_cons, List.mem_cons, not_or] at hi
        rw [helse i hi.2, Array.getElem?_setIfInBounds_ne (Ne.symm hi.1)]

theorem output?_eq {segments : List (Segment α)} (hkept : bundler.kept = keptIndices segments)
    (hinput : bundler.inputSize = segments.length)
    (hsize : paths.size = (Bundling.kept segments).length) :
    bundler.output? paths = some (deal segments paths.toList).toArray := by
  have hlength : (keptIndices segments).length = paths.toList.length :=
    (length_keptIndices segments).trans (hsize.symm.trans Array.length_toList.symm)
  have hfst : ((keptIndices segments).zip paths.toList).map Prod.fst = keptIndices segments :=
    List.map_fst_zip hlength.le
  obtain ⟨result, hresult, hcount, hat, helse⟩ :=
    exists_placed ((keptIndices segments).zip paths.toList) (Array.replicate segments.length #[])
      (fun x hx => by
        obtain ⟨segment, hsegment, -⟩ := mem_keptIndices.mp (List.of_mem_zip hx).1
        rw [Array.size_replicate]
        exact (List.getElem?_eq_some_iff.mp hsegment).1)
      (by rw [hfst]; exact nodup_keptIndices segments)
  rw [Array.size_replicate] at hcount
  unfold output?
  rw [hkept, hinput, hresult]
  refine congrArg some (Array.ext_getElem? fun i => ?_)
  have hdealt : (deal segments paths.toList).toArray[i]? = (deal segments paths.toList)[i]? :=
    List.getElem?_toArray
  rw [hdealt]
  cases hsegment : segments[i]? with
  | none =>
      rw [List.getElem?_eq_none_iff] at hsegment
      rw [Array.getElem?_eq_none (by omega), List.getElem?_eq_none (by rwa [length_deal])]
  | some segment =>
      have hi := (List.getElem?_eq_some_iff.mp hsegment).1
      cases hd : segment.isDegenerate with
      | true =>
          have hout : i ∉ ((keptIndices segments).zip paths.toList).map Prod.fst := by
            rw [hfst, mem_keptIndices]
            rintro ⟨found, hfound, hkeeps⟩
            rw [hsegment] at hfound
            rw [← Option.some.inj hfound, hd] at hkeeps
            cases hkeeps
          rw [helse i hout, Array.getElem?_replicate, if_pos hi,
            getElem?_deal_degenerate hsegment hd]
      | false =>
          obtain ⟨k, hk⟩ := List.mem_iff_getElem?.mp (mem_keptIndices.mpr ⟨segment, hsegment, hd⟩)
          have hlt : k < paths.toList.length :=
            hlength ▸ (List.getElem?_eq_some_iff.mp hk).1
          have hpath := List.getElem?_eq_getElem hlt
          have hmem : (i, paths.toList[k]) ∈ (keptIndices segments).zip paths.toList :=
            List.mem_of_getElem? (List.getElem?_zip_eq_some.mpr ⟨hk, hpath⟩)
          rw [getElem?_deal hk, hpath, Option.getD_some]
          exact hat _ hmem

/-! ### The whole run -/

section Run

variable (parameters : BundlingParameters α) (segments : List (Segment α))

theorem indexed_filled :
    Indexed (filled parameters segments).segments (filled parameters segments).compatibility :=
  indexed_compatibilityLists parameters (Bundling.kept segments).toArray

theorem cycleRegular_first :
    (filled parameters segments).CycleRegular
      (Cycle.first parameters (filled parameters segments).segments) :=
  regular_first (fun _ => trivial) parameters (filled parameters segments).segments

theorem exists_cycles (hcycles : parameters.cycleCount ≠ 0) :
    ∃ cycle, repeat? (filled parameters segments).next?
        (filled parameters segments).parameters.cycleCount (Cycle.first
          (filled parameters segments).parameters (filled parameters segments).segments) =
            some cycle ∧
      cycle.paths = bundleKept parameters (Bundling.kept segments).toArray := by
  refine ⟨_, cycles_eq (indexed_filled parameters segments) parameters.cycleCount
    (cycleRegular_first parameters segments), ?_⟩
  unfold bundleKept
  rw [if_neg hcycles]
  rfl

theorem size_bundleKept_kept :
    (bundleKept parameters (Bundling.kept segments).toArray).size =
      (Bundling.kept segments).length := by
  obtain ⟨count, hregular, -⟩ : ∃ count, Regular (fun _ _ => True)
      (Bundling.kept segments).toArray count
      (bundleKept parameters (Bundling.kept segments).toArray) ∧ _ :=
    exists_regular_bundleKept (fun _ => trivial) (fun _ _ _ => trivial) parameters _
  rw [hregular.size, List.size_toArray]

theorem bundle?_eq :
    (new parameters segments).bundle? = some (bundle parameters segments).toArray := by
  have hsize := size_bundleKept_kept parameters segments
  unfold bundle
  by_cases hnone : parameters.cycleCount = 0
  · have hstraight : bundleKept parameters (Bundling.kept segments).toArray =
        straight (Bundling.kept segments).toArray := if_pos hnone
    rw [hstraight] at hsize ⊢
    exact (if_pos hnone).trans (output?_eq rfl rfl hsize)
  · obtain ⟨cycle, hcycle, hpaths⟩ := exists_cycles parameters segments hnone
    have hcompute : (new parameters segments).computeCompatibility? =
        some (filled parameters segments) := computeCompatibility?_eq (new parameters segments)
    rw [← hpaths] at hsize ⊢
    refine (if_neg hnone).trans ?_
    rw [hcompute]
    dsimp only
    rw [hcycle]
    exact output?_eq rfl rfl hsize

/-- **No look-up is out of range.**  The bundler has a result, which is that of `bundle`; before
every pass of every cycle all paths have as many inner points as the cycle says, the lists name
edges that there are, and every point has one displacement. -/
theorem bundle?_inRange :
    (new parameters segments).bundle? = some (bundle parameters segments).toArray ∧
      ∃ bundler, (new parameters segments).computeCompatibility? = some bundler ∧
        ∀ n < parameters.cycleCount, ∃ cycle,
          repeat? bundler.next? n (Cycle.first parameters bundler.segments) = some cycle ∧
            ∀ k < cycle.passes, ∃ paths,
              repeat? (bundler.pass? cycle.stepSize) k cycle.paths = some paths ∧
                bundler.Ready cycle paths := by
  have hc := indexed_filled parameters segments
  have hfirst := cycleRegular_first parameters segments
  refine ⟨bundle?_eq parameters segments, filled parameters segments,
    computeCompatibility?_eq (new parameters segments),
    fun n _ => ⟨_, cycles_eq hc n hfirst, fun k _ => ?_⟩⟩
  have hcycle := hfirst.cycles hc n
  exact ⟨_, passes_eq hc _ k hcycle, ready_of_regular (regular_passes hc _ k hcycle) hc rfl⟩

end Run

end Bundler

end NodeLink.Bundling
