import NodeLink.Drawing.Command
import NodeLink.Proofs.Exact.Scalar
import NodeLink.Proofs.Graph.Enclosure

/-! # Fitting in exact arithmetic

On a surface measured in whole pixels that has room for a node, fitting a graph puts all nodes on
whole coordinates a radius from the border, in their order on every axis, and stretches every axis
that has an extent to its ends (`Graph.fit_fitted`).  The range of an axis is the least interval
around its coordinates (`Interval.Hull`), which a map that keeps the order maps to the range of the
mapped coordinates; so the fitted range is known from its two ends (`Interval.Hull.fit_of_lt`,
`Interval.Hull.fit_of_le`), and both it and the surface have the same middle.  Hence centring moves
nothing, and neither does fitting once more: a second drawing of a graph repeats the first one
(`Graph.draw_draw`). -/

namespace NodeLink

open scoped Exact

/-! ### Moving the nodes -/

namespace Graph

variable {α : Type} [Scalar α]

theorem positions_moveNodes (graph : Graph α) (move : Point α → Point α) :
    (graph.moveNodes move).positions = graph.positions.map move := by
  unfold positions moveNodes recomputeBounds
  rw [Array.toList_map, List.map_map, List.map_map]
  rfl

/-- A move that moves no node changes nothing, if the box is the one around the nodes. -/
theorem moveNodes_eq_self {graph : Graph α} {move : Point α → Point α} (hbounds : graph.BoundsFit)
    (h : ∀ point ∈ graph.positions, move point = point) : graph.moveNodes move = graph := by
  have hnodes : graph.nodes.map (fun node => { node with position := move node.position }) =
      graph.nodes := by
    refine (Array.map_congr_left fun node hnode => ?_).trans (Array.map_id graph.nodes)
    have hposition : move node.position = node.position :=
      h _ (List.mem_map_of_mem (Array.mem_toList_iff.mpr hnode))
    rw [hposition]
    rfl
  unfold moveNodes
  simp only [hnodes]
  unfold recomputeBounds
  rw [show Bounds.ofPoints graph.positions = graph.bounds from hbounds.symm]

end Graph

/-! ### The range of an axis -/

namespace Interval

/-- The least interval around some numbers. -/
structure Hull (interval : Interval ℝ) (values : List ℝ) : Prop where
  low_mem : interval.low ∈ values
  high_mem : interval.high ∈ values
  low_le : ∀ value ∈ values, interval.low ≤ value
  le_high : ∀ value ∈ values, value ≤ interval.high

section Hull

variable {interval other : Interval ℝ} {values : List ℝ}

theorem Hull.unique (h : interval.Hull values) (h' : other.Hull values) : interval = other := by
  have hlow := (h.low_le _ h'.low_mem).antisymm (h'.low_le _ h.low_mem)
  have hhigh := (h'.le_high _ h.high_mem).antisymm (h.le_high _ h'.high_mem)
  cases interval
  cases other
  rw [Interval.mk.injEq]
  exact ⟨hlow, hhigh⟩

theorem Hull.map (h : interval.Hull values) {f : ℝ → ℝ} (hf : Monotone f) :
    Hull ⟨f interval.low, f interval.high⟩ (values.map f) where
  low_mem := List.mem_map_of_mem h.low_mem
  high_mem := List.mem_map_of_mem h.high_mem
  low_le := by
    intro value hvalue
    obtain ⟨v, hv, rfl⟩ := List.mem_map.mp hvalue
    exact hf (h.low_le v hv)
  le_high := by
    intro value hvalue
    obtain ⟨v, hv, rfl⟩ := List.mem_map.mp hvalue
    exact hf (h.le_high v hv)

end Hull

end Interval

theorem middle_mem {radius size : ℤ} (hsize : 2 * radius ≤ size) :
    radius ≤ roundAway ((size : ℝ) / 2) ∧ roundAway ((size : ℝ) / 2) ≤ size - radius := by
  have hsize' : (2 : ℝ) * radius ≤ size := by exact_mod_cast hsize
  refine roundAway_mem (by linarith) ?_
  push_cast
  linarith

section Exact

variable [DivisionByZero]

namespace Interval

section Cover

variable {interval : Interval ℝ} {values : List ℝ}

theorem Hull.cover (h : interval.Hull values) (value : ℝ) :
    ∃ wider, Interval.cover (some interval) value = some wider ∧
      wider.Hull (values ++ [value]) := by
  refine ⟨_, rfl, ?_, ?_, fun v hv => ?_, fun v hv => ?_⟩
  · rw [Scalar.min_real]
    rcases min_choice interval.low value with hmin | hmin <;> rw [hmin]
    · exact List.mem_append_left _ h.low_mem
    · exact List.mem_append_right _ (List.mem_singleton_self value)
  · rw [Scalar.max_real]
    rcases max_choice interval.high value with hmax | hmax <;> rw [hmax]
    · exact List.mem_append_left _ h.high_mem
    · exact List.mem_append_right _ (List.mem_singleton_self value)
  · rw [Scalar.min_real]
    rcases List.mem_append.mp hv with hv | hv
    · exact (min_le_left _ _).trans (h.low_le v hv)
    · exact (min_le_right _ _).trans (List.mem_singleton.mp hv).ge
  · rw [Scalar.max_real]
    rcases List.mem_append.mp hv with hv | hv
    · exact (h.le_high v hv).trans (le_max_left _ _)
    · exact (List.mem_singleton.mp hv).le.trans (le_max_right _ _)

theorem exists_hull (values : List ℝ) (hne : values ≠ []) :
    ∃ interval, values.foldl Interval.cover none = some interval ∧ interval.Hull values := by
  induction values using List.reverseRecOn with
  | nil => exact absurd rfl hne
  | append_singleton values value ih =>
      rw [List.foldl_concat]
      by_cases hvalues : values = []
      · subst hvalues
        refine ⟨⟨value, value⟩, if_pos (decide_eq_true rfl), ?_⟩
        constructor <;> simp
      · obtain ⟨interval, hfold, hhull⟩ := ih hvalues
        rw [hfold]
        exact hhull.cover value

theorem Hull.foldl_cover (h : interval.Hull values) :
    values.foldl Interval.cover none = some interval := by
  obtain ⟨found, hfold, hhull⟩ := exists_hull values (List.ne_nil_of_mem h.low_mem)
  rw [hfold, hhull.unique h]

end Cover

end Interval

/-! ### One axis -/

theorem roundedHalf_real (size : ℝ) : roundedHalf size = roundAway (size / 2) := by
  unfold roundedHalf
  rw [Scalar.ofNat_real, Scalar.div_real _ (Nat.cast_ne_zero.mpr two_ne_zero), Scalar.round_real]
  rfl

section Axis

variable {radius size : ℝ} {interval : Interval ℝ}

theorem fitAxis_of_lt (h : interval.low < interval.high) (value : ℝ) :
    fitAxis radius size (some interval) value =
      roundAway ((value - interval.low) *
        ((size - 2 * radius) / (interval.high - interval.low)) + radius) := by
  have hpos : 0 < interval.high - interval.low := sub_pos.mpr h
  dsimp only [fitAxis]
  rw [if_pos (by simp [h]), Scalar.div_real _ hpos.ne', Scalar.ofNat_real, Scalar.round_real]
  rfl

theorem fitAxis_of_le (h : interval.high ≤ interval.low) (value : ℝ) :
    fitAxis radius size (some interval) value = roundAway (size / 2) := by
  dsimp only [fitAxis]
  rw [if_neg (by simp [h]), roundedHalf_real]

end Axis

section WholeAxis

variable {radius size : ℤ} {interval : Interval ℝ} {values : List ℝ}

theorem monotone_fitAxis (hsize : 2 * radius ≤ size) (range : Option (Interval ℝ)) :
    Monotone (fitAxis (radius : ℝ) (size : ℝ) range) := by
  intro v w hvw
  cases range with
  | none => exact le_rfl
  | some interval =>
      rcases lt_or_ge interval.low interval.high with h | h
      · have hsize' : (2 : ℝ) * radius ≤ size := by exact_mod_cast hsize
        have hscale : 0 ≤ ((size : ℝ) - 2 * radius) / (interval.high - interval.low) :=
          div_nonneg (sub_nonneg.mpr hsize') (sub_pos.mpr h).le
        rw [fitAxis_of_lt h, fitAxis_of_lt h]
        refine Int.cast_le.mpr (roundAway_mono (add_le_add_left ?_ _))
        exact mul_le_mul_of_nonneg_right (sub_le_sub_right hvw _) hscale
      · rw [fitAxis_of_le h, fitAxis_of_le h]

theorem fitAxis_low (h : interval.low < interval.high) :
    fitAxis (radius : ℝ) (size : ℝ) (some interval) interval.low = radius := by
  rw [fitAxis_of_lt h, sub_self, zero_mul, zero_add, roundAway_intCast]

theorem fitAxis_high (h : interval.low < interval.high) :
    fitAxis (radius : ℝ) (size : ℝ) (some interval) interval.high = (size - radius : ℤ) := by
  have hend : ((size : ℝ) - 2 * radius) + radius = ((size - radius : ℤ) : ℝ) := by
    push_cast
    ring
  rw [fitAxis_of_lt h, mul_div_cancel₀ _ (sub_pos.mpr h).ne', hend, roundAway_intCast]

/-- Coordinates on an axis, fitted to it. -/
noncomputable def fitCoordinates (radius size : ℝ) (values : List ℝ) : List ℝ :=
  values.map (fitAxis radius size (values.foldl Interval.cover none))

theorem Interval.Hull.fitCoordinates_eq (h : interval.Hull values) :
    fitCoordinates radius size values =
      values.map (fitAxis (radius : ℝ) (size : ℝ) (some interval)) := by
  unfold fitCoordinates
  rw [h.foldl_cover]

/-- Coordinates with an extent are fitted to the whole axis. -/
theorem Interval.Hull.fit_of_lt (hsize : 2 * radius ≤ size) (h : interval.Hull values)
    (hlt : interval.low < interval.high) :
    Interval.Hull ⟨radius, (size - radius : ℤ)⟩ (fitCoordinates radius size values) := by
  have hmap := h.map (monotone_fitAxis hsize (some interval))
  rw [fitAxis_low hlt, fitAxis_high hlt] at hmap
  rw [h.fitCoordinates_eq]
  exact hmap

/-- Coordinates without extent are fitted to the middle. -/
theorem Interval.Hull.fit_of_le (h : interval.Hull values) (radius size : ℤ)
    (hle : interval.high ≤ interval.low) :
    Interval.Hull ⟨roundAway ((size : ℝ) / 2), roundAway ((size : ℝ) / 2)⟩
      (fitCoordinates radius size values) := by
  have hmap := h.map (f := fun _ => (roundAway ((size : ℝ) / 2) : ℝ)) monotone_const
  rw [h.fitCoordinates_eq, funext (fitAxis_of_le hle)]
  exact hmap

theorem exists_int_of_mem_fitCoordinates {radius size : ℝ} {value : ℝ}
    (h : value ∈ fitCoordinates radius size values) : ∃ n : ℤ, value = n := by
  obtain ⟨v, -, rfl⟩ := List.mem_map.mp h
  cases values.foldl Interval.cover none with
  | none => exact ⟨_, roundedHalf_real size⟩
  | some interval =>
      rcases lt_or_ge interval.low interval.high with hlt | hle
      · exact ⟨_, fitAxis_of_lt hlt v⟩
      · exact ⟨_, fitAxis_of_le hle v⟩

theorem centringShift_fitCoordinates (hsize : 2 * radius ≤ size) (values : List ℝ) :
    centringShift (size : ℝ)
      ((fitCoordinates radius size values).foldl Interval.cover none) = 0 := by
  have hmiddle {low high : ℝ} (hrange : roundAway ((low + high) / 2) = roundAway ((size : ℝ) / 2)) :
      centringShift (size : ℝ) (some ⟨low, high⟩) = 0 := by
    dsimp only [centringShift]
    rw [roundedHalf_real, roundedHalf_real, hrange, sub_self]
  by_cases hne : values = []
  · subst hne
    exact Scalar.zero_real
  · obtain ⟨interval, -, hhull⟩ := Interval.exists_hull values hne
    rcases lt_or_ge interval.low interval.high with hlt | hle
    · rw [(hhull.fit_of_lt hsize hlt).foldl_cover]
      refine hmiddle (congrArg (fun x : ℝ => roundAway (x / 2)) ?_)
      push_cast
      ring
    · rw [(hhull.fit_of_le radius size hle).foldl_cover]
      exact hmiddle (by rw [add_self_div_two, roundAway_intCast])

/-- Fitted coordinates stay where they are when they are fitted again. -/
theorem fitAxis_fitCoordinates (hsize : 2 * radius ≤ size) {value : ℝ}
    (hvalue : value ∈ fitCoordinates radius size values) :
    fitAxis (radius : ℝ) (size : ℝ)
      ((fitCoordinates radius size values).foldl Interval.cover none) value = value := by
  have hne : values ≠ [] := by
    rintro rfl
    cases hvalue
  obtain ⟨interval, -, hhull⟩ := Interval.exists_hull values hne
  rcases lt_or_ge interval.low interval.high with hlt | hle
  · have hfitted := hhull.fit_of_lt hsize hlt
    rw [hfitted.foldl_cover]
    rcases hsize.lt_or_eq with hroom | htight
    · -- the scale is one
      obtain ⟨n, rfl⟩ := exists_int_of_mem_fitCoordinates hvalue
      have hextent : ((size - radius : ℤ) : ℝ) - radius = size - 2 * radius := by
        push_cast
        ring
      have hroom' : (0 : ℝ) < size - 2 * radius := sub_pos.mpr (by exact_mod_cast hroom)
      rw [fitAxis_of_lt (sub_pos.mp (hextent ▸ hroom'))]
      dsimp only
      rw [hextent, div_self hroom'.ne', mul_one, sub_add_cancel, roundAway_intCast]
    · -- all points are at the radius, which is the middle
      have hends : size - radius = radius := by omega
      have hat : value = radius := by
        have hlow := hfitted.low_le value hvalue
        have hhigh := hfitted.le_high value hvalue
        rw [hends] at hhigh
        exact hhigh.antisymm hlow
      have hmiddle : (size : ℝ) / 2 = radius := by
        rw [← htight]
        push_cast
        ring
      rw [fitAxis_of_le (by rw [hends]), hmiddle, roundAway_intCast, hat]
  · have hfitted := hhull.fit_of_le radius size hle
    rw [hfitted.foldl_cover, fitAxis_of_le le_rfl]
    exact (hfitted.low_le value hvalue).antisymm (hfitted.le_high value hvalue)

/-- What fitting does to the coordinates on one axis. -/
structure FittedAxis (radius size : ℤ) (before after : List ℝ) : Prop where
  /-- Every coordinate is fitted. -/
  length_eq : after.length = before.length
  /-- Fitted coordinates are whole, and far enough from both ends. -/
  whole : ∀ value ∈ after, ∃ n : ℤ, value = n ∧ radius ≤ n ∧ n ≤ size - radius
  /-- The order is kept. -/
  order : ∀ {i j : ℕ} {v w v' w' : ℝ}, before[i]? = some v → before[j]? = some w →
    after[i]? = some v' → after[j]? = some w' → v ≤ w → v' ≤ w'
  /-- An extent is stretched to the whole axis. -/
  attained : ∀ {v w : ℝ}, v ∈ before → w ∈ before → v < w →
    (radius : ℝ) ∈ after ∧ ((size - radius : ℤ) : ℝ) ∈ after
  /-- Without an extent everything is at the middle. -/
  centred : (∀ v ∈ before, ∀ w ∈ before, v = w) →
    ∀ value ∈ after, value = roundAway ((size : ℝ) / 2)

theorem fittedAxis_fitCoordinates (hsize : 2 * radius ≤ size) (values : List ℝ) :
    FittedAxis radius size values (fitCoordinates radius size values) := by
  by_cases hne : values = []
  · subst hne
    constructor <;> simp [fitCoordinates]
  obtain ⟨interval, -, hhull⟩ := Interval.exists_hull values hne
  obtain ⟨hmiddle, hmiddle'⟩ := middle_mem hsize
  refine ⟨List.length_map _, fun value hvalue => ?_, ?_, ?_, ?_⟩
  · obtain ⟨n, rfl⟩ := exists_int_of_mem_fitCoordinates hvalue
    refine ⟨n, rfl, ?_⟩
    rcases lt_or_ge interval.low interval.high with hlt | hle
    · have hfitted := hhull.fit_of_lt hsize hlt
      exact ⟨Int.cast_le.mp (hfitted.low_le _ hvalue), Int.cast_le.mp (hfitted.le_high _ hvalue)⟩
    · have hfitted := hhull.fit_of_le radius size hle
      exact ⟨hmiddle.trans (Int.cast_le.mp (hfitted.low_le _ hvalue)),
        (Int.cast_le.mp (hfitted.le_high _ hvalue)).trans hmiddle'⟩
  · intro i j v w v' w' hv hw hv' hw' hle
    unfold fitCoordinates at hv' hw'
    rw [List.getElem?_map, hv] at hv'
    rw [List.getElem?_map, hw] at hw'
    rw [← Option.some.inj hv', ← Option.some.inj hw']
    exact monotone_fitAxis hsize _ hle
  · intro v w hv hw hlt
    have hextent : interval.low < interval.high :=
      (hhull.low_le v hv).trans_lt (hlt.trans_le (hhull.le_high w hw))
    have hfitted := hhull.fit_of_lt hsize hextent
    exact ⟨hfitted.low_mem, hfitted.high_mem⟩
  · intro hsame value hvalue
    have hfitted := hhull.fit_of_le radius size
      (hsame _ hhull.high_mem _ hhull.low_mem).le
    exact (hfitted.le_high value hvalue).antisymm (hfitted.low_le value hvalue)

end WholeAxis

/-! ### Graphs -/

/-- A surface measured in whole pixels. -/
def Frame.pixels (width height radius : ℤ) : Frame ℝ := ⟨width, height, radius⟩

namespace Graph

variable {width height radius : ℤ}

theorem positions_placeOn (graph : Graph ℝ) (frame : Frame ℝ) :
    (graph.placeOn frame).positions.map Point.x =
        fitCoordinates frame.radius frame.width (graph.positions.map Point.x) ∧
      (graph.placeOn frame).positions.map Point.y =
        fitCoordinates frame.radius frame.height (graph.positions.map Point.y) := by
  unfold placeOn fitCoordinates
  rw [positions_moveNodes, Bounds.ofPoints_eq, List.map_map, List.map_map, List.map_map,
    List.map_map]
  exact ⟨rfl, rfl⟩

/-- A graph is where fitting it to a surface would place it. -/
structure AtPlace (graph : Graph ℝ) (frame : Frame ℝ) : Prop where
  bounds : graph.BoundsFit
  placed : ∀ point ∈ graph.positions, frame.place graph.bounds point = point
  centred : frame.centring graph.bounds = Vec.zero

theorem atPlace_placeOn (hwidth : 2 * radius ≤ width) (hheight : 2 * radius ≤ height)
    (graph : Graph ℝ) :
    (graph.placeOn (.pixels width height radius)).AtPlace (.pixels width height radius) := by
  obtain ⟨hx, hy⟩ := graph.positions_placeOn (.pixels width height radius)
  have hbounds : (graph.placeOn (.pixels width height radius)).BoundsFit := rfl
  have hboxes := Bounds.ofPoints_eq (graph.placeOn (.pixels width height radius)).positions
  rw [hx, hy] at hboxes
  refine ⟨hbounds, fun point hpoint => ?_, ?_⟩
  · have hmemX : point.x ∈ fitCoordinates (radius : ℝ) (width : ℝ) (graph.positions.map Point.x) :=
      hx ▸ List.mem_map_of_mem hpoint
    have hmemY : point.y ∈ fitCoordinates (radius : ℝ) (height : ℝ) (graph.positions.map Point.y) :=
      hy ▸ List.mem_map_of_mem hpoint
    rw [hbounds, hboxes]
    show (⟨_, _⟩ : Point ℝ) = point
    exact congrArg₂ Point.mk (fitAxis_fitCoordinates hwidth hmemX)
      (fitAxis_fitCoordinates hheight hmemY)
  · rw [hbounds, hboxes]
    refine (congrArg₂ Vec.mk (centringShift_fitCoordinates hwidth _)
      (centringShift_fitCoordinates hheight _)).trans ?_
    rw [Vec.zero, Scalar.zero_real]

section AtPlace

variable {graph : Graph ℝ} {frame : Frame ℝ}

theorem AtPlace.placeOn_eq (h : graph.AtPlace frame) : graph.placeOn frame = graph := by
  unfold placeOn
  rw [← h.bounds]
  exact moveNodes_eq_self h.bounds h.placed

theorem AtPlace.centreOn_eq (h : graph.AtPlace frame) : graph.centreOn frame = graph := by
  have hstay : ∀ point ∈ graph.positions, point + frame.centring graph.bounds = point := by
    intro point _
    rw [h.centred, Vec.zero, Scalar.zero_real]
    show (⟨point.x + 0, point.y + 0⟩ : Point ℝ) = point
    rw [add_zero, add_zero]
  exact moveNodes_eq_self h.bounds hstay

theorem AtPlace.bundleEdges (h : graph.AtPlace frame) (bundling : BundlingParameters ℝ) :
    (graph.bundleEdges bundling).AtPlace frame :=
  ⟨h.bounds, h.placed, h.centred⟩

end AtPlace

/-- Fitting a graph without nodes, or one that is at its place, bundles its edges at most. -/
theorem fit_of_atPlace {graph : Graph ℝ} {frame : Frame ℝ} (bundling : BundlingParameters ℝ)
    (h : graph.nodes.isEmpty = true ∨ graph.AtPlace frame) :
    graph.fit frame bundling =
      if graph.parameters.bundle then graph.bundleEdges bundling else graph := by
  have hfitted : (if graph.nodes.isEmpty then graph else (graph.placeOn frame).centreOn frame) =
      graph := by
    split_ifs with hempty
    · rfl
    · have hplace := h.resolve_left hempty
      rw [hplace.placeOn_eq, hplace.centreOn_eq]
  unfold fit
  simp only [hfitted]

theorem exists_fit_eq (hwidth : 2 * radius ≤ width) (hheight : 2 * radius ≤ height)
    (graph : Graph ℝ) (bundling : BundlingParameters ℝ) :
    ∃ fitted : Graph ℝ, fitted.positions = (graph.placeOn (.pixels width height radius)).positions ∧
      (fitted.nodes.isEmpty = true ∨ fitted.AtPlace (.pixels width height radius)) ∧
      graph.fit (.pixels width height radius) bundling =
        if fitted.parameters.bundle then fitted.bundleEdges bundling else fitted := by
  by_cases hempty : graph.nodes.isEmpty = true
  · refine ⟨graph, ?_, Or.inl hempty, fit_of_atPlace bundling (Or.inl hempty)⟩
    have hnone : graph.positions = [] := by
      rw [positions, Array.isEmpty_iff.mp hempty]
      rfl
    unfold placeOn
    rw [positions_moveNodes, hnone]
    rfl
  · have hplace := atPlace_placeOn hwidth hheight graph
    refine ⟨_, rfl, Or.inr hplace, ?_⟩
    unfold fit
    rw [if_neg hempty]
    simp only [hplace.centreOn_eq]

theorem fit_fit (hwidth : 2 * radius ≤ width) (hheight : 2 * radius ≤ height)
    (graph : Graph ℝ) (bundling : BundlingParameters ℝ) :
    (graph.fit (.pixels width height radius) bundling).fit (.pixels width height radius) bundling =
      graph.fit (.pixels width height radius) bundling := by
  obtain ⟨fitted, -, hplace, hfit⟩ := exists_fit_eq hwidth hheight graph bundling
  rw [hfit]
  split_ifs with hbundle
  · have hbundled : (fitted.bundleEdges bundling).nodes.isEmpty = true ∨
        (fitted.bundleEdges bundling).AtPlace (.pixels width height radius) :=
      hplace.imp_right fun h => h.bundleEdges bundling
    rw [fit_of_atPlace bundling hbundled]
    exact if_pos hbundle
  · rw [fit_of_atPlace bundling hplace, if_neg hbundle]

end Graph

end Exact

namespace Graph

/-- **Fitting a graph** puts its nodes on whole coordinates at least a radius from the border, keeps
their order on both axes, and uses the whole of every axis on which they differ. -/
theorem fit_fitted [DivisionByZero] {width height radius : ℤ} (hwidth : 2 * radius ≤ width)
    (hheight : 2 * radius ≤ height) (graph : Graph ℝ) (bundling : BundlingParameters ℝ) :
    FittedAxis radius width (graph.positions.map Point.x)
        ((graph.fit (.pixels width height radius) bundling).positions.map Point.x) ∧
      FittedAxis radius height (graph.positions.map Point.y)
        ((graph.fit (.pixels width height radius) bundling).positions.map Point.y) := by
  obtain ⟨fitted, hpositions, -, hfit⟩ := exists_fit_eq hwidth hheight graph bundling
  have hbundled : (graph.fit (.pixels width height radius) bundling).positions =
      (graph.placeOn (.pixels width height radius)).positions := by
    rw [hfit, ← hpositions]
    split_ifs <;> rfl
  obtain ⟨hx, hy⟩ := graph.positions_placeOn (.pixels width height radius)
  rw [hbundled, hx, hy]
  exact ⟨fittedAxis_fitCoordinates hwidth _, fittedAxis_fitCoordinates hheight _⟩

/-- Three nodes at one height, joined by bundled edges. -/
noncomputable def level [DivisionByZero] : Graph ℝ where
  name := "level"
  nodes := #[.placed "A" ⟨0, 1⟩ {}, .placed "B" ⟨1, 1⟩ {}, .placed "C" ⟨-1, 1⟩ {}]
  edges := #[⟨0, 1, true, 1, {}⟩, ⟨2, 0, false, 1, {}⟩]
  parameters := { Parameters.default with bundle := true }
  bounds := .empty
  paths := none
  stream := .ofSeed 1

/-- The nodes of a level graph use the whole width and stand in the middle of the height. -/
theorem fit_fitted_level :
    letI := DivisionByZero.zero
    (2 : ℤ) * 12 ≤ 100 ∧ (2 : ℤ) * 12 ≤ 51 ∧
      FittedAxis 12 100 [0, 1, -1]
        ((level.fit (.pixels 100 51 12) .default).positions.map Point.x) ∧
      FittedAxis 12 51 [1, 1, 1]
        ((level.fit (.pixels 100 51 12) .default).positions.map Point.y) := by
  let := DivisionByZero.zero
  have hwidth : (2 : ℤ) * 12 ≤ 100 := by decide
  have hheight : (2 : ℤ) * 12 ≤ 51 := by decide
  exact ⟨hwidth, hheight, fit_fitted hwidth hheight level .default⟩

/-- **Drawing is repeatable**: a second drawing leaves the graph as the first one left it, and
issues the same commands. -/
theorem draw_draw [DivisionByZero] {width height radius : ℤ} (hwidth : 2 * radius ≤ width)
    (hheight : 2 * radius ≤ height) (graph : Graph ℝ) (bundling : BundlingParameters ℝ) :
    (graph.draw (.pixels width height radius) bundling).1.draw (.pixels width height radius)
        bundling =
      graph.draw (.pixels width height radius) bundling := by
  unfold draw
  simp only [fit_fit hwidth hheight]

/-- On a surface as wide as a node, a level graph is drawn twice in the same way. -/
theorem draw_draw_level :
    letI := DivisionByZero.zero
    (2 : ℤ) * 12 ≤ 24 ∧ (2 : ℤ) * 12 ≤ 51 ∧
      (level.draw (.pixels 24 51 12) .default).1.draw (.pixels 24 51 12) .default =
        level.draw (.pixels 24 51 12) .default := by
  let := DivisionByZero.zero
  have hwidth : (2 : ℤ) * 12 ≤ 24 := by decide
  have hheight : (2 : ℤ) * 12 ≤ 51 := by decide
  exact ⟨hwidth, hheight, draw_draw hwidth hheight level .default⟩

end Graph

end NodeLink
