import NodeLink.Proofs.Bundling.Regular

/-! # Bundling a part of the edges

Edges that attract no edge of a part, and are attracted by none, do not show in the paths of the
part: bundling the part alone yields the same paths as bundling all edges, and so does bundling
the part among any other such edges (`bundle_noninterference`).  The two runs go in step.  The
positions of the part in the whole are kept as an order embedding; between two passes the paths
of the smaller run are those of the larger one at these positions (`Cycle.PartOf`), since the
edges that one of the part attracts are the same ones in the same order
(`compatibilityLists_part`). -/

namespace NodeLink.Bundling

variable {α : Type}

/-! ### Parts of an array -/

/-- The smaller array is what stands in the larger one at the positions of an embedding. -/
def PartOf {β : Type} (f : ℕ ↪o ℕ) (part whole : Array β) : Prop :=
  ∀ i, part[i]? = whole[f i]?

section Parts

variable {β γ : Type} {f : ℕ ↪o ℕ} {part whole : Array β}

theorem PartOf.lt_iff (h : PartOf f part whole) (i : Nat) : i < part.size ↔ f i < whole.size := by
  have hnone : part[i]? = none ↔ whole[f i]? = none := by rw [h i]
  rw [Array.getElem?_eq_none_iff, Array.getElem?_eq_none_iff] at hnone
  omega

theorem PartOf.map (h : PartOf f part whole) (g : β → γ) :
    PartOf f (part.map g) (whole.map g) := by
  intro i
  rw [Array.getElem?_map, Array.getElem?_map, h i]

end Parts

/-! ### The schedule on a part -/

section Schedule

variable [Scalar α] {f : ℕ ↪o ℕ} {parameters : BundlingParameters α}
  {segments whole : Array (Segment α)} {paths wholePaths : Array (Array (Point α))}
  {compatible wholeCompatible : Array (List Nat)}

theorem attracts_part (hs : PartOf f segments whole) (p q : Nat) :
    attracts parameters segments p q = attracts parameters whole (f p) (f q) := by
  have hmin : f (Nat.min p q) = Nat.min (f p) (f q) := f.monotone.map_min
  have hmax : f (Nat.max p q) = Nat.max (f p) (f q) := f.monotone.map_max
  unfold attracts
  rw [hs (Nat.min p q), hs (Nat.max p q), hmin, hmax]
  by_cases hpq : p = q
  · rw [if_pos hpq, if_pos (congrArg f hpq)]
  · rw [if_neg hpq, if_neg (fun h => hpq (f.injective h))]

/-- No edge of the part attracts one outside it. -/
def Separate (parameters : BundlingParameters α) (f : ℕ ↪o ℕ) (whole : Array (Segment α)) : Prop :=
  ∀ i j, j ∉ Set.range f → attracts parameters whole (f i) j = false

/-- What is attracted in the whole by an edge of the part is what it attracts in the part: the
same edges in the same order. -/
theorem filter_attracts_part (hs : PartOf f segments whole) (hapart : Separate parameters f whole)
    (i : Nat) :
    (List.range whole.size).filter (attracts parameters whole (f i)) =
      ((List.range segments.size).filter (attracts parameters segments i)).map f := by
  -- both sides ascend, so having the same members makes them equal
  have hwhole := (List.pairwise_lt_range (n := whole.size)).filter (attracts parameters whole (f i))
  have hpart := (List.pairwise_lt_range (n := segments.size)).filter
    (attracts parameters segments i)
  refine hwhole.eq_of_mem_iff (hpart.map f fun _ _ h => f.lt_iff_lt.mpr h) fun j => ?_
  rw [List.mem_filter, List.mem_range, List.mem_map]
  constructor
  · rintro ⟨hj, hattracts⟩
    by_cases hrange : j ∈ Set.range f
    · obtain ⟨k, rfl⟩ := hrange
      refine ⟨k, List.mem_filter.mpr ⟨List.mem_range.mpr ((hs.lt_iff k).mpr hj), ?_⟩, rfl⟩
      rwa [attracts_part hs]
    · rw [hapart i j hrange] at hattracts
      cases hattracts
  · rintro ⟨k, hk, rfl⟩
    obtain ⟨hlt, hattracts⟩ := List.mem_filter.mp hk
    rw [attracts_part hs] at hattracts
    exact ⟨(hs.lt_iff k).mp (List.mem_range.mp hlt), hattracts⟩

/-- The lists of the part name in its own numbers what those of the whole name. -/
def ListsPartOf (f : ℕ ↪o ℕ) (compatible wholeCompatible : Array (List Nat)) : Prop :=
  ∀ i, compatible[i]?.map (List.map f) = wholeCompatible[f i]?

theorem compatibilityLists_part (hs : PartOf f segments whole)
    (hapart : Separate parameters f whole) :
    ListsPartOf f (compatibilityLists parameters segments)
      (compatibilityLists parameters whole) := by
  intro i
  unfold compatibilityLists
  rw [Array.getElem?_ofFn, Array.getElem?_ofFn]
  by_cases hi : i < segments.size
  · rw [dif_pos hi, dif_pos ((hs.lt_iff i).mp hi), Option.map_some,
      ← filter_attracts_part hs hapart]
  · rw [dif_neg hi, dif_neg (fun h => hi ((hs.lt_iff i).mpr h))]
    rfl

theorem pulls_part (hp : PartOf f paths wholePaths) (index : Nat) (threshold : α)
    (current : Point α) : ∀ (others : List Nat) (total : Vec α),
      pulls? paths index threshold current total others =
        pulls? wholePaths index threshold current total (others.map f)
  | [], _ => rfl
  | other :: others, total => by
      rw [List.map_cons]
      unfold pulls?
      rw [hp other]
      cases wholePaths[f other]?.bind (·[index]?) with
      | none => rfl
      | some point => exact pulls_part hp index threshold current others _

theorem displacement_part (hp : PartOf f paths wholePaths) (others : List Nat) (path : Nat)
    (points : Array (Point α)) (stiffness stepSize : α) :
    displacement? paths others path points stiffness stepSize =
      displacement? wholePaths (others.map f) (f path) points stiffness stepSize := by
  funext index
  unfold displacement? electrostaticForce?
  rw [hp path]
  cases wholePaths[f path]?.bind (·[index]?) with
  | none => rfl
  | some current => simp only [pulls_part hp]

theorem displacements_part (hp : PartOf f paths wholePaths) (others : List Nat) (path : Nat)
    (segment : Segment α) (stepSize : α) :
    displacements? paths others path segment stepSize parameters =
      displacements? wholePaths (others.map f) (f path) segment stepSize parameters := by
  unfold displacements?
  rw [hp path]
  cases wholePaths[f path]? with
  | none => rfl
  | some points => simp only [displacement_part hp]

theorem pass_part (hs : PartOf f segments whole) (hc : ListsPartOf f compatible wholeCompatible)
    (stepSize : α) (hp : PartOf f paths wholePaths) :
    PartOf f (pass parameters segments compatible stepSize paths)
      (pass parameters whole wholeCompatible stepSize wholePaths) := by
  intro i
  unfold pass
  rw [Array.getElem?_mapIdx, Array.getElem?_mapIdx, hp i, hs i, ← hc i]
  cases whole[f i]? with
  | none => rfl
  | some segment =>
      cases compatible[i]? with
      | none => rfl
      | some others => simp only [Option.map_some, displacements_part hp]

/-- Two runs stand at the same point of the schedule, one of them on a part of the edges. -/
structure Cycle.PartOf (f : ℕ ↪o ℕ) (part whole : Cycle α) : Prop where
  paths : Bundling.PartOf f part.paths whole.paths
  stepSize : part.stepSize = whole.stepSize
  subdivision : part.subdivision = whole.subdivision
  iterations : part.iterations = whole.iterations

theorem Cycle.PartOf.next (hs : Bundling.PartOf f segments whole)
    (hc : ListsPartOf f compatible wholeCompatible) {part all : Cycle α}
    (h : Cycle.PartOf f part all) :
    Cycle.PartOf f (part.next parameters segments compatible)
      (all.next parameters whole wholeCompatible) := by
  have hpasses : Bundling.PartOf f
      (Nat.repeat (pass parameters segments compatible part.stepSize) part.passes part.paths)
      (Nat.repeat (pass parameters whole wholeCompatible all.stepSize) all.passes all.paths) := by
    unfold Cycle.passes
    rw [h.stepSize, h.iterations]
    exact repeat_related (fun _ _ hp => pass_part hs hc all.stepSize hp) _ h.paths
  unfold Cycle.next Cycle.refine
  rw [h.subdivision]
  exact ⟨hpasses.map _, by rw [h.stepSize], rfl, by rw [h.iterations]⟩

/-- **The schedule on a part** ends with the paths that the whole has there. -/
theorem bundleKept_part (hs : PartOf f segments whole) (hapart : Separate parameters f whole) :
    PartOf f (bundleKept parameters segments) (bundleKept parameters whole) := by
  unfold bundleKept
  by_cases hnone : parameters.cycleCount = 0
  · rw [if_pos hnone, if_pos hnone]
    exact hs.map _
  · rw [if_neg hnone, if_neg hnone]
    have hfirst : Cycle.PartOf f (Cycle.first parameters segments)
        (Cycle.first parameters whole) := ⟨(hs.map _).map _, rfl, rfl, rfl⟩
    have hlists := compatibilityLists_part hs hapart
    exact (repeat_related (fun _ _ h => h.next hs hlists) parameters.cycleCount hfirst).paths

end Schedule

/-! ### Marked lists -/

section Marked

variable {β : Type}

/-- The elements with a mark. -/
def chosen (xs : List (β × Bool)) : List β := (xs.filter Prod.snd).map Prod.fst

theorem chosen_cons_true (x : β) (xs : List (β × Bool)) :
    chosen ((x, true) :: xs) = x :: chosen xs := rfl

theorem chosen_cons_false (x : β) (xs : List (β × Bool)) :
    chosen ((x, false) :: xs) = chosen xs := rfl

theorem mem_chosen {x : β} {xs : List (β × Bool)} : x ∈ chosen xs ↔ (x, true) ∈ xs := by
  unfold chosen
  simp

theorem eq_true_of_mem_chosen_zip {mark : Bool} {marks : List Bool}
    (h : mark ∈ chosen (marks.zip marks)) : mark = true := by
  obtain ⟨k, hk⟩ := List.mem_iff_getElem?.mp (mem_chosen.mp h)
  obtain ⟨hmark, htrue⟩ := List.getElem?_zip_eq_some.mp hk
  exact Option.some.inj (hmark.symm.trans htrue)

theorem chosen_map_zip {γ : Type} (g : β → γ) (xs : List β) (marks : List Bool) :
    chosen ((xs.map g).zip marks) = (chosen (xs.zip marks)).map g := by
  unfold chosen
  rw [List.zip_map_left, List.filter_map, List.map_map, List.map_map]
  rfl

theorem map_some_eq (xs : List β) :
    xs.map some = (List.range xs.length).map (xs[·]?) := by
  refine List.ext_getElem? fun k => ?_
  rw [List.getElem?_map, List.getElem?_map]
  by_cases hk : k < xs.length
  · rw [List.getElem?_range hk, Option.map_some, List.getElem?_eq_getElem hk]
    rfl
  · rw [List.getElem?_eq_none (by omega), List.getElem?_eq_none (by simp; omega)]
    rfl

theorem exists_positions (marks : List Bool) :
    ∃ f : ℕ ↪o ℕ, (∀ j, marks[j]? = some true → j ∈ Set.range f) ∧
      ∀ {β : Type} (xs : List β), xs.length = marks.length →
        ∀ i, (chosen (xs.zip marks))[i]? = xs[f i]? := by
  -- the positions are read off the list of all positions, where no element stands twice; with
  -- the sublist of the edges themselves, equal edges could be taken for each other
  have hsub : (chosen ((List.range marks.length).zip marks)).Sublist (List.range marks.length) := by
    have h := (List.filter_sublist (l := (List.range marks.length).zip marks)
      (p := Prod.snd)).map Prod.fst
    rwa [List.map_fst_zip (by simp)] at h
  obtain ⟨f, hf⟩ := List.sublist_iff_exists_orderEmbedding_getElem?_eq.mp hsub
  refine ⟨f, fun j hj => ?_, fun {β} xs hlen i => ?_⟩
  · obtain ⟨hlt, hmark⟩ := List.getElem?_eq_some_iff.mp hj
    have hmem : j ∈ chosen ((List.range marks.length).zip marks) := by
      rw [mem_chosen, List.mem_iff_getElem?]
      exact ⟨j, List.getElem?_zip_eq_some.mpr ⟨List.getElem?_range hlt, hj⟩⟩
    obtain ⟨i, hi⟩ := List.mem_iff_getElem?.mp hmem
    rw [hf i] at hi
    obtain ⟨hfi, rfl⟩ := List.getElem?_eq_some_iff.mp hi
    exact ⟨i, (List.getElem_range hfi).symm⟩
  · have hchosen : (chosen (xs.zip marks)).map some =
        (chosen ((List.range marks.length).zip marks)).map (xs[·]?) := by
      rw [← chosen_map_zip, map_some_eq, hlen, chosen_map_zip]
    have hi : (chosen (xs.zip marks))[i]?.map some =
        (List.range marks.length)[f i]?.map (xs[·]?) := by
      rw [← List.getElem?_map, hchosen, List.getElem?_map, hf i]
    by_cases hfi : f i < marks.length
    · rw [List.getElem?_range hfi] at hi
      cases hx : (chosen (xs.zip marks))[i]? with
      | none => rw [hx] at hi; cases hi
      | some x => rw [hx] at hi; exact Option.some.inj hi
    · rw [List.getElem?_eq_none (l := List.range marks.length) (by simp; omega)] at hi
      rw [Option.map_eq_none_iff.mp hi, List.getElem?_eq_none (by omega)]

end Marked

/-! ### All edges -/

section Edges

variable [Scalar α]

/-- The marked edges that take part. -/
def keptMarked (edges : List (Segment α × Bool)) : List (Segment α × Bool) :=
  edges.filter fun x => !x.1.isDegenerate

theorem kept_map_fst (edges : List (Segment α × Bool)) :
    kept (edges.map Prod.fst) = (keptMarked edges).map Prod.fst := List.filter_map

theorem kept_chosen (edges : List (Segment α × Bool)) :
    kept (chosen edges) = chosen (keptMarked edges) := by
  unfold kept chosen keptMarked
  rw [List.filter_map, List.filter_filter, List.filter_filter]
  congr 1
  exact List.filter_congr fun x _ => Bool.and_comm _ _

theorem deal_cons_degenerate {segment : Segment α} (hd : segment.isDegenerate = true)
    (segments : List (Segment α)) (paths : List (Array (Point α))) :
    deal (segment :: segments) paths = #[] :: deal segments paths := by
  rw [deal, if_pos hd]

theorem deal_cons_kept {segment : Segment α} (hd : segment.isDegenerate = false)
    (segments : List (Segment α)) (path : Array (Point α)) (paths : List (Array (Point α))) :
    deal (segment :: segments) (path :: paths) = path :: deal segments paths := by
  rw [deal, if_neg (by simp [hd]), List.headD_cons, List.tail_cons]

/-- Dealing out the paths of the chosen edges is choosing among the paths dealt out. -/
theorem deal_chosen : ∀ (edges : List (Segment α × Bool)) (paths : List (Array (Point α))),
    paths.length = (keptMarked edges).length →
      deal (chosen edges) (chosen (paths.zip ((keptMarked edges).map Prod.snd))) =
        chosen ((deal (edges.map Prod.fst) paths).zip (edges.map Prod.snd))
  | [], _, _ => rfl
  | (segment, mark) :: edges, paths, hlen => by
      rw [List.map_cons, List.map_cons]
      by_cases hd : segment.isDegenerate = true
      · have hkept : keptMarked ((segment, mark) :: edges) = keptMarked edges :=
          List.filter_cons_of_neg (by simp [hd])
        rw [hkept] at hlen ⊢
        have ih := deal_chosen edges paths hlen
        rw [deal_cons_degenerate hd, List.zip_cons_cons]
        cases mark with
        | false => rw [chosen_cons_false, chosen_cons_false, ih]
        | true => rw [chosen_cons_true, chosen_cons_true, deal_cons_degenerate hd, ih]
      · have hkept : keptMarked ((segment, mark) :: edges) = (segment, mark) :: keptMarked edges :=
          List.filter_cons_of_pos (by simp [hd])
        rw [hkept] at hlen ⊢
        obtain ⟨path, paths, rfl⟩ := List.exists_cons_of_length_eq_add_one hlen
        have ih := deal_chosen edges paths (Nat.succ.inj hlen)
        rw [Bool.not_eq_true] at hd
        rw [deal_cons_kept hd, List.map_cons, List.zip_cons_cons, List.zip_cons_cons]
        cases mark with
        | false => rw [chosen_cons_false, chosen_cons_false, chosen_cons_false, ih]
        | true => rw [chosen_cons_true, chosen_cons_true, chosen_cons_true, deal_cons_kept hd, ih]

/-- Whether two edges attract each other, the first one standing before the second one. -/
def Compatible (parameters : BundlingParameters α) (first second : Segment α) : Prop :=
  Scalar.le parameters.compatibilityThreshold
    (Compatibility.score first second parameters.lengthTolerance) = true

instance (parameters : BundlingParameters α) (first second : Segment α) :
    Decidable (Compatible parameters first second) :=
  inferInstanceAs (Decidable (_ = true))

/-- The edges with a mark attract none without one. -/
def ApartMarked (parameters : BundlingParameters α) (edges : List (Segment α × Bool)) : Prop :=
  edges.Pairwise fun x y => x.2 ≠ y.2 → ¬ Compatible parameters x.1 y.1

theorem attracts_eq_true_iff (parameters : BundlingParameters α) (segments : Array (Segment α))
    (p q : Nat) :
    attracts parameters segments p q = true ↔
      p ≠ q ∧ ∃ first second, segments[min p q]? = some first ∧
        segments[max p q]? = some second ∧ Compatible parameters first second := by
  show attracts parameters segments p q = true ↔ p ≠ q ∧ ∃ first second,
    segments[Nat.min p q]? = some first ∧ segments[Nat.max p q]? = some second ∧ _
  unfold attracts Compatible
  by_cases hpq : p = q
  · rw [if_pos hpq]
    exact iff_of_false (by simp) fun h => h.1 hpq
  · rw [if_neg hpq]
    cases segments[Nat.min p q]? with
    | none => simp
    | some first =>
        cases segments[Nat.max p q]? with
        | none => simp
        | some second => simp [hpq]

theorem ApartMarked.mark_eq {parameters : BundlingParameters α}
    {edges : List (Segment α × Bool)} (h : ApartMarked parameters edges) {p q : Nat}
    (hattracts : attracts parameters (edges.map Prod.fst).toArray p q = true) :
    ∃ mark, (edges.map Prod.snd)[p]? = some mark ∧ (edges.map Prod.snd)[q]? = some mark := by
  obtain ⟨hne, first, second, hfirst, hsecond, hcompatible⟩ :=
    (attracts_eq_true_iff _ _ _ _).mp hattracts
  rw [List.getElem?_toArray, List.getElem?_map, Option.map_eq_some_iff] at hfirst hsecond
  obtain ⟨x, hx, rfl⟩ := hfirst
  obtain ⟨y, hy, rfl⟩ := hsecond
  have hmark : x.2 = y.2 := by
    by_contra hmarks
    obtain ⟨hmin, rfl⟩ := List.getElem?_eq_some_iff.mp hx
    obtain ⟨hmax, rfl⟩ := List.getElem?_eq_some_iff.mp hy
    exact List.pairwise_iff_getElem.mp h _ _ hmin hmax (by omega) hmarks hcompatible
  refine ⟨y.2, ?_⟩
  rw [List.getElem?_map, List.getElem?_map]
  rcases Nat.le_total p q with hle | hle
  · rw [min_eq_left hle] at hx
    rw [max_eq_right hle] at hy
    rw [hx, hy, Option.map_some, Option.map_some, hmark]
    exact ⟨rfl, rfl⟩
  · rw [min_eq_right hle] at hx
    rw [max_eq_left hle] at hy
    rw [hx, hy, Option.map_some, Option.map_some, hmark]
    exact ⟨rfl, rfl⟩

theorem ApartMarked.separate {parameters : BundlingParameters α}
    {edges : List (Segment α × Bool)} (h : ApartMarked parameters edges) {f : ℕ ↪o ℕ}
    (hin : ∀ i mark, (edges.map Prod.snd)[f i]? = some mark → mark = true)
    (hout : ∀ j, (edges.map Prod.snd)[j]? = some true → j ∈ Set.range f) :
    Separate parameters f (edges.map Prod.fst).toArray := by
  intro i j hj
  refine Bool.eq_false_iff.mpr fun hattracts => ?_
  obtain ⟨mark, hmark, hother⟩ := h.mark_eq hattracts
  rw [hin i mark hmark] at hother
  exact hj (hout j hother)

theorem bundle_chosen {parameters : BundlingParameters α} {edges : List (Segment α × Bool)}
    (h : ApartMarked parameters (keptMarked edges)) :
    bundle parameters (chosen edges) =
      chosen ((bundle parameters (edges.map Prod.fst)).zip (edges.map Prod.snd)) := by
  obtain ⟨f, hout, hpositions⟩ := exists_positions ((keptMarked edges).map Prod.snd)
  have hin : ∀ i mark, ((keptMarked edges).map Prod.snd)[f i]? = some mark → mark = true := by
    intro i mark hmark
    rw [← hpositions _ rfl i] at hmark
    exact eq_true_of_mem_chosen_zip (List.mem_of_getElem? hmark)
  have hpart : PartOf f (chosen (keptMarked edges)).toArray
      ((keptMarked edges).map Prod.fst).toArray := by
    intro i
    have hzip : keptMarked edges =
        ((keptMarked edges).map Prod.fst).zip ((keptMarked edges).map Prod.snd) :=
      List.zip_of_prod rfl rfl
    rw [List.getElem?_toArray, List.getElem?_toArray, ← hpositions _ (by simp) i, ← hzip]
  have hpaths := bundleKept_part hpart (h.separate hin hout)
  have hsize : (bundleKept parameters ((keptMarked edges).map Prod.fst).toArray).toList.length =
      (keptMarked edges).length := by
    obtain ⟨count, hregular, -⟩ : ∃ count, Regular (fun _ _ => True)
        ((keptMarked edges).map Prod.fst).toArray count
        (bundleKept parameters ((keptMarked edges).map Prod.fst).toArray) ∧ _ :=
      exists_regular_bundleKept (fun _ => trivial) (fun _ _ _ => trivial) parameters _
    rw [Array.length_toList, hregular.size, List.size_toArray, List.length_map]
  have hchosen : (bundleKept parameters (chosen (keptMarked edges)).toArray).toList =
      chosen ((bundleKept parameters ((keptMarked edges).map Prod.fst).toArray).toList.zip
        ((keptMarked edges).map Prod.snd)) := by
    refine List.ext_getElem? fun i => ?_
    rw [hpositions _ (by rw [hsize, List.length_map]) i, Array.getElem?_toList,
      Array.getElem?_toList]
    exact hpaths i
  unfold bundle
  rw [kept_chosen, hchosen, deal_chosen _ _ hsize, kept_map_fst]

/-! ### Restriction to positions -/

/-- The elements of a list at the positions inside. -/
def restrict {β : Type} (inside : Nat → Bool) (xs : List β) : List β :=
  (xs.zipIdx.filter fun x => inside x.2).map Prod.fst

/-- No edge inside that takes part is compatible with one outside that does. -/
def Apart (parameters : BundlingParameters α) (inside : Nat → Bool)
    (segments : List (Segment α)) : Prop :=
  segments.zipIdx.Pairwise fun x y =>
    x.1.isDegenerate = false → y.1.isDegenerate = false → inside x.2 ≠ inside y.2 →
      ¬ Compatible parameters x.1 y.1

instance (parameters : BundlingParameters α) (inside : Nat → Bool)
    (segments : List (Segment α)) : Decidable (Apart parameters inside segments) :=
  inferInstanceAs (Decidable (List.Pairwise _ _))

theorem restrict_eq_chosen {β : Type} (inside : Nat → Bool) (xs : List β) :
    restrict inside xs = chosen (xs.zip ((List.range xs.length).map inside)) := by
  unfold restrict chosen
  rw [zip_map_range, List.filter_map, List.map_map]
  rfl

theorem length_deal (segments : List (Segment α)) (paths : List (Array (Point α))) :
    (deal segments paths).length = segments.length := by
  induction segments generalizing paths with
  | nil => rfl
  | cons segment segments ih =>
      unfold deal
      split <;> rw [List.length_cons, List.length_cons, ih]

/-- The paths of a part are those that bundling the part alone yields. -/
theorem bundle_restrict {parameters : BundlingParameters α} {inside : Nat → Bool}
    {segments : List (Segment α)} (h : Apart parameters inside segments) :
    bundle parameters (restrict inside segments) =
      restrict inside (bundle parameters segments) := by
  have hlength : (bundle parameters segments).length = segments.length := length_deal _ _
  have hapart : ApartMarked parameters
      (keptMarked (segments.zip ((List.range segments.length).map inside))) := by
    unfold ApartMarked keptMarked
    rw [List.pairwise_filter, zip_map_range, List.pairwise_map]
    refine h.imp fun {x y} hxy hx hy hmarks => hxy ?_ ?_ hmarks
    · simpa using hx
    · simpa using hy
  have hmarked := bundle_chosen hapart
  rw [List.map_fst_zip (by simp), List.map_snd_zip (by simp)] at hmarked
  rw [restrict_eq_chosen, restrict_eq_chosen, hlength, hmarked]

/-- **Edges apart from a part have no influence on its paths**: bundling the part alone yields
them, exactly, and so does bundling the part among any other edges apart from it. -/
theorem bundle_noninterference {parameters : BundlingParameters α} {inside : Nat → Bool}
    {segments : List (Segment α)} (h : Apart parameters inside segments) :
    restrict inside (bundle parameters segments) =
        bundle parameters (restrict inside segments) ∧
      ∀ {inside' : Nat → Bool} {segments' : List (Segment α)},
        Apart parameters inside' segments' →
          restrict inside' segments' = restrict inside segments →
            restrict inside' (bundle parameters segments') =
              restrict inside (bundle parameters segments) := by
  refine ⟨(bundle_restrict h).symm, fun {inside' segments'} h' hpart => ?_⟩
  rw [← bundle_restrict h, ← bundle_restrict h', hpart]

end Edges

/-- Two parallel edges, one that crosses them and one without length. -/
def crossed : List (Segment Float) :=
  [⟨⟨0, 0⟩, ⟨10, 0⟩⟩, ⟨⟨5, -5⟩, ⟨5, 5⟩⟩, ⟨⟨3, 3⟩, ⟨3, 3⟩⟩, ⟨⟨0, 1⟩, ⟨10, 1⟩⟩]

/-- The parallel edges and one far from them. -/
def distant : List (Segment Float) :=
  [⟨⟨0, 0⟩, ⟨10, 0⟩⟩, ⟨⟨0, 1⟩, ⟨10, 1⟩⟩, ⟨⟨0, 100⟩, ⟨10, 103⟩⟩]

/-- The parallel edges attract each other, and have the same paths in both surroundings. -/
theorem noninterference_crossed :
    Compatible .default ⟨⟨0, 0⟩, ⟨10, 0⟩⟩ (⟨⟨0, 1⟩, ⟨10, 1⟩⟩ : Segment Float) ∧
      Apart .default (fun i => i = 0 || i = 3) crossed ∧
      Apart .default (fun i => i < 2) distant ∧
      restrict (fun i => i = 0 || i = 3) (bundle .default crossed) =
        bundle .default [⟨⟨0, 0⟩, ⟨10, 0⟩⟩, ⟨⟨0, 1⟩, ⟨10, 1⟩⟩] ∧
      restrict (fun i => i < 2) (bundle .default distant) =
        restrict (fun i => i = 0 || i = 3) (bundle .default crossed) := by
  have hcrossed : Apart .default (fun i => i = 0 || i = 3) crossed := by decide +kernel
  have hdistant : Apart .default (fun i => i < 2) distant := by decide +kernel
  obtain ⟨halone, hothers⟩ := bundle_noninterference hcrossed
  exact ⟨by decide +kernel, hcrossed, hdistant, halone, hothers hdistant rfl⟩

end NodeLink.Bundling
