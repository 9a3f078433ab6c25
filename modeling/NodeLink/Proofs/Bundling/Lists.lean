import NodeLink.Bundling.Bundler
import NodeLink.Proofs.Bundling.Restriction

/-! # The lists of attracted edges

The lists are filled pair by pair, each edge being scored against all later ones, and every entry of
a list but those of later edges is made while another edge is scored.  After each pair the lists
hold what the pairs up to it say, in ascending order (`compare?_entered`); so in the end an edge is
listed exactly where `attracts` says so (`computeCompatibility?_eq`), and filling the lists again
changes nothing (`scored_computeCompatibility`). -/

namespace NodeLink.Bundling

variable {α : Type}

theorem repeat?_succ {σ : Type} (step : σ → Option σ) (n : ℕ) (s : σ) :
    repeat? step (n + 1) s = (repeat? step n s).bind step := rfl

theorem filter_range_concat {P Q : ℕ → Bool} {n k : ℕ} (hk : k < n)
    (hlast : ∀ j, P j = true → j < k) (hQ : ∀ j, Q j = true ↔ P j = true ∨ j = k) :
    (List.range n).filter Q = (List.range n).filter P ++ [k] := by
  have hleft := (List.pairwise_lt_range (n := n)).filter Q
  have hright : ((List.range n).filter P ++ [k]).Pairwise (· < ·) := by
    refine List.pairwise_append.mpr
      ⟨List.pairwise_lt_range.filter P, List.pairwise_singleton _ _, fun j hj i hi => ?_⟩
    obtain rfl := List.mem_singleton.mp hi
    exact hlast j (List.mem_filter.mp hj).2
  refine hleft.eq_of_mem_iff hright fun j => ?_
  rw [List.mem_filter, List.mem_append, List.mem_filter, List.mem_singleton, hQ, List.mem_range]
  constructor
  · rintro ⟨hj, hP | rfl⟩
    · exact .inl ⟨hj, hP⟩
    · exact .inr rfl
  · rintro (⟨hj, hP⟩ | rfl)
    · exact ⟨hj, .inl hP⟩
    · exact ⟨hk, .inr rfl⟩

variable [Scalar α]

/-! ### Which edges attract each other -/

section Attracts

variable (parameters : BundlingParameters α) (segments : Array (Segment α))

theorem attracts_self (p : ℕ) : attracts parameters segments p p = false := if_pos rfl

theorem attracts_comm (p q : ℕ) :
    attracts parameters segments p q = attracts parameters segments q p := by
  rw [Bool.eq_iff_iff, attracts_eq_true_iff, attracts_eq_true_iff, min_comm, max_comm, ne_comm]

variable {parameters segments}

theorem attracts_of_lt {p q : ℕ} {first second : Segment α} (hpq : p < q)
    (hp : segments[p]? = some first) (hq : segments[q]? = some second) :
    attracts parameters segments p q = true ↔ Compatible parameters first second := by
  rw [attracts_eq_true_iff, min_eq_left hpq.le, max_eq_right hpq.le, hp, hq]
  constructor
  · rintro ⟨-, _, _, hfirst, hsecond, hcompatible⟩
    rwa [Option.some.inj hfirst, Option.some.inj hsecond]
  · exact fun hcompatible => ⟨hpq.ne, _, _, rfl, rfl, hcompatible⟩

theorem lt_of_attracts {p q : ℕ} (h : attracts parameters segments p q = true) :
    p < segments.size ∧ q < segments.size := by
  obtain ⟨-, _, _, hmin, hmax, -⟩ := (attracts_eq_true_iff _ _ _ _).mp h
  have hlow := (Array.getElem?_eq_some_iff.mp hmin).1
  have hhigh := (Array.getElem?_eq_some_iff.mp hmax).1
  omega

end Attracts

namespace Bundler

/-! ### Pair by pair -/

/-- Whether a pair of edges comes before the pair of `p` and `q`: the earlier edge of a pair counts
first, then the later one. -/
def before (p q i j : ℕ) : Bool :=
  min i j < p || (min i j = p && max i j < q)

theorem before_iff {p q i j : ℕ} :
    before p q i j = true ↔ min i j < p ∨ min i j = p ∧ max i j < q := by
  unfold before
  rw [Bool.or_eq_true, Bool.and_eq_true, decide_eq_true_eq, decide_eq_true_eq, decide_eq_true_eq]

theorem before_succ {p q i j : ℕ} :
    before p (q + 1) i j = true ↔ before p q i j = true ∨ min i j = p ∧ max i j = q := by
  rw [before_iff, before_iff]
  omega

section Pairs

/-- The list of an edge that the pairs scored so far make. -/
def row (bundler : Bundler α) (scored : ℕ → ℕ → Bool) (i : ℕ) : List ℕ :=
  (List.range bundler.segments.size).filter fun j =>
    attracts bundler.parameters bundler.segments i j && scored i j

/-- The lists that the pairs scored so far make. -/
def entered (bundler : Bundler α) (scored : ℕ → ℕ → Bool) : Array (List ℕ) :=
  Array.ofFn fun i : Fin bundler.segments.size => bundler.row scored i

variable {bundler : Bundler α}

theorem getElem?_entered (scored : ℕ → ℕ → Bool) (i : ℕ) :
    (bundler.entered scored)[i]? =
      if i < bundler.segments.size then some (bundler.row scored i) else none := by
  unfold entered
  rw [Array.getElem?_ofFn]
  split <;> rfl

theorem size_entered (scored : ℕ → ℕ → Bool) :
    (bundler.entered scored).size = bundler.segments.size := Array.size_ofFn

theorem row_congr {scored scored' : ℕ → ℕ → Bool} {i : ℕ}
    (h : ∀ j, attracts bundler.parameters bundler.segments i j = true →
      scored i j = scored' i j) : bundler.row scored i = bundler.row scored' i := by
  refine List.filter_congr fun j _ => ?_
  cases hattracts : attracts bundler.parameters bundler.segments i j with
  | false => rfl
  | true => rw [h j hattracts]

theorem entered_congr {scored scored' : ℕ → ℕ → Bool}
    (h : ∀ i j, attracts bundler.parameters bundler.segments i j = true →
      scored i j = scored' i j) : bundler.entered scored = bundler.entered scored' := by
  unfold entered
  congr 1
  funext i
  exact row_congr (h i)

theorem push?_eq {lists : Array (List ℕ)} {edge : ℕ} (h : edge < lists.size) (other : ℕ) :
    push? lists edge other = some (lists.modify edge (· ++ [other])) := if_pos h

section Attracting

variable {p q : ℕ} (hpq : p < q) (hq : q < bundler.segments.size)
  (hattracts : attracts bundler.parameters bundler.segments p q = true)

include hpq hq hattracts

/-- What the earlier edge of a pair attracts so far comes before the later one. -/
theorem row_before_first :
    bundler.row (before p (q + 1)) p = bundler.row (before p q) p ++ [q] := by
  refine filter_range_concat hq (fun j hj => ?_) fun j => ?_
  · have hbefore := before_iff.mp (Bool.and_eq_true_iff.mp hj).2
    omega
  · rw [Bool.and_eq_true, Bool.and_eq_true, before_succ]
    rcases eq_or_ne j q with rfl | hj
    · simp [hattracts, hpq.le]
    · have hother : ¬ (min p j = p ∧ max p j = q) := by omega
      rw [or_iff_left hother, or_iff_left hj]

theorem row_before_second :
    bundler.row (before p (q + 1)) q = bundler.row (before p q) q ++ [p] := by
  refine filter_range_concat (hpq.trans hq) (fun j hj => ?_) fun j => ?_
  · have hbefore := before_iff.mp (Bool.and_eq_true_iff.mp hj).2
    omega
  · rw [Bool.and_eq_true, Bool.and_eq_true, before_succ]
    rcases eq_or_ne j p with rfl | hj
    · rw [attracts_comm] at hattracts
      simp [hattracts, hpq.le]
    · have hother : ¬ (min q j = p ∧ max q j = q) := by omega
      rw [or_iff_left hother, or_iff_left hj]

/-- A pair that attract each other are entered in each other's lists, and no list but theirs
changes. -/
theorem modify_entered :
    ((bundler.entered (before p q)).modify p (· ++ [q])).modify q (· ++ [p]) =
      bundler.entered (before p (q + 1)) := by
  refine Array.ext_getElem? fun i => ?_
  rw [Array.getElem?_modify, Array.getElem?_modify, getElem?_entered, getElem?_entered]
  rcases eq_or_ne i p with rfl | hip
  · rw [if_neg hpq.ne', if_pos rfl, if_pos (hpq.trans hq), if_pos (hpq.trans hq), Option.map_some,
      row_before_first hpq hq hattracts]
  · rcases eq_or_ne i q with rfl | hiq
    · rw [if_pos rfl, if_neg hip.symm, if_pos hq, if_pos hq, Option.map_some,
        row_before_second hpq hq hattracts]
    · have hrow : bundler.row (before p q) i = bundler.row (before p (q + 1)) i := by
        refine row_congr fun j _ => ?_
        have hother : ¬ (min i j = p ∧ max i j = q) := by omega
        rw [Bool.eq_iff_iff, before_succ, or_iff_left hother]
      rw [if_neg hiq.symm, if_neg hip.symm, hrow]

end Attracting

/-- Scoring a pair enters what that pair says. -/
theorem compare?_entered {p q : ℕ} (hpq : p < q) (hq : q < bundler.segments.size) :
    bundler.compare? p (bundler.entered (before p q)) q =
      some (bundler.entered (before p (q + 1))) := by
  have hp := hpq.trans hq
  have hfirst := Array.getElem?_eq_getElem hp
  have hsecond := Array.getElem?_eq_getElem hq
  have hscore : attracts bundler.parameters bundler.segments p q = true ↔ _ :=
    attracts_of_lt hpq hfirst hsecond
  unfold compare?
  rw [hfirst, hsecond]
  dsimp only
  split_ifs with hcompatible
  · rw [push?_eq (by rwa [size_entered])]
    dsimp only
    rw [push?_eq (by rwa [Array.size_modify, size_entered]),
      modify_entered hpq hq (hscore.mpr hcompatible)]
  · congr 1
    refine entered_congr fun i j hattracts => ?_
    rw [Bool.eq_iff_iff, before_succ, iff_self_or]
    rintro ⟨rfl, rfl⟩
    -- it is the pair itself, one way or the other
    refine absurd (hscore.mp ?_) hcompatible
    rcases le_total i j with hle | hle
    · rwa [min_eq_left hle, max_eq_right hle]
    · rwa [min_eq_right hle, max_eq_left hle, attracts_comm]

theorem compareLater?_entered {p : ℕ} (hp : p < bundler.segments.size) :
    bundler.compareLater? (bundler.entered (before p 0)) p =
      some (bundler.entered (before (p + 1) 0)) := by
  have hfirst : bundler.entered (before p 0) = bundler.entered (before p (p + 1)) := by
    refine entered_congr fun i j hattracts => ?_
    have hne := ((attracts_eq_true_iff _ _ _ _).mp hattracts).1
    rw [Bool.eq_iff_iff, before_iff, before_iff]
    omega
  have hlast : bundler.entered (before p bundler.segments.size) =
      bundler.entered (before (p + 1) 0) := by
    refine entered_congr fun i j hattracts => ?_
    have hlt := lt_of_attracts hattracts
    rw [Bool.eq_iff_iff, before_iff, before_iff]
    omega
  have hrow := foldlM_range' (f := bundler.compare? p)
    (s := fun q => bundler.entered (before p q)) (bundler.segments.size - (p + 1)) (p + 1)
    fun q hlow hhigh => compare?_entered hlow (by omega)
  unfold compareLater?
  rw [hfirst, hrow, ← hlast, Nat.add_sub_cancel' hp]

/-- **The lists name for every edge what it attracts.** -/
theorem computeCompatibility?_eq (bundler : Bundler α) :
    bundler.computeCompatibility? = some { bundler with
      compatibility := compatibilityLists bundler.parameters bundler.segments } := by
  have hfirst : Array.replicate bundler.segments.size [] = bundler.entered (before 0 0) := by
    refine Array.ext_getElem? fun i => ?_
    rw [getElem?_entered, Array.getElem?_replicate]
    simp [row, before]
  have hlast : bundler.entered (before (0 + bundler.segments.size) 0) =
      compatibilityLists bundler.parameters bundler.segments := by
    unfold entered row compatibilityLists
    congr 1
    funext i
    refine List.filter_congr fun j _ => ?_
    have hi := i.isLt
    have hbefore : before (0 + bundler.segments.size) 0 i j = true := before_iff.mpr (by omega)
    rw [hbefore, Bool.and_true]
  have hrows := foldlM_range' (f := bundler.compareLater?)
    (s := fun p => bundler.entered (before p 0)) bundler.segments.size 0
    fun p _ hp => compareLater?_entered (by omega)
  unfold computeCompatibility?
  dsimp only
  rw [hfirst, hrows, hlast]

end Pairs

/-! ### What the lists say -/

/-- An edge stands in the list of another one. -/
def Lists (bundler : Bundler α) (p q : ℕ) : Prop :=
  ∃ others, bundler.compatibility[p]? = some others ∧ q ∈ others

/-- There is one list for every edge that takes part.  Each ascends; no edge stands in its own, and
of two edges both stand in the list of the other or none does; which of it is decided by the score
of the earlier edge against the later one. -/
structure Scored (bundler : Bundler α) : Prop where
  size : bundler.compatibility.size = bundler.segments.size
  ascending : ∀ others ∈ bundler.compatibility, others.Pairwise (· < ·)
  irreflexive : ∀ p, ¬ bundler.Lists p p
  symmetric : ∀ p q, bundler.Lists p q ↔ bundler.Lists q p
  listed : ∀ {p q : ℕ} {first second : Segment α}, p < q → bundler.segments[p]? = some first →
    bundler.segments[q]? = some second →
      (bundler.Lists p q ↔ Scalar.le bundler.parameters.compatibilityThreshold
        (Compatibility.score first second bundler.parameters.lengthTolerance) = true)

theorem lists_compatibilityLists {bundler : Bundler α}
    (h : bundler.compatibility = compatibilityLists bundler.parameters bundler.segments)
    (p q : ℕ) :
    bundler.Lists p q ↔ attracts bundler.parameters bundler.segments p q = true := by
  unfold Lists
  rw [h]
  unfold compatibilityLists
  rw [Array.getElem?_ofFn]
  constructor
  · rintro ⟨others, hothers, hmem⟩
    split_ifs at hothers
    obtain rfl := Option.some.inj hothers
    exact (List.mem_filter.mp hmem).2
  · intro hattracts
    obtain ⟨hp, hq⟩ := lt_of_attracts hattracts
    exact ⟨_, dif_pos hp, List.mem_filter.mpr ⟨List.mem_range.mpr hq, hattracts⟩⟩

theorem scored_of_compatibility_eq {bundler : Bundler α}
    (h : bundler.compatibility = compatibilityLists bundler.parameters bundler.segments) :
    bundler.Scored where
  size := by
    rw [h]
    exact Array.size_ofFn
  ascending := by
    intro others hothers
    rw [h] at hothers
    obtain ⟨p, rfl⟩ := Array.mem_ofFn.mp hothers
    exact List.pairwise_lt_range.filter _
  irreflexive p := by
    rw [lists_compatibilityLists h, attracts_self]
    exact Bool.false_ne_true
  symmetric p q := by
    rw [lists_compatibilityLists h, lists_compatibilityLists h, attracts_comm]
  listed hpq hp hq := by
    rw [lists_compatibilityLists h]
    exact attracts_of_lt hpq hp hq

/-- The bundler for a list of edges, with its lists filled. -/
def filled (parameters : BundlingParameters α) (segments : List (Segment α)) : Bundler α :=
  { new parameters segments with
    compatibility := compatibilityLists parameters (Bundling.kept segments).toArray }

/-- Filling the lists any number of times is filling them once. -/
theorem repeat?_computeCompatibility (parameters : BundlingParameters α)
    (segments : List (Segment α)) (n : ℕ) :
    repeat? computeCompatibility? (n + 1) (new parameters segments) =
      some (filled parameters segments) := by
  induction n with
  | zero => exact computeCompatibility?_eq (new parameters segments)
  | succ n ih =>
      rw [repeat?_succ, ih]
      exact computeCompatibility?_eq (filled parameters segments)

/-- **Filled any number of times, the lists say which edges attract each other.** -/
theorem scored_computeCompatibility (parameters : BundlingParameters α)
    (segments : List (Segment α)) (n : ℕ) :
    ∃ bundler, repeat? computeCompatibility? (n + 1) (new parameters segments) = some bundler ∧
      bundler.parameters = parameters ∧ bundler.segments = (Bundling.kept segments).toArray ∧
        bundler.Scored :=
  ⟨_, repeat?_computeCompatibility parameters segments n, rfl, rfl, scored_of_compatibility_eq rfl⟩

end Bundler

end NodeLink.Bundling
