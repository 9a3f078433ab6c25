import NodeLink.Proofs.Bundling.Exchange
import NodeLink.Proofs.Bundling.Lists
import NodeLink.Proofs.Double.Commuting

/-! # Pairs scored once

Every pair of edges is scored once, the earlier edge against the later one, and both are entered in
each other's lists.  Where operations commute, the later edge scores the earlier one alike, so the
lists are those of edges that score all other edges themselves (`compatibilityLists_eq`).  Doubles
commute, rounded as they are: no measure of two edges depends on their order, not even in its last
bit, and no list does (`Bundler.scored_once`). -/

namespace NodeLink

/-- What two edges measure of each other is the same, whichever of them comes first. -/
structure Compatibility.Alike {α : Type} [Scalar α] (p q : Segment α) (tolerance : α) : Prop where
  angle : angle p q tolerance = Compatibility.angle q p tolerance
  scale : scale p q tolerance = Compatibility.scale q p tolerance
  position : position p q tolerance = Compatibility.position q p tolerance
  visibility : visibility p q = Compatibility.visibility q p
  score : score p q tolerance = Compatibility.score q p tolerance

namespace Bundling

section Commuting

variable {α : Type} [Scalar α] (parameters : BundlingParameters α) (segments : Array (Segment α))

/-- The lists of edges that score all other edges themselves, so that every pair is scored twice,
once from either side. -/
def listsBothWays : Array (List Nat) :=
  segments.mapIdx fun p first =>
    (List.range segments.size).filter fun q =>
      p ≠ q && segments[q]?.any fun second => decide (Compatible parameters first second)

variable [Scalar.Commutes α] {parameters segments}

theorem compatible_comm {first second : Segment α} :
    Compatible parameters first second ↔ Compatible parameters second first := by
  unfold Compatible
  rw [Compatibility.score_comm]

/-- Two edges attract each other if and only if the score of either against the other one reaches
the threshold. -/
theorem attracts_iff_compatible {p q : ℕ} {first second : Segment α} (hpq : p ≠ q)
    (hp : segments[p]? = some first) (hq : segments[q]? = some second) :
    attracts parameters segments p q = true ↔ Compatible parameters first second := by
  rcases lt_or_gt_of_ne hpq with hlt | hlt
  · exact attracts_of_lt hlt hp hq
  · rw [attracts_comm, compatible_comm]
    exact attracts_of_lt hlt hq hp

variable (parameters segments)

/-- Scoring every pair once loses nothing. -/
theorem compatibilityLists_eq :
    compatibilityLists parameters segments = listsBothWays parameters segments := by
  refine Array.ext_getElem? fun p => ?_
  unfold compatibilityLists listsBothWays
  rw [Array.getElem?_ofFn, Array.getElem?_mapIdx]
  split
  · next hp =>
    rw [Array.getElem?_eq_getElem hp, Option.map_some]
    refine congrArg some (List.filter_congr fun q hq => ?_)
    have hq := List.mem_range.mp hq
    rw [Array.getElem?_eq_getElem hq, Option.any_some]
    rcases eq_or_ne p q with rfl | hpq
    · rw [attracts_self]
      simp
    · rw [Bool.eq_iff_iff, attracts_iff_compatible hpq (Array.getElem?_eq_getElem hp)
        (Array.getElem?_eq_getElem hq)]
      simp [hpq]
  · next hp => rw [Array.getElem?_eq_none (Nat.not_lt.mp hp), Option.map_none]

end Commuting

/-- **Scoring every pair of edges once loses nothing.**  Two edges measure the same doubles of each
other, whichever of them comes first and whatever the tolerance is, and their scores compare equal
unless they are no number; so the lists that are filled pair by pair, the earlier edge first, are
those of edges that score all other edges themselves. -/
theorem Bundler.scored_once (parameters : BundlingParameters Float)
    (segments : List (Segment Float)) :
    (∀ (p q : Segment Float) (tolerance : Float),
      Compatibility.Alike p q tolerance ∧
        ((Compatibility.score p q tolerance).isNaN = false →
          (Compatibility.score p q tolerance == Compatibility.score q p tolerance) = true)) ∧
      ∃ bundler, (new parameters segments).computeCompatibility? = some bundler ∧
        bundler.compatibility = listsBothWays parameters (Bundling.kept segments).toArray := by
  refine ⟨fun p q tolerance => ⟨?_, fun hnumber => ?_⟩, ?_⟩
  · exact ⟨Compatibility.angle_comm p q tolerance, Compatibility.scale_comm p q tolerance,
      Compatibility.position_comm p q tolerance, Compatibility.visibility_comm p q,
      Compatibility.score_comm p q tolerance⟩
  · rw [Compatibility.score_comm q p, Double.beq_self_eq, hnumber]
    rfl
  · exact ⟨_, computeCompatibility?_eq (new parameters segments), compatibilityLists_eq _ _⟩

end Bundling

end NodeLink
