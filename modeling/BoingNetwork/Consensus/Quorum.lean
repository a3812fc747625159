import BoingNetwork.Consensus.Engine
import BoingNetwork.Library.Quorum
import Mathlib.Data.Finset.Sort

/-!
# Quorum sizes and counted votes

Two quorum rules are in use.  Without an active anchor the quorum is `2f + 1`
with `f` rounded down from the length of the validator list; with active anchors
it is computed from their number.  The two rules differ in how far two quorums
must overlap.
-/

namespace BoingNetwork

namespace ConsensusEngine

variable (engine : ConsensusEngine)

/-- No anchor restricts the votes that count. -/
def Classic : Prop := engine.activeAnchors = []

instance : Decidable engine.Classic :=
  inferInstanceAs (Decidable (engine.activeAnchors = []))

/-- A set of validators that is large enough to commit a block. -/
def ReachesQuorum (voters : Finset AccountId) : Prop :=
  voters ⊆ engine.validators.toFinset ∧ engine.quorum ≤ voters.card

instance (voters : Finset AccountId) : Decidable (engine.ReachesQuorum voters) :=
  inferInstanceAs (Decidable (_ ∧ _))

theorem activeAnchors_eq_nil_of_anchors (noAnchors : engine.anchors = []) : engine.Classic := by
  simp [Classic, activeAnchors, noAnchors]

theorem quorum_of_classic {engine : ConsensusEngine} (classic : engine.Classic) :
    engine.quorum = 2 * engine.f + 1 := by
  unfold Classic at classic
  simp [quorum, classic]

theorem quorum_of_not_classic {engine : ConsensusEngine} (anchored : ¬ engine.Classic) :
    engine.quorum =
      (engine.activeAnchors.length + (engine.activeAnchors.length - 1) / 3) / 2 + 1 := by
  have someAnchor : engine.anchors ≠ [] :=
    fun none => anchored (engine.activeAnchors_eq_nil_of_anchors none)
  unfold Classic at anchored
  simp [quorum, anchored, someAnchor]

theorem quorum_pos : 0 < engine.quorum := by
  by_cases classic : engine.Classic
  · rw [quorum_of_classic classic]
    omega
  · rw [quorum_of_not_classic classic]
    omega

theorem activeAnchors_nodup : engine.activeAnchors.Nodup :=
  (engine.anchors_sorted.imp BitVec.ne_of_lt).filter _

theorem card_activeAnchors : engine.activeAnchors.toFinset.card = engine.activeAnchors.length :=
  List.toFinset_card_of_nodup engine.activeAnchors_nodup

theorem mem_activeAnchors {engine : ConsensusEngine} {account : AccountId} :
    account ∈ engine.activeAnchors ↔ account ∈ engine.anchors ∧ account ∈ engine.validators := by
  simp [activeAnchors]

/-- Two classic quorums share more than `f` validators exactly when there are at
most `3f + 1` different validators. -/
theorem reachesQuorum_overlap_iff (classic : engine.Classic) :
    Quorum.Intersects engine.validators.toFinset engine.quorum engine.f ↔
      engine.validators.toFinset.card ≤ 3 * engine.f + 1 := by
  by_cases fits : engine.quorum ≤ engine.validators.toFinset.card
  · rw [Quorum.intersects_iff fits, quorum_of_classic classic]
    omega
  · rw [quorum_of_classic classic] at fits
    have unreachable : engine.validators.toFinset.card < engine.quorum := by
      rw [quorum_of_classic classic]
      omega
    constructor
    · intro _
      omega
    · intro _
      exact Quorum.intersects_of_card_lt unreachable

theorem card_le_three_f_add_one_iff (distinct : engine.validators.Nodup) :
    engine.validators.toFinset.card ≤ 3 * engine.f + 1 ↔ engine.validators.length % 3 = 1 := by
  have positive := engine.validators_length_pos
  rw [List.toFinset_card_of_nodup distinct, f]
  omega

/-- Any two sets that reach the classic quorum share more than `f` validators
exactly when at most `3f + 1` validators are different; for a validator list
without repetition this means `n = 3f + 1`. -/
theorem quorumIntersection_iff (noAnchors : engine.anchors = []) :
    ((∀ first second : Finset AccountId,
        engine.ReachesQuorum first → engine.ReachesQuorum second →
          engine.f < (first ∩ second).card) ↔
      engine.validators.toFinset.card ≤ 3 * engine.f + 1) ∧
    (engine.validators.Nodup →
      ((∀ first second : Finset AccountId,
          engine.ReachesQuorum first → engine.ReachesQuorum second →
            engine.f < (first ∩ second).card) ↔
        engine.validators.length % 3 = 1)) := by
  have overlap : (∀ first second : Finset AccountId,
      engine.ReachesQuorum first → engine.ReachesQuorum second → engine.f < (first ∩ second).card) ↔
      engine.validators.toFinset.card ≤ 3 * engine.f + 1 := by
    rw [← engine.reachesQuorum_overlap_iff (engine.activeAnchors_eq_nil_of_anchors noAnchors)]
    constructor
    · intro shared first second firstSubset secondSubset firstLarge secondLarge
      exact shared first second ⟨firstSubset, firstLarge⟩ ⟨secondSubset, secondLarge⟩
    · intro intersects first second firstQuorum secondQuorum
      exact intersects first second firstQuorum.1 secondQuorum.1 firstQuorum.2 secondQuorum.2
  refine ⟨overlap, ?_⟩
  intro distinct
  exact overlap.trans (engine.card_le_three_f_add_one_iff distinct)

/-- With four validators any two quorums share at least two validators. -/
theorem quorumIntersection_four :
    (new [1, 2, 3, 4] (by decide)).validators.length % 3 = 1 ∧
      ∀ first second : Finset AccountId,
        (new [1, 2, 3, 4] (by decide)).ReachesQuorum first →
        (new [1, 2, 3, 4] (by decide)).ReachesQuorum second →
          (new [1, 2, 3, 4] (by decide)).f < (first ∩ second).card :=
  ⟨by decide, ((quorumIntersection_iff (new [1, 2, 3, 4] (by decide)) rfl).2 (by decide)).mpr
    (by decide)⟩

/-- With two validators each of them is a quorum on its own. -/
theorem quorumIntersection_two_fails :
    (new [1, 2] (by decide)).ReachesQuorum {1} ∧ (new [1, 2] (by decide)).ReachesQuorum {2} ∧
      ¬ (new [1, 2] (by decide)).f < (({1} : Finset AccountId) ∩ {2}).card := by
  decide

theorem anchorQuorum_intersects (anchored : ¬ engine.Classic) :
    Quorum.Intersects engine.activeAnchors.toFinset engine.quorum
      ((engine.activeAnchors.length - 1) / 3) := by
  apply Quorum.intersects_of_lt
  rw [card_activeAnchors, quorum_of_not_classic anchored]
  omega

end ConsensusEngine

end BoingNetwork
