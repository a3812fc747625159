import BoingNetwork.Consensus.Steps
import BoingNetwork.Primitives.Checksum

/-!
# The search for the view of a proposal

A follower does not know in which view a proposer became eligible.  It walks the
views from its own one on, for two rotations of the validator list, and takes the
first in which the proposer may propose.  The search visits the views in order, so
its result is the least one, also where the view counter saturates.
-/

namespace BoingNetwork.ConsensusEngine

open MachineInt

theorem first_of_findSome?_range {α : Type*} {search : ℕ → Option α} {bound : ℕ} {result : α}
    (isFound : (List.range bound).findSome? search = some result) :
    ∃ first < bound, search first = some result ∧ ∀ earlier < first, search earlier = none := by
  induction bound with
  | zero => simp at isFound
  | succ bound ih =>
    rw [List.range_succ, List.findSome?_append] at isFound
    cases foundBefore : (List.range bound).findSome? search with
    | some before =>
      rw [foundBefore, Option.some_or] at isFound
      obtain ⟨first, inRange, isFirst⟩ := ih (foundBefore.trans isFound)
      exact ⟨first, by omega, isFirst⟩
    | none =>
      rw [foundBefore, Option.none_or, List.findSome?_singleton] at isFound
      rw [List.findSome?_eq_none_iff] at foundBefore
      exact ⟨bound, by omega, isFound,
        fun earlier isEarlier => foundBefore earlier (List.mem_range.mpr isEarlier)⟩

section

variable [Crypto] {engine : ConsensusEngine} {who : AccountId}

theorem least_of_earliestEligibleView {round found : ℕ} (inRange : engine.view ≤ maxValue 64)
    (isFound : engine.earliestEligibleView round who = some found) :
    engine.view ≤ found ∧ engine.mayProposeAt round found who = true ∧
      ∀ earlier, engine.view ≤ earlier → earlier < found →
        engine.mayProposeAt round earlier who = false := by
  unfold earliestEligibleView at isFound
  split_ifs at isFound
  obtain ⟨delta, _, taken, passed⟩ := first_of_findSome?_range isFound
  obtain ⟨eligible, isView⟩ := Option.ite_none_right_eq_some.mp taken
  cases isView
  have isMin : saturatingAdd 64 engine.view delta = min (engine.view + delta) (maxValue 64) := rfl
  refine ⟨by omega, eligible, fun earlier fromView isEarlier => ?_⟩
  have missed := passed (earlier - engine.view) (by omega)
  have visited : saturatingAdd 64 engine.view (earlier - engine.view) = earlier := by
    rw [saturatingAdd_of_le (by omega)]
    omega
  rw [visited] at missed
  simpa using missed

theorem earliestEligibleView_of_mayProposeAt {round eligibleView : ℕ}
    (inRange : engine.view + 2 * engine.validators.length < 2 ^ 64)
    (fromView : engine.view ≤ eligibleView)
    (inRotation : eligibleView < engine.view + engine.validators.length)
    (eligible : engine.mayProposeAt round eligibleView who = true) :
    ∃ found ≤ eligibleView, engine.earliestEligibleView round who = some found := by
  have member : engine.validators.contains who = true := (Bool.and_eq_true_iff.mp eligible).1
  have visited : saturatingAdd 64 engine.view (eligibleView - engine.view) = eligibleView := by
    rw [saturatingAdd_of_le (by rw [maxValue]; omega)]
    omega
  cases isFound : engine.earliestEligibleView round who with
  | some found =>
    obtain ⟨_, _, least⟩ := least_of_earliestEligibleView (by rw [maxValue]; omega) isFound
    refine ⟨found, ?_, rfl⟩
    by_contra isLater
    exact Bool.false_ne_true ((least eligibleView fromView (by omega)).symm.trans eligible)
  | none =>
    rw [earliestEligibleView, if_pos member, List.findSome?_eq_none_iff] at isFound
    have missed := isFound (eligibleView - engine.view) (List.mem_range.mpr (by
      rw [saturatingMul, maxValue]
      omega))
    simp [visited, eligible] at missed

theorem view_of_acceptProposal (inRange : engine.view ≤ maxValue 64) (block : Block) :
    ((engine.acceptProposal block).1 = .ok () →
      ∃ found, engine.earliestEligibleView engine.round block.header.proposer = some found ∧
        found ≤ engine.view + 1 ∧ (engine.acceptProposal block).2.view = found) ∧
      ∀ error, (engine.acceptProposal block).1 = .error error →
        (engine.acceptProposal block).2 = engine := by
  unfold acceptProposal
  cases accepted : engine.acceptAction block with
  | error error => simp
  | ok action =>
    obtain ⟨_, _, found, isFound, near, replaced⟩ := acceptAction_eq_ok accepted
    obtain ⟨fromView, _, _⟩ := least_of_earliestEligibleView inRange isFound
    have lookAhead : found ≤ engine.view + 1 := near.trans (saturatingAdd_le_add 64 _ _)
    have isView : action = .keepPending found ∨ action = .enterVotingPhase found := by
      unfold replaceAction at replaced
      split at replaced
      next => exact .inr (by cases replaced; rfl)
      next =>
        split_ifs at replaced with same later stale current supersedes
        · exact .inl (by cases replaced; rfl)
        · exact .inl (by cases replaced; rw [AcceptAction.keepPending.injEq]; omega)
        · exact .inr (by cases replaced; rw [current])
        · exact .inr (by cases replaced; rfl)
    rcases isView with rfl | rfl
    · simp [isFound, lookAhead]
    · simp [isFound, lookAhead, enterVotingPhase]

/-- The search finds the least eligible view whenever there is one within a
rotation, and a proposal moves a follower to that view, at most one ahead of its
own; a refused proposal changes nothing. -/
theorem view_search_exact (engine : ConsensusEngine)
    (inRange : engine.view + 2 * engine.validators.length < 2 ^ 64) (round : ℕ)
    (who : AccountId) :
    (∀ eligibleView, engine.view ≤ eligibleView →
      eligibleView < engine.view + engine.validators.length →
      engine.mayProposeAt round eligibleView who = true →
      ∃ found ≤ eligibleView, engine.earliestEligibleView round who = some found) ∧
    (∀ found, engine.earliestEligibleView round who = some found →
      engine.view ≤ found ∧ engine.mayProposeAt round found who = true ∧
        ∀ earlier, engine.view ≤ earlier → earlier < found →
          engine.mayProposeAt round earlier who = false) ∧
    ∀ block : Block,
      ((engine.acceptProposal block).1 = .ok () →
        ∃ found, engine.earliestEligibleView engine.round block.header.proposer = some found ∧
          found ≤ engine.view + 1 ∧ (engine.acceptProposal block).2.view = found) ∧
        ∀ error, (engine.acceptProposal block).1 = .error error →
          (engine.acceptProposal block).2 = engine := by
  have counted : engine.view ≤ maxValue 64 := by
    rw [maxValue]
    omega
  exact ⟨fun _ fromView inRotation eligible =>
      earliestEligibleView_of_mayProposeAt inRange fromView inRotation eligible,
    fun _ isFound => least_of_earliestEligibleView counted isFound, view_of_acceptProposal counted⟩

end

open Checksum

/-- Among four validators the third one proposes two views later. -/
theorem view_search_exact_third :
    let engine := new [1, 2, 3, 4] (by decide)
    engine.earliestEligibleView 0 3 = some 2 ∧ engine.mayProposeAt 0 2 3 = true ∧
      engine.mayProposeAt 0 1 3 = false := by
  intro engine
  have isFound : engine.earliestEligibleView 0 3 = some 2 := by decide
  obtain ⟨_, least, _⟩ := view_search_exact engine (by decide) 0 3
  obtain ⟨_, eligible, earlier⟩ := least 2 isFound
  exact ⟨isFound, eligible, earlier 1 (by decide) (by decide)⟩

end BoingNetwork.ConsensusEngine
