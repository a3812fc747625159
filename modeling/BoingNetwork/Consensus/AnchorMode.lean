import BoingNetwork.Consensus.Votes
import BoingNetwork.Primitives.Checksum

/-!
# Anchor mode

With an active anchor only the votes of active anchors count.  A commit then has
the votes of a quorum of anchors behind it, and votes of other validators have no
influence: an engine that never receives them commits at the same operations.
The comparison of the two runs is the relation `AnchorEquiv`, which ignores the
votes that do not count.
-/

namespace BoingNetwork

namespace ConsensusEngine

variable [Crypto] {validator : AccountId} {op : EngineOp} (engine : ConsensusEngine)

/-- The votes of `voter` can count toward the quorum. -/
def Counts (engine : ConsensusEngine) (voter : AccountId) : Prop :=
  engine.Classic ∨ voter ∈ engine.activeAnchors

instance (engine : ConsensusEngine) (voter : AccountId) : Decidable (engine.Counts voter) :=
  inferInstanceAs (Decidable (_ ∨ _))

def Ignored (engine : ConsensusEngine) : EngineOp → Prop
  | .vote _ validator => ¬ engine.Counts validator
  | _ => False

instance (engine : ConsensusEngine) : DecidablePred engine.Ignored
  | .vote _ validator => inferInstanceAs (Decidable (¬ engine.Counts validator))
  | .setAnchors _ | .setLeaderElection _ | .setValidators _ _ | .insertVrfProof _ _ _
  | .propose _ | .acceptProposal _ | .abandonProposal | .syncRound _ =>
    inferInstanceAs (Decidable False)

/-- Two engines that differ at most in votes that do not count and in the
record of the last committed voters. -/
structure AnchorEquiv (first second : ConsensusEngine) : Prop where
  validators : first.validators = second.validators
  round : first.round = second.round
  view : first.view = second.view
  pendingBlock : first.pendingBlock = second.pendingBlock
  leaderElection : first.leaderElection = second.leaderElection
  vrfProofs : first.vrfProofs = second.vrfProofs
  anchors : first.anchors = second.anchors
  votes : ∀ voter, first.Counts voter → first.votes[voter]? = second.votes[voter]?

def withVotes (engine : ConsensusEngine) (votes : Std.ExtTreeMap AccountId Hash)
    (lastCommittedVoters : List AccountId) : ConsensusEngine :=
  { engine with votes := votes, lastCommittedVoters := lastCommittedVoters }

omit [Crypto] in
theorem AnchorEquiv.eq_withVotes {first second : ConsensusEngine}
    (equiv : AnchorEquiv first second) :
    second = first.withVotes second.votes second.lastCommittedVoters := by
  obtain ⟨validators, round, view, pendingBlock, leaderElection, vrfProofs, anchors, -⟩ := equiv
  cases first
  cases second
  simp_all [withVotes]

omit [Crypto] in
theorem AnchorEquiv.of_withVotes {votes : Std.ExtTreeMap AccountId Hash}
    (lastCommittedVoters : List AccountId)
    (agree : ∀ voter, engine.Counts voter → engine.votes[voter]? = votes[voter]?) :
    AnchorEquiv engine (engine.withVotes votes lastCommittedVoters) :=
  ⟨rfl, rfl, rfl, rfl, rfl, rfl, rfl, agree⟩

section WithVotes

/-! Eligibility does not depend on the votes. -/

variable (engine : ConsensusEngine) (votes : Std.ExtTreeMap AccountId Hash)
  (last : List AccountId)

@[simp]
theorem admitsVrfProof_withVotes :
    (engine.withVotes votes last).admitsVrfProof = engine.admitsVrfProof := rfl

@[simp]
theorem validateProposalCurrentView_withVotes :
    (engine.withVotes votes last).validateProposalCurrentView =
      engine.validateProposalCurrentView := rfl

@[simp]
theorem acceptAction_withVotes :
    (engine.withVotes votes last).acceptAction = engine.acceptAction := rfl

/-- Operations other than votes act alike on engines that differ in their votes:
they clear the votes of both or keep the votes of both. -/
theorem step_withVotes (notVote : ∀ blockHash validator, op ≠ .vote blockHash validator) : ∃ last',
      ((engine.withVotes votes last).step op = (engine.step op).withVotes ∅ last' ∧
        (engine.step op).votes = ∅) ∨
      ((engine.withVotes votes last).step op = (engine.step op).withVotes votes last' ∧
        (engine.step op).votes = engine.votes ∧
        (engine.step op).activeAnchors = engine.activeAnchors) := by
  cases op with
  | setAnchors anchors => exact ⟨last, .inl ⟨rfl, rfl⟩⟩
  | setLeaderElection mode => exact ⟨last, .inr ⟨rfl, rfl, rfl⟩⟩
  | setValidators validators nonempty => exact ⟨[], .inl ⟨rfl, rfl⟩⟩
  | insertVrfProof validator round vrf =>
    refine ⟨last, .inr ?_⟩
    simp only [step, insertVrfProof, admitsVrfProof_withVotes]
    cases engine.admitsVrfProof validator round vrf <;> exact ⟨rfl, rfl, rfl⟩
  | propose block =>
    refine ⟨last, ?_⟩
    simp only [step, propose, validateProposalCurrentView_withVotes]
    cases engine.validateProposalCurrentView block with
    | error error => exact .inr ⟨rfl, rfl, rfl⟩
    | ok => exact .inl ⟨rfl, rfl⟩
  | acceptProposal block =>
    refine ⟨last, ?_⟩
    simp only [step, acceptProposal, acceptAction_withVotes]
    rcases engine.acceptAction block with error | (view | view)
    · exact .inr ⟨rfl, rfl, rfl⟩
    · exact .inr ⟨rfl, rfl, rfl⟩
    · exact .inl ⟨rfl, rfl⟩
  | vote blockHash validator => exact absurd rfl (notVote blockHash validator)
  | abandonProposal => exact ⟨last, .inl ⟨rfl, rfl⟩⟩
  | syncRound nextBlockHeight => exact ⟨[], .inl ⟨rfl, rfl⟩⟩

end WithVotes

namespace AnchorEquiv

variable {first second : ConsensusEngine} (equiv : AnchorEquiv first second)

include equiv

omit [Crypto] in
theorem activeAnchors_eq : first.activeAnchors = second.activeAnchors := by
  rw [activeAnchors, activeAnchors, equiv.anchors, equiv.validators]

omit [Crypto] in
theorem counts_iff (voter : AccountId) : first.Counts voter ↔ second.Counts voter := by
  rw [Counts, Counts, Classic, Classic, equiv.activeAnchors_eq]

theorem step_other (notVote : ∀ blockHash validator, op ≠ .vote blockHash validator) :
    AnchorEquiv (first.step op) (second.step op) := by
  rw [equiv.eq_withVotes]
  obtain ⟨last, ⟨sameStep, noVotes⟩ | ⟨sameStep, sameVotes, sameAnchors⟩⟩ :=
    step_withVotes first second.votes second.lastCommittedVoters notVote
  · rw [sameStep]
    exact of_withVotes _ last fun voter _ => by rw [noVotes]
  · rw [sameStep]
    refine of_withVotes _ last fun voter counts => ?_
    rw [sameVotes]
    apply equiv.votes voter
    rwa [Counts, Classic, sameAnchors] at counts

omit [Crypto] in
theorem recordVote (blockHash : Hash) (validator : AccountId) :
    AnchorEquiv (first.recordVote blockHash validator) (second.recordVote blockHash validator) where
  validators := equiv.validators
  round := equiv.round
  view := equiv.view
  pendingBlock := equiv.pendingBlock
  leaderElection := equiv.leaderElection
  vrfProofs := equiv.vrfProofs
  anchors := equiv.anchors
  votes voter counts := by
    have agree := equiv.votes voter counts
    simp only [ConsensusEngine.recordVote, Std.ExtTreeMap.getElem?_insert, agree]

omit [Crypto] in
theorem countedVoters_eq (want : Hash) :
    first.countedVoters want = second.countedVoters want := by
  ext voter
  rw [mem_countedVoters, mem_countedVoters]
  constructor
  · rintro ⟨recorded, counts⟩
    exact ⟨(equiv.votes voter counts).symm.trans recorded, (equiv.counts_iff voter).mp counts⟩
  · rintro ⟨recorded, counts⟩
    have countsFirst := (equiv.counts_iff voter).mpr counts
    exact ⟨(equiv.votes voter countsFirst).trans recorded, countsFirst⟩

theorem countedVotes_eq : first.countedVotes = second.countedVotes := by
  cases isPending : first.pendingBlock with
  | none => simp [countedVotes, isPending, ← equiv.pendingBlock]
  | some pending =>
    rw [countedVotes_eq_card isPending, countedVotes_eq_card (equiv.pendingBlock ▸ isPending),
      equiv.countedVoters_eq]

omit [Crypto] in
theorem commitRound (blockHash : Hash) :
    AnchorEquiv (first.commitRound blockHash) (second.commitRound blockHash) where
  validators := equiv.validators
  round := congrArg (MachineInt.wrappingAdd 64 · 1) equiv.round
  view := rfl
  pendingBlock := rfl
  leaderElection := equiv.leaderElection
  vrfProofs := equiv.vrfProofs
  anchors := equiv.anchors
  votes _ _ := rfl

theorem vote (blockHash : Hash) (counts : first.Counts validator) :
    (first.vote blockHash validator).1 = (second.vote blockHash validator).1 ∧
      AnchorEquiv (first.vote blockHash validator).2 (second.vote blockHash validator).2 := by
  have recorded := equiv.recordVote blockHash validator
  have sameQuorum : (first.recordVote blockHash validator).quorum =
      (second.recordVote blockHash validator).quorum :=
    quorum_congr recorded.validators recorded.anchors
  simp only [ConsensusEngine.vote]
  rw [equiv.validators, equiv.pendingBlock, equiv.votes validator counts, equiv.round,
    sameQuorum, recorded.countedVotes_eq]
  cases second.pendingBlock with
  | none => split_ifs <;> exact ⟨rfl, equiv⟩
  | some pending =>
    cases second.votes[validator]? with
    | some previous =>
      dsimp only
      split_ifs <;> exact ⟨rfl, equiv⟩
    | none =>
      dsimp only
      split_ifs
      · exact ⟨rfl, equiv⟩
      · exact ⟨rfl, recorded⟩
      · exact ⟨rfl, recorded.commitRound pending.hash⟩
      · exact ⟨rfl, recorded⟩

theorem ignored_vote (below : first.BelowQuorum) (blockHash : Hash)
    (ignored : ¬ first.Counts validator) :
    AnchorEquiv (first.vote blockHash validator).2 second ∧
      first.committed (.vote blockHash validator) = none := by
  have recorded : AnchorEquiv (first.recordVote blockHash validator) second :=
    { equiv with
      votes := by
        intro voter counts
        have different : validator ≠ voter := fun same => ignored (same ▸ counts)
        have agree := equiv.votes voter counts
        simpa [ConsensusEngine.recordVote, Std.ExtTreeMap.getElem?_insert, different] using agree }
  have sameCount : (first.recordVote blockHash validator).countedVotes = first.countedVotes := by
    rw [recorded.countedVotes_eq, equiv.countedVotes_eq]
  have outcome := vote_cases first blockHash validator
  rw [committed]
  generalize first.vote blockHash validator = result at outcome ⊢
  cases outcome with
  | refused error => exact ⟨equiv, rfl⟩
  | repeated => exact ⟨equiv, rfl⟩
  | wrongHash => exact ⟨recorded, rfl⟩
  | counted => exact ⟨recorded, rfl⟩
  | committed member isPending fresh same reached =>
    rw [sameCount] at reached
    exact absurd below (not_lt.mpr reached)

end AnchorEquiv

/-- Each operation of a run with the hash it commits. -/
def outcomes (engine : ConsensusEngine) : List EngineOp → List (EngineOp × Option Hash)
  | [] => []
  | op :: ops => (op, engine.committed op) :: outcomes (engine.step op) ops

/-- The outcomes of a run without its ignored votes. -/
def effectiveOutcomes (engine : ConsensusEngine) : List EngineOp → List (EngineOp × Option Hash)
  | [] => []
  | op :: ops =>
    if engine.Ignored op then effectiveOutcomes (engine.step op) ops
    else (op, engine.committed op) :: effectiveOutcomes (engine.step op) ops

theorem AnchorEquiv.step {first second : ConsensusEngine} (equiv : AnchorEquiv first second)
    (effective : ¬ first.Ignored op) : first.committed op = second.committed op ∧
      AnchorEquiv (first.step op) (second.step op) := by
  by_cases isVote : ∃ blockHash validator, op = .vote blockHash validator
  · obtain ⟨blockHash, validator, rfl⟩ := isVote
    have counts : first.Counts validator := not_not.mp effective
    obtain ⟨sameResult, after⟩ := equiv.vote blockHash counts
    exact ⟨by rw [committed, committed, sameResult], after⟩
  · have notVote : ∀ blockHash validator, op ≠ .vote blockHash validator :=
      fun blockHash validator same => isVote ⟨blockHash, validator, same⟩
    refine ⟨?_, equiv.step_other notVote⟩
    cases op with
    | vote blockHash validator => exact absurd rfl (notVote blockHash validator)
    | _ => rfl

/-- An engine that receives the operations without the ignored votes commits at
the same operations as the engine that receives all of them. -/
theorem effectiveOutcomes_eq_outcomes {first second : ConsensusEngine}
    (equiv : AnchorEquiv first second) (below : first.BelowQuorum) (ops : List EngineOp) :
    first.effectiveOutcomes ops = second.outcomes ((first.effectiveOutcomes ops).map Prod.fst) := by
  induction ops generalizing first second with
  | nil => rfl
  | cons op ops ih =>
    rw [effectiveOutcomes]
    split_ifs with ignored
    · cases op with
      | vote blockHash validator =>
        exact ih (equiv.ignored_vote below blockHash ignored).1
          (below.step _)
      | _ => exact ignored.elim
    · obtain ⟨sameCommit, after⟩ := equiv.step ignored
      rw [List.map_cons, outcomes, ← sameCommit]
      exact congrArg _ (ih after (below.step op))

omit [Crypto] in
theorem AnchorEquiv.refl : AnchorEquiv engine engine :=
  ⟨rfl, rfl, rfl, rfl, rfl, rfl, rfl, fun _ _ => rfl⟩

theorem commit_backed_by_anchors {validators : List AccountId} {nonempty : validators ≠ []}
    {ops : List EngineOp} {engine : ConsensusEngine}
    (reached : engine = Run.run step (new validators nonempty) ops) (anchored : ¬ engine.Classic)
    {blockHash result : Hash}
    (commit : engine.committed (.vote blockHash validator) = some result) :
    ∃ backing ⊆ engine.activeAnchors.toFinset, engine.quorum ≤ backing.card ∧ ∀ anchor ∈ backing,
        (engine.recordVote blockHash validator).votes[anchor]? = some result ∧
        EngineOp.vote result anchor ∈ ops ++ [.vote blockHash validator] := by
  obtain ⟨rfl, member, -, -, quorumReached⟩ := committed_vote_eq_some commit
  have cast : VotesCast (ops ++ [.vote result validator]) (engine.recordVote result validator) :=
    VotesCast.recordVote (reached ▸ run_votesCast nonempty ops) member
  refine ⟨_, ?_, quorumReached, ?_⟩
  · intro anchor backs
    obtain ⟨-, classic | active⟩ := mem_countedVoters.mp backs
    · exact absurd classic anchored
    · exact List.mem_toFinset.mpr active
  · intro anchor backs
    have recorded := (mem_countedVoters.mp backs).1
    exact ⟨recorded, (cast anchor result recorded).1⟩

/-- Commits in anchor mode, in every engine that a run reaches with `a` active
anchors: a commit is backed by `(a + (a - 1) / 3) / 2 + 1` anchors that voted for
the committed hash, two such backings share more than `(a - 1) / 3` anchors, a
vote of another validator never commits, and without these votes every further
operation has the same outcome. -/
theorem anchorMode_commits {validators : List AccountId} (nonempty : validators ≠ [])
    (ops : List EngineOp) {engine : ConsensusEngine}
    (reached : engine = Run.run step (new validators nonempty) ops)
    (anchored : engine.activeAnchors ≠ []) :
    (∀ blockHash validator result,
      engine.committed (.vote blockHash validator) = some result →
        ∃ backing ⊆ engine.activeAnchors.toFinset,
          (engine.activeAnchors.length + (engine.activeAnchors.length - 1) / 3) / 2 + 1 ≤
            backing.card ∧
          ∀ anchor ∈ backing,
            (engine.recordVote blockHash validator).votes[anchor]? = some result ∧
            EngineOp.vote result anchor ∈ ops ++ [.vote blockHash validator]) ∧
    (∀ first second : Finset AccountId,
      first ⊆ engine.activeAnchors.toFinset → second ⊆ engine.activeAnchors.toFinset →
      (engine.activeAnchors.length + (engine.activeAnchors.length - 1) / 3) / 2 + 1 ≤ first.card →
      (engine.activeAnchors.length + (engine.activeAnchors.length - 1) / 3) / 2 + 1 ≤
        second.card →
        (engine.activeAnchors.length - 1) / 3 < (first ∩ second).card) ∧
    (∀ blockHash validator, validator ∉ engine.activeAnchors →
      engine.committed (.vote blockHash validator) = none) ∧
    (∀ later, engine.effectiveOutcomes later =
      engine.outcomes ((engine.effectiveOutcomes later).map Prod.fst)) := by
  have below : engine.BelowQuorum := reached ▸ run_belowQuorum nonempty ops
  have quorumSize := quorum_of_not_classic anchored
  refine ⟨?_, ?_, ?_, ?_⟩
  · intro blockHash validator result commit
    rw [← quorumSize]
    exact commit_backed_by_anchors reached anchored commit
  · rw [← quorumSize]
    exact engine.anchorQuorum_intersects anchored
  · intro blockHash validator notActive
    have ignored : ¬ engine.Counts validator := by
      rintro (classic | active)
      · exact anchored classic
      · exact notActive active
    exact ((AnchorEquiv.refl engine).ignored_vote below blockHash ignored).2
  · exact effectiveOutcomes_eq_outcomes (AnchorEquiv.refl engine) below

end ConsensusEngine

section TwoAnchors

open Checksum ConsensusEngine

def anchoredBlock : Block := .empty ⟨0, 0, 0, 1, 0, 0, 0, none⟩

/-- Two of five validators are anchors, and one of them has voted. -/
def anchoredOps : List EngineOp :=
  [.setAnchors [2, 1], .propose anchoredBlock, .vote anchoredBlock.hash 1]

/-- The vote of the second anchor commits, and no vote of the other validators does. -/
theorem anchorMode_commits_two_anchors :
    let engine := Run.run step (new [1, 2, 3, 4, 5] (by decide)) anchoredOps
    engine.committed (.vote anchoredBlock.hash 2) = some anchoredBlock.hash ∧
      ∀ blockHash validator, validator ∉ engine.activeAnchors →
        engine.committed (.vote blockHash validator) = none :=
  ⟨by decide +kernel,
    (anchorMode_commits (by decide) anchoredOps rfl (by decide +kernel)).2.2.1⟩

end TwoAnchors

end BoingNetwork
