import BoingNetwork.Consensus.Quorum

/-!
# What one engine operation can do

Inversion lemmas for the three operations with branches.  `propose_cases`,
`acceptProposal_cases` and `vote_cases` list the possible outcomes with what is
known when they occur; later proofs use only these lists.
-/

namespace BoingNetwork

namespace ConsensusEngine

open MachineInt

variable [Crypto] (engine : ConsensusEngine) {block : Block}

def enterView (engine : ConsensusEngine) (view : ℕ) (block : Block) : ConsensusEngine :=
  { engine with view := view }.enterVotingPhase block

omit [Crypto] in
theorem validateProposal_eq_ok {engine : ConsensusEngine} : engine.validateProposal block = .ok () ↔
      block.header.height = engine.round ∧ block.header.proposer ∈ engine.validators := by
  unfold validateProposal
  split_ifs <;> simp_all

inductive ProposeStep (engine : ConsensusEngine) (block : Block) :
    Except ConsensusError Unit × ConsensusEngine → Prop where
  | refused (error : ConsensusError) : ProposeStep engine block (.error error, engine)
  | entered
      (height : block.header.height = engine.round)
      (member : block.header.proposer ∈ engine.validators) :
      ProposeStep engine block (.ok (), engine.enterVotingPhase block)

theorem propose_cases (block : Block) : ProposeStep engine block (engine.propose block) := by
  unfold propose
  split
  next => exact .refused _
  next valid =>
    cases checked : engine.validateProposal block with
    | error error => simp [validateProposalCurrentView, checked] at valid
    | ok =>
      obtain ⟨height, member⟩ := validateProposal_eq_ok.mp checked
      exact .entered height member

inductive AcceptStep (engine : ConsensusEngine) (block : Block) :
    Except ConsensusError Unit × ConsensusEngine → Prop where
  | refused (error : ConsensusError) : AcceptStep engine block (.error error, engine)
  | known {pending : Block} (view : ℕ)
      (isPending : engine.pendingBlock = some pending)
      (same : pending.hash = block.hash) :
      AcceptStep engine block (.ok (), { engine with view := view })
  | entered (view : ℕ)
      (height : block.header.height = engine.round)
      (member : block.header.proposer ∈ engine.validators)
      (different : engine.pendingBlock.map Block.hash ≠ some block.hash) :
      AcceptStep engine block (.ok (), engine.enterView view block)

theorem acceptAction_eq_ok {engine : ConsensusEngine} {action : AcceptAction}
    (accepted : engine.acceptAction block = .ok action) :
    block.header.height = engine.round ∧ block.header.proposer ∈ engine.validators ∧ ∃ eligibleView,
        engine.earliestEligibleView engine.round block.header.proposer = some eligibleView ∧
        eligibleView ≤ saturatingAdd 64 engine.view 1 ∧
        engine.replaceAction block eligibleView = .ok action := by
  rw [acceptAction, Except.bind_eq_ok] at accepted
  obtain ⟨_, checked, accepted⟩ := accepted
  obtain ⟨height, member⟩ := validateProposal_eq_ok.mp checked
  split at accepted
  next => contradiction
  next eligibleView eligible =>
    split at accepted
    next => contradiction
    next near => exact ⟨height, member, eligibleView, eligible, not_lt.mp near, accepted⟩

theorem acceptProposal_cases (block : Block) :
    AcceptStep engine block (engine.acceptProposal block) := by
  unfold acceptProposal
  cases accepted : engine.acceptAction block with
  | error error => exact .refused error
  | ok action =>
    obtain ⟨height, member, eligibleView, -, -, replaced⟩ := acceptAction_eq_ok accepted
    rcases Option.eq_none_or_eq_some engine.pendingBlock with idle | ⟨pending, isPending⟩
    · simp only [replaceAction, idle, Except.ok.injEq] at replaced
      subst replaced
      exact .entered eligibleView height member (by simp [idle])
    · simp only [replaceAction, isPending] at replaced
      split_ifs at replaced with same later stale current supersedes
      · cases replaced
        exact .known _ isPending same
      · cases replaced
        exact .known _ isPending same
      · cases replaced
        exact .entered _ height member (by simp [isPending, same])
      · cases replaced
        exact .entered _ height member (by simp [isPending, same])

inductive VoteStep (engine : ConsensusEngine) (blockHash : Hash) (validator : AccountId) :
    Except ConsensusError (Option Hash) × ConsensusEngine → Prop where
  | refused (error : ConsensusError) :
      VoteStep engine blockHash validator (.error error, engine)
  | repeated
      (member : validator ∈ engine.validators)
      (recorded : engine.votes[validator]? = some blockHash) :
      VoteStep engine blockHash validator (.ok none, engine)
  | wrongHash {pending : Block} (error : ConsensusError)
      (member : validator ∈ engine.validators)
      (isPending : engine.pendingBlock = some pending)
      (fresh : engine.votes[validator]? = none)
      (different : pending.hash ≠ blockHash) :
      VoteStep engine blockHash validator (.error error, engine.recordVote blockHash validator)
  | counted {pending : Block}
      (member : validator ∈ engine.validators)
      (isPending : engine.pendingBlock = some pending)
      (fresh : engine.votes[validator]? = none)
      (same : pending.hash = blockHash)
      (below : (engine.recordVote blockHash validator).countedVotes <
        (engine.recordVote blockHash validator).quorum) :
      VoteStep engine blockHash validator (.ok none, engine.recordVote blockHash validator)
  | committed {pending : Block}
      (member : validator ∈ engine.validators)
      (isPending : engine.pendingBlock = some pending)
      (fresh : engine.votes[validator]? = none)
      (same : pending.hash = blockHash)
      (reached : (engine.recordVote blockHash validator).quorum ≤
        (engine.recordVote blockHash validator).countedVotes) :
      VoteStep engine blockHash validator
        (.ok (some blockHash), (engine.recordVote blockHash validator).commitRound blockHash)

theorem vote_cases (blockHash : Hash) (validator : AccountId) :
    VoteStep engine blockHash validator (engine.vote blockHash validator) := by
  unfold vote
  split
  next => exact .refused _
  next member =>
    have isMember : validator ∈ engine.validators := by simpa using member
    split
    next => exact .refused _
    next pending isPending =>
      split
      next previous recorded =>
        split
        next => exact .refused _
        next same => exact .repeated isMember (by rw [recorded, not_not.mp same])
      next fresh =>
        simp only
        split
        next different => exact .wrongHash _ isMember isPending fresh different
        next same =>
          have sameHash : pending.hash = blockHash := not_not.mp same
          split
          next reached =>
            rw [sameHash]
            exact .committed isMember isPending fresh sameHash reached
          next below => exact .counted isMember isPending fresh sameHash (not_le.mp below)

end ConsensusEngine

end BoingNetwork
