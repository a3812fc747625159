import BoingNetwork.Consensus.Votes
import BoingNetwork.Primitives.Checksum

/-!
# The invariant of the engine

Over every run of its operations the engine keeps its votes, its pending block and its round
together, and a commit has a quorum of votes.  Conflicting votes are found by the votes that are
recorded, so two votes of a validator in a round conflict unnoticed when the first one was
dropped in between, as a view change does, or came before a proposal.
-/

namespace BoingNetwork

namespace ConsensusEngine

variable [Crypto]

structure Consistent (engine : ConsensusEngine) : Prop where
  voters : ∀ (voter : AccountId) (blockHash : Hash), engine.votes[voter]? = some blockHash →
    voter ∈ engine.validators
  pending : ∀ (voter : AccountId) (blockHash : Hash), engine.votes[voter]? = some blockHash →
    engine.pendingBlock.isSome
  proposal : ∀ block, engine.pendingBlock = some block →
    block.header.height = engine.round ∧ block.header.proposer ∈ engine.validators

variable {engine : ConsensusEngine} {validator : AccountId} {blockHash : Hash}

omit [Crypto] in
theorem consistent_of_idle (noVotes : engine.votes = ∅) (idle : engine.pendingBlock = none) :
    engine.Consistent where
  voters voter blockHash recorded := by simp [noVotes] at recorded
  pending voter blockHash recorded := by simp [noVotes] at recorded
  proposal block isPending := by simp [idle] at isPending

omit [Crypto] in
theorem consistent_enterView {block : Block} (view : ℕ)
    (height : block.header.height = engine.round)
    (member : block.header.proposer ∈ engine.validators) :
    (engine.enterView view block).Consistent where
  voters voter blockHash recorded := by simp [enterView, enterVotingPhase] at recorded
  pending _ _ _ := rfl
  proposal other isPending := by
    cases isPending
    exact ⟨height, member⟩

omit [Crypto] in
theorem Consistent.recordVote (consistent : engine.Consistent) {pending : Block}
    (member : validator ∈ engine.validators) (isPending : engine.pendingBlock = some pending) :
    (engine.recordVote blockHash validator).Consistent where
  voters voter votedHash recorded := by
    by_cases same : validator = voter
    · exact same ▸ member
    · apply consistent.voters voter votedHash
      simpa [ConsensusEngine.recordVote, Std.ExtTreeMap.getElem?_insert, same] using recorded
  pending _ _ _ := Option.isSome_of_eq_some isPending
  proposal := consistent.proposal

theorem Consistent.step (consistent : engine.Consistent) (op : EngineOp) :
    (engine.step op).Consistent := by
  cases op with
  | setAnchors anchors =>
    exact ⟨fun _ _ recorded => by simp [ConsensusEngine.step, setAnchors] at recorded,
      fun _ _ recorded => by simp [ConsensusEngine.step, setAnchors] at recorded,
      consistent.proposal⟩
  | setLeaderElection mode => exact ⟨consistent.voters, consistent.pending, consistent.proposal⟩
  | setValidators validators nonempty => exact consistent_of_idle rfl rfl
  | insertVrfProof validator round vrf =>
    simp only [ConsensusEngine.step, insertVrfProof]
    cases engine.admitsVrfProof validator round vrf with
    | false => exact consistent
    | true => exact ⟨consistent.voters, consistent.pending, consistent.proposal⟩
  | propose block =>
    have outcome := propose_cases engine block
    rw [ConsensusEngine.step]
    generalize engine.propose block = result at outcome ⊢
    cases outcome with
    | refused error => exact consistent
    | entered height member => exact consistent_enterView engine.view height member
  | acceptProposal block =>
    have outcome := acceptProposal_cases engine block
    rw [ConsensusEngine.step]
    generalize engine.acceptProposal block = result at outcome ⊢
    cases outcome with
    | refused error => exact consistent
    | known view => exact ⟨consistent.voters, consistent.pending, consistent.proposal⟩
    | entered view height member => exact consistent_enterView view height member
  | vote blockHash validator =>
    have outcome := vote_cases engine blockHash validator
    rw [ConsensusEngine.step]
    generalize engine.vote blockHash validator = result at outcome ⊢
    cases outcome with
    | refused error => exact consistent
    | repeated => exact consistent
    | wrongHash error member isPending => exact consistent.recordVote member isPending
    | counted member isPending => exact consistent.recordVote member isPending
    | committed => exact consistent_of_idle rfl rfl
  | abandonProposal => exact consistent_of_idle rfl rfl
  | syncRound nextBlockHeight => exact consistent_of_idle rfl rfl

/-! ## Conflicting votes -/

omit [Crypto] in
theorem commitRound_round (small : engine.round + 1 < 2 ^ 64) (blockHash : Hash) :
    (engine.commitRound blockHash).round = engine.round + 1 :=
  Nat.mod_eq_of_lt small

def Reports (engine : ConsensusEngine) (blockHash : Hash) (validator : AccountId) : Prop :=
  (engine.vote blockHash validator).1 = .error (.equivocation validator engine.round)

theorem Consistent.reports (consistent : engine.Consistent) {previous : Hash}
    (recorded : engine.votes[validator]? = some previous) (differs : previous ≠ blockHash) :
    engine.Reports blockHash validator := by
  have member := consistent.voters validator previous recorded
  obtain ⟨pending, isPending⟩ :=
    Option.isSome_iff_exists.mp (consistent.pending validator previous recorded)
  unfold Reports vote
  rw [if_neg (by simpa using member), isPending]
  rw [recorded]
  exact congrArg Prod.fst (if_pos differs)

/-- The operation does not drop votes before the round ends, a validator votes on a pending
block, and the counter of rounds does not overflow. -/
def KeepsVotes (engine : ConsensusEngine) : EngineOp → Prop
  | .setLeaderElection _ | .insertVrfProof _ _ _ => True
  | .setAnchors _ | .setValidators _ _ | .abandonProposal => engine.votes.isEmpty
  | .propose block => engine.votes.isEmpty ∨ ¬ (engine.validateProposalCurrentView block).isOk
  | .acceptProposal block => engine.votes.isEmpty ∨ ¬ (engine.acceptAction block).isOk ∨
      engine.pendingBlock.map Block.hash = some block.hash
  | .vote _ validator =>
    (validator ∈ engine.validators → engine.pendingBlock.isSome) ∧ engine.round + 1 < 2 ^ 64
  | .syncRound nextBlockHeight => engine.round < nextBlockHeight ∨
      engine.round = nextBlockHeight ∧ engine.votes.isEmpty

instance (engine : ConsensusEngine) : DecidablePred engine.KeepsVotes
  | .setLeaderElection _ | .insertVrfProof _ _ _ => isTrue trivial
  | .setAnchors _ | .setValidators _ _ | .abandonProposal => inferInstanceAs (Decidable (_ = _))
  | .propose _ => inferInstanceAs (Decidable (_ ∨ _))
  | .acceptProposal _ => inferInstanceAs (Decidable (_ ∨ _))
  | .vote _ _ => inferInstanceAs (Decidable (_ ∧ _))
  | .syncRound _ => inferInstanceAs (Decidable (_ ∨ _))

/-- The round grows, or the votes stay. -/
def Retains (engine next : ConsensusEngine) : Prop :=
  engine.round < next.round ∨ next.round = engine.round ∧
    ∀ (voter : AccountId) (blockHash : Hash), engine.votes[voter]? = some blockHash →
      next.votes[voter]? = some blockHash

omit [Crypto] in
theorem retains_of_isEmpty {next : ConsensusEngine} (noVotes : engine.votes.isEmpty)
    (same : next.round = engine.round) : engine.Retains next := by
  refine .inr ⟨same, fun voter blockHash recorded => ?_⟩
  rw [Std.ExtTreeMap.isEmpty_iff.mp noVotes] at recorded
  simp at recorded

omit [Crypto] in
theorem retains_recordVote (fresh : engine.votes[validator]? = none) :
    engine.Retains (engine.recordVote blockHash validator) := by
  refine .inr ⟨rfl, fun voter votedHash recorded => ?_⟩
  have other : validator ≠ voter := by
    rintro rfl
    rw [fresh] at recorded
    cases recorded
  simpa [recordVote, Std.ExtTreeMap.getElem?_insert, other] using recorded

theorem KeepsVotes.retains {op : EngineOp} (keeps : engine.KeepsVotes op) :
    engine.Retains (engine.step op) := by
  have unchanged : engine.Retains engine := .inr ⟨rfl, fun _ _ recorded => recorded⟩
  cases op with
  | setLeaderElection mode => exact unchanged
  | insertVrfProof validator round vrf =>
    simp only [step, insertVrfProof]
    cases engine.admitsVrfProof validator round vrf <;> exact unchanged
  | setAnchors anchors | setValidators validators nonempty | abandonProposal =>
    exact retains_of_isEmpty keeps rfl
  | propose block =>
    simp only [step, propose]
    split
    next => exact unchanged
    next isValid =>
      refine retains_of_isEmpty (keeps.resolve_right (not_not.mpr ?_)) rfl
      rw [isValid]
      rfl
  | acceptProposal block =>
    have outcome := acceptProposal_cases engine block
    rw [step]
    cases accepted : engine.acceptAction block with
    | error error =>
      rw [acceptProposal, accepted]
      exact unchanged
    | ok action =>
      have isOk : (engine.acceptAction block).isOk := by rw [accepted]; rfl
      generalize engine.acceptProposal block = result at outcome ⊢
      cases outcome with
      | refused error => exact unchanged
      | known view => exact unchanged
      | entered view height member different =>
        exact retains_of_isEmpty
          (keeps.resolve_right (not_or.mpr ⟨not_not.mpr isOk, different⟩)) rfl
  | vote blockHash validator =>
    have outcome := vote_cases engine blockHash validator
    rw [step]
    generalize engine.vote blockHash validator = result at outcome ⊢
    cases outcome with
    | refused error | repeated => exact unchanged
    | wrongHash error member isPending fresh | counted member isPending fresh =>
      exact retains_recordVote fresh
    | committed =>
      exact .inl ((Nat.lt_succ_self _).trans_eq (commitRound_round keeps.2 blockHash).symm)
  | syncRound nextBlockHeight =>
    rcases keeps with later | ⟨same, noVotes⟩
    · exact .inl later
    · exact retains_of_isEmpty noVotes same.symm

/-- The vote is recorded unless the engine is past its round. -/
def Remembers (round : ℕ) (validator : AccountId) (blockHash : Hash)
    (engine : ConsensusEngine) : Prop :=
  round < engine.round ∨ engine.round = round ∧ engine.votes[validator]? = some blockHash

theorem Remembers.step {round : ℕ} (remembers : Remembers round validator blockHash engine)
    {op : EngineOp} (keeps : engine.KeepsVotes op) :
    Remembers round validator blockHash (engine.step op) := by
  rcases keeps.retains with later | ⟨same, kept⟩
  · left
    rcases remembers with past | ⟨isRound, -⟩ <;> omega
  · rcases remembers with past | ⟨isRound, recorded⟩
    · exact .inl (same ▸ past)
    · exact .inr ⟨same.trans isRound, kept validator blockHash recorded⟩

theorem reports_or_remembers (consistent : engine.Consistent)
    (member : validator ∈ engine.validators)
    (keeps : engine.KeepsVotes (.vote blockHash validator)) :
    engine.Reports blockHash validator ∨
      Remembers engine.round validator blockHash (engine.step (.vote blockHash validator)) := by
  cases recorded : engine.votes[validator]? with
  | some previous =>
    by_cases same : previous = blockHash
    · right
      refine Remembers.step (.inr ⟨rfl, ?_⟩) keeps
      rw [recorded, same]
    · exact .inl (consistent.reports recorded same)
  | none =>
    right
    obtain ⟨pending, isPending⟩ := Option.isSome_iff_exists.mp (keeps.1 member)
    have kept : (engine.recordVote blockHash validator).votes[validator]? = some blockHash := by
      simp [recordVote]
    simp only [step, vote]
    rw [if_neg (by simpa using member), isPending]
    rw [recorded]
    dsimp only
    split
    next => exact .inr ⟨rfl, kept⟩
    next =>
      split
      next =>
        exact .inl ((Nat.lt_succ_self _).trans_eq (commitRound_round keeps.2 pending.hash).symm)
      next => exact .inr ⟨rfl, kept⟩

theorem round_of_committed {result : Hash}
    (commit : engine.committed (.vote blockHash validator) = some result)
    (small : engine.round + 1 < 2 ^ 64) :
    (engine.step (.vote blockHash validator)).round = engine.round + 1 := by
  have outcome := vote_cases engine blockHash validator
  simp only [committed] at commit
  rw [step]
  generalize engine.vote blockHash validator = response at outcome commit ⊢
  cases outcome with
  | committed => exact commitRound_round small blockHash
  | _ => simp at commit

/-- In every run the engine is consistent, and a commit has a quorum of validators that voted for
the pending block and ends the round, as long as the counter does not overflow.  In every run that
keeps its votes until the round ends, of two votes of a validator for different blocks in a round
one is reported. -/
theorem run_consistent (validators : List AccountId) (nonempty : validators ≠ [])
    (ops : List EngineOp) {engine : ConsensusEngine}
    (reached : engine = Run.run step (new validators nonempty) ops) :
    engine.Consistent ∧
      (∀ blockHash validator result, engine.committed (.vote blockHash validator) = some result →
        (∃ pending, engine.pendingBlock = some pending ∧ pending.hash = result) ∧
        (∃ voters ⊆ engine.validators.toFinset, engine.quorum ≤ voters.card ∧
          ∀ voter ∈ voters,
            (engine.recordVote blockHash validator).votes[voter]? = some result) ∧
        (engine.round + 1 < 2 ^ 64 →
          (engine.step (.vote blockHash validator)).round = engine.round + 1)) ∧
      (Run.Allowed step KeepsVotes (new validators nonempty) ops →
        ∀ before between validator firstHash secondHash,
          ops = before ++ .vote firstHash validator :: between → firstHash ≠ secondHash →
          let earlier := Run.run step (new validators nonempty) before
          validator ∈ earlier.validators → earlier.round = engine.round →
            earlier.Reports firstHash validator ∨ engine.Reports secondHash validator) := by
  have consistent : ∀ ops, (Run.run step (new validators nonempty) ops).Consistent :=
    Run.invariant_of_forall (fun _ op consistent => consistent.step op) (consistent_of_idle rfl rfl)
  refine ⟨reached ▸ consistent ops, fun blockHash validator result commit => ?_, ?_⟩
  · obtain ⟨rfl, member, ⟨pending, isPending, isHash⟩, -, large⟩ := committed_vote_eq_some commit
    refine ⟨⟨pending, isPending, isHash⟩,
      ⟨_, fun voter counted => ?_, large, fun voter counted => ?_⟩, round_of_committed commit⟩
    · have recorded := (mem_countedVoters.mp counted).1
      have whole : engine.Consistent := reached ▸ consistent ops
      exact List.mem_toFinset.mpr ((whole.recordVote member isPending).voters voter _ recorded)
    · exact (mem_countedVoters.mp counted).1
  · rintro allowed before between validator firstHash secondHash rfl differ earlier member sameRound
    obtain ⟨keeps, later⟩ := allowed.append_right
    rcases reports_or_remembers (consistent before) member keeps with reported | remembered
    · exact .inl reported
    right
    have atEnd : Remembers earlier.round validator firstHash engine := by
      rw [reached, Run.run_append, Run.run_cons]
      exact Run.invariant (fun _ _ remembers keeps => remembers.step keeps) remembered later
    rcases atEnd with past | ⟨-, recorded⟩
    · omega
    · exact (reached ▸ consistent _ : engine.Consistent).reports recorded differ

end ConsensusEngine

end BoingNetwork

namespace BoingNetwork.ConsensusEngine

open Checksum

def emptyBlock (height : ℕ) (proposer : AccountId) : Block :=
  .empty ⟨0, height, 1, proposer, 0, 0, 0, none⟩

def openingBlock (proposer : AccountId) : Block := emptyBlock 0 proposer

/-- Validator 3 votes for the blocks of two views of one round, and neither vote is reported.
After the last round that the counter can hold comes round zero. -/
theorem conflict_unreported :
    let engine := Run.run step (new [1, 2, 3, 4] (by decide))
      [.propose (openingBlock 1), .vote (openingBlock 1).hash 3, .abandonProposal,
        .propose (openingBlock 2)]
    engine.round = 0 ∧ (openingBlock 1).hash ≠ (openingBlock 2).hash ∧
      (engine.vote (openingBlock 2).hash 3).1 = .ok none ∧
      let last := Run.run step (new [1] (by decide))
        [.syncRound (2 ^ 64 - 1), .propose (emptyBlock (2 ^ 64 - 1) 1)]
      (last.vote (emptyBlock (2 ^ 64 - 1) 1).hash 1).1 =
          .ok (some (emptyBlock (2 ^ 64 - 1) 1).hash) ∧
        (last.vote (emptyBlock (2 ^ 64 - 1) 1).hash 1).2.round = 0 := by
  decide +kernel

/-- In one view the vote for the pending block is reported after one for another block. -/
theorem conflict_reported :
    let engine := Run.run step (new [1, 2, 3, 4] (by decide))
      [.propose (openingBlock 1), .vote 7 3]
    engine.Reports (openingBlock 1).hash 3 := by
  intro engine
  have allowed : Run.Allowed step KeepsVotes (new [1, 2, 3, 4] (by decide))
      [.propose (openingBlock 1), .vote 7 3] := by
    decide +kernel
  have reported := (run_consistent [1, 2, 3, 4] (by decide) _ (rfl : engine = _)).2.2 allowed
    [.propose (openingBlock 1)] [] 3 7 (openingBlock 1).hash rfl (by decide +kernel)
    (by decide +kernel) (by decide +kernel)
  refine reported.resolve_left fun first => ?_
  have wrongHash : ((Run.run step (new [1, 2, 3, 4] (by decide)) [.propose (openingBlock 1)]).vote
      7 3).1 = .error (.invalidBlock "Vote for wrong block hash") := by
    decide +kernel
  rw [Reports, wrongHash] at first
  cases first

end BoingNetwork.ConsensusEngine
