import BoingNetwork.Consensus.Steps
import BoingNetwork.Library.Run

/-!
# Votes over whole runs of the engine

Every public operation of the engine is an `EngineOp`.  In every run the counted
votes of the pending block stay below the quorum, since a vote that reaches it
commits the block and clears the votes, and every recorded vote was cast.
-/

namespace BoingNetwork

open FiniteMap

/-- The operations that change an engine. -/
inductive EngineOp where
  | setAnchors (anchors : List AccountId)
  | setLeaderElection (mode : LeaderElection)
  | setValidators (validators : List AccountId) (nonempty : validators ≠ [])
  | insertVrfProof (validator : AccountId) (round : ℕ) (vrf : VrfOutput)
  | propose (block : Block)
  | acceptProposal (block : Block)
  | vote (blockHash : Hash) (validator : AccountId)
  | abandonProposal
  | syncRound (nextBlockHeight : ℕ)

namespace ConsensusEngine

variable [Crypto]

def step (engine : ConsensusEngine) : EngineOp → ConsensusEngine
  | .setAnchors anchors => engine.setAnchors anchors
  | .setLeaderElection mode => engine.setLeaderElection mode
  | .setValidators validators nonempty => engine.setValidators validators nonempty
  | .insertVrfProof validator round vrf => (engine.insertVrfProof validator round vrf).2
  | .propose block => (engine.propose block).2
  | .acceptProposal block => (engine.acceptProposal block).2
  | .vote blockHash validator => (engine.vote blockHash validator).2
  | .abandonProposal => engine.abandonProposal
  | .syncRound nextBlockHeight => engine.syncRound nextBlockHeight

def committed (engine : ConsensusEngine) : EngineOp → Option Hash
  | .vote blockHash validator =>
    match (engine.vote blockHash validator).1 with
    | .ok result => result
    | .error _ => none
  | _ => none

variable (engine : ConsensusEngine)

/-- Validators whose recorded vote is for `want`. -/
def voters (want : Hash) : Finset AccountId :=
  keysWith engine.votes fun entry => entry.2 == want

def countedVoters (want : Hash) : Finset AccountId :=
  if engine.Classic then engine.voters want
  else (engine.voters want).filter fun voter => voter ∈ engine.activeAnchors

variable {engine} {validator voter : AccountId} {past : List EngineOp} {validators : List AccountId}
  {blockHash want : Hash}

omit [Crypto] in
@[simp]
theorem mem_voters : voter ∈ engine.voters want ↔ engine.votes[voter]? = some want := by
  simp [voters]

omit [Crypto] in
theorem mem_countedVoters : voter ∈ engine.countedVoters want ↔
      engine.votes[voter]? = some want ∧ (engine.Classic ∨ voter ∈ engine.activeAnchors) := by
  unfold countedVoters
  split <;> simp_all

theorem countedVotes_eq_card {pending : Block} (isPending : engine.pendingBlock = some pending) :
    engine.countedVotes = (engine.countedVoters pending.hash).card := by
  by_cases classic : engine.Classic
  · have noActive : engine.activeAnchors = [] := classic
    simp [countedVotes, countedVoters, isPending, classic, noActive, voters, matchingVotes,
      card_keysWith]
  · have someActive : engine.activeAnchors ≠ [] := classic
    have someAnchor : engine.anchors ≠ [] :=
      fun none => classic (engine.activeAnchors_eq_nil_of_anchors none)
    have counted : (engine.voters pending.hash).filter (fun voter => voter ∈ engine.activeAnchors) =
        keysWith engine.votes fun entry =>
          entry.2 == pending.hash && engine.activeAnchors.contains entry.1 := by
      ext voter
      simp
    simp [countedVotes, countedVoters, isPending, classic, someActive, someAnchor, matchingVotes,
      counted, card_keysWith, List.filter_filter, Bool.and_comm]

theorem countedVotes_of_votes_eq_empty (noVotes : engine.votes = ∅) : engine.countedVotes = 0 := by
  cases isPending : engine.pendingBlock with
  | none => simp [countedVotes, isPending]
  | some pending =>
    have noVoter : engine.countedVoters pending.hash = ∅ := by
      ext voter
      simp [mem_countedVoters, noVotes]
    rw [countedVotes_eq_card isPending, noVoter, Finset.card_empty]

theorem countedVotes_congr {first second : ConsensusEngine}
    (votes : first.votes = second.votes) (validators : first.validators = second.validators)
    (anchors : first.anchors = second.anchors)
    (pendingBlock : first.pendingBlock = second.pendingBlock) :
    first.countedVotes = second.countedVotes := by
  simp [countedVotes, matchingVotes, activeAnchors, votes, validators, anchors, pendingBlock]

omit [Crypto] in
theorem quorum_congr {first second : ConsensusEngine}
    (validators : first.validators = second.validators)
    (anchors : first.anchors = second.anchors) : first.quorum = second.quorum := by
  simp [quorum, f, activeAnchors, validators, anchors]

/-- Operations other than votes drop all votes, or keep the votes together with
everything that decides how they count. -/
theorem step_other (engine : ConsensusEngine) {op : EngineOp}
    (notVote : ∀ blockHash validator, op ≠ .vote blockHash validator) : (engine.step op).votes = ∅ ∨
      ((engine.step op).votes = engine.votes ∧ (engine.step op).validators = engine.validators ∧
        (engine.step op).anchors = engine.anchors ∧
        (engine.step op).pendingBlock = engine.pendingBlock) := by
  cases op with
  | setAnchors anchors => exact .inl rfl
  | setLeaderElection mode => exact .inr ⟨rfl, rfl, rfl, rfl⟩
  | setValidators validators nonempty => exact .inl rfl
  | insertVrfProof validator round vrf =>
    right
    simp only [step, insertVrfProof]
    cases engine.admitsVrfProof validator round vrf <;> exact ⟨rfl, rfl, rfl, rfl⟩
  | propose block =>
    have outcome := propose_cases engine block
    rw [step]
    generalize engine.propose block = result at outcome ⊢
    cases outcome with
    | refused error => exact .inr ⟨rfl, rfl, rfl, rfl⟩
    | entered => exact .inl rfl
  | acceptProposal block =>
    have outcome := acceptProposal_cases engine block
    rw [step]
    generalize engine.acceptProposal block = result at outcome ⊢
    cases outcome with
    | refused error => exact .inr ⟨rfl, rfl, rfl, rfl⟩
    | known view => exact .inr ⟨rfl, rfl, rfl, rfl⟩
    | entered view => exact .inl rfl
  | vote blockHash validator => exact absurd rfl (notVote blockHash validator)
  | abandonProposal => exact .inl rfl
  | syncRound nextBlockHeight => exact .inl rfl

omit [Crypto] in
theorem countedVoters_recordVote_of_ne (fresh : engine.votes[validator]? = none)
    (different : want ≠ blockHash) :
    (engine.recordVote blockHash validator).countedVoters want = engine.countedVoters want := by
  have sameVote (voter : AccountId) :
      (engine.recordVote blockHash validator).votes[voter]? = some want ↔
        engine.votes[voter]? = some want := by
    by_cases same : validator = voter
    · subst same
      simp [recordVote, fresh, different.symm]
    · simp [recordVote, Std.ExtTreeMap.getElem?_insert, same]
  ext voter
  rw [mem_countedVoters, mem_countedVoters, sameVote]
  rfl

/-- No pending block waits with its quorum already counted. -/
def BelowQuorum (engine : ConsensusEngine) : Prop := engine.countedVotes < engine.quorum

theorem belowQuorum_of_votes_eq_empty (noVotes : engine.votes = ∅) : engine.BelowQuorum := by
  rw [BelowQuorum, countedVotes_of_votes_eq_empty noVotes]
  exact engine.quorum_pos

theorem BelowQuorum.vote (below : engine.BelowQuorum) (blockHash : Hash) (validator : AccountId) :
    (engine.vote blockHash validator).2.BelowQuorum := by
  have outcome := vote_cases engine blockHash validator
  generalize engine.vote blockHash validator = result at outcome ⊢
  cases outcome with
  | refused error => exact below
  | repeated => exact below
  | @wrongHash pending error member isPending fresh different =>
    have stillPending : (engine.recordVote blockHash validator).pendingBlock = some pending :=
      isPending
    have count : (engine.recordVote blockHash validator).countedVotes = engine.countedVotes := by
      rw [countedVotes_eq_card isPending, countedVotes_eq_card stillPending,
        countedVoters_recordVote_of_ne fresh different]
    rw [BelowQuorum, count]
    exact below
  | counted member isPending fresh same below => exact below
  | committed => exact belowQuorum_of_votes_eq_empty rfl

theorem BelowQuorum.step (below : engine.BelowQuorum) (op : EngineOp) :
    (engine.step op).BelowQuorum := by
  by_cases isVote : ∃ blockHash validator, op = .vote blockHash validator
  · obtain ⟨blockHash, validator, rfl⟩ := isVote
    exact below.vote blockHash validator
  · have notVote : ∀ blockHash validator, op ≠ .vote blockHash validator :=
      fun blockHash validator same => isVote ⟨blockHash, validator, same⟩
    rcases step_other engine notVote with noVotes | ⟨votes, validators, anchors, pendingBlock⟩
    · exact belowQuorum_of_votes_eq_empty noVotes
    · rw [BelowQuorum, countedVotes_congr votes validators anchors pendingBlock,
        quorum_congr validators anchors]
      exact below

/-- Every recorded vote was cast by a validator of the current set. -/
def VotesCast (past : List EngineOp) (engine : ConsensusEngine) : Prop :=
  ∀ voter blockHash, engine.votes[voter]? = some blockHash →
    .vote blockHash voter ∈ past ∧ voter ∈ engine.validators

omit [Crypto] in
theorem votesCast_of_votes_eq_empty (noVotes : engine.votes = ∅) : VotesCast past engine := by
  intro voter blockHash recorded
  simp [noVotes] at recorded

omit [Crypto] in
theorem VotesCast.recordVote (cast : VotesCast past engine)
    (member : validator ∈ engine.validators) :
    VotesCast (past ++ [.vote blockHash validator]) (engine.recordVote blockHash validator) := by
  intro voter votedHash recorded
  by_cases same : validator = voter
  · subst same
    have sameHash : blockHash = votedHash := by
      simpa [ConsensusEngine.recordVote] using recorded
    exact ⟨by simp [sameHash], member⟩
  · have earlier : engine.votes[voter]? = some votedHash := by
      simpa [ConsensusEngine.recordVote, Std.ExtTreeMap.getElem?_insert, same] using recorded
    obtain ⟨wasCast, isMember⟩ := cast voter votedHash earlier
    exact ⟨List.mem_append_left _ wasCast, isMember⟩

theorem VotesCast.step (cast : VotesCast past engine) (op : EngineOp) :
    VotesCast (past ++ [op]) (engine.step op) := by
  have kept : VotesCast (past ++ [op]) engine := fun voter blockHash recorded =>
    ⟨List.mem_append_left _ (cast voter blockHash recorded).1, (cast voter blockHash recorded).2⟩
  by_cases isVote : ∃ blockHash validator, op = .vote blockHash validator
  · obtain ⟨blockHash, validator, rfl⟩ := isVote
    have outcome := vote_cases engine blockHash validator
    rw [ConsensusEngine.step]
    generalize engine.vote blockHash validator = result at outcome ⊢
    cases outcome with
    | refused error => exact kept
    | repeated => exact kept
    | wrongHash error member => exact cast.recordVote member
    | counted member => exact cast.recordVote member
    | committed => exact votesCast_of_votes_eq_empty rfl
  · have notVote : ∀ blockHash validator, op ≠ .vote blockHash validator :=
      fun blockHash validator same => isVote ⟨blockHash, validator, same⟩
    rcases step_other engine notVote with noVotes | ⟨votes, validators, -, -⟩
    · exact votesCast_of_votes_eq_empty noVotes
    · intro voter blockHash recorded
      rw [votes] at recorded
      rw [validators]
      exact kept voter blockHash recorded

theorem run_belowQuorum (nonempty : validators ≠ []) (ops : List EngineOp) :
    (Run.run step (new validators nonempty) ops).BelowQuorum :=
  Run.invariant_of_forall (fun _ op below => below.step op)
    (belowQuorum_of_votes_eq_empty rfl) ops

theorem run_votesCast (nonempty : validators ≠ []) (ops : List EngineOp) :
    VotesCast ops (Run.run step (new validators nonempty) ops) :=
  Run.history_invariant (votesCast_of_votes_eq_empty rfl) (fun _ _ op cast => cast.step op) ops

theorem committed_vote_eq_some {result : Hash}
    (commit : engine.committed (.vote blockHash validator) = some result) :
    result = blockHash ∧ validator ∈ engine.validators ∧
      (∃ pending, engine.pendingBlock = some pending ∧ pending.hash = blockHash) ∧
      engine.votes[validator]? = none ∧
      engine.quorum ≤ ((engine.recordVote blockHash validator).countedVoters blockHash).card := by
  have outcome := vote_cases engine blockHash validator
  obtain ⟨response, isResponse⟩ : ∃ response, engine.vote blockHash validator = response := ⟨_, rfl⟩
  rw [isResponse] at outcome
  simp only [committed, isResponse] at commit
  cases outcome with
  | refused error => simp at commit
  | repeated => simp at commit
  | wrongHash => simp at commit
  | counted => simp at commit
  | @committed pending member isPending fresh same reached =>
    have stillPending : (engine.recordVote blockHash validator).pendingBlock = some pending :=
      isPending
    rw [countedVotes_eq_card stillPending, same] at reached
    simp only [Option.some.injEq] at commit
    exact ⟨commit.symm, member, ⟨pending, isPending, same⟩, fresh, reached⟩

end ConsensusEngine

end BoingNetwork
