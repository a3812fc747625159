import BoingNetwork.Node.Handlers
import Mathlib.Logic.Relation

/-!
# What a handler can do to a node

Every handler is a sequence of elementary changes, listed in `Change`.  The list
carries the conditions under which each change occurs, so an invariant of the
node is proved once per change and holds along every handler.

`external` says which votes of other validators may be counted.  `dynamic` admits
the changes that involve no vote: blocks imported by catch-up, and a validator
set that follows the ledger.
-/

namespace BoingNetwork

open Std

variable [Crypto] {Ledger : Type} {verdict : Verdict Ledger}
  {response : Except ConsensusError (Option Hash)} {vote : ConsensusVote} {voter : AccountId}
  {draft : Option (ProposalDraft Ledger)} {proposal : PendingCommit Ledger} {newState : Ledger}

namespace ValidatorUpdate

variable (update : ValidatorUpdate) (engine : ConsensusEngine)

omit [Crypto] in
theorem apply_pendingBlock (idle : engine.pendingBlock = .none) :
    (update.apply engine).pendingBlock = .none := by
  unfold apply
  split <;> split <;> first | rfl | exact idle

end ValidatorUpdate

namespace BoingNode

section Definitions

variable (node : BoingNode Ledger) (external : ℕ → Hash → AccountId → Prop)

def Signed (round : ℕ) (blockHash : Hash) : Prop :=
  ∃ vote ∈ node.signed, vote.round = round ∧ vote.blockHash = blockHash

instance (round : ℕ) (blockHash : Hash) : Decidable (node.Signed round blockHash) :=
  inferInstanceAs (Decidable (∃ vote ∈ node.signed, _))

def Unvoted : Prop :=
  ∀ vote ∈ node.signed, vote.round ≠ node.consensus.round

instance : Decidable node.Unvoted :=
  inferInstanceAs (Decidable (∀ vote ∈ node.signed, _))

/-- A vote the node may count: admitted from outside, or signed by the node. -/
def Justified (round : ℕ) (blockHash : Hash) (voter : AccountId) : Prop :=
  external round blockHash voter ∨ voter = node.proposer ∧ node.Signed round blockHash

def Buffers (earlyVotes : ExtTreeMap (ℕ × Hash) (List AccountId)) : Prop :=
  ∀ round blockHash voters, earlyVotes[(round, blockHash)]? = some voters →
    ∀ voter ∈ voters, node.Justified external round blockHash voter

/-- The engine is in the round of the next block; the round of a commit may wrap. -/
def AtTip : Prop := node.consensus.round = node.chain.height + 1

structure Coherent : Prop where
  round : node.consensus.pendingBlock.isSome → node.AtTip
  pending : node.consensus.pendingBlock.map Block.hash =
    node.pendingCommit.map fun pending => pending.block.hash
  chains : ∀ pending ∈ node.pendingCommit, node.chain.Chains pending.block
  early : node.Buffers external node.earlyVotes
  keyless : node.validatorSigningKey = none →
    ∀ round blockHash, external round blockHash node.proposer

inductive Change (dynamic : Prop) (node : BoingNode Ledger) : BoingNode Ledger → Prop where
  | noted (observedVotes : ExtTreeMap (ℕ × AccountId) ConsensusVote)
      (evidence : List EquivocationEvidence) :
      Change dynamic node { node with observedVotes := observedVotes, evidence := evidence }
  | buffered (earlyVotes : ExtTreeMap (ℕ × Hash) (List AccountId))
      (justified : node.Buffers external earlyVotes) :
      Change dynamic node { node with earlyVotes := earlyVotes }
  | vrfStored (vrfProofs : ExtTreeMap ℕ (ExtTreeMap AccountId VrfOutput)) :
      Change dynamic node { node with consensus := { node.consensus with vrfProofs := vrfProofs } }
  | entered (pending : PendingCommit Ledger) (view : ℕ) (proposals : List Block)
      (atTip : node.AtTip) (chains : node.chain.Chains pending.block) :
      Change dynamic node { node with
        consensus := node.consensus.enterView view pending.block
        proposals := proposals
        pendingCommit := some pending }
  | reaffirmed (pending : PendingCommit Ledger) (view : ℕ)
      (same : node.consensus.pendingBlock.map Block.hash = some pending.block.hash)
      (chains : node.chain.Chains pending.block) :
      Change dynamic node { node with
        consensus := { node.consensus with view := view }
        pendingCommit := some pending }
  | released (atTip : node.AtTip) (unvoted : node.Unvoted) :
      Change dynamic node { node with lastLocalVoteRound := none }
  | votedLocally (signed : List ConsensusVote) (atTip : node.AtTip)
      (unguarded : node.lastLocalVoteRound ≠ some node.consensus.round)
      (log : signed = node.signed ∨ ∃ vote : ConsensusVote,
        vote.round = node.consensus.round ∧ signed = node.signed ++ [vote]) :
      Change dynamic node { node with
        lastLocalVoteRound := some node.consensus.round
        signed := signed }
  | cast (blockHash : Hash) (voter : AccountId)
      (member : voter ∈ node.consensus.validators)
      (justified : node.Justified external node.consensus.round blockHash voter) :
      Change dynamic node { node with consensus := node.consensus.recordVote blockHash voter }
  | committed (pending : PendingCommit Ledger) (voter : AccountId) (update : ValidatorUpdate)
      (static : update = .none ∨ dynamic)
      (isPending : node.pendingCommit = some pending)
      (member : voter ∈ node.consensus.validators)
      (justified : node.Justified external node.consensus.round pending.block.hash voter)
      (reached : node.consensus.quorum ≤
        ((node.consensus.recordVote pending.block.hash voter).countedVoters
          pending.block.hash).card) :
      Change dynamic node
        ({ node with
          consensus := (node.consensus.recordVote pending.block.hash voter).commitRound
            pending.block.hash }.afterCommit (node.chain.extend pending.block) pending update)
  | abandoned :
      Change dynamic node { node with
        pendingCommit := none
        consensus := node.consensus.abandonProposal }
  | caughtUp (block : Block) (state : Ledger) (update : ValidatorUpdate)
      (writes : List (DiskWrite Ledger)) (imports : dynamic) (chains : node.chain.Chains block) :
      Change dynamic node { node with
        chain := node.chain.extend block
        state := state
        consensus := update.apply (node.consensus.syncRound (block.header.height + 1))
        pendingCommit := none
        writes := writes }

def Changes (dynamic : Prop) : BoingNode Ledger → BoingNode Ledger → Prop :=
  Relation.ReflTransGen (Change external dynamic)

end Definitions

variable {node next : BoingNode Ledger} {external : ℕ → Hash → AccountId → Prop} {dynamic : Prop}

variable {update : ValidatorUpdate} {blockHash : Hash} {consensus : ConsensusEngine}
  {earlyVotes : ExtTreeMap (ℕ × Hash) (List AccountId)} {block : Block}
  {anchorFallback elapsed : Bool} {round : ℕ}

theorem Signed.append (signed : node.Signed round blockHash) (sublist : node.signed ⊆ next.signed) :
    next.Signed round blockHash := by
  obtain ⟨vote, member, isVote⟩ := signed
  exact ⟨vote, sublist member, isVote⟩

theorem Justified.mono (justified : node.Justified external round blockHash voter)
    (identity : next.proposer = node.proposer) (sublist : node.signed ⊆ next.signed) :
    next.Justified external round blockHash voter := by
  refine justified.imp id fun own => ⟨?_, own.2.append sublist⟩
  rw [identity]
  exact own.1

section

variable (change : Change external dynamic node next)

include change

theorem Change.localValidator : next.localValidator = node.localValidator := by
  cases change <;> rfl

theorem Change.proposer : next.proposer = node.proposer :=
  congrArg LocalValidator.account change.localValidator

theorem Change.signed_subset : node.signed ⊆ next.signed := by
  cases change with
  | votedLocally signed atTip unguarded log =>
    rcases log with rfl | ⟨vote, -, rfl⟩
    · exact List.Subset.refl _
    · exact List.subset_append_left _ _
  | _ => exact List.Subset.refl _

end

section

variable (buffers : node.Buffers external earlyVotes)

include buffers

theorem Buffers.mono (identity : next.proposer = node.proposer)
    (sublist : node.signed ⊆ next.signed) : next.Buffers external earlyVotes :=
  fun round blockHash voters buffered voter member =>
    (buffers round blockHash voters buffered voter member).mono identity sublist

theorem Buffers.filter (keep : ℕ × Hash → List AccountId → Bool) :
    node.Buffers external (earlyVotes.filter keep) := by
  intro round blockHash voters buffered
  rw [ExtTreeMap.getElem?_filter', Option.filter_eq_some_iff] at buffered
  exact buffers round blockHash voters buffered.1

theorem Buffers.erase (key : ℕ × Hash) : node.Buffers external (earlyVotes.erase key) := by
  intro round blockHash voters buffered
  rw [ExtTreeMap.getElem?_erase] at buffered
  split at buffered
  next => contradiction
  next => exact buffers round blockHash voters buffered

theorem Buffers.push
    (justified : node.Justified external vote.round vote.blockHash vote.validator) :
    node.Buffers external (pushEarlyVote earlyVotes vote) := by
  intro round blockHash voters buffered voter member
  rw [pushEarlyVote, ExtTreeMap.getElem?_insert] at buffered
  split at buffered
  next same =>
    obtain ⟨rfl, rfl⟩ := Prod.mk.inj (LawfulEqCmp.eq_of_compare same)
    cases buffered
    rcases List.mem_append.mp member with earlier | latest
    · cases known : earlyVotes[(vote.round, vote.blockHash)]? with
      | none => simp [known] at earlier
      | some voters =>
        rw [known] at earlier
        exact buffers _ _ voters known voter earlier
    · rw [List.mem_singleton.mp latest]
      exact justified
  next => exact buffers round blockHash voters buffered voter member

end

theorem Coherent.atTip (coherent : node.Coherent external)
    (isPending : node.pendingCommit.isSome) : node.AtTip := by
  apply coherent.round
  rwa [← Option.isSome_map, coherent.pending, Option.isSome_map]

theorem Change.coherent (coherent : node.Coherent external)
    (change : Change external dynamic node next) : next.Coherent external := by
  have identity := change.proposer
  have early := coherent.early.mono identity change.signed_subset
  have keyless : next.validatorSigningKey = none →
      ∀ round blockHash, external round blockHash next.proposer := by
    unfold BoingNode.validatorSigningKey BoingNode.proposer
    rw [change.localValidator]
    exact coherent.keyless
  cases change with
  | noted | vrfStored | released | votedLocally | cast =>
    exact ⟨coherent.round, coherent.pending, coherent.chains, early, keyless⟩
  | buffered earlyVotes justified =>
    exact ⟨coherent.round, coherent.pending, coherent.chains, justified, keyless⟩
  | entered pending view proposals atTip chains =>
    refine ⟨fun _ => atTip, rfl, ?_, early, keyless⟩
    intro entered isEntered
    cases isEntered
    exact chains
  | reaffirmed pending view same chains =>
    refine ⟨coherent.round, same, ?_, early, keyless⟩
    intro reaffirmed isReaffirmed
    cases isReaffirmed
    exact chains
  | committed pending voter update static isPending member justified reached =>
    have idle := update.apply_pendingBlock
      ((node.consensus.recordVote pending.block.hash voter).commitRound pending.block.hash) rfl
    exact ⟨fun isSome => by simp [afterCommit, idle] at isSome, by simp [afterCommit, idle],
      by simp [afterCommit], early.filter _, keyless⟩
  | abandoned =>
    exact ⟨fun isSome => absurd isSome Bool.false_ne_true, rfl, by simp, early, keyless⟩
  | caughtUp block state update writes imports chains =>
    have idle := update.apply_pendingBlock (node.consensus.syncRound (block.header.height + 1)) rfl
    exact ⟨fun isSome => by simp [idle] at isSome, by simp [idle], by simp, early, keyless⟩

theorem Changes.coherent (coherent : node.Coherent external)
    (changes : Changes external dynamic node next) : next.Coherent external := by
  induction changes with
  | refl => exact coherent
  | tail _ change ih => exact change.coherent ih

theorem Changes.localValidator (changes : Changes external dynamic node next) :
    next.localValidator = node.localValidator := by
  induction changes with
  | refl => rfl
  | tail _ change ih => exact change.localValidator.trans ih

theorem Changes.signed_subset (changes : Changes external dynamic node next) :
    node.signed ⊆ next.signed := by
  induction changes with
  | refl => exact List.Subset.refl _
  | tail _ change ih =>
    exact List.Subset.trans ih change.signed_subset

/-! ## Votes -/

theorem vote_changes (justified : node.Justified external node.consensus.round blockHash voter)
    (voted : node.consensus.vote blockHash voter = (response, consensus))
    (noQuorum : ∀ hash, response ≠ .ok (some hash)) :
    Changes external dynamic node { node with consensus := consensus } := by
  have outcome := node.consensus.vote_cases blockHash voter
  rw [voted] at outcome
  cases outcome with
  | refused error => exact .refl
  | repeated => exact .refl
  | wrongHash error member => exact .single (.cast blockHash voter member justified)
  | counted member => exact .single (.cast blockHash voter member justified)
  | committed => exact absurd rfl (noQuorum blockHash)

theorem commitOnQuorum_of_pending {pending : PendingCommit Ledger}
    (isPending : node.pendingCommit = some pending) (chains : node.chain.Chains pending.block)
    (consensus : ConsensusEngine) (update : ValidatorUpdate) :
    ({ node with consensus := consensus }.commitOnQuorum pending.block.hash update).2 =
      { node with consensus := consensus }.afterCommit
        (node.chain.extend pending.block) pending update := by
  simp [commitOnQuorum, isPending, commitPending, ChainState.append_of_chains chains, afterCommit]

theorem vote_commits {voter hash : Hash} (coherent : node.Coherent external)
    (justified : node.Justified external node.consensus.round blockHash voter)
    (voted : node.consensus.vote blockHash voter = (.ok (some hash), consensus))
    (static : update = .none ∨ dynamic) : Changes external dynamic node
      ({ node with consensus := consensus }.commitOnQuorum hash update).2 := by
  have outcome := node.consensus.vote_cases blockHash voter
  rw [voted] at outcome
  cases outcome with
  | @committed engineBlock member engineHas fresh same reached =>
    obtain ⟨pending, isPending, pendingHash⟩ :
        ∃ pending, node.pendingCommit = some pending ∧ pending.block.hash = blockHash := by
      have agree := coherent.pending
      rw [engineHas, Option.map_some, same] at agree
      simpa using agree.symm
    subst pendingHash
    have stillPending : (node.consensus.recordVote pending.block.hash voter).pendingBlock =
        some engineBlock := engineHas
    rw [ConsensusEngine.countedVotes_eq_card stillPending, same] at reached
    rw [commitOnQuorum_of_pending isPending (coherent.chains pending isPending)]
    exact .single (.committed pending voter update static isPending member justified reached)

/-- Signing touches the guard and the logs of votes only. -/
theorem signVote_consensus (node : BoingNode Ledger) (consensus : ConsensusEngine) (round : ℕ)
    (blockHash : Hash) :
    { node with consensus := consensus }.signVote round blockHash =
      { node.signVote round blockHash with consensus := consensus } := by
  simp only [signVote]
  cases node.validatorSigningKey <;> rfl

theorem signVote_engine (node : BoingNode Ledger) (round : ℕ) (blockHash : Hash) :
    (node.signVote round blockHash).consensus = node.consensus := by
  simp only [signVote]
  cases node.validatorSigningKey <;> rfl

/-- The guard is set and the vote signed before it is counted: the engine is not
involved, so the order does not matter. -/
theorem signVote_changes (atTip : node.AtTip)
    (unguarded : node.lastLocalVoteRound ≠ some node.consensus.round) (blockHash : Hash) :
    Changes external dynamic node (node.signVote node.consensus.round blockHash) := by
  simp only [signVote]
  rcases Option.eq_none_or_eq_some node.validatorSigningKey with noKey | ⟨key, isKey⟩
  · rw [noKey]
    exact .single (.votedLocally node.signed atTip unguarded (.inl rfl))
  · rw [isKey]
    exact .tail (.single (.votedLocally _ atTip unguarded (.inr ⟨_, rfl, rfl⟩)))
      (.noted _ _)

theorem signVote_justified (coherent : node.Coherent external) (round : ℕ) (blockHash : Hash) :
    (node.signVote round blockHash).Justified external round blockHash node.proposer := by
  simp only [signVote]
  rcases Option.eq_none_or_eq_some node.validatorSigningKey with noKey | ⟨key, isKey⟩
  · exact .inl (coherent.keyless noKey round blockHash)
  · rw [isKey]
    exact .inr ⟨rfl, _, List.mem_append_right _ (List.mem_singleton_self _), rfl, rfl⟩

theorem voteLocally_changes (coherent : node.Coherent external)
    (isPending : node.consensus.pendingBlock.map Block.hash = some blockHash)
    (static : update = .none ∨ dynamic) :
    Changes external dynamic node (node.voteLocallyAndMaybeBroadcast blockHash update).2 := by
  have atTip : node.AtTip := coherent.round (by rw [← Option.isSome_map, isPending]; rfl)
  simp only [voteLocallyAndMaybeBroadcast]
  split
  next => exact .refl
  next =>
    split
    next => exact .refl
    next unguarded =>
      split
      next error consensus voted =>
        have outcome := node.consensus.vote_cases blockHash node.proposer
        rw [voted] at outcome
        cases outcome with
        | refused => exact .refl
        | wrongHash error member engineHas fresh different =>
          rw [engineHas] at isPending
          exact absurd (Option.some.inj isPending) different
      next committed consensus voted =>
        obtain ⟨signed, isSigned⟩ : ∃ signed, signed =
            node.signVote node.consensus.round blockHash := ⟨_, rfl⟩
        have signing : Changes external dynamic node signed :=
          isSigned ▸ signVote_changes atTip unguarded blockHash
        have engine : signed.consensus = node.consensus := isSigned ▸ signVote_engine _ _ _
        have justified : signed.Justified external signed.consensus.round blockHash
            node.proposer := by
          rw [engine, isSigned]
          exact signVote_justified coherent _ _
        rw [← engine] at voted
        rw [signVote_consensus, ← isSigned]
        cases committed with
        | none => exact signing.trans (vote_changes justified voted (by simp))
        | some hash =>
          exact signing.trans (vote_commits (signing.coherent coherent) justified voted static)

theorem vote_round {engine : ConsensusEngine}
    (voted : engine.vote blockHash voter = (response, consensus))
    (noQuorum : ∀ hash, response ≠ .ok (some hash)) : consensus.round = engine.round := by
  have outcome := engine.vote_cases blockHash voter
  rw [voted] at outcome
  cases outcome with
  | committed => exact absurd rfl (noQuorum blockHash)
  | _ => rfl

theorem applyEarlyVoters_changes (static : update = .none ∨ dynamic) (voters : List AccountId)
    (node : BoingNode Ledger) (coherent : node.Coherent external)
    (justified : ∀ voter ∈ voters, node.Justified external node.consensus.round blockHash voter) :
    Changes external dynamic node (applyEarlyVoters blockHash update node voters).2 := by
  induction voters generalizing node with
  | nil => exact .refl
  | cons voter voters ih =>
    rw [applyEarlyVoters]
    split
    next hash consensus voted =>
      exact vote_commits coherent (justified voter List.mem_cons_self) voted static
    next response consensus noQuorum voted =>
      have counted : Changes external dynamic node { node with consensus := consensus } :=
        vote_changes (justified voter List.mem_cons_self) voted noQuorum
      refine counted.trans (ih _ (counted.coherent coherent) ?_)
      intro later member
      rw [vote_round voted noQuorum]
      exact justified later (List.mem_cons_of_mem _ member)

theorem drainEarlyVotes_changes (coherent : node.Coherent external)
    (static : update = .none ∨ dynamic) (blockHash : Hash) :
    Changes external dynamic node (node.drainEarlyVotesForPending blockHash update).2 := by
  have erased : Change external dynamic node { node with
      earlyVotes := node.earlyVotes.erase (node.consensus.round, blockHash) } :=
    .buffered _ (coherent.early.erase _)
  refine .trans (.single erased)
    (applyEarlyVoters_changes static _ _ (erased.coherent coherent) ?_)
  intro voter member
  cases buffered : node.earlyVotes[(node.consensus.round, blockHash)]? with
  | none => simp [buffered] at member
  | some voters =>
    rw [buffered] at member
    exact coherent.early _ _ voters buffered voter member

theorem bufferEarlyVote_changes (coherent : node.Coherent external)
    (justified : node.Justified external vote.round vote.blockHash vote.validator) :
    Changes external dynamic node (node.bufferEarlyVote vote) := by
  have pruned := coherent.early.filter fun key _ => decide (node.consensus.round - 64 ≤ key.1)
  simp only [bufferEarlyVote]
  split
  next => exact .refl
  next =>
    split
    next => exact .refl
    next =>
      split
      next =>
        split
        next => exact .single (.buffered _ pruned)
        next => exact .single (.buffered _ (pruned.push justified))
      next => exact .single (.buffered _ (coherent.early.push justified))

theorem onConsensusVote_changes (coherent : node.Coherent external)
    (justified : vote.verify = .ok () →
      node.Justified external vote.round vote.blockHash vote.validator)
    (static : update = .none ∨ dynamic) :
    Changes external dynamic node (node.onConsensusVote vote update).2 := by
  simp only [onConsensusVote]
  split
  next => exact .refl
  next verified =>
    split
    next => exact .refl
    next =>
      have noted : Change external dynamic node (node.noteSignedVoteAndMaybeSlash vote) :=
        .noted _ _
      have notedCoherent := noted.coherent coherent
      have notedJustified : (node.noteSignedVoteAndMaybeSlash vote).Justified external
          vote.round vote.blockHash vote.validator :=
        (justified verified).mono rfl noted.signed_subset
      split
      next =>
        split
        next => exact .trans (.single noted) (bufferEarlyVote_changes notedCoherent notedJustified)
        next => exact .single noted
      next current =>
        have sameRound : (node.noteSignedVoteAndMaybeSlash vote).consensus.round = vote.round := by
          simp only [Bool.or_eq_true, bne_iff_ne, not_or, not_not] at current
          exact current.2
        rw [← sameRound] at notedJustified
        split
        next hash consensus voted =>
          exact .trans (.single noted) (vote_commits notedCoherent notedJustified voted static)
        next response consensus noQuorum voted =>
          exact .trans (.single noted) (vote_changes notedJustified voted noQuorum)

/-! ## Blocks and timeouts -/

theorem importBlock_chains (imported : node.importBlock block verdict = .ok newState) :
    node.chain.Chains block := by
  unfold importBlock at imported
  split at imported
  next => contradiction
  next chains => simpa [chainsTo, ChainState.Chains] using chains

/-- Whether an event clears the guard against a second vote in the round: a
timeout does, and so does a block that replaces another pending block. -/
def releasesVote (node : BoingNode Ledger) : NodeEvent Ledger → Bool
  | .networkBlock block verdict _ =>
    (node.importBlock block verdict).isOk && (node.consensus.acceptProposal block).1.isOk &&
      decide (node.lastLocalVoteRound = some block.header.height) && node.pendingDiffers block
  | .tick elapsed => node.pendingCommit.isSome && elapsed
  | .produce elapsed _ _ _ => node.pendingCommit.isSome && elapsed
  | _ => false

theorem voteAndDrain_changes (coherent : node.Coherent external)
    (isPending : node.consensus.pendingBlock.map Block.hash = some blockHash)
    (static : update = .none ∨ dynamic) :
    Changes external dynamic node (node.voteAndDrain blockHash update).2 := by
  have voting : Changes external dynamic node
      (node.voteLocallyAndMaybeBroadcast blockHash update).2 :=
    voteLocally_changes coherent isPending static
  unfold voteAndDrain
  split
  next hash voted isVoted =>
    rw [isVoted] at voting
    exact voting
  next voted isVoted =>
    rw [isVoted] at voting
    exact voting.trans (drainEarlyVotes_changes (voting.coherent coherent) static blockHash)

theorem acceptProposal_changes (chains : node.chain.Chains block)
    (accepted : node.consensus.acceptProposal block = (.ok (), consensus)) :
    Changes external dynamic node { node with
      consensus := consensus
      pendingCommit := some { block := block, newState := newState } } := by
  have outcome := node.consensus.acceptProposal_cases block
  rw [accepted] at outcome
  cases outcome with
  | known view isPending same =>
    refine .single (.reaffirmed { block := block, newState := newState } view ?_ chains)
    rw [isPending, Option.map_some, same]
  | entered view height =>
    exact .single (.entered { block := block, newState := newState } view node.proposals
      (height.symm.trans chains.2) chains)

theorem handleNetworkBlock_changes (coherent : node.Coherent external)
    (remembers : node.releasesVote (.networkBlock block verdict update) → node.Unvoted)
    (static : update = .none ∨ dynamic) :
    Changes external dynamic node (node.handleNetworkBlock block verdict update).2 := by
  simp only [handleNetworkBlock]
  split
  next => exact .refl
  next newState imported =>
    split
    next error consensus refused =>
      have outcome := node.consensus.acceptProposal_cases block
      rw [refused] at outcome
      cases outcome
      exact .refl
    next consensus accepted =>
      let guard := if node.lastLocalVoteRound = some block.header.height ∧
        node.pendingDiffers block then none else node.lastLocalVoteRound
      have releasing : Changes external dynamic node { node with lastLocalVoteRound := guard } := by
        by_cases forgets : node.lastLocalVoteRound = some block.header.height ∧
          node.pendingDiffers block
        · simp only [guard, if_pos forgets]
          refine .single (.released (coherent.atTip ?_) (remembers ?_))
          · obtain ⟨pending, isPending, -⟩ := Option.any_eq_true _ _ |>.mp forgets.2
            exact Option.isSome_of_eq_some isPending
          · simp [releasesVote, imported, accepted, forgets, Except.isOk, Except.toBool]
        · simp only [guard, if_neg forgets]
          exact .refl
      have accepting : Changes external dynamic node { node with
          consensus := consensus
          lastLocalVoteRound := guard
          pendingCommit := some { block := block, newState := newState } } :=
        releasing.trans (acceptProposal_changes (importBlock_chains imported) accepted)
      have acceptedCoherent := accepting.coherent coherent
      exact accepting.trans
        (voteAndDrain_changes acceptedCoherent acceptedCoherent.pending static)

theorem importNetworkBlockCatchup_changes (imports : dynamic) :
    Changes external dynamic node (node.importNetworkBlockCatchup block verdict update).2 := by
  simp only [importNetworkBlockCatchup]
  split
  next => exact .refl
  next newState imported =>
    have chains := importBlock_chains imported
    rw [ChainState.append_of_chains chains]
    exact .single (.caughtUp block newState update _ imports chains)

theorem tickProposalTimeout_changes (coherent : node.Coherent external)
    (remembers : node.pendingCommit.isSome && elapsed → node.Unvoted) :
    Changes external dynamic node (node.tickProposalTimeout elapsed) := by
  unfold tickProposalTimeout
  split
  next expired =>
    have isPending : node.pendingCommit.isSome := (Bool.and_eq_true_iff.mp expired).1
    refine .trans (.single (.released (coherent.atTip isPending) (remembers expired)))
      (.trans (.single (.buffered _ ?_)) (.single .abandoned))
    split
    next => exact coherent.early.erase _
    next => exact coherent.early
  next => exact .refl

theorem produceProposal_chains
    (produced : node.produceProposalWithFallback anchorFallback draft = some proposal) :
    node.chain.Chains proposal.block := by
  simp only [produceProposalWithFallback] at produced
  split at produced
  next => contradiction
  next =>
    obtain ⟨_, _, rfl⟩ := Option.map_eq_some_iff.mp produced
    exact ⟨rfl, rfl⟩

theorem propose_changes (chains : node.chain.Chains proposal.block)
    (proposed : node.consensus.propose proposal.block = (.ok (), consensus)) :
    Changes external dynamic node { node with
      consensus := consensus
      proposals := node.proposals ++ [proposal.block]
      pendingCommit := some proposal } := by
  have outcome := node.consensus.propose_cases proposal.block
  rw [proposed] at outcome
  cases outcome with
  | entered height =>
    exact .single (.entered proposal node.consensus.view _ (height.symm.trans chains.2) chains)

theorem produceBlockIfReady_changes (coherent : node.Coherent external)
    (remembers : node.pendingCommit.isSome && elapsed → node.Unvoted)
    (static : update = .none ∨ dynamic) : Changes external dynamic node
      (node.produceBlockIfReady elapsed anchorFallback draft update).2 := by
  have ticking : Changes external dynamic node (node.tickProposalTimeout elapsed) :=
    tickProposalTimeout_changes coherent remembers
  simp only [produceBlockIfReady]
  split
  next => exact ticking
  next =>
    split
    next => exact ticking
    next =>
      split
      next => exact ticking
      next proposal produced =>
        split
        next error consensus refused =>
          have outcome := (node.tickProposalTimeout elapsed).consensus.propose_cases proposal.block
          rw [refused] at outcome
          cases outcome
          exact ticking
        next consensus proposed =>
          have proposing := ticking.trans
            (propose_changes (produceProposal_chains produced) proposed)
          have proposedCoherent := Changes.coherent coherent proposing
          exact proposing.trans
            (voteAndDrain_changes proposedCoherent proposedCoherent.pending static)

theorem insertVrfProof_change (validator : AccountId) (round : ℕ) (vrf : VrfOutput) :
    Changes external dynamic node
      { node with consensus := (node.consensus.insertVrfProof validator round vrf).2 } := by
  simp only [ConsensusEngine.insertVrfProof]
  cases node.consensus.admitsVrfProof validator round vrf with
  | false => exact .refl
  | true => exact .single (.vrfStored _)

/-! ## Events -/

theorem handle_changes {event : NodeEvent Ledger} (coherent : node.Coherent external)
    (justified : ∀ vote update, event = .consensusVote vote update → vote.verify = .ok () →
      node.Justified external vote.round vote.blockHash vote.validator)
    (remembers : node.releasesVote event → node.Unvoted)
    (static : event.Static ∨ dynamic) : Changes external dynamic node (node.handle event) := by
  cases event with
  | networkBlock block verdict update =>
    exact handleNetworkBlock_changes coherent remembers static
  | catchupBlock block verdict update =>
    exact importNetworkBlockCatchup_changes (static.resolve_left id)
  | consensusVote vote update =>
    exact onConsensusVote_changes coherent (justified vote update rfl) static
  | tick elapsed => exact tickProposalTimeout_changes coherent remembers
  | produce elapsed anchorFallback draft update =>
    exact produceBlockIfReady_changes coherent remembers static
  | vrfProof validator round vrf => exact insertVrfProof_change validator round vrf

end BoingNode

end BoingNetwork
