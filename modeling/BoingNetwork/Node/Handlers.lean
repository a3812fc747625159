import BoingNetwork.Node.Basic

/-!
# The consensus handlers of a node

Blocks and votes from the network, proposal timeouts, local proposals and
catch-up imports.  Heights and rounds are natural numbers; the clock enters as a
flag that says whether the pending proposal has timed out.
-/

namespace BoingNetwork

variable [Crypto] {Ledger : Type}

namespace BoingNode

variable (node : BoingNode Ledger)

def conflictingEvidence (vote : ConsensusVote) : Option EquivocationEvidence :=
  match node.observedVotes[(vote.round, vote.validator)]? with
  | some previous =>
    if previous.blockHash ≠ vote.blockHash then
      (EquivocationEvidence.tryFromVotes previous vote).toOption
    else none
  | none => none

def noteSignedVoteAndMaybeSlash (vote : ConsensusVote) : BoingNode Ledger :=
  { node with
    evidence := node.evidence ++ (node.conflictingEvidence vote).toList
    observedVotes := node.observedVotes.insertIfNew (vote.round, vote.validator) vote }

def persistBlockAndState (block : Block) (state : Ledger) : List (DiskWrite Ledger) :=
  [.block block, .chainMeta block.header.height block.hash, .state state]

def afterCommit (chain : ChainState) (pending : PendingCommit Ledger)
    (update : ValidatorUpdate) : BoingNode Ledger :=
  let keepFrom := pending.block.header.height - 64
  let observed := node.observedVotes.filter fun key _ => decide (keepFrom ≤ key.1)
  let savedRound := match node.lastLocalVoteRound with
    | some round => [.lastLocalVoteRound round]
    | none => []
  { node with
    chain := chain
    state := pending.newState
    pendingCommit := none
    earlyVotes := node.earlyVotes.filter fun key _ => decide (keepFrom ≤ key.1)
    observedVotes := observed
    consensus := update.apply node.consensus
    writes := node.writes ++ persistBlockAndState pending.block pending.newState ++
      savedRound ++ [.observedVotes observed] }

def commitPending (pending : PendingCommit Ledger) (update : ValidatorUpdate) :
    Hash × BoingNode Ledger :=
  match node.chain.append pending.block with
  | .error _ => (Hash.ZERO, { node with pendingCommit := some pending })
  | .ok chain => (pending.block.hash, node.afterCommit chain pending update)

def commitOnQuorum (committed : Hash) (update : ValidatorUpdate) :
    Option Hash × BoingNode Ledger :=
  match node.pendingCommit with
  | none => (none, node)
  | some pending =>
    if pending.block.hash = committed then
      let (hash, node) := { node with pendingCommit := none }.commitPending pending update
      (some hash, node)
    else (none, node)

def signVote (round : ℕ) (blockHash : Hash) : BoingNode Ledger :=
  let guarded := { node with lastLocalVoteRound := some round }
  match node.validatorSigningKey with
  | none => guarded
  | some key =>
    let vote := ConsensusVote.sign round blockHash key
    { guarded.noteSignedVoteAndMaybeSlash vote with signed := node.signed ++ [vote] }

def voteLocallyAndMaybeBroadcast (blockHash : Hash) (update : ValidatorUpdate) :
    Option Hash × BoingNode Ledger :=
  let round := node.consensus.round
  if !node.consensus.validators.contains node.proposer then (none, node)
  else if node.lastLocalVoteRound = some round then (none, node)
  else match node.consensus.vote blockHash node.proposer with
    | (.error _, consensus) => (none, { node with consensus := consensus })
    | (.ok committed, consensus) =>
      let voted := { node with consensus := consensus }.signVote round blockHash
      match committed with
      | none => (none, voted)
      | some hash => voted.commitOnQuorum hash update

/-- Apply buffered voters in order, until one of them completes the quorum. -/
def applyEarlyVoters (blockHash : Hash) (update : ValidatorUpdate) :
    BoingNode Ledger → List AccountId → Option Hash × BoingNode Ledger
  | node, [] => (none, node)
  | node, voter :: voters =>
    match node.consensus.vote blockHash voter with
    | (.ok (some hash), consensus) =>
      { node with consensus := consensus }.commitOnQuorum hash update
    | (_, consensus) =>
      applyEarlyVoters blockHash update { node with consensus := consensus } voters

def drainEarlyVotesForPending (blockHash : Hash) (update : ValidatorUpdate) :
    Option Hash × BoingNode Ledger :=
  let key := (node.consensus.round, blockHash)
  let voters := (node.earlyVotes[key]?).getD []
  applyEarlyVoters blockHash update { node with earlyVotes := node.earlyVotes.erase key } voters

def voteAndDrain (blockHash : Hash) (update : ValidatorUpdate) :
    Option Hash × BoingNode Ledger :=
  match node.voteLocallyAndMaybeBroadcast blockHash update with
  | (some hash, node) => (some hash, node)
  | (none, node) => node.drainEarlyVotesForPending blockHash update

def MAX_EARLY_AHEAD : ℕ := 8

def MAX_EARLY_ENTRIES : ℕ := 4096

def pushEarlyVote (earlyVotes : Std.ExtTreeMap (ℕ × Hash) (List AccountId))
    (vote : ConsensusVote) : Std.ExtTreeMap (ℕ × Hash) (List AccountId) :=
  earlyVotes.insert (vote.round, vote.blockHash)
    ((earlyVotes[(vote.round, vote.blockHash)]?).getD [] ++ [vote.validator])

/-- Buffer a vote whose proposal is not pending, within the bounds on rounds and
entries. -/
def bufferEarlyVote (vote : ConsensusVote) : BoingNode Ledger :=
  let tipRound := node.consensus.round
  if tipRound + MAX_EARLY_AHEAD < vote.round then node
  else if vote.round + 64 < tipRound then node
  else if MAX_EARLY_ENTRIES ≤ node.earlyVotes.size ∧
      ¬ node.earlyVotes.contains (vote.round, vote.blockHash) then
    let kept := node.earlyVotes.filter fun key _ => decide (tipRound - 64 ≤ key.1)
    if MAX_EARLY_ENTRIES ≤ kept.size then { node with earlyVotes := kept }
    else { node with earlyVotes := pushEarlyVote kept vote }
  else { node with earlyVotes := pushEarlyVote node.earlyVotes vote }

def onConsensusVote (vote : ConsensusVote) (update : ValidatorUpdate) :
    Option Hash × BoingNode Ledger :=
  match vote.verify with
  | .error _ => (none, node)
  | .ok _ =>
    if !node.consensus.validators.contains vote.validator then (none, node)
    else
      let node := node.noteSignedVoteAndMaybeSlash vote
      let havePending := node.pendingCommit.any fun pending =>
        decide (pending.block.hash = vote.blockHash)
      if !havePending || node.consensus.round != vote.round then
        if node.consensus.round == vote.round || node.consensus.pendingBlock.isNone then
          (none, node.bufferEarlyVote vote)
        else (none, node)
      else match node.consensus.vote vote.blockHash vote.validator with
        | (.ok (some hash), consensus) =>
          { node with consensus := consensus }.commitOnQuorum hash update
        | (_, consensus) => (none, { node with consensus := consensus })

def chainsTo (block : Block) (latestHash : Hash) (height : ℕ) : Bool :=
  block.header.parentHash == latestHash && block.header.height == height + 1

def importBlock (block : Block) (verdict : Verdict Ledger) :
    Except BlockValidationError Ledger :=
  if !chainsTo block node.chain.latestHash node.chain.height then .error .doesNotChain
  else do
    let proposer := block.header.proposer
    let expectedLeader :=
      if node.consensus.mayPropose block.header.height proposer then proposer
      else node.consensus.leader block.header.height
    verdict.before
    if !node.consensus.validators.contains proposer then .error .invalidProposer
    else if proposer ≠ expectedLeader then .error (.notRoundLeader proposer expectedLeader)
    else verdict.after

def pendingDiffers (block : Block) : Bool :=
  node.pendingCommit.any fun pending => decide (pending.block.hash ≠ block.hash)

def handleNetworkBlock (block : Block) (verdict : Verdict Ledger) (update : ValidatorUpdate) :
    Except BlockValidationError (Option Hash) × BoingNode Ledger :=
  match node.importBlock block verdict with
  | .error error => (.error error, node)
  | .ok newState =>
    match node.consensus.acceptProposal block with
    | (.error error, consensus) =>
      (.error (.executionFailed error.display), { node with consensus := consensus })
    | (.ok _, consensus) =>
      -- a replaced proposal frees this node's vote at the height
      let forgets := node.lastLocalVoteRound = some block.header.height ∧
        node.pendingDiffers block
      let accepted := { node with
        consensus := consensus
        lastLocalVoteRound := if forgets then none else node.lastLocalVoteRound
        pendingCommit := some { block := block, newState := newState } }
      let (hash, node) := accepted.voteAndDrain block.hash update
      (.ok hash, node)

/-- Import a fetched block without votes. -/
def importNetworkBlockCatchup (block : Block) (verdict : Verdict Ledger)
    (update : ValidatorUpdate) : Except BlockValidationError Unit × BoingNode Ledger :=
  match node.importBlock block verdict with
  | .error error => (.error error, node)
  | .ok newState =>
    match node.chain.append block with
    | .error _ => (.error .doesNotChain, node)
    | .ok chain =>
      (.ok (), { node with
        chain := chain
        state := newState
        consensus := update.apply (node.consensus.syncRound (block.header.height + 1))
        pendingCommit := none
        writes := node.writes ++ persistBlockAndState block newState })

def abandonStuckProposal : BoingNode Ledger :=
  let earlyVotes := match node.pendingCommit with
    | some pending => node.earlyVotes.erase (node.consensus.round, pending.block.hash)
    | none => node.earlyVotes
  { node with
    pendingCommit := none
    lastLocalVoteRound := none
    earlyVotes := earlyVotes
    consensus := node.consensus.abandonProposal }

def tickProposalTimeout (elapsed : Bool) : BoingNode Ledger :=
  if node.pendingCommit.isSome && elapsed then node.abandonStuckProposal else node

def produceProposalWithFallback (anchorFallback : Bool) (draft : Option (ProposalDraft Ledger)) :
    Option (PendingCommit Ledger) :=
  let height := node.chain.height + 1
  let isLeader := node.consensus.leader height == node.proposer
  let fallbackOk := anchorFallback && node.consensus.mayPropose height node.proposer
  if !isLeader && !fallbackOk then none
  else draft.map fun draft =>
    { block :=
        { header :=
            { parentHash := node.chain.latestHash
              height := height
              timestamp := draft.timestamp
              proposer := node.proposer
              txRoot := draft.txRoot
              receiptsRoot := draft.receiptsRoot
              stateRoot := draft.stateRoot
              blobsRoot := draft.blobsRoot }
          transactions := draft.transactions
          signatures := draft.signatures
          priorityTips := draft.priorityTips }
      newState := draft.newState }

def produceBlockIfReady (elapsed anchorFallback : Bool) (draft : Option (ProposalDraft Ledger))
    (update : ValidatorUpdate) : Option Hash × BoingNode Ledger :=
  let node := node.tickProposalTimeout elapsed
  if node.pendingCommit.isSome then (none, node)
  else if node.lastLocalVoteRound = some (node.chain.height + 1) then (none, node)
  else match node.produceProposalWithFallback anchorFallback draft with
    | none => (none, node)
    | some proposal =>
      match node.consensus.propose proposal.block with
      | (.error _, consensus) => (none, { node with consensus := consensus })
      | (.ok _, consensus) =>
        let proposed := { node with
          consensus := consensus
          proposals := node.proposals ++ [proposal.block]
          pendingCommit := some proposal }
        proposed.voteAndDrain proposal.block.hash update

end BoingNode

inductive NodeEvent (Ledger : Type) where
  | networkBlock (block : Block) (verdict : Verdict Ledger) (update : ValidatorUpdate)
  | catchupBlock (block : Block) (verdict : Verdict Ledger) (update : ValidatorUpdate)
  | consensusVote (vote : ConsensusVote) (update : ValidatorUpdate)
  | tick (elapsed : Bool)
  | produce (elapsed anchorFallback : Bool) (draft : Option (ProposalDraft Ledger))
      (update : ValidatorUpdate)
  | vrfProof (validator : AccountId) (round : ℕ) (vrf : VrfOutput)

/-- The event changes neither the chain nor the validator set without votes. -/
def NodeEvent.Static : NodeEvent Ledger → Prop
  | .networkBlock _ _ update | .consensusVote _ update | .produce _ _ _ update => update = .none
  | .catchupBlock _ _ _ => False
  | .tick _ | .vrfProof _ _ _ => True

instance : DecidablePred (@NodeEvent.Static Ledger)
  | .networkBlock _ _ update | .consensusVote _ update | .produce _ _ _ update =>
    inferInstanceAs (Decidable (update = .none))
  | .catchupBlock _ _ _ => isFalse id
  | .tick _ | .vrfProof _ _ _ => isTrue trivial

def BoingNode.handle (node : BoingNode Ledger) : NodeEvent Ledger → BoingNode Ledger
  | .networkBlock block verdict update => (node.handleNetworkBlock block verdict update).2
  | .catchupBlock block verdict update => (node.importNetworkBlockCatchup block verdict update).2
  | .consensusVote vote update => (node.onConsensusVote vote update).2
  | .tick elapsed => node.tickProposalTimeout elapsed
  | .produce elapsed anchorFallback draft update =>
    (node.produceBlockIfReady elapsed anchorFallback draft update).2
  | .vrfProof validator round vrf =>
    { node with consensus := (node.consensus.insertVrfProof validator round vrf).2 }

end BoingNetwork
