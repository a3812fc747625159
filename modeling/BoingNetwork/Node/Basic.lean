import BoingNetwork.Consensus.Votes

/-!
# The state of a node

A node drives one consensus engine and one chain.  What depends on block
execution is a parameter: the type of ledger states, and for each delivered block
the outcome of the checks around it.  Signed votes, proposed blocks and detected
equivocations are logged in the order in which the node produces them, and disk
writes are logged for the event in which they are made.
-/

namespace BoingNetwork

/-- The committed chain: tip and block index. -/
structure ChainState where
  height : ℕ
  latestHash : Hash
  blocksByHeight : Std.ExtTreeMap ℕ Block

inductive ChainError where
  | blockNotChained
  | invalidHeight
deriving DecidableEq

inductive BlockValidationError where
  | doesNotChain
  | timestampBeforeParent (parent got : ℕ)
  | timestampTooFarInFuture (got maxAllowed : ℕ)
  | invalidTxRoot
  | invalidReceiptsRoot (expected computed : Hash)
  | invalidProposer
  | notRoundLeader (proposer expectedLeader : AccountId)
  | executionFailed (message : String)
  | invalidStateRoot (expected computed : Hash)
  | invalidBlobsRoot (expected found : Option Hash)
  | noValidators
  | missingTxSignatures (expected found : ℕ)
  | invalidPriorityTips (expected found : ℕ)
  | invalidTxSignature (index : ℕ) (reason : String)
deriving DecidableEq

def ConsensusError.display : ConsensusError → String
  | .invalidBlock message => "Invalid block: " ++ message
  | .insufficientVotes => "Not enough votes"
  | .equivocation validator round =>
    s!"Equivocation: validator {AccountId.debug validator} voted for different blocks " ++
      s!"at round {round}"

/-- A block that waits for its quorum, with the state after it. -/
structure PendingCommit (Ledger : Type) where
  block : Block
  newState : Ledger

/-- One file written to the data directory. -/
inductive DiskWrite (Ledger : Type) where
  | block (block : Block)
  | chainMeta (height : ℕ) (latestHash : Hash)
  | state (state : Ledger)
  | lastLocalVoteRound (round : ℕ)
  | observedVotes (votes : Std.ExtTreeMap (ℕ × AccountId) ConsensusVote)

structure Verdict (Ledger : Type) where
  before : Except BlockValidationError Unit
  after : Except BlockValidationError Ledger

/-- What a commit changes in the validator set: the set derived from stake or
registration, and the configured anchors. -/
structure ValidatorUpdate where
  validators : Option { validators : List AccountId // validators ≠ [] }
  anchors : Option (List AccountId)
deriving DecidableEq

def ValidatorUpdate.none : ValidatorUpdate := ⟨.none, .none⟩

def ValidatorUpdate.apply (update : ValidatorUpdate) (engine : ConsensusEngine) :
    ConsensusEngine :=
  let engine := match update.validators with
    | .none => engine
    | .some validators => engine.setValidators validators.1 validators.2
  match update.anchors with
  | .none => engine
  | .some anchors => engine.setAnchors anchors

/-- What the producer adds to a proposal: everything but the parent, the height
and the proposer. -/
structure ProposalDraft (Ledger : Type) where
  timestamp : ℕ
  txRoot : Hash
  receiptsRoot : Hash
  stateRoot : Hash
  blobsRoot : Option Hash
  transactions : List Transaction
  signatures : List Signature
  priorityTips : List ℕ
  newState : Ledger

variable [Crypto]

namespace ChainState

def fromGenesis (genesis : Block) : ChainState where
  height := 0
  latestHash := genesis.hash
  blocksByHeight := .insert ∅ 0 genesis

def extend (chain : ChainState) (block : Block) : ChainState where
  height := block.header.height
  latestHash := block.hash
  blocksByHeight := chain.blocksByHeight.insert block.header.height block

def append (chain : ChainState) (block : Block) : Except ChainError ChainState :=
  if block.header.parentHash ≠ chain.latestHash then .error .blockNotChained
  else if block.header.height ≠ chain.height + 1 then .error .invalidHeight
  else .ok (chain.extend block)

/-- `block` is a child of the tip. -/
def Chains (chain : ChainState) (block : Block) : Prop :=
  block.header.parentHash = chain.latestHash ∧ block.header.height = chain.height + 1

theorem append_of_chains {chain : ChainState} {block : Block} (chains : chain.Chains block) :
    chain.append block = .ok (chain.extend block) := by
  simp [append, chains.1, chains.2]

end ChainState

structure LocalValidator where
  account : AccountId
  signingKey : Option SigningKey
  key_matches : ∀ key ∈ signingKey, Crypto.verifyingKey key = account

structure BoingNode (Ledger : Type) where
  chain : ChainState
  consensus : ConsensusEngine
  state : Ledger
  localValidator : LocalValidator
  pendingCommit : Option (PendingCommit Ledger)
  /-- Votes that arrived before their proposal: round and block hash to voters. -/
  earlyVotes : Std.ExtTreeMap (ℕ × Hash) (List AccountId)
  observedVotes : Std.ExtTreeMap (ℕ × AccountId) ConsensusVote
  /-- Round in which this node last cast its own vote. -/
  lastLocalVoteRound : Option ℕ
  signed : List ConsensusVote
  evidence : List EquivocationEvidence
  proposals : List Block
  writes : List (DiskWrite Ledger)

namespace BoingNode

variable {Ledger : Type} (node : BoingNode Ledger)

abbrev proposer : AccountId := node.localValidator.account

abbrev validatorSigningKey : Option SigningKey := node.localValidator.signingKey

end BoingNode

end BoingNetwork
