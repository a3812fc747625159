import BoingNetwork.Node.Changes

/-!
# Data directory, crashes and restarts

The data directory holds one file per block, the chain metadata, the ledger
state, the last local vote round and the observed votes.  A handler writes its
files in order, so a crash keeps an initial part of its writes.  A restart builds
a fresh node and loads what the data directory has.
-/

namespace BoingNetwork

variable {Ledger : Type}

structure Disk (Ledger : Type) where
  blocks : Std.ExtTreeMap ℕ Block
  chainMeta : Option (ℕ × Hash)
  state : Option Ledger
  lastLocalVoteRound : Option ℕ
  observedVotes : Option (Std.ExtTreeMap (ℕ × AccountId) ConsensusVote)

namespace Disk

def empty : Disk Ledger := ⟨∅, none, none, none, none⟩

def write (disk : Disk Ledger) : DiskWrite Ledger → Disk Ledger
  | .block block => { disk with blocks := disk.blocks.insert block.header.height block }
  | .chainMeta height latestHash => { disk with chainMeta := some (height, latestHash) }
  | .state state => { disk with state := some state }
  | .lastLocalVoteRound round => { disk with lastLocalVoteRound := some round }
  | .observedVotes votes => { disk with observedVotes := some votes }

def saveGenesisIfMissing (disk : Disk Ledger) (genesis : Block) : Disk Ledger :=
  { disk with blocks := disk.blocks.insertIfNew 0 genesis }

end Disk

inductive PersistenceError where
  | serialization (message : String)

def ChainError.display : ChainError → String
  | .blockNotChained => "Block does not chain to latest"
  | .invalidHeight => "Invalid block height"

structure NodeConfig (Ledger : Type) where
  validators : List AccountId
  validators_ne_nil : validators ≠ []
  anchors : List AccountId
  leaderElection : LeaderElection
  genesis : Block
  genesisState : Ledger

/-- The engine of a fresh node.  The source commits the genesis block in round 0
when the local validator leads it; `sync_round` discards what this leaves. -/
def NodeConfig.engine (config : NodeConfig Ledger) : ConsensusEngine :=
  (((ConsensusEngine.new config.validators config.validators_ne_nil).syncRound
    1).setLeaderElection config.leaderElection).setAnchors config.anchors

variable [Crypto]

namespace Disk

def loadBlocks (disk : Disk Ledger) : ChainState → List ℕ → Except PersistenceError ChainState
  | chain, [] => .ok chain
  | chain, height :: heights =>
    match disk.blocks[height]? with
    | none => .error (.serialization s!"Missing block {height}")
    | some block =>
      match chain.append block with
      | .error error => .error (.serialization error.display)
      | .ok chain => loadBlocks disk chain heights

/-- `load_chain`: nothing without metadata or without a genesis file. -/
def loadChain (disk : Disk Ledger) : Except PersistenceError (Option ChainState) :=
  match disk.chainMeta, disk.blocks[0]? with
  | some (height, _), some genesis =>
    (disk.loadBlocks (ChainState.fromGenesis genesis) (List.range' 1 height)).map some
  | _, _ => .ok none

end Disk

namespace BoingNode

def withValidators (identity : LocalValidator) (config : NodeConfig Ledger) :
    BoingNode Ledger where
  chain := ChainState.fromGenesis config.genesis
  consensus := config.engine
  state := config.genesisState
  localValidator := identity
  pendingCommit := none
  earlyVotes := ∅
  observedVotes := ∅
  lastLocalVoteRound := none
  signed := []
  evidence := []
  proposals := []
  writes := []

def loadLedger (node : BoingNode Ledger) (disk : Disk Ledger) :
    Except PersistenceError (BoingNode Ledger) :=
  match disk.chainMeta with
  | none => .ok node
  | some _ => do
    let loaded ← disk.loadChain
    let chain := loaded.getD node.chain
    .ok { node with
      chain := chain
      state := disk.state.getD node.state
      consensus := node.consensus.syncRound (chain.height + 1) }

def loadVotes (node : BoingNode Ledger) (disk : Disk Ledger) : BoingNode Ledger :=
  let keepFrom := node.chain.height - 64
  { node with
    lastLocalVoteRound := disk.lastLocalVoteRound
    observedVotes := (disk.observedVotes.getD ∅).filter fun key _ => decide (keepFrom ≤ key.1) }

def withDataDir (identity : LocalValidator) (config : NodeConfig Ledger) (disk : Disk Ledger) :
    Except PersistenceError (BoingNode Ledger) := do
  let node ← (withValidators identity config).loadLedger disk
  .ok (node.loadVotes disk)

end BoingNode

/-- A validator and its data directory.  The log of signed votes outlives crashes. -/
structure Host (Ledger : Type) where
  disk : Disk Ledger
  node : BoingNode Ledger
  running : Bool

inductive HostEvent (Ledger : Type) where
  | handled (event : NodeEvent Ledger)
  /-- The host stops while it handles an event: some of the files are written, and
  some of the votes are sent. -/
  | crashed (event : NodeEvent Ledger) (files votes : ℕ)
  | restarted (config : NodeConfig Ledger)

namespace Host

def start (identity : LocalValidator) (config : NodeConfig Ledger) : Host Ledger where
  disk := Disk.empty.saveGenesisIfMissing config.genesis
  node := BoingNode.withValidators identity config
  running := true

variable (host : Host Ledger)

def restart (config : NodeConfig Ledger) : Host Ledger :=
  let disk := host.disk.saveGenesisIfMissing config.genesis
  match BoingNode.withDataDir host.node.localValidator config disk with
  | .error _ => { host with disk := disk }
  | .ok node =>
    { disk := disk
      node := { node with
        signed := host.node.signed
        evidence := host.node.evidence
        proposals := host.node.proposals }
      running := true }

def step : HostEvent Ledger → Host Ledger
  | .handled event =>
    if host.running then
      let node := host.node.handle event
      { host with
        disk := node.writes.foldl Disk.write host.disk
        node := { node with writes := [] } }
    else host
  | .crashed event files votes =>
    if host.running then
      let node := host.node.handle event
      let sent := (node.signed.drop host.node.signed.length).take votes
      { disk := (node.writes.take files).foldl Disk.write host.disk
        node := { host.node with signed := host.node.signed ++ sent }
        running := false }
    else host
  | .restarted config => if host.running then host else host.restart config

end Host

end BoingNetwork
