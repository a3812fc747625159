import BoingNetwork.Node.Restart
import BoingNetwork.Primitives.BlockCodec
import BoingNetwork.Primitives.Payloads
import BoingNetwork.Primitives.Receipts
import BoingNetwork.State.StateRoot

/-!
# The files of the data directory

One file per block and one for its receipts, the chain metadata, and a dozen state
files.  Each file is replaced atomically.  Block files are bytes; every other file holds
the value that bincode reads back from it, together with its length, since the loader
refuses files that are too long.
-/

namespace BoingNetwork

open Bincode Std

/-- Cap for receipts, pending deploys and jail snapshots. -/
def MAX_PERSIST_SMALL_FILE_BYTES : ℕ := 64 * 1024 * 1024
def MAX_PERSIST_BLOCK_FILE_BYTES : ℕ := 256 * 1024 * 1024
def MAX_PERSIST_REGISTRY_FILE_BYTES : ℕ := 512 * 1024 * 1024

/-- A file with its length in bytes. -/
structure StoredFile (Value : Type) where
  value : Value
  size : ℕ

structure PersistedState where
  accounts : List (AccountId × AccountState)
  contractCode : List (AccountId × Bytes)
  contractStorage : List ((AccountId × BitVec 256) × BitVec 256)

def AccountState.serialize (state : AccountState) : Bytes :=
  leBytes 16 state.balance ++ leBytes 8 state.nonce ++ leBytes 16 state.stake ++
    leBytes 16 state.pendingUnbond ++ leBytes 8 state.unbondUnlockHeight

def JailSnapshot.serialize (snapshot : JailSnapshot) : Bytes :=
  leBytes 8 snapshot.jailedAt ++ leBytes 8 snapshot.scheduled ++ leBytes 8 snapshot.missed

namespace PersistedState

def serialize (state : PersistedState) : Bytes :=
  vec (fun entry => bytes32 entry.1 ++ entry.2.serialize) state.accounts ++
    vec (fun entry => bytes32 entry.1 ++ byteVec entry.2) state.contractCode ++
    vec (fun entry => bytes32 entry.1.1 ++ bytes32 entry.1.2 ++ bytes32 entry.2)
      state.contractStorage

def ofContents (contents : Contents) : PersistedState where
  accounts := contents.accounts.toList
  contractCode := contents.contractCode.toList
  contractStorage := contents.contractStorage.toList

end PersistedState

namespace RegistryId

/-- What the encoding keeps of a registry: skipped fields are read as zero or empty. -/
def stored : (id : RegistryId) → id.Carrier → id.Carrier
  | openValidators, registry => { registry with lastJail := ∅ }
  | slashAppeals, registry => { registry with nextSlashId := 0 }
  | names, registry => registry
  | sampleOffers, registry => registry
  | sampleServe, registry => registry
  | governance, registry => registry
  | qaPolicy, registry => registry

/-- Magic and version bytes in front of the encoding. -/
def envelope : RegistryId → ℕ
  | slashAppeals => 8
  | governance => 8
  | qaPolicy => 4
  | _ => 0

def fileName : RegistryId → String
  | openValidators => "open_validators.bin"
  | names => "names.bin"
  | sampleOffers => "sample_offers_registry.bin"
  | sampleServe => "sample_serve_challenges.bin"
  | slashAppeals => "slash_appeals_registry.bin"
  | governance => "governance_registry.bin"
  | qaPolicy => "qa_policy_registry.bin"

end RegistryId

/-- The files of the state directory. -/
inductive StateFile where
  | accounts
  | qaPending
  | registry (id : RegistryId)
  | jailStats
deriving DecidableEq

namespace StateFile

abbrev Content : StateFile → Type
  | accounts => PersistedState
  | qaPending => List (Hash × QaPendingRecord)
  | registry id => id.Carrier
  | jailStats => ExtTreeMap AccountId JailSnapshot

/-- In the order in which `save_state` writes them. -/
def all : List StateFile :=
  accounts :: qaPending :: RegistryId.all.map registry ++ [jailStats]

def saved (contents : Contents) : (file : StateFile) → Option (StoredFile file.Content)
  | accounts =>
    let state := PersistedState.ofContents contents
    some ⟨state, state.serialize.length⟩
  | qaPending =>
    let items := contents.qaPending.toList
    some ⟨items, (vec (fun item => bytes32 item.1 ++ item.2.serialize) items).length⟩
  | registry id =>
    let registry := contents.registry id
    if id.isEmpty registry then none
    else some ⟨id.stored registry, id.envelope + (id.serialize registry).length⟩
  | jailStats =>
    let snapshots := contents.openValidators.lastJail
    if snapshots.isEmpty then none
    else some ⟨snapshots, (Bincode.map bytes32 JailSnapshot.serialize snapshots).length⟩

theorem mem_all (file : StateFile) : file ∈ all := by
  cases file with
  | registry id => simp [all, id.mem_all]
  | _ => simp [all]

end StateFile

abbrev StateFiles := (file : StateFile) → Option (StoredFile file.Content)

structure DataDir where
  blocks : ExtTreeMap ℕ Bytes := ∅
  receipts : ExtTreeMap ℕ (StoredFile (List ExecutionReceipt)) := ∅
  chainMeta : Option (ℕ × Hash) := none
  state : StateFiles := fun _ => none

inductive FileWrite where
  | block (block : Block)
  | receipts (height : ℕ) (receipts : List ExecutionReceipt)
  | chainMeta (height : ℕ) (latestHash : Hash)
  | state (contents : Contents) (file : StateFile)

def receiptsFile (receipts : List ExecutionReceipt) : StoredFile (List ExecutionReceipt) :=
  ⟨receipts, (vec ExecutionReceipt.serialize receipts).length⟩

namespace DataDir

def write (dir : DataDir) : FileWrite → DataDir
  | .block block => { dir with blocks := dir.blocks.insert block.header.height block.serialize }
  | .receipts height receipts =>
    { dir with receipts := dir.receipts.insert height (receiptsFile receipts) }
  | .chainMeta height latestHash => { dir with chainMeta := some (height, latestHash) }
  | .state contents file =>
    { dir with state := Function.update dir.state file (file.saved contents) }

def saveGenesisIfMissing (dir : DataDir) (genesis : Block) : DataDir :=
  { dir with blocks := dir.blocks.insertIfNew 0 genesis.serialize }

end DataDir

structure Commit where
  block : Block
  receipts : List ExecutionReceipt
  contents : Contents

/-- What the operator configures about loading. -/
structure PersistenceConfig where
  base : String
  maxStateFileBytes : ℕ
  /-- Number of blocks whose receipts are loaded; all of them for zero. -/
  receiptRetention : ℕ
  storageTreeV2From : Option ℕ
  accountTreeV3From : Option ℕ
  localValidator : AccountId
  /-- The text of the library's error for bytes that are not a block. -/
  bincodeError : Bytes → String

def ChainState.genesis (proposer : AccountId) : Block :=
  .empty ⟨0, 0, 0, proposer, Hash.ZERO, Hash.ZERO, Hash.ZERO, none⟩

def firstRetainedHeight (tip window : ℕ) : ℕ := if window = 0 then 0 else tip - (window - 1)

/-- The value of a file that is not too long. -/
def readLimited {Value : Type} (path : String) (limit size : ℕ) (value : Value) :
    Except PersistenceError Value :=
  if limit < size then
    .error (.serialization s!"{path} is {size} bytes, over the {limit}-byte persistence limit")
  else .ok value

theorem readLimited_eq_ok {Value : Type} {path : String} {limit size : ℕ} {value : Value}
    (fits : size ≤ limit) : readLimited path limit size value = .ok value :=
  if_neg (Nat.not_lt.mpr fits)

variable [Crypto] {files : StateFiles}

def Commit.persistBlockAndState (commit : Commit) : List FileWrite :=
  [.block commit.block, .receipts commit.block.header.height commit.receipts,
    .chainMeta commit.block.header.height commit.block.hash] ++
    StateFile.all.map (.state commit.contents)

/-- A store with no caches and no checkpoints. -/
def Contents.load (contents : Contents) : StateStore := { toContents := contents }

namespace PersistenceConfig

variable (config : PersistenceConfig)

abbrev genesis : Block := ChainState.genesis config.localValidator

/-- The genesis of a chain without a network preset: the local validator is funded. -/
def genesisContents : Contents where
  accounts := .insert ∅ config.localValidator
    { AccountState.default with balance := 1_000_000 * BASE_UNITS_PER_BOING }

def rootAt (height : ℕ) (store : StateStore) : Hash :=
  (StateStore.stateRootAtHeight
    { store with
      storageTreeV2From := config.storageTreeV2From
      accountTreeV3From := config.accountTreeV3From } height).1

/-! ## Loading -/

def blockPath (height : ℕ) : String := s!"{config.base}/chain/blocks/{height}.bin"

def loadBlock (dir : DataDir) (height : ℕ) : Except PersistenceError (Option Block) :=
  match dir.blocks[height]? with
  | none => .ok none
  | some bytes => do
    let bytes ← readLimited (config.blockPath height) MAX_PERSIST_BLOCK_FILE_BYTES
      bytes.length bytes
    match Block.fromBincode bytes with
    | none => .error (.serialization (config.bincodeError bytes))
    | some block => .ok (some block)

def loadBlocks (dir : DataDir) : ChainState → List ℕ → Except PersistenceError ChainState
  | chain, [] => .ok chain
  | chain, height :: heights => do
    match ← config.loadBlock dir height with
    | none => .error (.serialization s!"Missing block {height}")
    | some block =>
      match chain.append block with
      | .error error => .error (.serialization error.display)
      | .ok chain => loadBlocks dir chain heights

def loadChain (dir : DataDir) : Except PersistenceError (Option ChainState) :=
  match dir.chainMeta with
  | none => .ok none
  | some (height, _) => do
    match ← config.loadBlock dir 0 with
    | none => .ok none
    | some genesis =>
      let chain ← config.loadBlocks dir (ChainState.fromGenesis genesis)
        (List.range' 1 height)
      .ok (some chain)

def receiptsPath (height : ℕ) : String := s!"{config.base}/chain/blocks/receipts_{height}.bin"

def loadReceiptsForHeight (dir : DataDir) (height : ℕ) :
    Except PersistenceError (List ExecutionReceipt) :=
  match dir.receipts[height]? with
  | none => .ok []
  | some file =>
    readLimited (config.receiptsPath height) MAX_PERSIST_SMALL_FILE_BYTES file.size file.value

/-- Adds the receipts of the given heights, by transaction. -/
def loadReceipts (dir : DataDir) (receipts : ExtTreeMap Hash ExecutionReceipt)
    (height : ℕ) : Except PersistenceError (ExtTreeMap Hash ExecutionReceipt) := do
  let list ← config.loadReceiptsForHeight dir height
  .ok (list.foldl (fun map receipt => map.insert receipt.txId receipt) receipts)

end PersistenceConfig

def StateStore.loadFromPersistence (state : PersistedState) : StateStore :=
  let store : StateStore := state.accounts.foldl (fun store entry =>
    StateStore.insert store entry.1 entry.2) {}
  let store := state.contractCode.foldl (fun store entry =>
    StateStore.setContractCode store entry.1 entry.2) store
  state.contractStorage.foldl (fun store entry =>
    StateStore.mergeContractStorage store entry.1.1 entry.1.2 entry.2) store

def StateFiles.jailSnapshots (files : StateFiles) : ExtTreeMap AccountId JailSnapshot :=
  match files .jailStats with
  | some file => if file.size ≤ MAX_PERSIST_SMALL_FILE_BYTES then file.value else ∅
  | none => ∅

def StateFiles.restored (files : StateFiles) : (id : RegistryId) → id.Carrier → id.Carrier
  | .openValidators, registry => { registry with lastJail := files.jailSnapshots }
  | .names, registry => registry
  | .sampleOffers, registry => registry
  | .sampleServe, registry => registry
  | .slashAppeals, registry => registry
  | .governance, registry => registry
  | .qaPolicy, registry => registry

namespace PersistenceConfig

variable (config : PersistenceConfig)

/-- Loads one registry; without a file the store keeps its empty one. -/
def loadRegistry (files : StateFiles) (store : StateStore) (id : RegistryId) :
    Except PersistenceError StateStore :=
  match files (.registry id) with
  | none => .ok store
  | some file => do
    let registry ← readLimited s!"{config.base}/state/{id.fileName}"
      MAX_PERSIST_REGISTRY_FILE_BYTES file.size file.value
    .ok (store.registryMut id fun _ => files.restored id registry)

def loadState (files : StateFiles) : Except PersistenceError (Option StateStore) :=
  match files .accounts with
  | none => .ok none
  | some file => do
    let state ← readLimited s!"{config.base}/state/accounts.bin" config.maxStateFileBytes
      file.size file.value
    let store ← RegistryId.all.foldlM (config.loadRegistry files)
      (StateStore.loadFromPersistence state)
    .ok (some store)

/-- Errors of this file are ignored. -/
def loadPending (files : StateFiles) (store : StateStore) : StateStore :=
  match files .qaPending with
  | some file =>
    if file.size ≤ MAX_PERSIST_SMALL_FILE_BYTES then store.loadQaPending file.value else store
  | none => store

end PersistenceConfig

structure Recovered where
  chain : ChainState
  state : StateStore
  receipts : ExtTreeMap Hash ExecutionReceipt

namespace PersistenceConfig

variable (config : PersistenceConfig)

def loadPersisted (dir : DataDir) (node : Recovered) : Except PersistenceError Recovered :=
  match dir.chainMeta with
  | none => .ok node
  | some _ => do
    let chain ← config.loadChain dir
    let state ← config.loadState dir.state
    let chain := chain.getD node.chain
    let first := firstRetainedHeight chain.height config.receiptRetention
    let receipts ← (List.range' first (chain.height + 1 - first)).foldlM
      (config.loadReceipts dir) ∅
    .ok ⟨chain, state.getD node.state, receipts⟩

def restart (dir : DataDir) : Except PersistenceError Recovered := do
  let dir := dir.saveGenesisIfMissing config.genesis
  let node ← config.loadPersisted dir
    ⟨ChainState.fromGenesis config.genesis, config.genesisContents.load, ∅⟩
  .ok { node with state := loadPending dir.state node.state }

end PersistenceConfig

/-! ## What loading gives -/

def StateFiles.registry (files : StateFiles) (id : RegistryId) (empty : id.Carrier) : id.Carrier :=
  match files (.registry id) with
  | none => empty
  | some file => files.restored id file.value

def StateFiles.contents (files : StateFiles) (state : PersistedState) : Contents where
  accounts := ExtTreeMap.ofList state.accounts
  contractCode := ExtTreeMap.ofList state.contractCode
  contractStorage := ExtTreeMap.ofList state.contractStorage
  openValidators := files.registry .openValidators {}
  names := files.registry .names {}
  sampleOffers := files.registry .sampleOffers {}
  sampleServe := files.registry .sampleServe {}
  slashAppeals := files.registry .slashAppeals {}
  governance := files.registry .governance {}
  qaPolicy := files.registry .qaPolicy {}

/-- The pending deploys, unless their file is missing or too long. -/
def StateFiles.pending (files : StateFiles) (contents : Contents) : Contents :=
  match files .qaPending with
  | some file =>
    if file.size ≤ MAX_PERSIST_SMALL_FILE_BYTES then
      { contents with qaPending := ExtTreeMap.ofList file.value }
    else contents
  | none => contents

namespace Contents

variable (contents : Contents)

theorem loadPending_load (files : StateFiles) :
    PersistenceConfig.loadPending files contents.load = (files.pending contents).load := by
  unfold PersistenceConfig.loadPending StateFiles.pending
  cases files .qaPending with
  | none => rfl
  | some file =>
    dsimp only
    split <;> rfl

theorem foldl_insert_load (entries : List (AccountId × AccountState)) :
    entries.foldl (fun store entry => StateStore.insert store entry.1 entry.2) contents.load =
      load { contents with
        accounts := entries.foldl (fun map entry => map.insert entry.1 entry.2)
          contents.accounts } := by
  induction entries generalizing contents with
  | nil => rfl
  | cons entry entries ih => exact ih _

theorem foldl_setContractCode_load (entries : List (AccountId × Bytes)) :
    entries.foldl (fun store entry => StateStore.setContractCode store entry.1 entry.2)
        contents.load = load { contents with
        contractCode := entries.foldl (fun map entry => map.insert entry.1 entry.2)
          contents.contractCode } := by
  induction entries generalizing contents with
  | nil => rfl
  | cons entry entries ih => exact ih _

theorem foldl_mergeContractStorage_load
    (entries : List ((AccountId × BitVec 256) × BitVec 256)) : entries.foldl (fun store entry =>
        StateStore.mergeContractStorage store entry.1.1 entry.1.2 entry.2) contents.load =
      load { contents with
        contractStorage := entries.foldl (fun map entry => map.insert entry.1 entry.2)
          contents.contractStorage } := by
  induction entries generalizing contents with
  | nil => rfl
  | cons entry entries ih => exact ih _

end Contents

theorem StateStore.loadFromPersistence_eq (state : PersistedState) :
    StateStore.loadFromPersistence state = Contents.load
        { accounts := ExtTreeMap.ofList state.accounts
          contractCode := ExtTreeMap.ofList state.contractCode
          contractStorage := ExtTreeMap.ofList state.contractStorage } := by
  unfold loadFromPersistence
  rw [show ({} : StateStore) = Contents.load {} from rfl, Contents.foldl_insert_load]
  dsimp only
  rw [Contents.foldl_setContractCode_load, Contents.foldl_mergeContractStorage_load]
  simp only [ExtTreeMap.ofList_eq_foldl]

namespace PersistenceConfig

variable (config : PersistenceConfig) {contents : Contents}

/-- The registry's file is not too long. -/
def RegistryFits (files : StateFiles) (id : RegistryId) : Prop :=
  ∀ file ∈ files (.registry id), file.size ≤ MAX_PERSIST_REGISTRY_FILE_BYTES

theorem loadRegistry_eq_ok {id : RegistryId} (fits : RegistryFits files id) :
    config.loadRegistry files contents.load id =
      .ok (contents.setRegistry id (files.registry id (contents.registry id))).load := by
  unfold loadRegistry RegistryFits StateFiles.registry at *
  cases found : files (.registry id) with
  | none =>
    have same : contents.setRegistry id (contents.registry id) = contents :=
      contents.write_read (.registry id)
    exact congrArg (fun contents => Except.ok (Contents.load contents)) same.symm
  | some file =>
    simp only [readLimited_eq_ok (fits file found), Except.ok_bind]
    rfl

theorem foldlM_loadRegistry_eq_ok {ids : List RegistryId}
    (fits : ∀ id ∈ ids, RegistryFits files id) :
    ids.foldlM (config.loadRegistry files) contents.load = .ok (ids.foldl (fun contents id =>
      contents.setRegistry id (files.registry id (contents.registry id))) contents).load := by
  induction ids generalizing contents with
  | nil => rfl
  | cons id ids ih =>
    obtain ⟨first, rest⟩ := List.forall_mem_cons.mp fits
    rw [List.foldlM_cons, config.loadRegistry_eq_ok first, Except.ok_bind]
    exact ih rest

/-- The files that loading the state reads without ignoring errors are not too long. -/
def StateFits (files : StateFiles) : Prop :=
  ∀ file ∈ files .accounts, file.size ≤ config.maxStateFileBytes ∧ ∀ id, RegistryFits files id

theorem loadState_eq_ok (fits : config.StateFits files) : config.loadState files =
      .ok ((files .accounts).map fun file => (files.contents file.value).load) := by
  unfold loadState
  cases found : files .accounts with
  | none => rfl
  | some file =>
    obtain ⟨small, registries⟩ := fits file found
    simp only [readLimited_eq_ok small, Except.ok_bind, StateStore.loadFromPersistence_eq,
      config.foldlM_loadRegistry_eq_ok fun id _ => registries id]
    rfl

def recoveredContents (files : StateFiles) : Contents :=
  files.pending (((files .accounts).map fun file => files.contents file.value).getD
    config.genesisContents)

end PersistenceConfig

end BoingNetwork
