import BoingNetwork.State.Contents
import BoingNetwork.State.SparseMerkle

/-!
# State store

The contents with the caches of the state root and the undo journal.  While a
checkpoint is alive every write first logs the old value of the slot it changes; a
registry is logged as a whole, and only if it was not logged since the last checkpoint.
-/

namespace BoingNetwork

open MachineInt

/-- Ledger amounts in a new unit. -/
def AccountState.redenominated (factor : ℕ) (account : AccountState) : AccountState :=
  { account with
    balance := saturatingMul 128 account.balance factor
    stake := saturatingMul 128 account.stake factor
    pendingUnbond := saturatingMul 128 account.pendingUnbond factor }

def OpenValidatorRegistry.redenominated (factor : ℕ) (registry : OpenValidatorRegistry) :
    OpenValidatorRegistry :=
  { registry with
    records := registry.records.map fun _ record =>
      { record with bond := saturatingMul 128 record.bond factor } }

variable [Crypto]

/-- `journal` holds the newest entry first, and `handles` counts the live checkpoints. -/
structure StateStore extends Contents where
  tree : SparseMerkleTree := .withMaxDepth LEGACY_MAX_DEPTH
  storageTrees : Std.ExtTreeMap AccountId SparseMerkleTree := ∅
  storageTreeV2From : Option ℕ := none
  storageTreeDeep : Bool := false
  accountTreeV3From : Option ℕ := none
  accountTreeDeep : Bool := false
  /-- The trees mirror the contents up to the dirty sets. -/
  rootSynced : Bool := false
  dirtyAccounts : Std.ExtTreeSet AccountId := ∅
  dirtySlots : Std.ExtTreeSet (AccountId × BitVec 256) := ∅
  dirtyQa : Std.ExtTreeSet Hash := ∅
  openValidatorParams : Option OpenValidatorParams := none
  nameRegistryParams : Option NameRegistryParams := none
  slashAppealResolvers : Option (List AccountId) := none
  journal : List (Sigma Slot.Value) := []
  handles : ℕ := 0
  /-- Upper bound of the positions of the live checkpoints. -/
  lastCpPos : ℕ := 0
  /-- Journal index of the last snapshot of each registry. -/
  snapPos : RegistryId → Option ℕ := fun _ => none

/-- A position in the journal. -/
structure StateCheckpoint where
  pos : ℕ

namespace StateStore

/-- Whether writes are journaled; with no checkpoint alive the journal is dropped. -/
def journaling (store : StateStore) : Bool × StateStore :=
  if 0 < store.handles then (true, store)
  else (false, { store with journal := [], lastCpPos := 0, snapPos := fun _ => none })

def markAccount (store : StateStore) (id : AccountId) : StateStore :=
  if store.rootSynced then { store with dirtyAccounts := store.dirtyAccounts.insert id } else store

def markSlot (store : StateStore) (contract : AccountId) (key : BitVec 256) : StateStore :=
  if store.rootSynced then
    { store with
      dirtySlots := store.dirtySlots.insert (contract, key)
      dirtyAccounts := store.dirtyAccounts.insert contract }
  else store

def markQa (store : StateStore) (subject : Hash) : StateStore :=
  if store.rootSynced then { store with dirtyQa := store.dirtyQa.insert subject } else store

/-- Registry leaves are refreshed always, so nothing is marked for them. -/
def mark (store : StateStore) : Slot → StateStore
  | .account id => store.markAccount id
  | .code id => store.markAccount id
  | .storage contract key => store.markSlot contract key
  | .qaPending subject => store.markQa subject
  | .registry _ => store

/-- Marks a slot and logs its value. -/
def record (store : StateStore) (slot : Slot) : StateStore :=
  match (store.mark slot).journaling with
  | (true, store) => { store with journal := ⟨slot, store.read slot⟩ :: store.journal }
  | (false, store) => store

def assign (store : StateStore) (slot : Slot) (value : slot.Value) : StateStore :=
  { store with toContents := store.toContents.write slot value }

def put (store : StateStore) (slot : Slot) (value : slot.Value) : StateStore :=
  (store.record slot).assign slot value

/-- A snapshot at or above the last checkpoint restores the registry for every live one. -/
def snapshotNeeded (store : StateStore) (snap : Option ℕ) : Bool :=
  !snap.any fun position => store.lastCpPos ≤ position ∧ position < store.journal.length

/-! ## Writes -/

/-- A mutable borrow of an account; an absent one is not recorded. -/
def getMut (store : StateStore) (id : AccountId) (update : AccountState → AccountState) :
    StateStore :=
  match store.accounts[id]? with
  | some state => store.put (.account id) (some (update state))
  | none => store

def insert (store : StateStore) (id : AccountId) (state : AccountState) : StateStore :=
  store.put (.account id) (some state)

def setContractCode (store : StateStore) (account : AccountId) (bytecode : Bytes) : StateStore :=
  store.put (.code account) (some bytecode)

def mergeContractStorage (store : StateStore) (contract : AccountId) (key value : BitVec 256) :
    StateStore :=
  store.put (.storage contract key) (some value)

def qaPendingMut (store : StateStore) (subject : Hash)
    (update : QaPendingRecord → QaPendingRecord) : StateStore :=
  match store.qaPending[subject]? with
  | some record => store.put (.qaPending subject) (some (update record))
  | none => store

def insertQaPending (store : StateStore) (subject : Hash) (record : QaPendingRecord) :
    StateStore :=
  store.put (.qaPending subject) (some record)

def removeQaPending (store : StateStore) (subject : Hash) : StateStore :=
  match store.qaPending[subject]? with
  | some _ => store.put (.qaPending subject) none
  | none => store

/-- Replaces all pending deploys; the next root is rebuilt from scratch. -/
def loadQaPending (store : StateStore) (items : List (Hash × QaPendingRecord)) : StateStore :=
  let recorded := match store.journaling with
    | (true, store) => (store.qaPending.keys ++ items.map Prod.fst).foldl
        (fun (store : StateStore) subject => store.record (.qaPending subject)) store
    | (false, store) => store
  { recorded with
    qaPending := Std.ExtTreeMap.ofList items
    rootSynced := false }

/-- Logs a registry as a whole unless a snapshot of it already serves every checkpoint. -/
def recordRegistry (store : StateStore) (id : RegistryId) : StateStore :=
  match store.journaling with
  | (true, store) =>
    if store.snapshotNeeded (store.snapPos id) then
      { store with
        snapPos := Function.update store.snapPos id (some store.journal.length)
        journal := ⟨.registry id, store.registry id⟩ :: store.journal }
    else store
  | (false, store) => store

/-- A mutable borrow of a registry. -/
def registryMut (store : StateStore) (id : RegistryId) (update : id.Carrier → id.Carrier) :
    StateStore :=
  (store.recordRegistry id).assign (.registry id) (update (store.registry id))

def openValidatorsMut (store : StateStore) := store.registryMut .openValidators
def namesMut (store : StateStore) := store.registryMut .names

def redenominateAccounts (store : StateStore) (factor : ℕ) : StateStore :=
  store.accounts.keys.foldl
    (fun (store : StateStore) id => store.getMut id (AccountState.redenominated factor)) store

/-- Multiplies every account's amounts and every registered bond. -/
def redenominate (store : StateStore) (factor : ℕ) : StateStore :=
  if (store.redenominateAccounts factor).openValidators.records.toList.any (0 < ·.2.bond) then
    (store.redenominateAccounts factor).openValidatorsMut
      (OpenValidatorRegistry.redenominated factor)
  else store.redenominateAccounts factor

/-! ## Checkpoints -/

def checkpoint (store : StateStore) : StateCheckpoint × StateStore :=
  let store := store.journaling.2
  let position := store.journal.length
  (⟨position⟩, { store with lastCpPos := position, handles := store.handles + 1 })

/-- Takes one journal entry back. -/
def undoEntry (store : StateStore) (entry : Sigma Slot.Value) : StateStore :=
  (store.mark entry.1).assign entry.1 entry.2

/-- Undoes the entries above the checkpoint, newest first, and consumes the handle. -/
def revert (store : StateStore) (cp : StateCheckpoint) : StateStore :=
  let undone := (UndoLog.since store.journal cp.pos).foldl undoEntry store
  { undone with
    journal := store.journal.drop (store.journal.length - cp.pos)
    lastCpPos := min store.lastCpPos cp.pos
    snapPos := fun id => (store.snapPos id).filter fun position => position < cp.pos
    handles := store.handles - 1 }

/-- A copy with the caches of the root, and without the journal and its checkpoints. -/
def snapshot (store : StateStore) : StateStore :=
  { store with journal := [], handles := 0, lastCpPos := 0, snapPos := fun _ => none }

end StateStore

end BoingNetwork
