import BoingNetwork.State.Store

/-!
# State root

The root commits every account with its code hash and storage root, every pending
deploy and every registry that is not empty.  After the first call only what was
written since the previous one is hashed again; the full rebuild is the reference.
-/

namespace BoingNetwork

open Std

variable [Crypto]

namespace StateStore

def storageDepth (store : StateStore) : ℕ :=
  if store.storageTreeDeep then DEEP_MAX_DEPTH else LEGACY_MAX_DEPTH

def accountDepth (store : StateStore) : ℕ :=
  if store.accountTreeDeep then DEEP_MAX_DEPTH else LEGACY_MAX_DEPTH

def codeHashOf (store : StateStore) (account : AccountId) : Hash :=
  match store.contractCode[account]? with
  | some code => hashContractCode code
  | none => Hash.ZERO

def accountLeaf (store : StateStore) (id : AccountId) (storageRoot : Hash) : Hash :=
  hashAccountLeaf (store.accounts[id]?.getD AccountState.default) (store.codeHashOf id) storageRoot

def registryLeaf (store : StateStore) (id : RegistryId) : Option Hash :=
  if id.isEmpty (store.registry id) then none else some (id.commitment (store.registry id))

def insertSlot (depth : ℕ) (trees : ExtTreeMap AccountId SparseMerkleTree)
    (contract : AccountId) (key value : BitVec 256) : ExtTreeMap AccountId SparseMerkleTree :=
  trees.insert contract
    ((trees[contract]?.getD (.withMaxDepth depth)).insertStorageSlot key value)

def deleteSlot (trees : ExtTreeMap AccountId SparseMerkleTree) (contract : AccountId)
    (key : BitVec 256) : ExtTreeMap AccountId SparseMerkleTree :=
  match trees[contract]? with
  | none => trees
  | some tree =>
    let tree := tree.deleteRaw key
    if tree.isEmpty then trees.erase contract else trees.insert contract tree

def buildStorageTrees (store : StateStore) : ExtTreeMap AccountId SparseMerkleTree :=
  store.contractStorage.toList.foldl
    (fun trees entry => insertSlot store.storageDepth trees entry.1.1 entry.1.2 entry.2) ∅

/-- The storage root of a contract, with the node hashes of its tree cached. -/
def storageRoot (trees : ExtTreeMap AccountId SparseMerkleTree) (id : AccountId) :
    Option Hash × ExtTreeMap AccountId SparseMerkleTree :=
  match trees[id]? with
  | some tree => (some tree.root.1, trees.insert id tree.root.2)
  | none => (none, trees)

def committedIds (store : StateStore) (trees : ExtTreeMap AccountId SparseMerkleTree) :
    List AccountId :=
  (store.accounts.keys ++ store.contractCode.keys ++ trees.keys).dedup

abbrev Trees := SparseMerkleTree × ExtTreeMap AccountId SparseMerkleTree

def insertAccountLeaf (store : StateStore) (trees : Trees) (id : AccountId) : Trees :=
  let (root, storageTrees) := storageRoot trees.2 id
  (trees.1.insertLeafHash id (store.accountLeaf id (root.getD Hash.ZERO)), storageTrees)

def buildFull (store : StateStore) : Trees :=
  let storageTrees := store.buildStorageTrees
  let (tree, storageTrees) := (store.committedIds storageTrees).foldl store.insertAccountLeaf
    (.withMaxDepth store.accountDepth, storageTrees)
  let tree := store.qaPending.toList.foldl (fun tree entry =>
    tree.insertLeafHash (QaPendingRecord.smtKey entry.1) entry.2.commitmentHash) tree
  let tree := RegistryId.all.foldl (fun tree id => match store.registryLeaf id with
    | some leaf => tree.insertLeafHash id.smtKey leaf
    | none => tree) tree
  (tree, storageTrees)

def stateRootFullRebuild (store : StateStore) : Hash :=
  let (tree, storageTrees) := store.buildFull
  let tree := storageTrees.toList.foldl (fun tree entry =>
    tree.insertLeafHash entry.1 (store.accountLeaf entry.1 entry.2.referenceRoot)) tree
  tree.referenceRoot

/-- Brings one changed storage slot up to date. -/
def refreshSlot (store : StateStore) (trees : ExtTreeMap AccountId SparseMerkleTree)
    (slot : AccountId × BitVec 256) : ExtTreeMap AccountId SparseMerkleTree :=
  match store.contractStorage[slot]? with
  | some value => insertSlot store.storageDepth trees slot.1 slot.2 value
  | none => deleteSlot trees slot.1 slot.2

/-- Brings the leaf of one changed account up to date. -/
def refreshAccount (store : StateStore) (trees : Trees) (id : AccountId) : Trees :=
  let (root, storageTrees) := storageRoot trees.2 id
  if store.accounts.contains id ∨ store.contractCode.contains id ∨ root.isSome then
    (trees.1.insertLeafHash id (store.accountLeaf id (root.getD Hash.ZERO)), storageTrees)
  else (trees.1.deleteRaw id, storageTrees)

def refreshLeaf (tree : SparseMerkleTree) (key : BitVec 256) : Option Hash → SparseMerkleTree
  | some leaf => tree.insertLeafHash key leaf
  | none => tree.deleteRaw key

def refreshQa (store : StateStore) (tree : SparseMerkleTree) (subject : Hash) :
    SparseMerkleTree :=
  refreshLeaf tree (QaPendingRecord.smtKey subject)
    (store.qaPending[subject]?.map QaPendingRecord.commitmentHash)

/-- The trees after the changes since the last root; the registries are refreshed always. -/
def refresh (store : StateStore) : Trees :=
  let storageTrees := store.dirtySlots.toList.foldl store.refreshSlot store.storageTrees
  let (tree, storageTrees) :=
    store.dirtyAccounts.toList.foldl store.refreshAccount (store.tree, storageTrees)
  let tree := store.dirtyQa.toList.foldl store.refreshQa tree
  let tree := RegistryId.all.foldl
    (fun tree id => refreshLeaf tree id.smtKey (store.registryLeaf id)) tree
  (tree, storageTrees)

def stateRoot (store : StateStore) : Hash × StateStore :=
  let (tree, storageTrees) := if store.rootSynced then store.refresh else store.buildFull
  let (root, tree) := tree.root
  (root, { store with
    tree := tree
    storageTrees := storageTrees
    rootSynced := true
    dirtyAccounts := ∅
    dirtySlots := ∅
    dirtyQa := ∅ })

/-- The routing depths that hold at a height; a change makes the next root a full one. -/
def atHeight (store : StateStore) (height : ℕ) : StateStore :=
  let storageDeep := store.storageTreeV2From.any (· ≤ height)
  let accountDeep := store.accountTreeV3From.any (· ≤ height)
  { store with
    storageTreeDeep := storageDeep
    accountTreeDeep := accountDeep
    rootSynced := store.rootSynced && storageDeep == store.storageTreeDeep &&
      accountDeep == store.accountTreeDeep }

def stateRootAtHeight (store : StateStore) (height : ℕ) : Hash × StateStore :=
  (store.atHeight height).stateRoot

end StateStore

end BoingNetwork
