import BoingNetwork.Library.SparseTrie
import BoingNetwork.Primitives.Transaction

/-!
# Sparse Merkle trees

The tree of 32-byte keys and leaf hashes that commits accounts, and one for each
contract's storage.  The trie mirrors the leaves, so the incremental root is the root
that the sorted leaves determine.
-/

namespace BoingNetwork

open SparseTrie Std

/-- Keys are split on their first 64 bits; entries that share them are bucketed. -/
def LEGACY_MAX_DEPTH : ℕ := 64

/-- Every bit of a key routes. -/
def DEEP_MAX_DEPTH : ℕ := 256

variable [Crypto] (tree : SparseMerkleTree) (maxDepth : ℕ)

/-- Routing by the bits of the key, first bit first, and the hashes of the tree. -/
def merkleScheme : Scheme (BitVec 256) Hash Hash where
  bit key depth := key.getMsbD depth
  empty := Hash.ZERO
  leaf key value := Crypto.blake3 (bytes32 key ++ bytes32 value)
  pair left right := Crypto.blake3 (bytes32 left ++ bytes32 right)

structure SparseMerkleTree where
  leaves : ExtTreeMap (BitVec 256) Hash
  trie : Trie (BitVec 256) Hash Hash
  maxDepth : ℕ
  trie_eq : trie.strip = Trie.canon merkleScheme maxDepth 0 leaves.toList
  cached : trie.Cached merkleScheme

namespace SparseMerkleTree

section Leaves

omit [Crypto]

variable (leaves : ExtTreeMap (BitVec 256) Hash) (key : BitVec 256)

theorem sorted_toList : Sorted leaves.toList :=
  ExtTreeMap.ordered_keys_toList

theorem toList_insert (value : Hash) :
    (leaves.insert key value).toList = insertEntry key value leaves.toList := by
  refine Sorted.ext (sorted_toList _) ((sorted_toList leaves).insertEntry key value) ?_
  rintro ⟨otherKey, otherValue⟩
  rw [mem_insertEntry (sorted_toList leaves), ExtTreeMap.mem_toList_iff_getElem?_eq_some,
    ExtTreeMap.mem_toList_iff_getElem?_eq_some, ExtTreeMap.getElem?_insert]
  grind

theorem toList_erase : (leaves.erase key).toList = removeEntry key leaves.toList := by
  refine Sorted.ext (sorted_toList _) ((sorted_toList leaves).filter _) ?_
  rintro ⟨otherKey, otherValue⟩
  rw [removeEntry, List.mem_filter, ExtTreeMap.mem_toList_iff_getElem?_eq_some,
    ExtTreeMap.mem_toList_iff_getElem?_eq_some, ExtTreeMap.getElem?_erase]
  grind

theorem nodup_keys : (leaves.toList.map Prod.fst).Nodup := by
  rw [ExtTreeMap.map_fst_toList_eq_keys]
  exact ExtTreeMap.nodup_keys

end Leaves

/-- An empty tree that routes on the first `maxDepth` bits. -/
def withMaxDepth (maxDepth : ℕ) : SparseMerkleTree where
  leaves := ∅
  trie := .nil
  maxDepth := maxDepth
  trie_eq := by
    rw [ExtTreeMap.toList_eq_nil_iff.mpr rfl, Trie.canon_nil]
    rfl
  cached := trivial

/-- An unchanged leaf keeps every cached node hash. -/
def insertLeafHash (tree : SparseMerkleTree) (key : BitVec 256) (valueHash : Hash) :
    SparseMerkleTree :=
  if tree.leaves[key]? = some valueHash then tree
  else {
    leaves := tree.leaves.insert key valueHash
    trie := tree.trie.insert merkleScheme tree.maxDepth key valueHash 0
    maxDepth := tree.maxDepth
    trie_eq := by
      rw [Trie.insert_strip, tree.trie_eq, toList_insert]
      exact Trie.insert_canon _ _ _ _ _ _ (Nat.add_zero _) (sorted_toList tree.leaves)
    cached := Trie.insert_cached _ _ _ _ _ tree.cached _ }

def deleteRaw (tree : SparseMerkleTree) (key : BitVec 256) : SparseMerkleTree :=
  if tree.leaves.contains key then {
    leaves := tree.leaves.erase key
    trie := tree.trie.remove merkleScheme key 0
    maxDepth := tree.maxDepth
    trie_eq := by
      rw [Trie.remove_strip, tree.trie_eq, toList_erase]
      exact Trie.remove_canon _ _ _ _ _ (nodup_keys tree.leaves)
    cached := Trie.remove_cached _ _ _ tree.cached _ }
  else tree

def root (tree : SparseMerkleTree) : Hash × SparseMerkleTree :=
  ((tree.trie.hashOf merkleScheme).1, {
    leaves := tree.leaves
    trie := (tree.trie.hashOf merkleScheme).2
    maxDepth := tree.maxDepth
    trie_eq := (Trie.hashOf_spec _ _ tree.cached).2.1.trans tree.trie_eq
    cached := (Trie.hashOf_spec _ _ tree.cached).2.2 })

/-- The root by recursive partition of the leaves in the order of their keys. -/
def referenceRoot (tree : SparseMerkleTree) : Hash :=
  Trie.buildRoot merkleScheme tree.maxDepth 0 tree.leaves.toList

def isEmpty (tree : SparseMerkleTree) : Bool := tree.leaves.isEmpty

def hashStorageValue (value : BitVec 256) : Hash := Crypto.blake3 (bytes32 value)

def insertStorageSlot (tree : SparseMerkleTree) (slot value : BitVec 256) : SparseMerkleTree :=
  tree.insertLeafHash slot (hashStorageValue value)

theorem root_eq_referenceRoot : tree.root.1 = tree.referenceRoot := by
  have spec := Trie.hashOf_spec merkleScheme tree.trie tree.cached
  calc
    tree.root.1 = tree.trie.digest merkleScheme := spec.1
    _ = tree.trie.strip.digest merkleScheme := (Trie.digest_strip _ _).symm
    _ = tree.referenceRoot := by rw [tree.trie_eq, Trie.digest_canon, referenceRoot]

@[simp]
theorem root_leaves : tree.root.2.leaves = tree.leaves := rfl

@[simp]
theorem withMaxDepth_leaves : (withMaxDepth maxDepth).leaves = ∅ := rfl

section

variable (tree : SparseMerkleTree) (key : BitVec 256) (valueHash : Hash)

@[simp]
theorem insertLeafHash_maxDepth : (tree.insertLeafHash key valueHash).maxDepth = tree.maxDepth := by
  unfold insertLeafHash
  split <;> rfl

@[simp]
theorem deleteRaw_maxDepth : (tree.deleteRaw key).maxDepth = tree.maxDepth := by
  unfold deleteRaw
  split <;> rfl

@[simp]
theorem insertLeafHash_leaves :
    (tree.insertLeafHash key valueHash).leaves = tree.leaves.insert key valueHash := by
  unfold insertLeafHash
  split
  next unchanged =>
    apply ExtTreeMap.ext_getElem?
    intro other
    grind
  next => rfl

@[simp]
theorem deleteRaw_leaves : (tree.deleteRaw key).leaves = tree.leaves.erase key := by
  unfold deleteRaw
  split
  next => rfl
  next absent =>
    apply ExtTreeMap.ext_getElem?
    intro other
    grind

end

@[simp]
theorem insertStorageSlot_leaves (slot value : BitVec 256) :
    (tree.insertStorageSlot slot value).leaves = tree.leaves.insert slot (hashStorageValue value) :=
  insertLeafHash_leaves ..

@[simp]
theorem insertStorageSlot_maxDepth (slot value : BitVec 256) :
    (tree.insertStorageSlot slot value).maxDepth = tree.maxDepth :=
  insertLeafHash_maxDepth ..

theorem root_congr {first second : SparseMerkleTree} (leaves : first.leaves = second.leaves)
    (depth : first.maxDepth = second.maxDepth) : first.root.1 = second.root.1 := by
  rw [root_eq_referenceRoot, root_eq_referenceRoot, referenceRoot, referenceRoot, leaves, depth]

end SparseMerkleTree

def hashAccountLeaf (state : AccountState) (codeHash storageRoot : Hash) : Hash :=
  Crypto.blake3 (leBytes 16 state.balance ++ leBytes 8 state.nonce ++ leBytes 16 state.stake ++
    leBytes 16 state.pendingUnbond ++ leBytes 8 state.unbondUnlockHeight ++ bytes32 codeHash ++
    bytes32 storageRoot)

def hashContractCode (bytecode : Bytes) : Hash :=
  if bytecode.isEmpty then Hash.ZERO else Crypto.blake3 bytecode

end BoingNetwork
