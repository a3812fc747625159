import BoingNetwork.Library.TriePath
import BoingNetwork.Primitives.Checksum
import BoingNetwork.Primitives.Codecs
import BoingNetwork.State.SparseMerkle

/-!
# Merkle proofs

A proof carries a key, a leaf hash and the siblings from the root down to the leaf.  The
verifier folds the siblings from the leaf upwards and compares the result with a trusted
root.  It ties neither the sides of the path to the bits of the key nor its end to a leaf,
so what a verified proof says is stated in terms of what its path reads in the tree.
-/

namespace BoingNetwork

open SparseTrie Std

structure ProofStep where
  siblingHash : Hash
  pathBit : UInt8

structure MerkleProof where
  key : BitVec 256
  valueHash : Hash
  siblings : List ProofStep
  root : Hash

def ProofStep.toStep (step : ProofStep) : Step Hash :=
  ⟨step.siblingHash, step.pathBit != 0⟩

def ProofStep.ofStep (step : Step Hash) : ProofStep :=
  ⟨step.sibling, if step.goesRight then 1 else 0⟩

@[simp]
theorem ProofStep.toStep_ofStep (step : Step Hash) : (ofStep step).toStep = step := by
  obtain ⟨sibling, goesRight⟩ := step
  cases goesRight <;> rfl

variable [Crypto] {tree : SparseMerkleTree}

/-- Leaves and pairs are hashed with one function, both as 64 bytes. -/
def merkleHashing : Hashing (BitVec 256) Hash Hash Bytes where
  bit key depth := key.getMsbD depth
  empty := Hash.ZERO
  hash := Crypto.blake3
  leafInput key value := bytes32 key ++ bytes32 value
  pairInput left right := bytes32 left ++ bytes32 right

namespace MerkleProof

def computeRootFromProof (key : BitVec 256) (valueHash : Hash) (steps : List ProofStep) : Hash :=
  steps.reverse.foldl
    (fun current step =>
      if step.pathBit == 0 then merkleScheme.pair current step.siblingHash
      else merkleScheme.pair step.siblingHash current)
    (merkleScheme.leaf key valueHash)

def verifyAgainst (proof : MerkleProof) (trustedRoot : Hash) : Bool :=
  let computed := computeRootFromProof proof.key proof.valueHash proof.siblings
  computed == trustedRoot && proof.root == trustedRoot

def verify (proof : MerkleProof) : Bool := proof.verifyAgainst proof.root

omit [Crypto] in
def path (proof : MerkleProof) : List (Step Hash) := proof.siblings.map ProofStep.toStep

omit [Crypto] in
def entry (proof : MerkleProof) : BitVec 256 × Hash := (proof.key, proof.valueHash)

theorem computeRootFromProof_eq (key : BitVec 256) (valueHash : Hash) (steps : List ProofStep) :
    computeRootFromProof key valueHash steps =
      merkleHashing.pathDigest (key, valueHash) (steps.map ProofStep.toStep) := by
  rw [computeRootFromProof, List.foldl_reverse]
  induction steps with
  | nil => rfl
  | cons step steps ih =>
    rw [List.foldr_cons, ih, List.map_cons, Hashing.pathDigest, Hashing.combine]
    by_cases goesLeft : step.pathBit = 0
    · simp [goesLeft, ProofStep.toStep, merkleScheme, merkleHashing]
    · simp [goesLeft, ProofStep.toStep, merkleScheme, merkleHashing]

theorem verifyAgainst_iff (proof : MerkleProof) (trustedRoot : Hash) :
    proof.verifyAgainst trustedRoot ↔
      merkleHashing.pathDigest proof.entry proof.path = trustedRoot ∧ proof.root = trustedRoot := by
  rw [verifyAgainst, computeRootFromProof_eq]
  simp [entry, path]

/-- What is hashed for the root of the tree and by the verifier. -/
def inputs (proof : MerkleProof) (tree : SparseMerkleTree) : List Bytes :=
  merkleHashing.trieInputs tree.trie ++ merkleHashing.pathInputs proof.entry proof.path

/-- The path agrees with the hashes of the tree but does not end at one of its leaves: it stops
at a branch whose hashes are taken for a key and a value, or goes on below a leaf. -/
def Misreads (proof : MerkleProof) (tree : SparseMerkleTree) : Prop :=
  tree.trie.Reads merkleHashing proof.path proof.entry ∧ tree.trie.landing proof.path = none

end MerkleProof

namespace SparseMerkleTree

theorem root_eq_digest (tree : SparseMerkleTree) :
    tree.root.1 = tree.trie.digest merkleHashing.scheme :=
  (Trie.hashOf_spec merkleScheme tree.trie tree.cached).1

theorem mem_entries_iff (tree : SparseMerkleTree) (entry : BitVec 256 × Hash) :
    entry ∈ tree.trie.entries ↔ tree.leaves[entry.1]? = some entry.2 := by
  rw [← Trie.entries_strip, tree.trie_eq, Trie.mem_entries_canon,
    ← ExtTreeMap.mem_toList_iff_getElem?_eq_some]

/-! ## Soundness -/

theorem reads_of_verifyAgainst {proof : MerkleProof} (verifies : proof.verifyAgainst tree.root.1)
    (collisionFree : ¬ HashCollision Crypto.blake3 (proof.inputs tree)) :
    tree.trie.Reads merkleHashing proof.path proof.entry := by
  rw [MerkleProof.verifyAgainst_iff, root_eq_digest] at verifies
  exact Trie.reads_of_pathDigest_eq append_bytes32_inj collisionFree verifies.1

theorem eq_landing_of_reads {steps : List (Step Hash)} {entry landed : BitVec 256 × Hash}
    (lands : tree.trie.landing steps = some landed)
    (reads : tree.trie.Reads merkleHashing steps entry) : entry = landed :=
  Trie.Reads.eq_landing append_bytes32_inj lands reads

/-- A verified proof shows an entry of the tree, up to a collision, unless it is one that
misreads the tree. -/
theorem verifyAgainst_sound_iff (tree : SparseMerkleTree) (proof : MerkleProof) :
    (proof.verifyAgainst tree.root.1 →
        tree.leaves[proof.key]? = some proof.valueHash ∨
          HashCollision Crypto.blake3 (proof.inputs tree)) ↔
      ¬ (proof.root = tree.root.1 ∧ proof.Misreads tree ∧
          tree.leaves[proof.key]? ≠ some proof.valueHash ∧
          ¬ HashCollision Crypto.blake3 (proof.inputs tree)) := by
  constructor
  · rintro sound ⟨sameRoot, ⟨reads, -⟩, absent, collisionFree⟩
    have verifies : proof.verifyAgainst tree.root.1 := by
      rw [MerkleProof.verifyAgainst_iff, root_eq_digest]
      exact ⟨reads.pathDigest_eq, sameRoot.trans (root_eq_digest tree)⟩
    rcases sound verifies with present | collision
    · exact absent present
    · exact collisionFree collision
  · intro noForgery verifies
    by_contra refuted
    obtain ⟨absent, collisionFree⟩ := not_or.mp refuted
    have reads := reads_of_verifyAgainst verifies collisionFree
    refine noForgery ⟨((MerkleProof.verifyAgainst_iff _ _).mp verifies).2, ⟨reads, ?_⟩, absent,
      collisionFree⟩
    rw [Option.eq_none_iff_forall_ne_some]
    intro landed lands
    obtain rfl : proof.entry = landed := eq_landing_of_reads lands reads
    exact absent ((mem_entries_iff tree _).mp (Trie.mem_entries_of_landing lands))

/-! ## Completeness -/

/-- The siblings on the way to the key, and the tree with the hashes on that way cached. -/
def proofPath (tree : SparseMerkleTree) (key : BitVec 256) : List ProofStep × SparseMerkleTree :=
  ((Trie.proofPath merkleScheme key 0 tree.trie).1.map ProofStep.ofStep, {
    leaves := tree.leaves
    trie := (Trie.proofPath merkleScheme key 0 tree.trie).2
    maxDepth := tree.maxDepth
    trie_eq := (Trie.proofPath_spec _ key _ tree.cached 0).2.1.trans tree.trie_eq
    cached := (Trie.proofPath_spec _ key _ tree.cached 0).2.2 })

def prove (tree : SparseMerkleTree) (key : AccountId) :
    Option (MerkleProof × SparseMerkleTree) := do
  let valueHash ← tree.leaves[key]?
  let (root, hashed) := tree.root
  let (siblings, after) := hashed.proofPath key
  some (⟨key, valueHash, siblings, root⟩, after)

/-- The keys agree on the bits that route in the tree. -/
def SameRoute (tree : SparseMerkleTree) (key other : BitVec 256) : Prop :=
  ∀ index < tree.maxDepth, other.getMsbD index = key.getMsbD index

def IsSmallest (tree : SparseMerkleTree) (key : BitVec 256) : Prop :=
  ∀ other ∈ tree.leaves, tree.SameRoute key other → key ≤ other

theorem prove_eq_some {key : AccountId} {valueHash : Hash}
    (present : tree.leaves[key]? = some valueHash) :
    ∃ proof after, tree.prove key = some (proof, after) ∧ proof.entry = (key, valueHash) ∧
      proof.path = Trie.path merkleScheme key 0 tree.trie ∧ proof.root = tree.root.1 := by
  have samePath : (Trie.proofPath merkleScheme key 0 tree.root.2.trie).1 =
      Trie.path merkleScheme key 0 tree.trie := by
    rw [(Trie.proofPath_spec _ key _ tree.root.2.cached 0).1, ← Trie.path_strip,
      tree.root.2.trie_eq, ← Trie.path_strip _ _ tree.trie, tree.trie_eq]
    rfl
  refine ⟨⟨key, valueHash, (tree.root.2.proofPath key).1, tree.root.1⟩,
    (tree.root.2.proofPath key).2, by simp [prove, present], rfl, ?_, rfl⟩
  simp [MerkleProof.path, proofPath, samePath, Function.comp_def]

theorem landing_path {key : BitVec 256} (present : key ∈ tree.leaves) :
    ∃ landed, tree.trie.landing (Trie.path merkleScheme key 0 tree.trie) = some landed ∧
      tree.leaves[landed.1]? = some landed.2 ∧ tree.SameRoute key landed.1 ∧
      ∀ other ∈ tree.leaves, tree.SameRoute key other → landed.1 ≤ other := by
  have isKey : key ∈ tree.leaves.toList.map Prod.fst := by
    rw [ExtTreeMap.map_fst_toList_eq_keys]
    exact ExtTreeMap.mem_keys.mpr present
  have lands := Trie.landing_path_canon merkleScheme key tree.maxDepth 0 isKey
  rw [← tree.trie_eq, Trie.landing_strip, Trie.path_strip] at lands
  simp only [Nat.zero_add] at lands
  have sorted := (sorted_toList tree.leaves).filter fun entry => decide (∀ index < tree.maxDepth,
    merkleScheme.bit entry.1 index = merkleScheme.bit key index)
  have member : ∀ entry : BitVec 256 × Hash, entry ∈ tree.leaves.toList.filter (fun entry =>
      decide (∀ index < tree.maxDepth,
        merkleScheme.bit entry.1 index = merkleScheme.bit key index)) ↔
      tree.leaves[entry.1]? = some entry.2 ∧ tree.SameRoute key entry.1 := by
    intro entry
    rw [List.mem_filter, decide_eq_true_eq, ExtTreeMap.mem_toList_iff_getElem?_eq_some]
    rfl
  generalize tree.leaves.toList.filter _ = sharing at lands sorted member
  cases sharing with
  | nil =>
    have absent := member (key, tree.leaves[key])
    simp [SameRoute] at absent
  | cons landed rest =>
    obtain ⟨isLeaf, sameRoute⟩ := (member landed).mp (by simp)
    refine ⟨landed, lands, isLeaf, sameRoute, ?_⟩
    intro other isOther otherRoute
    have inSharing := (member (other, tree.leaves[other])).mpr ⟨by simp, otherRoute⟩
    rcases List.mem_cons.mp inSharing with same | later
    · rw [← same]
      exact BitVec.le_refl _
    · have before := (List.pairwise_cons.mp sorted).1 _ later
      exact BitVec.le_of_lt (compareOfLessAndEq_eq_lt.mp before)

theorem verifyAgainst_prove (tree : SparseMerkleTree) (key : AccountId) (valueHash : Hash)
    (present : tree.leaves[key]? = some valueHash) :
    ∃ proof after, tree.prove key = some (proof, after) ∧
      (tree.IsSmallest key → proof.verifyAgainst tree.root.1) ∧
      (¬ tree.IsSmallest key → proof.verifyAgainst tree.root.1 →
        HashCollision Crypto.blake3 (proof.inputs tree)) := by
  obtain ⟨proof, after, proved, isEntry, isPath, isRoot⟩ := prove_eq_some present
  have isKey : key ∈ tree.leaves := by
    rw [ExtTreeMap.mem_iff_isSome_getElem?, present]
    rfl
  obtain ⟨landed, lands, isLeaf, sameRoute, smallest⟩ := landing_path isKey
  have keyRoute : tree.SameRoute key key := fun _ _ => rfl
  refine ⟨proof, after, proved, ?_, ?_⟩
  · intro keySmallest
    have sameKey : landed.1 = key := by
      apply BitVec.le_antisymm (smallest key isKey keyRoute)
      refine keySmallest landed.1 ?_ sameRoute
      rw [ExtTreeMap.mem_iff_isSome_getElem?, isLeaf]
      rfl
    have isLanded : landed = proof.entry := by
      rw [isEntry]
      refine Prod.ext sameKey ?_
      rw [sameKey, present] at isLeaf
      exact (Option.some.inj isLeaf).symm
    have reads : tree.trie.Reads merkleHashing _ landed := Trie.reads_path key tree.trie 0 lands
    rw [MerkleProof.verifyAgainst_iff, isPath, ← isLanded]
    exact ⟨reads.pathDigest_eq.trans (root_eq_digest tree).symm, isRoot⟩
  · intro notSmallest verifies
    by_contra collisionFree
    have reads := reads_of_verifyAgainst verifies collisionFree
    rw [isPath] at reads
    have isLanded : proof.entry = landed := eq_landing_of_reads lands reads
    rw [← isLanded, isEntry] at smallest
    exact notSmallest smallest

theorem isSmallest_of_deep (deep : tree.maxDepth = DEEP_MAX_DEPTH) (key : BitVec 256) :
    tree.IsSmallest key := by
  intro other _ sameRoute
  have same : other = key := by
    apply BitVec.eq_of_getMsbD_eq
    intro index inRange
    exact sameRoute index (by rw [deep]; exact inRange)
  rw [same]
  exact BitVec.le_refl _

/-- Every present key has a proof that verifies at full depth.  At the legacy depth this holds of
the smallest key with its first 64 bits and, up to a collision, of no other key with them. -/
theorem prove_complete (tree : SparseMerkleTree) (key : AccountId)
    (present : key ∈ tree.leaves) :
    ∃ proof after, tree.prove key = some (proof, after) ∧
      (tree.maxDepth = DEEP_MAX_DEPTH → proof.verifyAgainst tree.root.1) ∧
      (tree.maxDepth = LEGACY_MAX_DEPTH →
        (tree.IsSmallest key → proof.verifyAgainst tree.root.1) ∧
        (¬ tree.IsSmallest key → proof.verifyAgainst tree.root.1 →
          HashCollision Crypto.blake3 (proof.inputs tree))) := by
  obtain ⟨proof, after, proved, complete, sound⟩ :=
    verifyAgainst_prove tree key _ (ExtTreeMap.getElem?_eq_some_getElem present)
  exact ⟨proof, after, proved, fun deep => complete (isSmallest_of_deep deep key),
    fun _ => ⟨complete, sound⟩⟩

end SparseMerkleTree

end BoingNetwork

namespace BoingNetwork

section TwoLeaves

open Checksum

/-- A leaf on either side of the root. -/
def twoLeaves : SparseMerkleTree :=
  ((SparseMerkleTree.withMaxDepth DEEP_MAX_DEPTH).insertLeafHash 0 1).insertLeafHash (1 <<< 255) 2

/-- The hashes of the two leaves, shown as a key and a value. -/
def branchProof : MerkleProof :=
  ⟨merkleScheme.leaf 0 1, merkleScheme.leaf (1 <<< 255) 2, [], twoLeaves.root.1⟩

theorem branch_verifies_as_leaf :
    twoLeaves.maxDepth = DEEP_MAX_DEPTH ∧ branchProof.verifyAgainst twoLeaves.root.1 ∧
      twoLeaves.leaves[branchProof.key]? ≠ some branchProof.valueHash ∧
      ¬ HashCollision Crypto.blake3 (branchProof.inputs twoLeaves) := by
  decide +kernel

theorem prove_twoLeaves :
    ∃ proof after, twoLeaves.prove 0 = some (proof, after) ∧
      (twoLeaves.maxDepth = DEEP_MAX_DEPTH → proof.verifyAgainst twoLeaves.root.1) ∧
      (twoLeaves.maxDepth = LEGACY_MAX_DEPTH →
        (twoLeaves.IsSmallest 0 → proof.verifyAgainst twoLeaves.root.1) ∧
        (¬ twoLeaves.IsSmallest 0 → proof.verifyAgainst twoLeaves.root.1 →
          HashCollision Crypto.blake3 (proof.inputs twoLeaves))) :=
  SparseMerkleTree.prove_complete twoLeaves 0 (by decide +kernel)

end TwoLeaves

end BoingNetwork
