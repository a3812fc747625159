import BoingNetwork.Library.MerklePath
import BoingNetwork.Primitives.Blobs
import BoingNetwork.Primitives.Checksum
import BoingNetwork.Primitives.Codecs

/-!
# Samples of the chunks of a media blob

A blob is cut into chunks, and a Merkle root is taken over their hashes.  A sample shows one
chunk hash with the siblings up to the root.  The verifier folds as many siblings as it is
given, so what an accepted sample says depends on whether its path is as long as the tree is
deep.
-/

namespace BoingNetwork

/-- The chunks of a blob; the last one is filled up with zeros. -/
def mediaBlobDataChunks (data : Bytes) : List Bytes :=
  (data.toChunks MEDIA_BLOB_DAS_CHUNK_BYTES).map fun chunk =>
    chunk ++ List.replicate (MEDIA_BLOB_DAS_CHUNK_BYTES - chunk.length) 0

section Samples

variable [Crypto] {leaves : List Hash}

def chunkHashOf (bytes : Bytes) : Hash := Crypto.blake3 bytes

def chunkHashing : MerkleList.Hashing Bytes Hash Bytes where
  hash := Crypto.blake3
  leafInput := id
  pairInput left right := asciiBytes "BOING_BLOB_CHUNK_MERKLE_V1" ++ bytes32 left ++ bytes32 right

theorem chunkHashing_pairInput_inj (left right otherLeft otherRight : Hash)
    (same : chunkHashing.pairInput left right = chunkHashing.pairInput otherLeft otherRight) :
    left = otherLeft ∧ right = otherRight := by
  simp only [chunkHashing, List.append_assoc] at same
  exact append_bytes32_inj _ _ _ _ (List.append_cancel_left same)

/-- Each level is hashed pair by pair, an odd last hash with itself, until one hash is left. -/
def mediaBlobChunksMerkleRoot (leaves : List Hash) : Hash :=
  if leaves.isEmpty then Hash.ZERO else chunkHashing.reduce Hash.ZERO leaves.length leaves

theorem climb_eq_mediaBlobChunksMerkleRoot (nonempty : leaves ≠ []) :
    chunkHashing.climb (Nat.clog 2 leaves.length) leaves = [mediaBlobChunksMerkleRoot leaves] := by
  rw [mediaBlobChunksMerkleRoot, if_neg (by simpa using nonempty)]
  exact MerkleList.Hashing.reduce_eq_climb _ nonempty
    (Nat.clog_le_of_le_pow Nat.lt_two_pow_self.le)

def mediaBlobChunkMerkleProof (leaves : List Hash) (index : ℕ) : Except BlobError (List Hash) :=
  if leaves.isEmpty ∨ index ≥ leaves.length then
    .error (.chunkIndexOutOfRange index leaves.length)
  else .ok (chunkHashing.siblings leaves.length leaves index)

namespace MediaBlobDasSample

theorem climb_eq_ascend (hash : Hash) (index : ℕ) (siblings : List Hash) :
    climb hash index siblings = chunkHashing.ascend hash index siblings := by
  induction siblings generalizing hash index with
  | nil => rfl
  | cons sibling siblings ih =>
    rw [climb, ih, MerkleList.Hashing.ascend]
    split <;> rfl

def verifyWithChunk (sample : MediaBlobDasSample) (chunkBytes : Bytes) : Except BlobError Unit :=
  if chunkHashOf chunkBytes ≠ sample.chunkHash then .error .dasProofInvalid
  else sample.verify

theorem verify_eq_ok_iff (sample : MediaBlobDasSample) :
    sample.verify = .ok () ↔ sample.chunkIndex < sample.chunkCount ∧
      chunkHashing.ascend sample.chunkHash sample.chunkIndex sample.siblings =
        sample.chunksRoot := by
  rw [verify, climb_eq_ascend]
  split
  next outside =>
    simp only [reduceCtorEq, false_iff, not_and]
    omega
  next inside =>
    split
    next other => simp [other]
    next same =>
      have within : sample.chunkIndex < sample.chunkCount := by omega
      simp [within, not_not.mp same]

/-- What the verifier hashes. -/
def pathInputs (sample : MediaBlobDasSample) : List Bytes :=
  chunkHashing.ascendInputs sample.chunkHash sample.chunkIndex sample.siblings

/-- What is hashed for the root of the leaves and by the verifier. -/
def inputs (sample : MediaBlobDasSample) (leaves : List Hash) : List Bytes :=
  chunkHashing.pairInputs (Nat.clog 2 leaves.length) leaves ++ sample.pathInputs

omit [Crypto] in
def IsFor (sample : MediaBlobDasSample) (leaves : List Hash) (root : Hash) : Prop :=
  sample.chunkCount = leaves.length ∧ sample.chunksRoot = root

variable {sample : MediaBlobDasSample}

theorem ne_nil_of_verify (about : sample.IsFor leaves (mediaBlobChunksMerkleRoot leaves))
    (verifies : sample.verify = .ok ()) : leaves ≠ [] := by
  have within := (sample.verify_eq_ok_iff.mp verifies).1
  rintro rfl
  rw [about.1, List.length_nil] at within
  omega

/-- An accepted sample with a path as long as the tree is deep shows the leaf. -/
theorem getElem?_of_verify (about : sample.IsFor leaves (mediaBlobChunksMerkleRoot leaves))
    (collisionFree : ¬ HashCollision Crypto.blake3 (sample.inputs leaves))
    (isLength : sample.siblings.length = Nat.clog 2 leaves.length)
    (verifies : sample.verify = .ok ()) :
    leaves[sample.chunkIndex]? = some sample.chunkHash := by
  have isRoot := climb_eq_mediaBlobChunksMerkleRoot (ne_nil_of_verify about verifies)
  obtain ⟨within, leads⟩ := sample.verify_eq_ok_iff.mp verifies
  rw [about.2] at leads
  rw [about.1] at within
  have treeInputs : chunkHashing.pairInputs (Nat.clog 2 leaves.length) leaves ⊆
      sample.inputs leaves := List.subset_append_left _ _
  rw [← isLength] at treeInputs isRoot
  have shown := MerkleList.Hashing.getElem?_complete_of_ascend chunkHashing_pairInput_inj
    collisionFree treeInputs (List.subset_append_right _ _) isRoot leads
  have fits : leaves.length ≤ 2 ^ sample.siblings.length :=
    (Nat.clog_le_iff_le_pow (by decide)).mp isLength.ge
  obtain ⟨filling, isFilled⟩ := MerkleList.complete_extends sample.siblings.length leaves
  rwa [Nat.mod_eq_of_lt (by omega), ← isFilled, List.getElem?_append_left within] at shown

/-- Every hash of every level above the leaves is accepted, with the path from there. -/
theorem verify_innerHash {levels depth index : ℕ} {hash : Hash}
    (isDepth : Nat.clog 2 leaves.length = levels + depth)
    (isInner : (chunkHashing.climb levels leaves)[index]? = some hash) (blobId : BlobId) :
    ∃ siblings, siblings.length = depth ∧
      verify ⟨blobId, index, leaves.length, hash, mediaBlobChunksMerkleRoot leaves, siblings⟩ =
        .ok () := by
  have inside := (List.getElem?_eq_some_iff.mp isInner).1
  obtain ⟨innerDepth, shorter⟩ := @MerkleList.Hashing.clog_length_climb _ _ _ _ chunkHashing _ _
    isDepth
  have nonempty : leaves ≠ [] := List.ne_nil_of_length_pos (by omega)
  obtain ⟨length, leads⟩ := MerkleList.Hashing.ascend_siblings innerDepth.le isInner
  rw [innerDepth, ← MerkleList.Hashing.climb_add, ← isDepth,
    climb_eq_mediaBlobChunksMerkleRoot nonempty, List.cons.injEq] at leads
  exact ⟨_, length.trans innerDepth, (verify_eq_ok_iff _).mpr
    ⟨inside.trans_le shorter, leads.1⟩⟩

/-- The path of a leaf is as long as the tree is deep and is accepted. -/
theorem verify_merkleProof {index : ℕ} {hash : Hash} {siblings : List Hash}
    (isLeaf : leaves[index]? = some hash)
    (proved : mediaBlobChunkMerkleProof leaves index = .ok siblings) (blobId : BlobId) :
    siblings.length = Nat.clog 2 leaves.length ∧
      verify ⟨blobId, index, leaves.length, hash, mediaBlobChunksMerkleRoot leaves, siblings⟩ =
        .ok () := by
  have inside := (List.getElem?_eq_some_iff.mp isLeaf).1
  have nonempty : leaves ≠ [] := List.ne_nil_of_length_pos (by omega)
  rw [mediaBlobChunkMerkleProof, if_neg (by simp [nonempty, inside])] at proved
  obtain rfl := Except.ok.inj proved
  have enough : Nat.clog 2 leaves.length ≤ leaves.length :=
    Nat.clog_le_of_le_pow Nat.lt_two_pow_self.le
  obtain ⟨depth, leads⟩ := @MerkleList.Hashing.ascend_siblings _ _ _ _ _ chunkHashing _ _ enough
    isLeaf
  rw [climb_eq_mediaBlobChunksMerkleRoot nonempty, List.cons.injEq] at leads
  exact ⟨depth, (verify_eq_ok_iff _).mpr ⟨inside, leads.1⟩⟩

/-- For every leaf of a tree there is a path, and its sample is accepted, also with the bytes of
the chunk. -/
theorem merkleProof_accepted (leaves : List Hash) (index : Fin leaves.length) (blobId : BlobId) :
    ∃ siblings, mediaBlobChunkMerkleProof leaves index = .ok siblings ∧
      let sample : MediaBlobDasSample := ⟨blobId, index, leaves.length, leaves.get index,
        mediaBlobChunksMerkleRoot leaves, siblings⟩
      sample.verify = .ok () ∧ ∀ bytes, chunkHashOf bytes = leaves.get index →
        sample.verifyWithChunk bytes = .ok () := by
  have nonempty : leaves ≠ [] := List.ne_nil_of_length_pos index.pos
  have proved : mediaBlobChunkMerkleProof leaves index =
      .ok (chunkHashing.siblings leaves.length leaves index) := by
    rw [mediaBlobChunkMerkleProof, if_neg (by simp [nonempty])]
  have isLeaf : leaves[index.val]? = some (leaves.get index) := List.getElem?_eq_getElem index.isLt
  have verifies := (verify_merkleProof isLeaf proved blobId).2
  refine ⟨_, proved, verifies, fun bytes isChunk => ?_⟩
  rw [verifyWithChunk, if_neg (not_not.mpr isChunk), verifies]

/-- Up to a collision, an accepted sample whose path is as long as the tree is deep shows the
leaf at its index.  The verifier does not check the length: for every shorter one it accepts
each hash of the inner level that the path starts from. -/
theorem sample_shows_leaf (leaves : List Hash) :
    (∀ sample : MediaBlobDasSample, sample.IsFor leaves (mediaBlobChunksMerkleRoot leaves) →
      sample.siblings.length = Nat.clog 2 leaves.length → sample.verify = .ok () →
        sample.chunkIndex < leaves.length ∧ leaves[sample.chunkIndex]? = some sample.chunkHash ∨
          HashCollision Crypto.blake3 (sample.inputs leaves)) ∧
    ∀ (levels depth index : ℕ) (hash : Hash) (blobId : BlobId),
      Nat.clog 2 leaves.length = levels + depth →
      (chunkHashing.climb levels leaves)[index]? = some hash →
        ∃ siblings, siblings.length = depth ∧ verify ⟨blobId, index, leaves.length, hash,
          mediaBlobChunksMerkleRoot leaves, siblings⟩ = .ok () := by
  refine ⟨fun sample about isLength verifies => ?_,
    fun levels depth index hash blobId isDepth isInner => verify_innerHash isDepth isInner blobId⟩
  by_cases collision : HashCollision Crypto.blake3 (sample.inputs leaves)
  · exact .inr collision
  · left
    have isLeaf := getElem?_of_verify about collision isLength verifies
    exact ⟨(List.getElem?_eq_some_iff.mp isLeaf).1, isLeaf⟩

end MediaBlobDasSample

end Samples

section TwoLeaves

open Checksum

/-- The root of two leaves, shown as the hash of the first chunk. -/
def rootAsChunk : MediaBlobDasSample where
  blobId := 0
  chunkIndex := 0
  chunkCount := 2
  chunkHash := mediaBlobChunksMerkleRoot [1, 2]
  chunksRoot := mediaBlobChunksMerkleRoot [1, 2]
  siblings := []

/-- The verifier accepts the root as a chunk hash, and also with the bytes of that chunk. -/
theorem root_verifies_as_chunk :
    rootAsChunk.IsFor [1, 2] (mediaBlobChunksMerkleRoot [1, 2]) ∧ rootAsChunk.verify = .ok () ∧
      rootAsChunk.verifyWithChunk (chunkHashing.pairInput 1 2) = .ok () ∧
      ([1, 2] : List Hash)[rootAsChunk.chunkIndex]? ≠ some rootAsChunk.chunkHash ∧
      ¬ HashCollision Crypto.blake3 (rootAsChunk.inputs [1, 2]) := by
  refine ⟨⟨rfl, rfl⟩, by decide +kernel, by decide +kernel, by decide +kernel, ?_⟩
  rintro ⟨first, isFirst, second, isSecond, differ, -⟩
  have single : rootAsChunk.inputs [1, 2] = [chunkHashing.pairInput 1 2] := by decide +kernel
  rw [single, List.mem_singleton] at isFirst isSecond
  exact differ (isFirst.trans isSecond.symm)

def firstOfTwo : MediaBlobDasSample := ⟨0, 0, 2, 1, mediaBlobChunksMerkleRoot [1, 2], [2]⟩

theorem firstOfTwo_shows_leaf :
    firstOfTwo.verify = .ok () ∧
      (firstOfTwo.chunkIndex < 2 ∧
          ([1, 2] : List Hash)[firstOfTwo.chunkIndex]? = some firstOfTwo.chunkHash ∨
        HashCollision Crypto.blake3 (firstOfTwo.inputs [1, 2])) := by
  have verifies : firstOfTwo.verify = .ok () := by decide +kernel
  exact ⟨verifies, (MediaBlobDasSample.sample_shows_leaf [1, 2]).1 firstOfTwo ⟨rfl, rfl⟩
    (by decide +kernel) verifies⟩

end TwoLeaves

end BoingNetwork
