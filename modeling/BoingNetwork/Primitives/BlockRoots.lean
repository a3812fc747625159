import BoingNetwork.Library.MerklePath
import BoingNetwork.Primitives.Block
import BoingNetwork.Primitives.Checksum
import BoingNetwork.Primitives.Receipts

/-!
# Transaction and receipt roots

The header of a block commits to its transactions and receipts by Merkle roots over their
hashes, and a level of odd length is filled up with its last hash.
-/

namespace BoingNetwork

open Bincode

variable [Crypto] {Leaf : Type} (serialize : Leaf → Bytes)

def hashPair (left right : Hash) : Hash := Crypto.blake3 (bytes32 left ++ bytes32 right)

/-- Reduces level by level; the first argument bounds the number of levels. -/
def merkleRootImpl : ℕ → List Hash → Hash
  | _, [hash] => hash
  | 0, _ => Hash.ZERO
  | levels + 1, hashes =>
    merkleRootImpl levels ((MerkleList.pairUp hashes).map fun (left, right) => hashPair left right)

def txRoot (txs : List Transaction) : Hash :=
  if txs.isEmpty then Hash.ZERO else merkleRootImpl txs.length (txs.map Transaction.id)

def receiptLeafHash (receipt : ExecutionReceipt) : Hash := Crypto.blake3 receipt.serialize

def receiptsRoot (receipts : List ExecutionReceipt) : Hash :=
  if receipts.isEmpty then Hash.ZERO
  else merkleRootImpl receipts.length (receipts.map receiptLeafHash)

/-! ## The roots as Merkle roots of lists -/

/-- Leaves are hashed by their encoding. -/
def rootHashing {Leaf : Type} (serialize : Leaf → Bytes) : MerkleList.Hashing Leaf Hash Bytes where
  hash := Crypto.blake3
  leafInput := serialize
  pairInput left right := bytes32 left ++ bytes32 right

def rootInputs {Leaf : Type} (serialize : Leaf → Bytes) (leaves : List Leaf) : List Bytes :=
  (rootHashing serialize).rootInputs leaves

theorem merkleRootImpl_eq_reduce (levels : ℕ) (hashes : List Hash) :
    merkleRootImpl levels hashes = (rootHashing serialize).reduce Hash.ZERO levels hashes := by
  fun_induction merkleRootImpl levels hashes with
  | case1 levels hash => rw [MerkleList.Hashing.reduce]
  | case2 hashes several => rw [MerkleList.Hashing.reduce]; exact several
  | case3 levels hashes several ih =>
    rw [ih, MerkleList.Hashing.reduce]
    · rfl
    · exact several

theorem root_eq_some {leaves : List Leaf} (nonempty : leaves ≠ []) :
    (rootHashing serialize).root leaves = some (merkleRootImpl leaves.length
      (leaves.map fun leaf => Crypto.blake3 (serialize leaf))) := by
  let hashes := (rootHashing serialize).leafHashes leaves
  have length : hashes.length = leaves.length := List.length_map _
  have climbed : (rootHashing serialize).climb (Nat.clog 2 hashes.length) hashes =
      [(rootHashing serialize).reduce Hash.ZERO leaves.length hashes] := by
    apply MerkleList.Hashing.reduce_eq_climb
    · simpa [hashes, MerkleList.Hashing.leafHashes] using nonempty
    · rw [length]
      exact Nat.clog_le_of_le_pow Nat.lt_two_pow_self.le
  rw [length] at climbed
  rw [merkleRootImpl_eq_reduce serialize, MerkleList.Hashing.root, climbed]
  rfl

def listRoot {Leaf : Type} (serialize : Leaf → Bytes) (leaves : List Leaf) : Hash :=
  ((rootHashing serialize).root leaves).getD Hash.ZERO

theorem txRoot_eq_listRoot (txs : List Transaction) :
    txRoot txs = listRoot Transaction.serialize txs := by
  cases txs with
  | nil => rfl
  | cons tx txs =>
    rw [listRoot, root_eq_some _ (List.cons_ne_nil tx txs)]
    rfl

theorem receiptsRoot_eq_listRoot (receipts : List ExecutionReceipt) :
    receiptsRoot receipts = listRoot ExecutionReceipt.serialize receipts := by
  cases receipts with
  | nil => rfl
  | cons receipt receipts =>
    rw [listRoot, root_eq_some _ (List.cons_ne_nil receipt receipts)]
    rfl

/-! ## What the roots commit to -/

/-- Padding makes the lists equal, or one has no leaves and the other the zero root. -/
def Indistinct {Leaf : Type} (serialize : Leaf → Bytes) (xs ys : List Leaf) : Prop :=
  MerkleList.padded xs = MerkleList.padded ys ∨
    (xs = [] ∨ ys = []) ∧ listRoot serialize xs = listRoot serialize ys

theorem listRoot_eq_iff (codec : Codec UInt8 Leaf) {xs ys : List Leaf}
    (xsValid : ∀ leaf ∈ xs, codec.Valid leaf) (ysValid : ∀ leaf ∈ ys, codec.Valid leaf)
    (noPair : ∀ leaf, (codec.encode leaf).length ≠ 64)
    (collisionFree : ¬ HashCollision Crypto.blake3
      (rootInputs codec.encode xs ++ rootInputs codec.encode ys)) :
    listRoot codec.encode xs = listRoot codec.encode ys ↔ Indistinct codec.encode xs ys := by
  by_cases empty : xs = [] ∨ ys = []
  · rw [Indistinct, and_iff_right empty, or_iff_right_of_imp]
    intro samePadded
    have bothEmpty : xs = ys := by
      rcases empty with rfl | rfl
      · exact ((MerkleList.complete_eq_nil_iff _ ys).mp samePadded.symm).symm
      · exact (MerkleList.complete_eq_nil_iff _ xs).mp samePadded
    rw [bothEmpty]
  · rw [not_or] at empty
    have pairInjective : ∀ left right otherLeft otherRight : Hash,
        bytes32 left ++ bytes32 right = bytes32 otherLeft ++ bytes32 otherRight →
          left = otherLeft ∧ right = otherRight := by
      intro left right otherLeft otherRight same
      obtain ⟨sameLeft, sameRight⟩ := wordCodec.append_inj trivial trivial same
      exact ⟨sameLeft, wordCodec.encode_injective trivial trivial sameRight⟩
    have law : (rootHashing codec.encode).root xs = (rootHashing codec.encode).root ys ↔
        MerkleList.padded xs = MerkleList.padded ys := MerkleList.Hashing.root_eq_iff pairInjective
      (fun x isX y isY => codec.encode_injective (xsValid x isX) (ysValid y isY))
      (by
        intro leaf _ left right same
        apply noPair leaf
        change codec.encode leaf = bytes32 left ++ bytes32 right at same
        simp [same])
      empty.1 empty.2 collisionFree
    rw [Indistinct, or_iff_left (fun both => both.1.elim empty.1 empty.2), ← law, listRoot,
      listRoot, root_eq_some _ empty.1, root_eq_some _ empty.2, Option.some.injEq,
      Option.getD_some, Option.getD_some]

theorem txRoot_eq_of_hash_eq {block other : Block}
    (collisionFree : ¬ HashCollision Crypto.blake3
      [block.header.serialize, other.header.serialize])
    (same : block.hash = other.hash) : block.header.txRoot = other.header.txRoot := by
  have sameHeader := HashCollision.eq_of_not collisionFree (by simp) (by simp) same
  simp only [BlockHeader.serialize, List.append_assoc] at sameHeader
  obtain ⟨-, sameHeader⟩ := List.append_inj sameHeader (by simp)
  obtain ⟨-, sameHeader⟩ := List.append_inj sameHeader (by simp)
  obtain ⟨-, sameHeader⟩ := List.append_inj sameHeader (by simp)
  obtain ⟨-, sameHeader⟩ := List.append_inj sameHeader (by simp)
  exact (wordCodec.append_inj trivial trivial sameHeader).1

/-- A root fixes its list up to padding: the property fails exactly for two lists that
padding does not tell apart. -/
theorem roots_fix_lists_iff :
    (∀ xs ys : List Transaction, (∀ tx ∈ xs, tx.Fits) → (∀ tx ∈ ys, tx.Fits) →
      ((txRoot xs = txRoot ys → xs = ys ∨ HashCollision Crypto.blake3
          (rootInputs Transaction.serialize xs ++ rootInputs Transaction.serialize ys)) ↔
        ¬ (xs ≠ ys ∧ Indistinct Transaction.serialize xs ys ∧ ¬ HashCollision Crypto.blake3
          (rootInputs Transaction.serialize xs ++ rootInputs Transaction.serialize ys)))) ∧
    (∀ xs ys : List ExecutionReceipt, (∀ receipt ∈ xs, receipt.Fits) →
      (∀ receipt ∈ ys, receipt.Fits) →
      ((receiptsRoot xs = receiptsRoot ys → xs = ys ∨ HashCollision Crypto.blake3
          (rootInputs ExecutionReceipt.serialize xs ++
            rootInputs ExecutionReceipt.serialize ys)) ↔
        ¬ (xs ≠ ys ∧ Indistinct ExecutionReceipt.serialize xs ys ∧ ¬ HashCollision Crypto.blake3
          (rootInputs ExecutionReceipt.serialize xs ++
            rootInputs ExecutionReceipt.serialize ys)))) ∧
    (∀ block other : Block, (∀ tx ∈ block.transactions, tx.Fits) →
      (∀ tx ∈ other.transactions, tx.Fits) →
      block.header.txRoot = txRoot block.transactions →
      other.header.txRoot = txRoot other.transactions → block.hash = other.hash →
      ¬ (block.transactions ≠ other.transactions ∧
        Indistinct Transaction.serialize block.transactions other.transactions) →
      block.transactions = other.transactions ∨ HashCollision Crypto.blake3
        ([block.header.serialize, other.header.serialize] ++
          (rootInputs Transaction.serialize block.transactions ++
            rootInputs Transaction.serialize other.transactions))) := by
  have txLaw : ∀ xs ys : List Transaction, (∀ tx ∈ xs, tx.Fits) → (∀ tx ∈ ys, tx.Fits) →
      ¬ HashCollision Crypto.blake3
        (rootInputs Transaction.serialize xs ++ rootInputs Transaction.serialize ys) →
      (txRoot xs = txRoot ys ↔ Indistinct Transaction.serialize xs ys) := by
    intro xs ys xsFit ysFit collisionFree
    rw [txRoot_eq_listRoot, txRoot_eq_listRoot]
    exact listRoot_eq_iff Transaction.codec (by simpa using xsFit) (by simpa using ysFit)
      Transaction.length_serialize_ne collisionFree
  refine ⟨?_, ?_, ?_⟩
  · intro xs ys xsFit ysFit
    have law := txLaw xs ys xsFit ysFit
    tauto
  · intro xs ys xsFit ysFit
    have law : ¬ HashCollision Crypto.blake3
        (rootInputs ExecutionReceipt.serialize xs ++ rootInputs ExecutionReceipt.serialize ys) →
        (receiptsRoot xs = receiptsRoot ys ↔ Indistinct ExecutionReceipt.serialize xs ys) := by
      intro collisionFree
      rw [receiptsRoot_eq_listRoot, receiptsRoot_eq_listRoot]
      exact listRoot_eq_iff ExecutionReceipt.codec (by simpa using xsFit) (by simpa using ysFit)
        ExecutionReceipt.length_serialize_ne collisionFree
    tauto
  · intro block other blockFits otherFits blockChecked otherChecked sameHash distinct
    rw [or_iff_not_imp_right]
    intro collisionFree
    have sameRoot := txRoot_eq_of_hash_eq
      (fun collision => collisionFree (collision.mono (List.subset_append_left _ _))) sameHash
    rw [blockChecked, otherChecked, txLaw _ _ blockFits otherFits
      (fun collision => collisionFree (collision.mono (List.subset_append_right _ _)))] at sameRoot
    tauto

end BoingNetwork

namespace BoingNetwork

/-! ## Two lists with one root -/

section SharedRoot

open Checksum

def claims (nonces : List ℕ) : List Transaction :=
  nonces.map fun nonce => ⟨nonce, 0, .claimUnbond, ⟨[], []⟩⟩

def claimsBlock (nonces : List ℕ) : Block where
  header := ⟨0, 1, 1, 0, txRoot (claims nonces), 0, 0, none⟩
  transactions := claims nonces
  signatures := []
  priorityTips := []

theorem repeated_transaction_keeps_block_hash :
    claims [0, 1, 2] ≠ claims [0, 1, 2, 2] ∧
      txRoot (claims [0, 1, 2]) = txRoot (claims [0, 1, 2, 2]) ∧
      ¬ HashCollision Crypto.blake3 (rootInputs Transaction.serialize (claims [0, 1, 2]) ++
        rootInputs Transaction.serialize (claims [0, 1, 2, 2])) ∧
      (claimsBlock [0, 1, 2]).hash = (claimsBlock [0, 1, 2, 2]).hash ∧
      (claimsBlock [0, 1, 2, 2]).header.txRoot =
        txRoot (claimsBlock [0, 1, 2, 2]).transactions := by
  decide +kernel

theorem claims_fit {nonces : List ℕ} (small : ∀ nonce ∈ nonces, nonce < 2 ^ 64) :
    ∀ tx ∈ claims nonces, tx.Fits := by
  intro tx isClaim
  obtain ⟨nonce, isNonce, rfl⟩ := List.mem_map.mp isClaim
  exact ⟨small nonce isNonce, trivial, Nat.two_pow_pos _, Nat.two_pow_pos _⟩

def emptyReceipt (gasUsed : ℕ) : ExecutionReceipt := ⟨0, 1, 0, true, gasUsed, [], [], none⟩

theorem emptyReceipt_fits {gasUsed : ℕ} (small : gasUsed < 2 ^ 64) :
    ∀ receipt ∈ [emptyReceipt gasUsed], receipt.Fits := by
  simpa [emptyReceipt, ExecutionReceipt.Fits] using small

theorem roots_fix_claims_and_receipts :
    (txRoot (claims [0, 1]) = txRoot (claims [0, 2]) →
      claims [0, 1] = claims [0, 2] ∨ HashCollision Crypto.blake3
        (rootInputs Transaction.serialize (claims [0, 1]) ++
          rootInputs Transaction.serialize (claims [0, 2]))) ∧
    (receiptsRoot [emptyReceipt 0] = receiptsRoot [emptyReceipt 1] →
      [emptyReceipt 0] = [emptyReceipt 1] ∨ HashCollision Crypto.blake3
        (rootInputs ExecutionReceipt.serialize [emptyReceipt 0] ++
          rootInputs ExecutionReceipt.serialize [emptyReceipt 1])) ∧
    ((claimsBlock [0]).transactions = (claimsBlock [0]).transactions ∨
      HashCollision Crypto.blake3
        ([(claimsBlock [0]).header.serialize, (claimsBlock [0]).header.serialize] ++
          (rootInputs Transaction.serialize (claimsBlock [0]).transactions ++
            rootInputs Transaction.serialize (claimsBlock [0]).transactions))) := by
  obtain ⟨txs, receipts, blocks⟩ := roots_fix_lists_iff
  refine ⟨?_, ?_, ?_⟩
  · apply (txs _ _ (claims_fit (by decide)) (claims_fit (by decide))).mpr
    unfold Indistinct
    decide +kernel
  · apply (receipts _ _ (emptyReceipt_fits (by decide)) (emptyReceipt_fits (by decide))).mpr
    unfold Indistinct
    decide +kernel
  · exact blocks (claimsBlock [0]) (claimsBlock [0]) (claims_fit (by decide))
      (claims_fit (by decide)) rfl rfl rfl (by simp)

end SharedRoot

end BoingNetwork
