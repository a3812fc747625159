import BoingNetwork.Primitives.ConsensusVote

/-!
# Transactions

The payload kinds, access lists and account records of the ledger.
-/

namespace BoingNetwork

abbrev BlobId := BitVec 256

abbrev BlsPublicKeyG1 := BitVec 384

abbrev BlsSignatureG2 := BitVec 768

structure AccessList where
  read : List AccountId
  write : List AccountId
deriving DecidableEq

namespace AccessList

def all (accessList : AccessList) : List AccountId :=
  accessList.read ++ accessList.write

/-- Two access lists conflict when they share an account. -/
def conflictsWith (first second : AccessList) : Bool :=
  first.all.any fun account => second.all.contains account

@[simp]
theorem conflictsWith_eq_true {first second : AccessList} :
    first.conflictsWith second = true ↔ ∃ account ∈ first.all, account ∈ second.all := by
  simp [conflictsWith]

theorem conflictsWith_comm (first second : AccessList) :
    first.conflictsWith second = second.conflictsWith first := by
  rw [Bool.eq_iff_iff, conflictsWith_eq_true, conflictsWith_eq_true]
  constructor <;> rintro ⟨account, left, right⟩ <;> exact ⟨account, right, left⟩

end AccessList

/-- One step of an atomic batch. -/
inductive BatchCall where
  | transfer (recipient : AccountId) (amount : ℕ)
  | contractCall (contract : AccountId) (calldata : Bytes)
  | contractCallWithValue (contract : AccountId) (calldata : Bytes) (value : ℕ)
deriving DecidableEq

inductive QaPoolVoteKind where
  | allow
  | reject
  | abstain
deriving DecidableEq

inductive BlobRetention where
  | prunable (ttlBlocks : ℕ)
  | forever
deriving DecidableEq

inductive TransactionPayload where
  | transfer (recipient : AccountId) (amount : ℕ)
  | contractCall (contract : AccountId) (calldata : Bytes)
  | contractDeploy (bytecode : Bytes) (create2Salt : Option (BitVec 256))
  | contractDeployWithPurpose (bytecode : Bytes) (purposeCategory : String)
      (descriptionHash : Option Bytes) (create2Salt : Option (BitVec 256))
  | contractDeployWithPurposeAndMetadata (bytecode : Bytes) (purposeCategory : String)
      (descriptionHash : Option Bytes) (assetName assetSymbol : Option String)
      (create2Salt : Option (BitVec 256))
  | bond (amount : ℕ)
  | unbond (amount : ℕ)
  | claimUnbond
  | qaPoolVote (subject : Hash) (vote : QaPoolVoteKind)
  | batch (calls : List BatchCall)
  | validatorRegister (nodeId : AccountId) (nodeSignature : Bytes)
  | validatorDeregister (nodeId : AccountId)
  | validatorUnjail (nodeId : AccountId)
  | nameCommit (commitment : BitVec 256)
  | nameRegister (name : String) (salt : BitVec 256) (target : AccountId) (years : ℕ)
  | nameRenew (name : String) (years : ℕ)
  | nameTransfer (name : String) (newOwner : AccountId)
  | nameSetTarget (name : String) (target : AccountId)
  | nameSetPrimary (name : Option String)
  | nameRelease (name : String)
  | contractCallWithValue (contract : AccountId) (calldata : Bytes) (value : ℕ)
  | putBlob (retention : BlobRetention) (contentType : String) (data : Bytes)
  | blobAnnounce (blobId : BlobId) (size : ℕ) (retention : BlobRetention) (contentType : String)
  | renewMediaBlobPin (blobId : BlobId) (size extendBlocks : ℕ)
  | payBlobSample (blobId : BlobId) (chunkIndex chunkCount : ℕ)
  | registerBlobSampleOffer (blobId : BlobId) (chunkIndex chunkCount askFee expiresAtHeight : ℕ)
  | settleBlobSampleMatch (blobId : BlobId) (chunkIndex chunkCount : ℕ) (provider : AccountId)
  | cancelBlobSampleOffer (blobId : BlobId) (chunkIndex : ℕ)
  | challengeBlobSampleServe (blobId : BlobId) (chunkIndex chunkCount : ℕ) (provider : AccountId)
  | respondBlobSampleServe (blobId : BlobId) (chunkIndex chunkCount : ℕ) (challenger : AccountId)
      (chunkHash chunksRoot : BitVec 256) (siblings : List (BitVec 256))
  | submitSlashAppeal (slashId : ℕ) (evidence : Bytes)
  | resolveSlashAppeal (appealId : ℕ) (approved : Bool)
  | resolveSlashAppealAttested (appealId : ℕ) (approved : Bool) (ballotSignature : Signature)
  | resolveSlashAppealBlsAggregate (appealId : ℕ) (approved : Bool) (signerBitset : Bytes)
      (aggregateSignature : BlsSignatureG2) (signerBlsPubkeys : List BlsPublicKeyG1)
  | grantBlobDownload (blobId : BlobId) (grantee : AccountId)
  | revokeBlobDownload (blobId : BlobId) (grantee : AccountId)
  | reportEquivocation (evidence : EquivocationEvidence)
  | governancePropose (targetKey : String) (targetValue : Bytes)
  | governanceVote (proposalId : ℕ) (approve : Bool)
  | governanceAdvanceCooling (proposalId : ℕ)
deriving DecidableEq

structure Transaction where
  nonce : ℕ
  sender : AccountId
  payload : TransactionPayload
  accessList : AccessList
deriving DecidableEq

structure AccountState where
  balance : ℕ
  nonce : ℕ
  stake : ℕ
  pendingUnbond : ℕ
  unbondUnlockHeight : ℕ
deriving DecidableEq

def AccountState.default : AccountState := ⟨0, 0, 0, 0, 0⟩

end BoingNetwork
