import BoingNetwork.Primitives.Transaction

/-!
# Bincode encodings

The encodings that are hashed into transaction ids and state commitments: integers
are little-endian of fixed width, arrays stand as they are, and sequences, maps and
strings carry a 64-bit length.  An enumeration starts with its 32-bit variant index.
-/

namespace BoingNetwork

namespace Bincode

universe u v

variable {Key : Type u} {Value : Type v}

/-- The bytes of a fixed array of `count` bytes, first byte most significant. -/
def array (count value : ℕ) : Bytes :=
  (List.range count).map fun index => UInt8.ofNat (value >>> (8 * (count - 1 - index)))

def variantIndex (index : ℕ) : Bytes := leBytes 4 index

def bool (value : Bool) : Bytes := [if value then 1 else 0]

def byteVec (bytes : Bytes) : Bytes := leBytes 8 bytes.length ++ bytes

def utf8 (text : String) : Bytes := text.toUTF8.data.toList

def string (text : String) : Bytes := byteVec (utf8 text)

def option (encode : Value → Bytes) : Option Value → Bytes
  | none => [0]
  | some value => 1 :: encode value

def vec (encode : Value → Bytes) (values : List Value) : Bytes :=
  leBytes 8 values.length ++ values.flatMap encode

def map [Ord Key] [Std.TransOrd Key] (encodeKey : Key → Bytes) (encodeValue : Value → Bytes)
    (entries : Std.ExtTreeMap Key Value) : Bytes :=
  vec (fun entry => encodeKey entry.1 ++ encodeValue entry.2) entries.toList

/-- A signature is serialized as a byte string, so its length is part of the encoding. -/
def signatureBytes (value : Signature) : Bytes := byteVec (array 64 value.toNat)

end Bincode

open Bincode

def ConsensusVote.serialize (vote : ConsensusVote) : Bytes :=
  leBytes 8 vote.round ++ bytes32 vote.blockHash ++ bytes32 vote.validator ++
    signatureBytes vote.signature

def EquivocationEvidence.serialize (evidence : EquivocationEvidence) : Bytes :=
  evidence.voteA.serialize ++ evidence.voteB.serialize

def AccessList.serialize (accessList : AccessList) : Bytes :=
  vec bytes32 accessList.read ++ vec bytes32 accessList.write

def BatchCall.serialize : BatchCall → Bytes
  | .transfer recipient amount => variantIndex 0 ++ bytes32 recipient ++ leBytes 16 amount
  | .contractCall contract calldata => variantIndex 1 ++ bytes32 contract ++ byteVec calldata
  | .contractCallWithValue contract calldata value =>
    variantIndex 2 ++ bytes32 contract ++ byteVec calldata ++ leBytes 16 value

def QaPoolVoteKind.serialize : QaPoolVoteKind → Bytes
  | .allow => variantIndex 0
  | .reject => variantIndex 1
  | .abstain => variantIndex 2

def BlobRetention.serialize : BlobRetention → Bytes
  | .prunable ttlBlocks => variantIndex 0 ++ leBytes 8 ttlBlocks
  | .forever => variantIndex 1

def TransactionPayload.serialize : TransactionPayload → Bytes
  | .transfer recipient amount => variantIndex 0 ++ bytes32 recipient ++ leBytes 16 amount
  | .contractCall contract calldata => variantIndex 1 ++ bytes32 contract ++ byteVec calldata
  | .contractDeploy bytecode salt => variantIndex 2 ++ byteVec bytecode ++ option bytes32 salt
  | .contractDeployWithPurpose bytecode category description salt =>
    variantIndex 3 ++ byteVec bytecode ++ string category ++ option byteVec description ++
      option bytes32 salt
  | .contractDeployWithPurposeAndMetadata bytecode category description name symbol salt =>
    variantIndex 4 ++ byteVec bytecode ++ string category ++ option byteVec description ++
      option string name ++ option string symbol ++ option bytes32 salt
  | .bond amount => variantIndex 5 ++ leBytes 16 amount
  | .unbond amount => variantIndex 6 ++ leBytes 16 amount
  | .claimUnbond => variantIndex 7
  | .qaPoolVote subject vote => variantIndex 8 ++ bytes32 subject ++ vote.serialize
  | .batch calls => variantIndex 9 ++ vec BatchCall.serialize calls
  | .validatorRegister nodeId nodeSignature =>
    variantIndex 10 ++ bytes32 nodeId ++ byteVec nodeSignature
  | .validatorDeregister nodeId => variantIndex 11 ++ bytes32 nodeId
  | .validatorUnjail nodeId => variantIndex 12 ++ bytes32 nodeId
  | .nameCommit commitment => variantIndex 13 ++ bytes32 commitment
  | .nameRegister name salt target years =>
    variantIndex 14 ++ string name ++ bytes32 salt ++ bytes32 target ++ leBytes 1 years
  | .nameRenew name years => variantIndex 15 ++ string name ++ leBytes 1 years
  | .nameTransfer name newOwner => variantIndex 16 ++ string name ++ bytes32 newOwner
  | .nameSetTarget name target => variantIndex 17 ++ string name ++ bytes32 target
  | .nameSetPrimary name => variantIndex 18 ++ option string name
  | .nameRelease name => variantIndex 19 ++ string name
  | .contractCallWithValue contract calldata value =>
    variantIndex 20 ++ bytes32 contract ++ byteVec calldata ++ leBytes 16 value
  | .putBlob retention contentType data =>
    variantIndex 21 ++ retention.serialize ++ string contentType ++ byteVec data
  | .blobAnnounce blobId size retention contentType =>
    variantIndex 22 ++ bytes32 blobId ++ leBytes 4 size ++ retention.serialize ++
      string contentType
  | .renewMediaBlobPin blobId size extendBlocks =>
    variantIndex 23 ++ bytes32 blobId ++ leBytes 4 size ++ leBytes 8 extendBlocks
  | .payBlobSample blobId chunkIndex chunkCount =>
    variantIndex 24 ++ bytes32 blobId ++ leBytes 4 chunkIndex ++ leBytes 4 chunkCount
  | .registerBlobSampleOffer blobId chunkIndex chunkCount askFee expiresAtHeight =>
    variantIndex 25 ++ bytes32 blobId ++ leBytes 4 chunkIndex ++ leBytes 4 chunkCount ++
      leBytes 16 askFee ++ leBytes 8 expiresAtHeight
  | .settleBlobSampleMatch blobId chunkIndex chunkCount provider =>
    variantIndex 26 ++ bytes32 blobId ++ leBytes 4 chunkIndex ++ leBytes 4 chunkCount ++
      bytes32 provider
  | .cancelBlobSampleOffer blobId chunkIndex =>
    variantIndex 27 ++ bytes32 blobId ++ leBytes 4 chunkIndex
  | .challengeBlobSampleServe blobId chunkIndex chunkCount provider =>
    variantIndex 28 ++ bytes32 blobId ++ leBytes 4 chunkIndex ++ leBytes 4 chunkCount ++
      bytes32 provider
  | .respondBlobSampleServe blobId chunkIndex chunkCount challenger chunkHash chunksRoot
      siblings =>
      variantIndex 29 ++ bytes32 blobId ++ leBytes 4 chunkIndex ++ leBytes 4 chunkCount ++
        bytes32 challenger ++ bytes32 chunkHash ++ bytes32 chunksRoot ++ vec bytes32 siblings
  | .submitSlashAppeal slashId evidence => variantIndex 30 ++ leBytes 8 slashId ++ byteVec evidence
  | .resolveSlashAppeal appealId approved => variantIndex 31 ++ leBytes 8 appealId ++ bool approved
  | .resolveSlashAppealAttested appealId approved ballotSignature =>
    variantIndex 32 ++ leBytes 8 appealId ++ bool approved ++ array 64 ballotSignature.toNat
  | .resolveSlashAppealBlsAggregate appealId approved signerBitset aggregateSignature pubkeys =>
    variantIndex 33 ++ leBytes 8 appealId ++ bool approved ++ byteVec signerBitset ++
      array 96 aggregateSignature.toNat ++ vec (fun key => array 48 key.toNat) pubkeys
  | .grantBlobDownload blobId grantee => variantIndex 34 ++ bytes32 blobId ++ bytes32 grantee
  | .revokeBlobDownload blobId grantee => variantIndex 35 ++ bytes32 blobId ++ bytes32 grantee
  | .reportEquivocation evidence => variantIndex 36 ++ evidence.serialize
  | .governancePropose targetKey targetValue =>
    variantIndex 37 ++ string targetKey ++ byteVec targetValue
  | .governanceVote proposalId approve => variantIndex 38 ++ leBytes 8 proposalId ++ bool approve
  | .governanceAdvanceCooling proposalId => variantIndex 39 ++ leBytes 8 proposalId

def Transaction.serialize (tx : Transaction) : Bytes :=
  leBytes 8 tx.nonce ++ bytes32 tx.sender ++ tx.payload.serialize ++ tx.accessList.serialize

def Transaction.id [Crypto] (tx : Transaction) : Hash := Crypto.blake3 tx.serialize

end BoingNetwork
