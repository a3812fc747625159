import BoingNetwork.Primitives.Codecs
import Mathlib.Tactic.IntervalCases

/-!
# The bincode codec of transactions

The variants of the payload with the codecs of their fields, in wire order.  `Fits` holds
of the values whose numbers and lengths have the width that the source's types give them.
-/

namespace BoingNetwork

open Bincode Codec

/-! ## Parts of payloads -/

def ConsensusVote.codec : Codec UInt8 ConsensusVote :=
  ((pair (uintCodec 8) (pair wordCodec (pair wordCodec signatureCodec))).congr
    { toFun := fun (round, blockHash, validator, signature) =>
        ⟨round, blockHash, validator, signature⟩
      invFun := fun vote => (vote.round, vote.blockHash, vote.validator, vote.signature)
      left_inv := fun _ => rfl
      right_inv := fun _ => rfl }).withEncode ConsensusVote.serialize fun vote => by
    simp only [ConsensusVote.serialize, List.append_assoc]
    rfl

def EquivocationEvidence.codec : Codec UInt8 EquivocationEvidence :=
  ((pair ConsensusVote.codec ConsensusVote.codec).congr
    { toFun := fun (voteA, voteB) => ⟨voteA, voteB⟩
      invFun := fun evidence => (evidence.voteA, evidence.voteB)
      left_inv := fun _ => rfl
      right_inv := fun _ => rfl }).withEncode EquivocationEvidence.serialize fun _ => rfl

def AccessList.codec : Codec UInt8 AccessList :=
  ((pair (vecCodec wordCodec) (vecCodec wordCodec)).congr
    { toFun := fun (read, write) => ⟨read, write⟩
      invFun := fun accessList => (accessList.read, accessList.write)
      left_inv := fun _ => rfl
      right_inv := fun _ => rfl }).withEncode AccessList.serialize fun _ => rfl

/-- Variants without fields. -/
def unitCodec : Codec UInt8 Unit where
  encode _ := []
  decode bytes := some ((), bytes)
  Valid _ := True
  decode_eq_some := by simp [eq_comm]

@[simp] theorem unitCodec_encode (value : Unit) : unitCodec.encode value = [] := rfl

@[simp] theorem unitCodec_valid (value : Unit) : unitCodec.Valid value ↔ True := Iff.rfl

def QaPoolVoteKind.codec : Codec UInt8 QaPoolVoteKind :=
  Codec.enum (uintCodec 4)
    [⟨_, unitCodec, fun _ => .allow⟩, ⟨_, unitCodec, fun _ => .reject⟩,
      ⟨_, unitCodec, fun _ => .abstain⟩]
    QaPoolVoteKind.serialize (fun _ => True)
    (by rintro (_ | _ | _ | index) variant isVariant fields <;> cases isVariant <;> rfl)
    (by rintro (_ | _ | _ | index) variant isVariant fields <;> cases isVariant <;> simp)
    (by
      rintro (_ | _ | _)
      · exact ⟨0, _, rfl, (), rfl⟩
      · exact ⟨1, _, rfl, (), rfl⟩
      · exact ⟨2, _, rfl, (), rfl⟩)

def BlobRetention.Fits : BlobRetention → Prop
  | prunable ttlBlocks => ttlBlocks < 2 ^ 64
  | forever => True

def BlobRetention.codec : Codec UInt8 BlobRetention :=
  Codec.enum (uintCodec 4) [⟨_, uintCodec 8, .prunable⟩, ⟨_, unitCodec, fun _ => .forever⟩]
    BlobRetention.serialize BlobRetention.Fits
    (by rintro (_ | _ | index) variant isVariant fields <;> cases isVariant <;> rfl)
    (by
      rintro (_ | _ | index) variant isVariant fields <;> cases isVariant <;>
        simp [BlobRetention.Fits])
    (by
      rintro (ttlBlocks | _)
      · exact ⟨0, _, rfl, ttlBlocks, rfl⟩
      · exact ⟨1, _, rfl, (), rfl⟩)

def BatchCall.Fits : BatchCall → Prop
  | transfer _ amount => amount < 2 ^ 128
  | contractCall _ calldata => calldata.length < 2 ^ 64
  | contractCallWithValue _ calldata value => calldata.length < 2 ^ 64 ∧ value < 2 ^ 128

def BatchCall.codec : Codec UInt8 BatchCall :=
  Codec.enum (uintCodec 4)
    [⟨_, pair wordCodec (uintCodec 16), fun (recipient, amount) => .transfer recipient amount⟩,
      ⟨_, pair wordCodec byteVecCodec,
        fun (contract, calldata) => .contractCall contract calldata⟩,
      ⟨_, pair wordCodec (pair byteVecCodec (uintCodec 16)),
        fun (contract, calldata, value) => .contractCallWithValue contract calldata value⟩]
    BatchCall.serialize BatchCall.Fits
    (by
      rintro (_ | _ | _ | index) variant isVariant fields <;> cases isVariant <;>
        simp [BatchCall.serialize, variantIndex])
    (by
      rintro (_ | _ | _ | index) variant isVariant fields <;> cases isVariant <;>
        simp [BatchCall.Fits])
    (by
      rintro (⟨recipient, amount⟩ | ⟨contract, calldata⟩ | ⟨contract, calldata, value⟩)
      · exact ⟨0, _, rfl, (recipient, amount), rfl⟩
      · exact ⟨1, _, rfl, (contract, calldata), rfl⟩
      · exact ⟨2, _, rfl, (contract, calldata, value), rfl⟩)

@[simp] theorem QaPoolVoteKind.codec_encode :
    QaPoolVoteKind.codec.encode = QaPoolVoteKind.serialize := rfl

@[simp] theorem QaPoolVoteKind.codec_valid (kind : QaPoolVoteKind) :
    QaPoolVoteKind.codec.Valid kind ↔ True := Iff.rfl

@[simp] theorem BlobRetention.codec_encode :
    BlobRetention.codec.encode = BlobRetention.serialize := rfl

@[simp] theorem BlobRetention.codec_valid (retention : BlobRetention) :
    BlobRetention.codec.Valid retention ↔ retention.Fits := Iff.rfl

@[simp] theorem BatchCall.codec_encode : BatchCall.codec.encode = BatchCall.serialize := rfl

@[simp] theorem BatchCall.codec_valid (call : BatchCall) :
    BatchCall.codec.Valid call ↔ call.Fits := Iff.rfl

def EquivocationEvidence.Fits (evidence : EquivocationEvidence) : Prop :=
  evidence.voteA.round < 2 ^ 64 ∧ evidence.voteB.round < 2 ^ 64

@[simp] theorem EquivocationEvidence.codec_encode :
    EquivocationEvidence.codec.encode = EquivocationEvidence.serialize := rfl

@[simp] theorem EquivocationEvidence.codec_valid (evidence : EquivocationEvidence) :
    EquivocationEvidence.codec.Valid evidence ↔ evidence.Fits := by
  change (_ ∧ _ ∧ _ ∧ _) ∧ (_ ∧ _ ∧ _ ∧ _) ↔ _
  simp [EquivocationEvidence.Fits]

/-! ## Payloads -/

variable (payload : TransactionPayload)

namespace TransactionPayload

def Fits : TransactionPayload → Prop
  | transfer _ amount | bond amount | unbond amount => amount < 2 ^ 128
  | contractCall _ calldata => calldata.length < 2 ^ 64
  | contractDeploy bytecode _ => bytecode.length < 2 ^ 64
  | contractDeployWithPurpose bytecode category description _ =>
    bytecode.length < 2 ^ 64 ∧ TextFits category ∧
      ∀ hash ∈ description, hash.length < 2 ^ 64
  | contractDeployWithPurposeAndMetadata bytecode category description name symbol _ =>
    bytecode.length < 2 ^ 64 ∧ TextFits category ∧
      (∀ hash ∈ description, hash.length < 2 ^ 64) ∧ (∀ text ∈ name, TextFits text) ∧
      ∀ text ∈ symbol, TextFits text
  | batch calls => calls.length < 2 ^ 64 ∧ ∀ call ∈ calls, call.Fits
  | validatorRegister _ nodeSignature => nodeSignature.length < 2 ^ 64
  | nameRegister name _ _ years | nameRenew name years => TextFits name ∧ years < 2 ^ 8
  | nameTransfer name _ | nameSetTarget name _ | nameRelease name => TextFits name
  | nameSetPrimary name => ∀ text ∈ name, TextFits text
  | contractCallWithValue _ calldata value => calldata.length < 2 ^ 64 ∧ value < 2 ^ 128
  | putBlob retention contentType data =>
    retention.Fits ∧ TextFits contentType ∧ data.length < 2 ^ 64
  | blobAnnounce _ size retention contentType =>
    size < 2 ^ 32 ∧ retention.Fits ∧ TextFits contentType
  | renewMediaBlobPin _ size extendBlocks => size < 2 ^ 32 ∧ extendBlocks < 2 ^ 64
  | payBlobSample _ chunkIndex chunkCount
  | settleBlobSampleMatch _ chunkIndex chunkCount _
  | challengeBlobSampleServe _ chunkIndex chunkCount _ =>
    chunkIndex < 2 ^ 32 ∧ chunkCount < 2 ^ 32
  | registerBlobSampleOffer _ chunkIndex chunkCount askFee expiresAtHeight =>
    chunkIndex < 2 ^ 32 ∧ chunkCount < 2 ^ 32 ∧ askFee < 2 ^ 128 ∧ expiresAtHeight < 2 ^ 64
  | cancelBlobSampleOffer _ chunkIndex => chunkIndex < 2 ^ 32
  | respondBlobSampleServe _ chunkIndex chunkCount _ _ _ siblings =>
    chunkIndex < 2 ^ 32 ∧ chunkCount < 2 ^ 32 ∧ siblings.length < 2 ^ 64
  | submitSlashAppeal slashId evidence => slashId < 2 ^ 64 ∧ evidence.length < 2 ^ 64
  | resolveSlashAppeal appealId _ | resolveSlashAppealAttested appealId _ _ => appealId < 2 ^ 64
  | resolveSlashAppealBlsAggregate appealId _ signerBitset _ pubkeys =>
    appealId < 2 ^ 64 ∧ signerBitset.length < 2 ^ 64 ∧ pubkeys.length < 2 ^ 64
  | reportEquivocation evidence => evidence.Fits
  | governancePropose targetKey targetValue => TextFits targetKey ∧ targetValue.length < 2 ^ 64
  | governanceVote proposalId _ | governanceAdvanceCooling proposalId => proposalId < 2 ^ 64
  | claimUnbond | qaPoolVote _ _ | validatorDeregister _ | validatorUnjail _ | nameCommit _
  | grantBlobDownload _ _ | revokeBlobDownload _ _ => True

/-- In wire order. -/
def variants : List (Variant UInt8 TransactionPayload) := [
  ⟨_, pair wordCodec (uintCodec 16), fun (recipient, amount) => transfer recipient amount⟩,
  ⟨_, pair wordCodec byteVecCodec, fun (contract, calldata) => contractCall contract calldata⟩,
  ⟨_, pair byteVecCodec (optionCodec wordCodec),
    fun (bytecode, salt) => contractDeploy bytecode salt⟩,
  ⟨_, pair byteVecCodec (pair stringCodec (pair (optionCodec byteVecCodec)
      (optionCodec wordCodec))),
    fun (bytecode, category, description, salt) =>
      contractDeployWithPurpose bytecode category description salt⟩,
  ⟨_, pair byteVecCodec (pair stringCodec (pair (optionCodec byteVecCodec)
      (pair (optionCodec stringCodec) (pair (optionCodec stringCodec) (optionCodec wordCodec))))),
    fun (bytecode, category, description, name, symbol, salt) =>
      contractDeployWithPurposeAndMetadata bytecode category description name symbol salt⟩,
  ⟨_, uintCodec 16, bond⟩,
  ⟨_, uintCodec 16, unbond⟩,
  ⟨_, unitCodec, fun _ => claimUnbond⟩,
  ⟨_, pair wordCodec QaPoolVoteKind.codec, fun (subject, vote) => qaPoolVote subject vote⟩,
  ⟨_, vecCodec BatchCall.codec, batch⟩,
  ⟨_, pair wordCodec byteVecCodec,
    fun (nodeId, nodeSignature) => validatorRegister nodeId nodeSignature⟩,
  ⟨_, wordCodec, validatorDeregister⟩,
  ⟨_, wordCodec, validatorUnjail⟩,
  ⟨_, wordCodec, nameCommit⟩,
  ⟨_, pair stringCodec (pair wordCodec (pair wordCodec (uintCodec 1))),
    fun (name, salt, target, years) => nameRegister name salt target years⟩,
  ⟨_, pair stringCodec (uintCodec 1), fun (name, years) => nameRenew name years⟩,
  ⟨_, pair stringCodec wordCodec, fun (name, newOwner) => nameTransfer name newOwner⟩,
  ⟨_, pair stringCodec wordCodec, fun (name, target) => nameSetTarget name target⟩,
  ⟨_, optionCodec stringCodec, nameSetPrimary⟩,
  ⟨_, stringCodec, nameRelease⟩,
  ⟨_, pair wordCodec (pair byteVecCodec (uintCodec 16)),
    fun (contract, calldata, value) => contractCallWithValue contract calldata value⟩,
  ⟨_, pair BlobRetention.codec (pair stringCodec byteVecCodec),
    fun (retention, contentType, data) => putBlob retention contentType data⟩,
  ⟨_, pair wordCodec (pair (uintCodec 4) (pair BlobRetention.codec stringCodec)),
    fun (blobId, size, retention, contentType) => blobAnnounce blobId size retention contentType⟩,
  ⟨_, pair wordCodec (pair (uintCodec 4) (uintCodec 8)),
    fun (blobId, size, extendBlocks) => renewMediaBlobPin blobId size extendBlocks⟩,
  ⟨_, pair wordCodec (pair (uintCodec 4) (uintCodec 4)),
    fun (blobId, chunkIndex, chunkCount) => payBlobSample blobId chunkIndex chunkCount⟩,
  ⟨_, pair wordCodec (pair (uintCodec 4) (pair (uintCodec 4) (pair (uintCodec 16)
      (uintCodec 8)))),
    fun (blobId, chunkIndex, chunkCount, askFee, expiresAtHeight) =>
      registerBlobSampleOffer blobId chunkIndex chunkCount askFee expiresAtHeight⟩,
  ⟨_, pair wordCodec (pair (uintCodec 4) (pair (uintCodec 4) wordCodec)),
    fun (blobId, chunkIndex, chunkCount, provider) =>
      settleBlobSampleMatch blobId chunkIndex chunkCount provider⟩,
  ⟨_, pair wordCodec (uintCodec 4),
    fun (blobId, chunkIndex) => cancelBlobSampleOffer blobId chunkIndex⟩,
  ⟨_, pair wordCodec (pair (uintCodec 4) (pair (uintCodec 4) wordCodec)),
    fun (blobId, chunkIndex, chunkCount, provider) =>
      challengeBlobSampleServe blobId chunkIndex chunkCount provider⟩,
  ⟨_, pair wordCodec (pair (uintCodec 4) (pair (uintCodec 4) (pair wordCodec (pair wordCodec
      (pair wordCodec (vecCodec wordCodec)))))),
    fun (blobId, chunkIndex, chunkCount, challenger, chunkHash, chunksRoot, siblings) =>
      respondBlobSampleServe blobId chunkIndex chunkCount challenger chunkHash chunksRoot siblings⟩,
  ⟨_, pair (uintCodec 8) byteVecCodec,
    fun (slashId, evidence) => submitSlashAppeal slashId evidence⟩,
  ⟨_, pair (uintCodec 8) boolCodec,
    fun (appealId, approved) => resolveSlashAppeal appealId approved⟩,
  ⟨_, pair (uintCodec 8) (pair boolCodec signatureArrayCodec),
    fun (appealId, approved, ballotSignature) =>
      resolveSlashAppealAttested appealId approved ballotSignature⟩,
  ⟨_, pair (uintCodec 8) (pair boolCodec (pair byteVecCodec (pair (arrayCodec 96 768 rfl)
      (vecCodec (arrayCodec 48 384 rfl))))),
    fun (appealId, approved, signerBitset, aggregateSignature, pubkeys) =>
      resolveSlashAppealBlsAggregate appealId approved signerBitset aggregateSignature pubkeys⟩,
  ⟨_, pair wordCodec wordCodec, fun (blobId, grantee) => grantBlobDownload blobId grantee⟩,
  ⟨_, pair wordCodec wordCodec, fun (blobId, grantee) => revokeBlobDownload blobId grantee⟩,
  ⟨_, EquivocationEvidence.codec, reportEquivocation⟩,
  ⟨_, pair stringCodec byteVecCodec,
    fun (targetKey, targetValue) => governancePropose targetKey targetValue⟩,
  ⟨_, pair (uintCodec 8) boolCodec,
    fun (proposalId, approve) => governanceVote proposalId approve⟩,
  ⟨_, uintCodec 8, governanceAdvanceCooling⟩]

theorem exists_variant : ∃ (index : ℕ) (variant : Variant UInt8 TransactionPayload),
      variants[index]? = some variant ∧ ∃ fields, variant.build fields = payload := by
  cases payload with
  | transfer recipient amount => exact ⟨0, _, rfl, (recipient, amount), rfl⟩
  | contractCall contract calldata => exact ⟨1, _, rfl, (contract, calldata), rfl⟩
  | contractDeploy bytecode salt => exact ⟨2, _, rfl, (bytecode, salt), rfl⟩
  | contractDeployWithPurpose bytecode category description salt =>
    exact ⟨3, _, rfl, (bytecode, category, description, salt), rfl⟩
  | contractDeployWithPurposeAndMetadata bytecode category description name symbol salt =>
    exact ⟨4, _, rfl, (bytecode, category, description, name, symbol, salt), rfl⟩
  | bond amount => exact ⟨5, _, rfl, amount, rfl⟩
  | unbond amount => exact ⟨6, _, rfl, amount, rfl⟩
  | claimUnbond => exact ⟨7, _, rfl, (), rfl⟩
  | qaPoolVote subject vote => exact ⟨8, _, rfl, (subject, vote), rfl⟩
  | batch calls => exact ⟨9, _, rfl, calls, rfl⟩
  | validatorRegister nodeId nodeSignature => exact ⟨10, _, rfl, (nodeId, nodeSignature), rfl⟩
  | validatorDeregister nodeId => exact ⟨11, _, rfl, nodeId, rfl⟩
  | validatorUnjail nodeId => exact ⟨12, _, rfl, nodeId, rfl⟩
  | nameCommit commitment => exact ⟨13, _, rfl, commitment, rfl⟩
  | nameRegister name salt target years => exact ⟨14, _, rfl, (name, salt, target, years), rfl⟩
  | nameRenew name years => exact ⟨15, _, rfl, (name, years), rfl⟩
  | nameTransfer name newOwner => exact ⟨16, _, rfl, (name, newOwner), rfl⟩
  | nameSetTarget name target => exact ⟨17, _, rfl, (name, target), rfl⟩
  | nameSetPrimary name => exact ⟨18, _, rfl, name, rfl⟩
  | nameRelease name => exact ⟨19, _, rfl, name, rfl⟩
  | contractCallWithValue contract calldata value =>
    exact ⟨20, _, rfl, (contract, calldata, value), rfl⟩
  | putBlob retention contentType data =>
    exact ⟨21, _, rfl, (retention, contentType, data), rfl⟩
  | blobAnnounce blobId size retention contentType =>
    exact ⟨22, _, rfl, (blobId, size, retention, contentType), rfl⟩
  | renewMediaBlobPin blobId size extendBlocks =>
    exact ⟨23, _, rfl, (blobId, size, extendBlocks), rfl⟩
  | payBlobSample blobId chunkIndex chunkCount =>
    exact ⟨24, _, rfl, (blobId, chunkIndex, chunkCount), rfl⟩
  | registerBlobSampleOffer blobId chunkIndex chunkCount askFee expiresAtHeight =>
    exact ⟨25, _, rfl, (blobId, chunkIndex, chunkCount, askFee, expiresAtHeight), rfl⟩
  | settleBlobSampleMatch blobId chunkIndex chunkCount provider =>
    exact ⟨26, _, rfl, (blobId, chunkIndex, chunkCount, provider), rfl⟩
  | cancelBlobSampleOffer blobId chunkIndex => exact ⟨27, _, rfl, (blobId, chunkIndex), rfl⟩
  | challengeBlobSampleServe blobId chunkIndex chunkCount provider =>
    exact ⟨28, _, rfl, (blobId, chunkIndex, chunkCount, provider), rfl⟩
  | respondBlobSampleServe blobId chunkIndex chunkCount challenger chunkHash chunksRoot siblings =>
    exact ⟨29, _, rfl,
      (blobId, chunkIndex, chunkCount, challenger, chunkHash, chunksRoot, siblings), rfl⟩
  | submitSlashAppeal slashId evidence => exact ⟨30, _, rfl, (slashId, evidence), rfl⟩
  | resolveSlashAppeal appealId approved => exact ⟨31, _, rfl, (appealId, approved), rfl⟩
  | resolveSlashAppealAttested appealId approved ballotSignature =>
    exact ⟨32, _, rfl, (appealId, approved, ballotSignature), rfl⟩
  | resolveSlashAppealBlsAggregate appealId approved signerBitset aggregateSignature pubkeys =>
    exact ⟨33, _, rfl, (appealId, approved, signerBitset, aggregateSignature, pubkeys), rfl⟩
  | grantBlobDownload blobId grantee => exact ⟨34, _, rfl, (blobId, grantee), rfl⟩
  | revokeBlobDownload blobId grantee => exact ⟨35, _, rfl, (blobId, grantee), rfl⟩
  | reportEquivocation evidence => exact ⟨36, _, rfl, evidence, rfl⟩
  | governancePropose targetKey targetValue => exact ⟨37, _, rfl, (targetKey, targetValue), rfl⟩
  | governanceVote proposalId approve => exact ⟨38, _, rfl, (proposalId, approve), rfl⟩
  | governanceAdvanceCooling proposalId => exact ⟨39, _, rfl, proposalId, rfl⟩

section

variable {index : ℕ} {variant : Variant UInt8 TransactionPayload}
  (isVariant : variants[index]? = some variant) (fields : variant.Fields)

include isVariant fields

theorem serialize_build :
    (variant.build fields).serialize = variantIndex index ++ variant.codec.encode fields := by
  have inRange : index < 40 := (List.getElem?_eq_some_iff.mp isVariant).1
  interval_cases index <;> cases isVariant <;> simp [serialize]

theorem fits_build :
    (variant.build fields).Fits ↔ (uintCodec 4).Valid index ∧ variant.codec.Valid fields := by
  have inRange : index < 40 := (List.getElem?_eq_some_iff.mp isVariant).1
  interval_cases index <;> cases isVariant <;> simp [Fits]

end

def codec : Codec UInt8 TransactionPayload :=
  Codec.enum (uintCodec 4) variants serialize Fits (fun _ _ isVariant => serialize_build isVariant)
    (fun _ _ isVariant => fits_build isVariant) exists_variant

end TransactionPayload

def Transaction.Fits (tx : Transaction) : Prop :=
  tx.nonce < 2 ^ 64 ∧ tx.payload.Fits ∧
    tx.accessList.read.length < 2 ^ 64 ∧ tx.accessList.write.length < 2 ^ 64

def Transaction.codec : Codec UInt8 Transaction :=
  ((pair (uintCodec 8) (pair wordCodec (pair TransactionPayload.codec AccessList.codec))).congr
    { toFun := fun (nonce, sender, payload, accessList) => ⟨nonce, sender, payload, accessList⟩
      invFun := fun tx => (tx.nonce, tx.sender, tx.payload, tx.accessList)
      left_inv := fun _ => rfl
      right_inv := fun _ => rfl }).withEncode Transaction.serialize fun tx => by
    simp only [Transaction.serialize, List.append_assoc]
    rfl

@[simp] theorem Transaction.codec_encode : Transaction.codec.encode = Transaction.serialize := rfl

@[simp] theorem Transaction.codec_valid (tx : Transaction) :
    Transaction.codec.Valid tx ↔ tx.Fits := by
  change _ ∧ True ∧ _ ∧ (vecCodec wordCodec).Valid tx.accessList.read ∧
    (vecCodec wordCodec).Valid tx.accessList.write ↔ _
  simp [Transaction.Fits, TransactionPayload.codec, Codec.enum]

/-- No payload has a body of four bytes. -/
theorem TransactionPayload.length_serialize_ne : payload.serialize.length ≠ 8 := by
  cases payload with
  | batch calls =>
    have atLeast := length_vec BatchCall.serialize calls
    simp only [serialize, List.length_append, length_variantIndex]
    omega
  | nameSetPrimary name =>
    cases name with
    | none => simp [serialize, option]
    | some name =>
      simp only [serialize, option, List.length_append, length_variantIndex, List.length_cons,
        length_string]
      omega
  | claimUnbond => simp [serialize]
  | _ =>
    simp only [serialize, EquivocationEvidence.serialize, ConsensusVote.serialize,
      List.length_append, length_variantIndex, length_bytes32, length_leBytes, length_byteVec,
      length_string, length_bool, length_array]
    omega

/-- The encoding of a transaction is never as long as that of a pair of hashes. -/
theorem Transaction.length_serialize_ne (tx : Transaction) : tx.serialize.length ≠ 64 := by
  have payload := tx.payload.length_serialize_ne
  simp only [Transaction.serialize, AccessList.serialize, Bincode.vec, List.length_append,
    length_bytes32, length_leBytes, List.length_flatMap, List.map_const', List.sum_replicate_nat]
  omega

end BoingNetwork
