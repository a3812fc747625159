import BoingNetwork.Primitives.Signature
import BoingNetwork.Primitives.SignedTransaction
import BoingNetwork.Sdk.TransactionEncoding

/-!
# Transactions of the SDK and of the node

What an input of the SDK describes is a transaction of the node with the same fields.  If
there is one, the SDK writes the bytes of the node and hashes the same preimages.  The bytes
are read back as what was described exactly when the fields have the widths that the node
gives them; the SDK does not check all of them.
-/

namespace BoingNetwork.Sdk

open Bincode

/-! ## Descriptions -/

def textInput (text : String) : JsString := text.toList.map .scalar

def numberInput (value : ℕ) : JsNumber := .finite value

def batchCallInput : BatchCall → BatchCallInput
  | .transfer recipient amount => .transfer (bytes32 recipient) amount
  | .contractCall contract calldata => .contractCall (bytes32 contract) calldata
  | .contractCallWithValue contract calldata value =>
    .contractCallWithValue (bytes32 contract) calldata value

def retentionInput : BlobRetention → RetentionInput
  | .prunable ttlBlocks => .prunable ttlBlocks
  | .forever => .forever

def payloadInput : TransactionPayload → TransactionPayloadInput
  | .transfer recipient amount => .transfer (bytes32 recipient) amount
  | .contractCall contract calldata => .contractCall (bytes32 contract) calldata
  | .contractDeploy bytecode salt => .contractDeploy bytecode (salt.map bytes32)
  | .contractDeployWithPurpose bytecode category description salt =>
    .contractDeployWithPurpose bytecode (textInput category) description (salt.map bytes32)
  | .contractDeployWithPurposeAndMetadata bytecode category description name symbol salt =>
    .contractDeployWithPurposeAndMetadata bytecode (textInput category) description
      (name.map textInput) (symbol.map textInput) (salt.map bytes32)
  | .bond amount => .bond amount
  | .unbond amount => .unbond amount
  | .claimUnbond => .claimUnbond
  | .qaPoolVote subject vote => .qaPoolVote (bytes32 subject) vote
  | .batch calls => .batch (calls.map batchCallInput)
  | .validatorRegister nodeId nodeSignature => .validatorRegister (bytes32 nodeId) nodeSignature
  | .validatorDeregister nodeId => .validatorDeregister (bytes32 nodeId)
  | .validatorUnjail nodeId => .validatorUnjail (bytes32 nodeId)
  | .nameCommit commitment => .nameCommit (bytes32 commitment)
  | .nameRegister name salt target years =>
    .nameRegister (textInput name) (bytes32 salt) (bytes32 target) (numberInput years)
  | .nameRenew name years => .nameRenew (textInput name) (numberInput years)
  | .nameTransfer name newOwner => .nameTransfer (textInput name) (bytes32 newOwner)
  | .nameSetTarget name target => .nameSetTarget (textInput name) (bytes32 target)
  | .nameSetPrimary name => .nameSetPrimary (name.map textInput)
  | .nameRelease name => .nameRelease (textInput name)
  | .contractCallWithValue contract calldata value =>
    .contractCallWithValue (bytes32 contract) calldata value
  | .putBlob retention contentType data =>
    .putBlob (retentionInput retention) (some (textInput contentType)) data
  | .blobAnnounce blobId size retention contentType =>
    .blobAnnounce (bytes32 blobId) (numberInput size) (retentionInput retention)
      (some (textInput contentType))
  | .renewMediaBlobPin blobId size extendBlocks =>
    .renewMediaBlobPin (bytes32 blobId) (numberInput size) extendBlocks
  | .payBlobSample blobId chunkIndex chunkCount =>
    .payBlobSample (bytes32 blobId) (numberInput chunkIndex) (numberInput chunkCount)
  | .registerBlobSampleOffer blobId chunkIndex chunkCount askFee expiresAtHeight =>
    .registerBlobSampleOffer (bytes32 blobId) (numberInput chunkIndex) (numberInput chunkCount)
      askFee expiresAtHeight
  | .settleBlobSampleMatch blobId chunkIndex chunkCount provider =>
    .settleBlobSampleMatch (bytes32 blobId) (numberInput chunkIndex) (numberInput chunkCount)
      (bytes32 provider)
  | .cancelBlobSampleOffer blobId chunkIndex =>
    .cancelBlobSampleOffer (bytes32 blobId) (numberInput chunkIndex)
  | .challengeBlobSampleServe blobId chunkIndex chunkCount provider =>
    .challengeBlobSampleServe (bytes32 blobId) (numberInput chunkIndex) (numberInput chunkCount)
      (bytes32 provider)
  | .respondBlobSampleServe blobId chunkIndex chunkCount challenger chunkHash chunksRoot
      siblings =>
      .respondBlobSampleServe (bytes32 blobId) (numberInput chunkIndex) (numberInput chunkCount)
        (bytes32 challenger) (bytes32 chunkHash) (bytes32 chunksRoot) (siblings.map bytes32)
  | .submitSlashAppeal slashId evidence => .submitSlashAppeal slashId evidence
  | .resolveSlashAppeal appealId approved => .resolveSlashAppeal appealId approved
  | .resolveSlashAppealAttested appealId approved ballotSignature =>
    .resolveSlashAppealAttested appealId approved (array 64 ballotSignature.toNat)
  | .resolveSlashAppealBlsAggregate appealId approved signerBitset aggregateSignature pubkeys =>
    .resolveSlashAppealBlsAggregate appealId approved signerBitset
      (array 96 aggregateSignature.toNat) (pubkeys.map fun key => array 48 key.toNat)
  | .grantBlobDownload blobId grantee => .grantBlobDownload (bytes32 blobId) (bytes32 grantee)
  | .revokeBlobDownload blobId grantee => .revokeBlobDownload (bytes32 blobId) (bytes32 grantee)
  | .reportEquivocation evidence => .reportEquivocation evidence.serialize
  | .governancePropose targetKey targetValue => .governancePropose (textInput targetKey) targetValue
  | .governanceVote proposalId approve => .governanceVote proposalId approve
  | .governanceAdvanceCooling proposalId => .governanceAdvanceCooling proposalId

/-- A content type that is left out is empty. -/
def TransactionPayloadInput.filled : TransactionPayloadInput → TransactionPayloadInput
  | .putBlob retention contentType data => .putBlob retention (some (contentType.getD [])) data
  | .blobAnnounce blobId size retention contentType =>
    .blobAnnounce blobId size retention (some (contentType.getD []))
  | payload => payload

structure TransactionInput.Describes (input : TransactionInput) (tx : Transaction)
    (priorityTip : ℕ) : Prop where
  nonce : input.nonce = tx.nonce
  sender : input.sender = bytes32 tx.sender
  payload : input.payload.filled = payloadInput tx.payload
  read : input.read = tx.accessList.read.map bytes32
  write : input.write = tx.accessList.write.map bytes32
  priorityTip : input.priorityTip.getD 0 = priorityTip

def ChainIdInput.Describes : ChainIdInput → ℕ → Prop
  | .bigint value, chainId => value = chainId
  | .number value, chainId => value = numberInput chainId

/-! ## The parts of an encoding -/

theorem writeLe_natCast (width value : ℕ) : writeLe width value = leBytes width value := by
  induction width generalizing value with
  | zero => rfl
  | succ width ih =>
    have low : UInt8.ofNat ((value : ℤ) % 256).toNat = UInt8.ofNat value := by
      apply UInt8.toNat_inj.mp
      rw [UInt8.toNat_ofNat', UInt8.toNat_ofNat']
      omega
    have rest : (value : ℤ) / 256 = (value / 256 : ℕ) := by omega
    rw [writeLe, low, rest, ih, leBytes_succ]

@[simp] theorem writeU64Le_natCast (value : ℕ) : writeU64Le value = leBytes 8 value :=
  writeLe_natCast 8 value

@[simp] theorem writeU128Le_natCast (value : ℕ) : writeU128Le value = leBytes 16 value :=
  writeLe_natCast 16 value

@[simp] theorem encodeByteVec_eq (data : Bytes) : encodeByteVec data = byteVec data := by
  rw [encodeByteVec, writeU64Le_natCast, byteVec]

@[simp] theorem encodeBincodeString_textInput (text : String) :
    encodeBincodeString (textInput text) = string text := by
  have isText : (textInput text).map CodePoint.encoded = text.toList := by
    rw [textInput, List.map_map]
    exact List.map_id _
  rw [encodeBincodeString, encodeByteVec_eq, textEncode, isText, String.ofList_toList, string]

theorem leBytes_mod (width value : ℕ) :
    leBytes width (value % 2 ^ (8 * width)) = leBytes width value := by
  have read := leBytes_leValue (leBytes width value)
  rwa [length_leBytes, leValue_leBytes] at read

@[simp] theorem variantIndex_eq (index : ℕ) : variantIndex index = leBytes 4 index := rfl

@[simp] theorem writeU32Le_eq (value : ℕ) : writeU32Le value = leBytes 4 value := rfl

@[simp] theorem leBytes_toUint32_numberInput (value : ℕ) :
    leBytes 4 (numberInput value).toUint32 = leBytes 4 value := by
  have isNumber : (numberInput value).toUint32 = value % 2 ^ (8 * 4) := by
    simp only [numberInput, JsNumber.toUint32, Rat.num_natCast, Rat.den_natCast, Nat.cast_one,
      Int.tdiv_one]
    norm_cast
  rw [isNumber, leBytes_mod]

@[simp] theorem needLength_bytes32 (word : BitVec 256) (message : String) :
    needLength 32 (bytes32 word) message = .ok (bytes32 word) := by
  simp [needLength, pure, Except.pure]

@[simp] theorem need32_bytes32 (word : BitVec 256) (what : String) :
    need32 (bytes32 word) what = .ok (bytes32 word) := needLength_bytes32 word _

@[simp] theorem needLength_array (count value : ℕ) (message : String) :
    needLength count (array count value) message = .ok (array count value) := by
  simp [needLength, pure, Except.pure]

@[simp] theorem needLength_eq_ok {length : ℕ} {bytes result : Bytes} {message : String} :
    needLength length bytes message = .ok result ↔ bytes.length = length ∧ bytes = result := by
  unfold needLength
  split
  next differs => exact iff_of_false nofun fun ⟨same, _⟩ => differs same
  next same => exact ⟨fun isResult => ⟨not_not.mp same, Except.ok.inj isResult⟩,
    fun ⟨_, isResult⟩ => congrArg Except.ok isResult⟩

@[simp] theorem encodeOptionFixed32_map (salt : Option (BitVec 256)) :
    encodeOptionFixed32 (salt.map bytes32) = .ok (option bytes32 salt) := by
  cases salt with
  | none => rfl
  | some salt => simp [encodeOptionFixed32, option, pure, Except.pure]

@[simp] theorem encodeOptionByteVec_eq (data : Option Bytes) :
    encodeOptionByteVec data = option byteVec data := by
  cases data <;> simp [encodeOptionByteVec, option]

@[simp] theorem encodeOptionString_map (text : Option String) :
    encodeOptionString (text.map textInput) = option string text := by
  cases text <;> simp [encodeOptionString, option]

@[simp] theorem encodeRetention_retentionInput (retention : BlobRetention) :
    encodeRetention (retentionInput retention) = retention.serialize := by
  cases retention <;> simp [encodeRetention, retentionInput, BlobRetention.serialize]

@[simp] theorem encodeVote_eq (vote : QaPoolVoteKind) : encodeVote vote = vote.serialize := by
  cases vote <;> rfl

variable {bytes : Bytes} {chainId : ChainIdInput} {input : TransactionInput} {tx : Transaction}
  {priorityTip id : ℕ}

theorem eq_of_yearsByte {years : ℕ} (encoded : yearsByte (numberInput years) = .ok bytes) :
    bytes = leBytes 1 years := by
  rw [numberInput, yearsByte] at encoded
  split at encoded
  next => cases encoded
  next =>
    cases encoded
    rfl

theorem eq_of_encodeBatchCall {call : BatchCall}
    (encoded : encodeBatchCall (batchCallInput call) = .ok bytes) : bytes = call.serialize := by
  cases call with
  | transfer recipient amount =>
    simp [encodeBatchCall, batchCallInput, pure, Except.pure] at encoded
    simp [BatchCall.serialize, ← encoded]
  | contractCall contract calldata =>
    simp [encodeBatchCall, batchCallInput, pure, Except.pure] at encoded
    simp [BatchCall.serialize, ← encoded]
  | contractCallWithValue contract calldata value =>
    simp only [encodeBatchCall, batchCallInput, needLength_bytes32, Except.ok_bind] at encoded
    obtain ⟨_, _, isBytes⟩ := Except.bind_eq_ok.mp encoded
    cases isBytes
    simp [BatchCall.serialize]

theorem flatten_of_mapM {Item : Type} {encode : Item → Except String Bytes}
    {write : Item → Bytes} {items : List Item} {parts : List Bytes}
    (isWritten : ∀ item bytes, encode item = .ok bytes → bytes = write item)
    (encoded : items.mapM encode = .ok parts) : parts.flatten = items.flatMap write := by
  rw [Except.eq_map_of_mapM (fun item _ bytes => isWritten item bytes) encoded, List.flatMap]

theorem eq_of_encodeVecAccountIds {ids : List AccountId}
    (encoded : encodeVecAccountIds (ids.map bytes32) = .ok bytes) : bytes = vec bytes32 ids := by
  obtain ⟨parts, isParts, isBytes⟩ := Except.bind_eq_ok.mp encoded
  cases isBytes
  rw [flatten_of_mapM (fun _ _ found => (needLength_eq_ok.mp found).2.symm) isParts, vec,
    List.flatMap_map, List.length_map, writeU64Le_natCast]

@[simp] theorem encodeBool_eq (value : Bool) : encodeBool value = Bincode.bool value := rfl

/-! ## Payloads -/

/-- A described payload is written as the node writes it. -/
theorem eq_of_encodeTransactionPayload {payload : TransactionPayload}
    (encoded : encodeTransactionPayload (payloadInput payload) = .ok bytes) :
    bytes = payload.serialize := by
  cases payload with
  | batch calls =>
    obtain ⟨_, -, encoded⟩ := Except.bind_eq_ok.mp encoded
    obtain ⟨parts, isParts, isBytes⟩ := Except.bind_eq_ok.mp encoded
    cases isBytes
    rw [List.mapM_map] at isParts
    rw [flatten_of_mapM (fun _ _ found => eq_of_encodeBatchCall found) isParts]
    simp [TransactionPayload.serialize, vec]
  | validatorRegister nodeId nodeSignature =>
    simp only [encodeTransactionPayload, payloadInput, needLength_bytes32, Except.ok_bind]
      at encoded
    obtain ⟨written, isWritten, isBytes⟩ := Except.bind_eq_ok.mp encoded
    cases isBytes
    simp [TransactionPayload.serialize, ← (needLength_eq_ok.mp isWritten).2]
  | nameRegister name salt target years =>
    simp only [encodeTransactionPayload, payloadInput, need32_bytes32, Except.ok_bind] at encoded
    obtain ⟨written, isWritten, isBytes⟩ := Except.bind_eq_ok.mp encoded
    cases isBytes
    simp [TransactionPayload.serialize, eq_of_yearsByte isWritten]
  | nameRenew name years =>
    obtain ⟨written, isWritten, isBytes⟩ := Except.bind_eq_ok.mp encoded
    cases isBytes
    simp [TransactionPayload.serialize, eq_of_yearsByte isWritten]
  | respondBlobSampleServe blobId chunkIndex chunkCount challenger chunkHash chunksRoot siblings =>
    simp only [encodeTransactionPayload, payloadInput, need32_bytes32, Except.ok_bind] at encoded
    obtain ⟨parts, isParts, isBytes⟩ := Except.bind_eq_ok.mp encoded
    cases isBytes
    rw [flatten_of_mapM (fun _ _ found => (needLength_eq_ok.mp found).2.symm) isParts]
    simp [TransactionPayload.serialize, vec, List.flatMap_map]
  | resolveSlashAppealBlsAggregate appealId approved bitset signature pubkeys =>
    simp only [encodeTransactionPayload, payloadInput, needLength_array, Except.ok_bind]
      at encoded
    obtain ⟨parts, isParts, isBytes⟩ := Except.bind_eq_ok.mp encoded
    cases isBytes
    rw [flatten_of_mapM (fun _ _ found => (needLength_eq_ok.mp found).2.symm) isParts]
    simp [TransactionPayload.serialize, vec, byteVec, List.flatMap_map]
  | transfer | bond | unbond | contractCallWithValue =>
    obtain ⟨_, -, isBytes⟩ := Except.bind_eq_ok.mp encoded
    simp [pure, Except.pure] at isBytes
    simp [TransactionPayload.serialize, ← isBytes]
  | _ =>
    simp [encodeTransactionPayload, payloadInput, pure, Except.pure] at encoded
    simp [TransactionPayload.serialize, byteVec, ← encoded]

theorem encodeTransactionPayload_filled (payload : TransactionPayloadInput) :
    encodeTransactionPayload payload.filled = encodeTransactionPayload payload := by
  cases payload <;> rfl

/-! ## Transactions -/

section Transactions

theorem TransactionInput.Describes.eq_of_signableBody (describes : input.Describes tx priorityTip)
    (encoded : signableBody input = .ok bytes) : bytes = tx.serialize := by
  obtain ⟨payload, isPayload, encoded⟩ := Except.bind_eq_ok.mp encoded
  obtain ⟨accessList, isAccessList, isBytes⟩ := Except.bind_eq_ok.mp encoded
  obtain ⟨reads, isReads, isAccessList⟩ := Except.bind_eq_ok.mp isAccessList
  obtain ⟨writes, isWrites, isAccessList⟩ := Except.bind_eq_ok.mp isAccessList
  rw [← encodeTransactionPayload_filled, describes.payload] at isPayload
  rw [describes.read] at isReads
  rw [describes.write] at isWrites
  cases isBytes
  cases isAccessList
  rw [describes.nonce, describes.sender, eq_of_encodeTransactionPayload isPayload,
    eq_of_encodeVecAccountIds isReads, eq_of_encodeVecAccountIds isWrites, writeU64Le_natCast]
  rfl

theorem exists_eq_array (bytes : Bytes) :
    ∃ value : BitVec (8 * bytes.length), bytes = array bytes.length value.toNat := by
  have small := leValue_lt bytes.reverse
  have read := leBytes_leValue bytes.reverse
  rw [List.length_reverse] at small read
  refine ⟨⟨leValue bytes.reverse, small⟩, ?_⟩
  rw [BitVec.toNat_ofFin, array_eq_reverse, read, List.reverse_reverse]

theorem exists_signature (length : bytes.length = 64) :
    ∃ signature : Signature, bytes = array 64 signature.toNat := by
  have found := exists_eq_array bytes
  rw [length] at found
  exact found

theorem parts_of_encodeSignedTransaction {signature : Bytes}
    (encoded : encodeSignedTransaction input signature = .ok bytes) :
    signature.length = 64 ∧ ∃ body, signableBody input = .ok body ∧
      bytes = body ++ byteVec signature ++
        (if input.priorityTip.getD 0 = 0 then [] else writeU128Le (input.priorityTip.getD 0)) := by
  have lengthField : writeU64Le 64 = leBytes 8 64 := writeU64Le_natCast 64
  unfold encodeSignedTransaction encodeTransaction encodeSignature at encoded
  obtain ⟨body, isBody, encoded⟩ := Except.bind_eq_ok.mp encoded
  obtain ⟨_, -, isBody⟩ := Except.bind_eq_ok.mp isBody
  obtain ⟨_, isSignature, isBytes⟩ := Except.bind_eq_ok.mp encoded
  obtain ⟨written, isWritten, isSignature⟩ := Except.bind_eq_ok.mp isSignature
  obtain ⟨signatureLength, rfl⟩ := needLength_eq_ok.mp isWritten
  refine ⟨signatureLength, body, isBody, ?_⟩
  rw [byteVec, signatureLength, ← lengthField]
  cases isSignature
  split at isBytes
  next noTip =>
    cases isBytes
    rw [if_pos noTip, List.append_nil]
  next someTip =>
    cases isBytes
    rw [if_neg someTip]

theorem TransactionInput.Describes.eq_of_encodeSignedTransaction {signature : Signature}
    (describes : input.Describes tx priorityTip)
    (encoded : encodeSignedTransaction input (array 64 signature.toNat) = .ok bytes) :
    bytes = (⟨tx, signature, priorityTip⟩ : SignedTransaction).serialize := by
  obtain ⟨-, body, isBody, rfl⟩ := parts_of_encodeSignedTransaction encoded
  rw [describes.eq_of_signableBody isBody, describes.priorityTip, writeU128Le_natCast]
  simp only [SignedTransaction.serialize, signatureBytes, Nat.cast_eq_zero]

end Transactions

section ChainIds

theorem ChainIdInput.Describes.toBigInt_eq (describes : chainId.Describes id) :
    chainId.toBigInt = .ok id := by
  cases chainId with
  | bigint value => exact congrArg Except.ok describes
  | number value =>
    obtain rfl := describes
    rfl

def ChainIdInput.InRange (chainId : ChainIdInput) : Prop := ∃ id < 2 ^ 64, chainId.Describes id

end ChainIds

/-- The fields are those of a transaction of the node, and have its widths. -/
def InRange (input : TransactionInput) : Prop :=
  ∃ tx priorityTip, input.Describes tx priorityTip ∧ tx.Fits ∧ priorityTip < 2 ^ 128

section Digests

variable [Crypto] {body : Bytes}

section

variable (describes : input.Describes tx priorityTip) (isBody : signableBody input = .ok body)
  (isId : chainId.Describes id)

include describes isBody isId

theorem signableTransactionHashV2_eq : signableTransactionHashV2 input chainId =
      .ok (BoingNetwork.signableTransactionHashV2 tx id) := by
  obtain rfl := describes.eq_of_signableBody isBody
  simp only [signableTransactionHashV2, isId.toBigInt_eq, isBody, Except.ok_bind,
    writeU64Le_natCast, BoingNetwork.signableTransactionHashV2, Transaction.serialize,
    List.append_assoc]
  rfl

theorem signableTransactionHashWithTip_eq : signableTransactionHashWithTip input chainId =
      .ok (BoingNetwork.signableTransactionHashWithTip tx id priorityTip) := by
  rw [signableTransactionHashWithTip, BoingNetwork.signableTransactionHashWithTip,
    describes.priorityTip]
  by_cases noTip : priorityTip = 0
  · rw [if_pos (Nat.cast_eq_zero.mpr noTip), if_pos noTip]
    exact signableTransactionHashV2_eq describes isBody isId
  · rw [if_neg (Nat.cast_ne_zero.mpr noTip), if_neg noTip]
    obtain rfl := describes.eq_of_signableBody isBody
    simp only [isId.toBigInt_eq, isBody, Except.ok_bind, writeU64Le_natCast, writeU128Le_natCast,
      Transaction.serialize, List.append_assoc]
    rfl

end

structure DigestsAgree (input : TransactionInput) (chainId : ChainIdInput) (tx : Transaction)
    (priorityTip : ℕ) : Prop where
  plain : signableTransactionHash input = .ok (signableHash tx)
  bound : ∀ digest, signableTransactionHashV2 input chainId = .ok digest →
    ∃ id < 2 ^ 64, chainId.Describes id ∧ digest = BoingNetwork.signableTransactionHashV2 tx id
  tipped : ∀ digest, signableTransactionHashWithTip input chainId = .ok digest →
    ∃ id < 2 ^ 64, chainId.Describes id ∧
      digest = BoingNetwork.signableTransactionHashWithTip tx id priorityTip

/-- The SDK throws, or the node reads what was described and both sides sign the same. -/
def Agrees (input : TransactionInput) (chainId : ChainIdInput) (signature : Bytes) : Prop :=
  ∀ bytes, encodeSignedTransaction input signature = .ok bytes →
    ∃ tx signatureValue priorityTip, input.Describes tx priorityTip ∧
      signature = array 64 (BitVec.toNat signatureValue) ∧
      SignedTransaction.fromBincode bytes = some ⟨tx, signatureValue, priorityTip⟩ ∧
      DigestsAgree input chainId tx priorityTip

theorem exists_digest {value : ℤ} (isBody : signableBody input = .ok body)
    (converted : chainId.toBigInt = .ok value) :
    ∃ digest, signableTransactionHashV2 input chainId = .ok digest := by
  rw [signableTransactionHashV2, converted, isBody]
  exact ⟨_, rfl⟩

theorem not_digest {error : String} (refused : chainId.toBigInt = .error error) (digest : Hash) :
    signableTransactionHashV2 input chainId ≠ .ok digest ∧
      signableTransactionHashWithTip input chainId ≠ .ok digest := by
  have noV2 : signableTransactionHashV2 input chainId ≠ .ok digest := by
    rw [signableTransactionHashV2, refused]
    nofun
  refine ⟨noV2, ?_⟩
  rw [signableTransactionHashWithTip]
  split
  next => exact noV2
  next =>
    rw [refused]
    nofun

theorem agrees_iff (input : TransactionInput) (chainId : ChainIdInput) (signature : Bytes) :
    Agrees input chainId signature ↔
      (∃ error, encodeSignedTransaction input signature = .error error) ∨
        InRange input ∧ ((∃ error, chainId.toBigInt = .error error) ∨ chainId.InRange) := by
  unfold Agrees
  cases encoded : encodeSignedTransaction input signature with
  | error error => simp
  | ok bytes =>
    simp only [reduceCtorEq, exists_false, false_or, Except.ok.injEq, forall_eq']
    obtain ⟨signatureLength, body, isBody, -⟩ := parts_of_encodeSignedTransaction encoded
    constructor
    · rintro ⟨tx, signatureValue, priorityTip, describes, -, decoded, digests⟩
      obtain ⟨fits, tipFits⟩ := SignedTransaction.fits_of_fromBincode decoded
      refine ⟨⟨tx, priorityTip, describes, fits, tipFits⟩, ?_⟩
      cases converted : chainId.toBigInt with
      | error error => exact .inl ⟨error, rfl⟩
      | ok value =>
        obtain ⟨digest, isDigest⟩ := exists_digest isBody converted
        obtain ⟨id, small, isId, -⟩ := digests.bound digest isDigest
        exact .inr ⟨id, small, isId⟩
    · rintro ⟨⟨tx, priorityTip, describes, fits, tipFits⟩, isChain⟩
      obtain ⟨signatureValue, rfl⟩ := exists_signature signatureLength
      refine ⟨tx, signatureValue, priorityTip, describes, rfl, ?_, ?_, ?_, ?_⟩
      · rw [describes.eq_of_encodeSignedTransaction encoded]
        exact SignedTransaction.fromBincode_serialize ⟨fits, tipFits⟩
      · rw [signableTransactionHash, isBody, describes.eq_of_signableBody isBody]
        rfl
      · intro digest isDigest
        obtain ⟨error, refused⟩ | ⟨id, small, isId⟩ := isChain
        · exact absurd isDigest (not_digest refused digest).1
        · rw [signableTransactionHashV2_eq describes isBody isId] at isDigest
          exact ⟨id, small, isId, (Except.ok.inj isDigest).symm⟩
      · intro digest isDigest
        obtain ⟨error, refused⟩ | ⟨id, small, isId⟩ := isChain
        · exact absurd isDigest (not_digest refused digest).2
        · rw [signableTransactionHashWithTip_eq describes isBody isId] at isDigest
          exact ⟨id, small, isId, (Except.ok.inj isDigest).symm⟩

end Digests

/-! ## Fields that are not checked -/

def wideNonce : TransactionInput where
  nonce := 2 ^ 64
  sender := List.replicate 32 1
  payload := .claimUnbond
  read := []
  write := []
  priorityTip := none

/-- A transfer to an account of 31 bytes. -/
def shortRecipient : TransactionInput where
  nonce := 0
  sender := List.replicate 32 1
  payload := .transfer (List.replicate 31 2) 5
  read := []
  write := []
  priorityTip := none

def someSignature : Bytes := List.replicate 64 3

def encodedBytes (input : TransactionInput) : Bytes :=
  (encodeSignedTransaction input someSignature).toOption.getD []

/-- The SDK does not throw, and the node reads another nonce or nothing at all. -/
theorem unchecked_fields_encoded :
    encodeSignedTransaction wideNonce someSignature = .ok (encodedBytes wideNonce) ∧
    (SignedTransaction.fromBincode (encodedBytes wideNonce)).map (·.tx.nonce) = some 0 ∧
    encodeSignedTransaction shortRecipient someSignature = .ok (encodedBytes shortRecipient) ∧
    SignedTransaction.fromBincode (encodedBytes shortRecipient) = none ∧
    ¬ @Agrees checksumCrypto wideNonce (.bigint 1) someSignature ∧
    ¬ @Agrees checksumCrypto shortRecipient (.bigint 1) someSignature := by
  have isWide : encodeSignedTransaction wideNonce someSignature = .ok (encodedBytes wideNonce) := by
    decide +kernel
  have isShort : encodeSignedTransaction shortRecipient someSignature =
      .ok (encodedBytes shortRecipient) := by decide +kernel
  have readsZero : (SignedTransaction.fromBincode (encodedBytes wideNonce)).map (·.tx.nonce) =
      some 0 := by decide +kernel
  have readsNothing : SignedTransaction.fromBincode (encodedBytes shortRecipient) = none := by
    decide +kernel
  refine ⟨isWide, readsZero, isShort, readsNothing, fun agrees => ?_, fun agrees => ?_⟩
  · obtain ⟨tx, signature, priorityTip, describes, -, decoded, -⟩ := agrees _ isWide
    rw [decoded, Option.map_some, Option.some_inj] at readsZero
    have isNonce := describes.nonce
    rw [readsZero] at isNonce
    exact absurd isNonce (by decide)
  · obtain ⟨tx, signature, priorityTip, -, -, decoded, -⟩ := agrees _ isShort
    rw [decoded] at readsNothing
    cases readsNothing

end BoingNetwork.Sdk
