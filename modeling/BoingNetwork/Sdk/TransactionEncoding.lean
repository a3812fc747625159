import BoingNetwork.Library.Result
import BoingNetwork.Primitives.Bincode
import Mathlib.Data.Rat.Defs

/-!
# The transaction encoder of the SDK

The SDK writes bincode by hand.  Its inputs are values of JavaScript: byte arrays of any
length, unbounded integers, numbers that need not be whole, and strings whose code points
need not be characters.  Some fields are checked, in which case the encoder throws; the
others are written as they are or cut to the width of the field.
-/

namespace BoingNetwork.Sdk

/-! ## Values of the language -/

/-- A number that is not an unbounded integer. -/
inductive JsNumber where
  | finite (value : ℚ)
  | notFinite

/-- A code point of a string; half of a surrogate pair is no character. -/
inductive CodePoint where
  | scalar (char : Char)
  | loneSurrogate (unit : ℕ)

abbrev JsString : Type := List CodePoint

def JsNumber.toUint32 : JsNumber → ℕ
  | .finite value => (value.num.tdiv value.den % 2 ^ 32).toNat
  | .notFinite => 0

def CodePoint.encoded : CodePoint → Char
  | .scalar char => char
  | .loneSurrogate _ => '\uFFFD'

def textEncode (text : JsString) : Bytes :=
  Bincode.utf8 (String.ofList (text.map CodePoint.encoded))

/-! ## Writers -/

def writeU32Le (value : ℕ) : Bytes := leBytes 4 value

/-- The low bytes of an unbounded integer. -/
def writeLe : ℕ → ℤ → Bytes
  | 0, _ => []
  | width + 1, value => UInt8.ofNat (value % 256).toNat :: writeLe width (value / 256)

def writeU64Le (value : ℤ) : Bytes := writeLe 8 value

def writeU128Le (value : ℤ) : Bytes := writeLe 16 value

def encodeByteVec (data : Bytes) : Bytes := writeU64Le data.length ++ data

def encodeBincodeString (text : JsString) : Bytes := encodeByteVec (textEncode text)

/-- A byte array of a fixed length, or the error of its check. -/
def needLength (length : ℕ) (bytes : Bytes) (message : String) : Except String Bytes :=
  if bytes.length ≠ length then throw message else return bytes

def need32 (bytes : Bytes) (what : String) : Except String Bytes :=
  needLength 32 bytes (what ++ " must be 32 bytes")

def encodeVecAccountIds (ids : List Bytes) : Except String Bytes := do
  let parts ← ids.mapM fun id => needLength 32 id "Each AccountId must be exactly 32 bytes"
  return writeU64Le ids.length ++ parts.flatten

def encodeAccessList (read write : List Bytes) : Except String Bytes := do
  let reads ← encodeVecAccountIds read
  let writes ← encodeVecAccountIds write
  return reads ++ writes

def encodeOptionFixed32 : Option Bytes → Except String Bytes
  | none => return [0]
  | some salt => do
    let bytes ← needLength 32 salt "create2_salt must be 32 bytes"
    return [1] ++ bytes

def encodeOptionByteVec : Option Bytes → Bytes
  | none => [0]
  | some data => [1] ++ encodeByteVec data

def encodeOptionString : Option JsString → Bytes
  | none => [0]
  | some text => [1] ++ encodeBincodeString text

def encodeBool (value : Bool) : Bytes := [if value then 1 else 0]

def checkValue (value : ℤ) : Except String Unit :=
  if value < 0 ∨ 2 ^ 128 ≤ value then throw "value must fit u128" else return

def yearsByte : JsNumber → Except String Bytes
  | .finite value =>
    if value.den ≠ 1 ∨ value.num < 1 ∨ 10 < value.num then throw "years must be 1-10"
    else return [UInt8.ofNat value.num.toNat]
  | .notFinite => throw "years must be 1-10"

/-! ## Inputs -/

inductive BatchCallInput where
  | transfer (recipient : Bytes) (amount : ℤ)
  | contractCall (contract calldata : Bytes)
  | contractCallWithValue (contract calldata : Bytes) (value : ℤ)

inductive RetentionInput where
  | forever
  | prunable (ttlBlocks : ℤ)

inductive TransactionPayloadInput where
  | transfer (recipient : Bytes) (amount : ℤ)
  | contractCall (contract calldata : Bytes)
  | contractCallWithValue (contract calldata : Bytes) (value : ℤ)
  | contractDeploy (bytecode : Bytes) (create2Salt : Option Bytes)
  | contractDeployWithPurpose (bytecode : Bytes) (purposeCategory : JsString)
      (descriptionHash create2Salt : Option Bytes)
  | contractDeployWithPurposeAndMetadata (bytecode : Bytes) (purposeCategory : JsString)
      (descriptionHash : Option Bytes) (assetName assetSymbol : Option JsString)
      (create2Salt : Option Bytes)
  | bond (amount : ℤ)
  | unbond (amount : ℤ)
  | claimUnbond
  | qaPoolVote (subject : Bytes) (vote : QaPoolVoteKind)
  | batch (calls : List BatchCallInput)
  | validatorRegister (nodeId nodeSignature : Bytes)
  | validatorDeregister (nodeId : Bytes)
  | validatorUnjail (nodeId : Bytes)
  | nameCommit (commitment : Bytes)
  | nameRegister (name : JsString) (salt target : Bytes) (years : JsNumber)
  | nameRenew (name : JsString) (years : JsNumber)
  | nameTransfer (name : JsString) (newOwner : Bytes)
  | nameSetTarget (name : JsString) (target : Bytes)
  | nameSetPrimary (name : Option JsString)
  | nameRelease (name : JsString)
  | putBlob (retention : RetentionInput) (contentType : Option JsString) (data : Bytes)
  | blobAnnounce (blobId : Bytes) (size : JsNumber) (retention : RetentionInput)
      (contentType : Option JsString)
  | renewMediaBlobPin (blobId : Bytes) (size : JsNumber) (extendBlocks : ℤ)
  | payBlobSample (blobId : Bytes) (chunkIndex chunkCount : JsNumber)
  | registerBlobSampleOffer (blobId : Bytes) (chunkIndex chunkCount : JsNumber)
      (askFee expiresAtHeight : ℤ)
  | settleBlobSampleMatch (blobId : Bytes) (chunkIndex chunkCount : JsNumber) (provider : Bytes)
  | cancelBlobSampleOffer (blobId : Bytes) (chunkIndex : JsNumber)
  | challengeBlobSampleServe (blobId : Bytes) (chunkIndex chunkCount : JsNumber) (provider : Bytes)
  | respondBlobSampleServe (blobId : Bytes) (chunkIndex chunkCount : JsNumber)
      (challenger chunkHash chunksRoot : Bytes) (siblings : List Bytes)
  | submitSlashAppeal (slashId : ℤ) (evidence : Bytes)
  | resolveSlashAppeal (appealId : ℤ) (approved : Bool)
  | resolveSlashAppealAttested (appealId : ℤ) (approved : Bool) (ballotSignature : Bytes)
  | resolveSlashAppealBlsAggregate (appealId : ℤ) (approved : Bool)
      (signerBitset aggregateSignature : Bytes) (signerBlsPubkeys : List Bytes)
  | grantBlobDownload (blobId grantee : Bytes)
  | revokeBlobDownload (blobId grantee : Bytes)
  | reportEquivocation (evidence : Bytes)
  | governancePropose (targetKey : JsString) (targetValue : Bytes)
  | governanceVote (proposalId : ℤ) (approve : Bool)
  | governanceAdvanceCooling (proposalId : ℤ)

structure TransactionInput where
  nonce : ℤ
  sender : Bytes
  payload : TransactionPayloadInput
  read : List Bytes
  write : List Bytes
  priorityTip : Option ℤ

/-- A chain id may be given as either kind of number. -/
inductive ChainIdInput where
  | bigint (value : ℤ)
  | number (value : JsNumber)

/-! ## Batches -/

def MAX_BATCH_CALLS : ℕ := 16

def MAX_BATCH_CALLDATA_BYTES : ℕ := 64 * 1024

/-- One round of the loop of `validateBatchCalls`: the calldata and the amounts so far. -/
def addBatchCall (sums : ℕ × ℤ) : BatchCallInput → Except String (ℕ × ℤ)
  | .transfer _ amount =>
    if amount < 0 then throw "batch transfer amount must be >= 0"
    else return (sums.1, sums.2 + amount)
  | .contractCall _ calldata => return (sums.1 + calldata.length, sums.2)
  | .contractCallWithValue _ calldata value => do
    checkValue value
    return (sums.1 + calldata.length, sums.2 + value)

def validateBatchCalls (calls : List BatchCallInput) : Except String Unit := do
  if calls.length = 0 then throw "batch has no calls"
  if MAX_BATCH_CALLS < calls.length then
    throw ("batch has " ++ toString calls.length ++ " calls (max 16)")
  let (calldata, total) ← calls.foldlM addBatchCall (0, 0)
  if 2 ^ 128 ≤ total then throw "batch transfer total overflows u128"
  if MAX_BATCH_CALLDATA_BYTES < calldata then
    throw ("batch calldata is " ++ toString calldata ++ " bytes (max 65536)")

def encodeBatchCall : BatchCallInput → Except String Bytes
  | .transfer recipient amount => do
    let recipient ← needLength 32 recipient "batch transfer `to` must be 32 bytes"
    return writeU32Le 0 ++ recipient ++ writeU128Le amount
  | .contractCall contract calldata => do
    let contract ← needLength 32 contract "batch contract must be 32 bytes"
    return writeU32Le 1 ++ contract ++ encodeByteVec calldata
  | .contractCallWithValue contract calldata value => do
    let contract ← needLength 32 contract "batch contract must be 32 bytes"
    checkValue value
    return writeU32Le 2 ++ contract ++ encodeByteVec calldata ++ writeU128Le value

/-! ## Payloads -/

def encodeVote : QaPoolVoteKind → Bytes
  | .allow => writeU32Le 0
  | .reject => writeU32Le 1
  | .abstain => writeU32Le 2

def encodeRetention : RetentionInput → Bytes
  | .forever => writeU32Le 1
  | .prunable ttlBlocks => writeU32Le 0 ++ writeU64Le ttlBlocks

def encodeTransactionPayload : TransactionPayloadInput → Except String Bytes
  | .transfer recipient amount => do
    checkValue amount
    return writeU32Le 0 ++ recipient ++ writeU128Le amount
  | .contractCall contract calldata => return writeU32Le 1 ++ contract ++ encodeByteVec calldata
  | .contractCallWithValue contract calldata value => do
    checkValue value
    let contract ← need32 contract "contract"
    return writeU32Le 20 ++ contract ++ encodeByteVec calldata ++ writeU128Le value
  | .contractDeploy bytecode salt => do
    let salt ← encodeOptionFixed32 salt
    return writeU32Le 2 ++ encodeByteVec bytecode ++ salt
  | .contractDeployWithPurpose bytecode category description salt => do
    let salt ← encodeOptionFixed32 salt
    return writeU32Le 3 ++ encodeByteVec bytecode ++ encodeBincodeString category ++
      encodeOptionByteVec description ++ salt
  | .contractDeployWithPurposeAndMetadata bytecode category description name symbol salt => do
    let salt ← encodeOptionFixed32 salt
    return writeU32Le 4 ++ encodeByteVec bytecode ++ encodeBincodeString category ++
      encodeOptionByteVec description ++ encodeOptionString name ++ encodeOptionString symbol ++
      salt
  | .bond amount => do
    checkValue amount
    return writeU32Le 5 ++ writeU128Le amount
  | .unbond amount => do
    checkValue amount
    return writeU32Le 6 ++ writeU128Le amount
  | .claimUnbond => return writeU32Le 7
  | .qaPoolVote subject vote => do
    let subject ← needLength 32 subject "qaPoolVote subject must be 32 bytes"
    return writeU32Le 8 ++ subject ++ encodeVote vote
  | .batch calls => do
    validateBatchCalls calls
    let parts ← calls.mapM encodeBatchCall
    return writeU32Le 9 ++ writeU64Le calls.length ++ parts.flatten
  | .validatorRegister nodeId nodeSignature => do
    let nodeId ← needLength 32 nodeId "validator nodeId must be 32 bytes"
    let nodeSignature ← needLength 64 nodeSignature "validator nodeSignature must be 64 bytes"
    return writeU32Le 10 ++ nodeId ++ encodeByteVec nodeSignature
  | .validatorDeregister nodeId => do
    let nodeId ← needLength 32 nodeId "validator nodeId must be 32 bytes"
    return writeU32Le 11 ++ nodeId
  | .validatorUnjail nodeId => do
    let nodeId ← needLength 32 nodeId "validator nodeId must be 32 bytes"
    return writeU32Le 12 ++ nodeId
  | .nameCommit commitment => do
    let commitment ← need32 commitment "commitment"
    return writeU32Le 13 ++ commitment
  | .nameRegister name salt target years => do
    let salt ← need32 salt "salt"
    let target ← need32 target "target"
    let years ← yearsByte years
    return writeU32Le 14 ++ encodeBincodeString name ++ salt ++ target ++ years
  | .nameRenew name years => do
    let years ← yearsByte years
    return writeU32Le 15 ++ encodeBincodeString name ++ years
  | .nameTransfer name newOwner => do
    let newOwner ← need32 newOwner "newOwner"
    return writeU32Le 16 ++ encodeBincodeString name ++ newOwner
  | .nameSetTarget name target => do
    let target ← need32 target "target"
    return writeU32Le 17 ++ encodeBincodeString name ++ target
  | .nameSetPrimary name => return writeU32Le 18 ++ encodeOptionString name
  | .nameRelease name => return writeU32Le 19 ++ encodeBincodeString name
  | .putBlob retention contentType data =>
    return writeU32Le 21 ++ encodeRetention retention ++
      encodeBincodeString (contentType.getD []) ++ encodeByteVec data
  | .blobAnnounce blobId size retention contentType => do
    let blobId ← need32 blobId "blobId"
    return writeU32Le 22 ++ blobId ++ writeU32Le size.toUint32 ++ encodeRetention retention ++
      encodeBincodeString (contentType.getD [])
  | .renewMediaBlobPin blobId size extendBlocks => do
    let blobId ← need32 blobId "blobId"
    return writeU32Le 23 ++ blobId ++ writeU32Le size.toUint32 ++ writeU64Le extendBlocks
  | .payBlobSample blobId chunkIndex chunkCount => do
    let blobId ← need32 blobId "blobId"
    return writeU32Le 24 ++ blobId ++ writeU32Le chunkIndex.toUint32 ++
      writeU32Le chunkCount.toUint32
  | .registerBlobSampleOffer blobId chunkIndex chunkCount askFee expiresAtHeight => do
    let blobId ← need32 blobId "blobId"
    return writeU32Le 25 ++ blobId ++ writeU32Le chunkIndex.toUint32 ++
      writeU32Le chunkCount.toUint32 ++ writeU128Le askFee ++ writeU64Le expiresAtHeight
  | .settleBlobSampleMatch blobId chunkIndex chunkCount provider => do
    let blobId ← need32 blobId "blobId"
    let provider ← need32 provider "provider"
    return writeU32Le 26 ++ blobId ++ writeU32Le chunkIndex.toUint32 ++
      writeU32Le chunkCount.toUint32 ++ provider
  | .cancelBlobSampleOffer blobId chunkIndex => do
    let blobId ← need32 blobId "blobId"
    return writeU32Le 27 ++ blobId ++ writeU32Le chunkIndex.toUint32
  | .challengeBlobSampleServe blobId chunkIndex chunkCount provider => do
    let blobId ← need32 blobId "blobId"
    let provider ← need32 provider "provider"
    return writeU32Le 28 ++ blobId ++ writeU32Le chunkIndex.toUint32 ++
      writeU32Le chunkCount.toUint32 ++ provider
  | .respondBlobSampleServe blobId chunkIndex chunkCount challenger chunkHash chunksRoot
      siblings => do
      let blobId ← need32 blobId "blobId"
      let challenger ← need32 challenger "challenger"
      let chunkHash ← need32 chunkHash "chunkHash"
      let chunksRoot ← need32 chunksRoot "chunksRoot"
      let parts ← siblings.mapM fun sibling => need32 sibling "sibling"
      return writeU32Le 29 ++ blobId ++ writeU32Le chunkIndex.toUint32 ++
        writeU32Le chunkCount.toUint32 ++ challenger ++ chunkHash ++ chunksRoot ++
        writeU64Le siblings.length ++ parts.flatten
  | .submitSlashAppeal slashId evidence =>
    return writeU32Le 30 ++ writeU64Le slashId ++ writeU64Le evidence.length ++ evidence
  | .resolveSlashAppeal appealId approved =>
    return writeU32Le 31 ++ writeU64Le appealId ++ encodeBool approved
  | .resolveSlashAppealAttested appealId approved ballotSignature => do
    let ballotSignature ← needLength 64 ballotSignature
      "resolveSlashAppealAttested ballotSignature must be 64 bytes"
    return writeU32Le 32 ++ writeU64Le appealId ++ encodeBool approved ++ ballotSignature
  | .resolveSlashAppealBlsAggregate appealId approved signerBitset aggregateSignature
      signerBlsPubkeys => do
      let aggregateSignature ← needLength 96 aggregateSignature
        "resolveSlashAppealBlsAggregate aggregateSignature must be 96 bytes"
      let pubkeys ← signerBlsPubkeys.mapM fun pubkey => needLength 48 pubkey
        ("resolveSlashAppealBlsAggregate pubkey must be 48 bytes, got " ++ toString pubkey.length)
      return writeU32Le 33 ++ writeU64Le appealId ++ encodeBool approved ++
        writeU64Le signerBitset.length ++ signerBitset ++ aggregateSignature ++
        writeU64Le signerBlsPubkeys.length ++ pubkeys.flatten
  | .grantBlobDownload blobId grantee => do
    let blobId ← need32 blobId "blobId"
    let grantee ← need32 grantee "grantee"
    return writeU32Le 34 ++ blobId ++ grantee
  | .revokeBlobDownload blobId grantee => do
    let blobId ← need32 blobId "blobId"
    let grantee ← need32 grantee "grantee"
    return writeU32Le 35 ++ blobId ++ grantee
  | .reportEquivocation evidence => return writeU32Le 36 ++ evidence
  | .governancePropose targetKey targetValue =>
    return writeU32Le 37 ++ encodeBincodeString targetKey ++ encodeByteVec targetValue
  | .governanceVote proposalId approve =>
    return writeU32Le 38 ++ writeU64Le proposalId ++ encodeBool approve
  | .governanceAdvanceCooling proposalId => return writeU32Le 39 ++ writeU64Le proposalId

/-! ## Transactions -/

/-- The signed part of a transaction; the length of the sender is not checked here. -/
def signableBody (tx : TransactionInput) : Except String Bytes := do
  let payload ← encodeTransactionPayload tx.payload
  let accessList ← encodeAccessList tx.read tx.write
  return writeU64Le tx.nonce ++ tx.sender ++ payload ++ accessList

def encodeTransaction (tx : TransactionInput) : Except String Bytes := do
  let _ ← needLength 32 tx.sender "sender must be 32 bytes"
  signableBody tx

def encodeSignature (signature : Bytes) : Except String Bytes := do
  let signature ← needLength 64 signature "Ed25519 signature must be 64 bytes"
  return writeU64Le 64 ++ signature

def encodeSignedTransaction (tx : TransactionInput) (signature : Bytes) : Except String Bytes := do
  let body ← encodeTransaction tx
  let signature ← encodeSignature signature
  if tx.priorityTip.getD 0 = 0 then return body ++ signature
  else return body ++ signature ++ writeU128Le (tx.priorityTip.getD 0)

def ChainIdInput.toBigInt : ChainIdInput → Except String ℤ
  | .bigint value => return value
  | .number (.finite value) =>
    if value.den ≠ 1 then
      throw "The number cannot be converted to a BigInt because it is not an integer"
    else return value.num
  | .number .notFinite =>
    throw "The number cannot be converted to a BigInt because it is not an integer"

def TX_SIGNING_DOMAIN_V2 : Bytes := asciiBytes "BOING_TX_V2"

def TX_SIGNING_DOMAIN_PRIORITY : Bytes := asciiBytes "BOING_TX_PRIORITY"

section Digests

variable [Crypto]

def signableTransactionHash (tx : TransactionInput) : Except String Hash := do
  let body ← signableBody tx
  return Crypto.blake3 body

def signableTransactionHashV2 (tx : TransactionInput) (chainId : ChainIdInput) :
    Except String Hash := do
  let chainId ← chainId.toBigInt
  let body ← signableBody tx
  return Crypto.blake3 (TX_SIGNING_DOMAIN_V2 ++ writeU64Le chainId ++ body)

def signableTransactionHashWithTip (tx : TransactionInput) (chainId : ChainIdInput) :
    Except String Hash := do
  if tx.priorityTip.getD 0 = 0 then signableTransactionHashV2 tx chainId
  else
    let chainId ← chainId.toBigInt
    let body ← signableBody tx
    return Crypto.blake3 (TX_SIGNING_DOMAIN_PRIORITY ++ writeU64Le chainId ++ body ++
      writeU128Le (tx.priorityTip.getD 0))

end Digests

end BoingNetwork.Sdk
