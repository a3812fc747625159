import BoingNetwork.Primitives.Bincode

/-!
# Media blobs

Structural checks, gas and market keys of the media-blob transactions, and the
Merkle check of a light-client sample of one chunk.
-/

namespace BoingNetwork

open Bincode MachineInt

def MAX_MEDIA_BLOB_BYTES : ℕ := 16 * 1024 * 1024
def PHASE7_ACTIVATED_MAX_MEDIA_BLOB_BYTES : ℕ := 256 * 1024 * 1024
def MEDIA_BLOB_DAS_CHUNK_BYTES : ℕ := 64 * 1024
def MAX_MEDIA_BLOB_CONTENT_TYPE_LEN : ℕ := 64
def MAX_MEDIA_BLOB_TTL_BLOCKS : ℕ := 1000000
def MAX_MEDIA_BLOB_RENEW_EXTEND_BLOCKS : ℕ := 1000000
def MEDIA_BLOB_GAS_BASE : ℕ := 21000
def MEDIA_BLOB_GAS_PER_WORD : ℕ := 16
def MEDIA_BLOB_FOREVER_MULTIPLIER : ℕ := 10

inductive BlobError where
  | tooLarge (size : ℕ)
  | contentTypeTooLong (len : ℕ)
  | ttlZero
  | ttlTooLarge (ttlBlocks max : ℕ)
  | announceSizeZero
  | announceZeroBlobId
  | chunkIndexOutOfRange (index count : ℕ)
  | dasProofInvalid
  | renewExtendZero
  | renewExtendTooLarge (extend max : ℕ)
  | sampleChunkOutOfRange (index count : ℕ)
  | sampleOfferNotFound
  | sampleOfferExpired (expiresAtHeight tipHeight : ℕ)
deriving DecidableEq

def BlobError.display : BlobError → String
  | .tooLarge _ => s!"media blob exceeds MAX_MEDIA_BLOB_BYTES ({MAX_MEDIA_BLOB_BYTES})"
  | .contentTypeTooLong _ =>
    s!"media blob content_type exceeds {MAX_MEDIA_BLOB_CONTENT_TYPE_LEN} UTF-8 bytes"
  | .ttlZero => "prunable retention requires ttl_blocks >= 1"
  | .ttlTooLarge ttlBlocks max => s!"prunable ttl_blocks {ttlBlocks} exceeds max {max}"
  | .announceSizeZero => "announce size is zero"
  | .announceZeroBlobId => "announce blob_id must be non-zero"
  | .chunkIndexOutOfRange index count => s!"chunk index {index} out of range (count={count})"
  | .dasProofInvalid => "DAS sample proof does not verify against chunks_root"
  | .renewExtendZero => "renew extend_blocks must be >= 1"
  | .renewExtendTooLarge extend max => s!"renew extend_blocks {extend} exceeds max {max}"
  | .sampleChunkOutOfRange index count =>
    s!"sample chunk index {index} out of range (count={count})"
  | .sampleOfferNotFound => "no matching sample offer"
  | .sampleOfferExpired expiresAtHeight tipHeight =>
    s!"sample offer expired at height {expiresAtHeight} (tip {tipHeight})"

namespace BlobRetention

def gasMultiplier : BlobRetention → ℕ
  | .prunable _ => 1
  | .forever => MEDIA_BLOB_FOREVER_MULTIPLIER

def validate : BlobRetention → Except BlobError Unit
  | .forever => .ok ()
  | .prunable ttlBlocks =>
    if ttlBlocks = 0 then .error .ttlZero
    else if ttlBlocks > MAX_MEDIA_BLOB_TTL_BLOCKS then
      .error (.ttlTooLarge ttlBlocks MAX_MEDIA_BLOB_TTL_BLOCKS)
    else .ok ()

end BlobRetention

def blobIdOf [Crypto] (data : Bytes) : BlobId := Crypto.blake3 data

def validatePutBlobWithCap [Crypto] (retention : BlobRetention) (contentType : String)
    (data : Bytes) (maxBytes : ℕ) : Except BlobError BlobId := do
  retention.validate
  if data.length > maxBytes then .error (.tooLarge data.length)
  else if (utf8 contentType).length > MAX_MEDIA_BLOB_CONTENT_TYPE_LEN then
    .error (.contentTypeTooLong (utf8 contentType).length)
  else .ok (blobIdOf data)

def validateBlobAnnounceWithCap (blobId : BlobId) (size : ℕ) (retention : BlobRetention)
    (contentType : String) (maxBytes : ℕ) : Except BlobError Unit := do
  retention.validate
  if blobId = 0 then .error .announceZeroBlobId
  else if size = 0 then .error .announceSizeZero
  else if size > maxBytes then .error (.tooLarge size)
  else if (utf8 contentType).length > MAX_MEDIA_BLOB_CONTENT_TYPE_LEN then
    .error (.contentTypeTooLong (utf8 contentType).length)
  else .ok ()

def validateRenewMediaBlobPin (size extendBlocks : ℕ) : Except BlobError Unit :=
  if size = 0 ∨ size > MAX_MEDIA_BLOB_BYTES then .error (.tooLarge size)
  else if extendBlocks = 0 then .error .renewExtendZero
  else if extendBlocks > MAX_MEDIA_BLOB_RENEW_EXTEND_BLOCKS then
    .error (.renewExtendTooLarge extendBlocks MAX_MEDIA_BLOB_RENEW_EXTEND_BLOCKS)
  else .ok ()

/-- How many chunks a payload of `size` bytes needs. -/
def mediaBlobDasChunkCount (size : ℕ) : ℕ :=
  (size + MEDIA_BLOB_DAS_CHUNK_BYTES - 1) / MEDIA_BLOB_DAS_CHUNK_BYTES

def mediaBlobMaxBytesAt (height : ℕ) (phase7CapFrom : Option ℕ) : ℕ :=
  match phase7CapFrom with
  | some activation =>
    if height ≥ activation then PHASE7_ACTIVATED_MAX_MEDIA_BLOB_BYTES else MAX_MEDIA_BLOB_BYTES
  | none => MAX_MEDIA_BLOB_BYTES

def mediaBlobMaxDasChunksAt (height : ℕ) (phase7CapFrom : Option ℕ) : ℕ :=
  mediaBlobDasChunkCount (mediaBlobMaxBytesAt height phase7CapFrom)

def validatePayBlobSampleWithMaxChunks (chunkIndex chunkCount maxChunks : ℕ) :
    Except BlobError Unit :=
  if chunkCount = 0 ∨ chunkIndex ≥ chunkCount then
    .error (.sampleChunkOutOfRange chunkIndex chunkCount)
  else if chunkCount > maxChunks then .error (.sampleChunkOutOfRange chunkIndex chunkCount)
  else .ok ()

def validatePayBlobSample (chunkIndex chunkCount : ℕ) : Except BlobError Unit :=
  validatePayBlobSampleWithMaxChunks chunkIndex chunkCount
    (mediaBlobDasChunkCount MAX_MEDIA_BLOB_BYTES)

/-- Base gas of renew and sample transactions. -/
def mediaBlobMetaTxGas : ℕ := MEDIA_BLOB_GAS_BASE

def mediaBlobGasRaw (size : ℕ) : ℕ :=
  saturatingAdd 64 MEDIA_BLOB_GAS_BASE
    (saturatingMul 64 (max ((size + 31) / 32) 1) MEDIA_BLOB_GAS_PER_WORD)

def mediaBlobGas (size : ℕ) (retention : BlobRetention) : ℕ :=
  saturatingMul 64 (mediaBlobGasRaw size) retention.gasMultiplier

structure MediaBlobDasSample where
  blobId : BlobId
  chunkIndex : ℕ
  chunkCount : ℕ
  chunkHash : Hash
  chunksRoot : Hash
  siblings : List Hash

namespace MediaBlobDasSample

variable [Crypto]

def hashPair (left right : Hash) : Hash :=
  Crypto.blake3 (asciiBytes "BOING_BLOB_CHUNK_MERKLE_V1" ++ bytes32 left ++ bytes32 right)

/-- Folds the siblings into the leaf; the parity of the index gives the side. -/
def climb (hash : Hash) (index : ℕ) : List Hash → Hash
  | [] => hash
  | sibling :: siblings =>
    climb (if index % 2 = 0 then hashPair hash sibling else hashPair sibling hash)
      (index / 2) siblings

def verify (sample : MediaBlobDasSample) : Except BlobError Unit :=
  if sample.chunkCount = 0 ∨ sample.chunkIndex ≥ sample.chunkCount then
    .error (.chunkIndexOutOfRange sample.chunkIndex sample.chunkCount)
  else if climb sample.chunkHash sample.chunkIndex sample.siblings ≠ sample.chunksRoot then
    .error .dasProofInvalid
  else .ok ()

end MediaBlobDasSample

def sampleOfferMarketKey (blobId : BlobId) (chunkIndex : ℕ) (provider : AccountId) : String :=
  hexEncode (bytes32 blobId) ++ ":" ++ toString chunkIndex ++ ":" ++ hexEncode (bytes32 provider)

/-- Key of a settle receipt and of a serve challenge: blob, chunk and the two accounts. -/
def samplePairKey (blobId : BlobId) (chunkIndex : ℕ) (provider other : AccountId) : String :=
  sampleOfferMarketKey blobId chunkIndex provider ++ ":" ++ hexEncode (bytes32 other)

def settleReceiptKey (blobId : BlobId) (chunkIndex : ℕ) (provider payer : AccountId) : String :=
  samplePairKey blobId chunkIndex provider payer

def serveChallengeKey (blobId : BlobId) (chunkIndex : ℕ) (provider challenger : AccountId) :
    String :=
  samplePairKey blobId chunkIndex provider challenger

end BoingNetwork
