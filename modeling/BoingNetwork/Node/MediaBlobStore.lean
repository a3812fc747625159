import BoingNetwork.Library.Run
import BoingNetwork.Primitives.Block
import BoingNetwork.Primitives.Codecs
import BoingNetwork.State.SampleMarket

/-!
# The media blob sidecar

The node keeps the bytes of published blobs with a metadata record and a download list
for each, outside the account state.  Every committed block is ingested transaction by
transaction, up to the first error, and expired records are pruned after a block that was
ingested without one.
-/

namespace BoingNetwork

open MachineInt Std

def PHASE34_MAX_BLOB_DOWNLOAD_GRANTEES : ℕ := 256

def blobIdHex (id : BlobId) : String := hexEncode (bytes32 id)

theorem blobIdHex_injective : Function.Injective blobIdHex :=
  hexEncode_injective.comp bytes32_injective

@[simp]
theorem blobIdHex_inj {first second : BlobId} :
    blobIdHex first = blobIdHex second ↔ first = second :=
  blobIdHex_injective.eq_iff

/-- The last height at which a node must keep the blob; `none` for no end. -/
def BlobRetention.expiryHeight : BlobRetention → ℕ → Option ℕ
  | .prunable ttlBlocks, includedHeight =>
    some (saturatingAdd 64 includedHeight ttlBlocks)
  | .forever, _ => none

structure BlobMetaRecord where
  blobId : BlobId
  size : ℕ
  contentType : String
  retention : BlobRetention
  publisher : AccountId
  includedHeight : ℕ
  txId : Hash
  /-- The paid horizon that renewals extend; it overrides the retention. -/
  pinUntilHeight : Option ℕ

namespace BlobMetaRecord

def expiryHeight (record : BlobMetaRecord) : Option ℕ :=
  match record.pinUntilHeight with
  | some pin => some pin
  | none => record.retention.expiryHeight record.includedHeight

def isExpired (record : BlobMetaRecord) (tipHeight : ℕ) : Bool :=
  record.expiryHeight.any fun expiry => tipHeight > expiry

end BlobMetaRecord

/-- The errors with which ingestion stops. -/
inductive MediaBlobStoreError where
  | idMismatch
  | gossipSizeMismatch
  | renewSizeMismatch
  | notInSidecar
  | onlyPublisherMayGrant
  | onlyPublisherMayRevoke
  | aclFull
  | sampleMarketFull (max : ℕ)
  | blob (error : BlobError)

/-- The accounts that may download besides the publisher. -/
structure BlobDownloadAcl where
  grantees : List AccountId := []
  /-- Raised by every revocation. -/
  epoch : ℕ := 0

namespace BlobDownloadAcl

def contains (acl : BlobDownloadAcl) (account : AccountId) : Bool :=
  acl.grantees.any (· == account)

def grant (acl : BlobDownloadAcl) (grantee : AccountId) :
    Except MediaBlobStoreError (Bool × BlobDownloadAcl) :=
  if acl.contains grantee then .ok (false, acl)
  else if acl.grantees.length ≥ PHASE34_MAX_BLOB_DOWNLOAD_GRANTEES then .error .aclFull
  else .ok (true, { acl with grantees := acl.grantees ++ [grantee] })

def revoke (acl : BlobDownloadAcl) (grantee : AccountId) : Bool × BlobDownloadAcl :=
  let kept := acl.grantees.filter (· != grantee)
  if kept.length < acl.grantees.length then
    (true, { grantees := kept, epoch := saturatingAdd 64 acl.epoch 1 })
  else (false, { acl with grantees := kept })

end BlobDownloadAcl

/-- Offer of the consensus-replay book. -/
structure MediaBlobSampleOffer where
  blobId : BlobId
  chunkIndex : ℕ
  chunkCount : ℕ
  provider : AccountId
  askFee : ℕ
  expiresAtHeight : ℕ

/-- The sidecar: its maps in memory, the data files by blob, and the maps that the two
index files were last written from (`none` while a file does not exist). -/
structure MediaBlobStore where
  index : ExtTreeMap String BlobMetaRecord := ∅
  access : ExtTreeMap String BlobDownloadAcl := ∅
  onchainSampleMarket : ExtTreeMap String MediaBlobSampleOffer := ∅
  data : ExtTreeMap String Bytes := ∅
  indexFile : Option (ExtTreeMap String BlobMetaRecord) := none
  accessFile : Option (ExtTreeMap String BlobDownloadAcl) := none

namespace MediaBlobStore

def persistIndex (store : MediaBlobStore) : MediaBlobStore :=
  { store with indexFile := some store.index }

def persistAccess (store : MediaBlobStore) : MediaBlobStore :=
  { store with accessFile := some store.access }

def getMeta (store : MediaBlobStore) (id : BlobId) : Option BlobMetaRecord :=
  store.index[blobIdHex id]?

def getBytes (store : MediaBlobStore) (id : BlobId) : Option Bytes :=
  store.data[blobIdHex id]?

def getAccess (store : MediaBlobStore) (id : BlobId) : BlobDownloadAcl :=
  store.access[blobIdHex id]?.getD {}

def mayDownload (store : MediaBlobStore) (id : BlobId) (account : AccountId) : Bool :=
  match store.getMeta id with
  | some record => record.publisher == account || (store.getAccess id).contains account
  | none => false

def grantDownload (store : MediaBlobStore) (id : BlobId) (publisher grantee : AccountId) :
    Except MediaBlobStoreError (Bool × MediaBlobStore) :=
  match store.getMeta id with
  | none => .error .notInSidecar
  | some record =>
    if record.publisher ≠ publisher then .error .onlyPublisherMayGrant
    else if grantee = record.publisher then .ok (false, store)
    else
      match (store.getAccess id).grant grantee with
      | .error error => .error error
      | .ok (changed, acl) =>
        let granted := { store with access := store.access.insert (blobIdHex id) acl }
        .ok (changed, if changed then granted.persistAccess else granted)

def revokeDownload (store : MediaBlobStore) (id : BlobId) (publisher grantee : AccountId) :
    Except MediaBlobStoreError (Bool × MediaBlobStore) :=
  match store.getMeta id with
  | none => .error .notInSidecar
  | some record =>
    if record.publisher ≠ publisher then .error .onlyPublisherMayRevoke
    else
      match store.access[blobIdHex id]? with
      | none => .ok (false, store)
      | some acl =>
        let (changed, next) := acl.revoke grantee
        let entry := if changed ∧ next.grantees = [] ∧ next.epoch = 0 then none else some next
        let revoked := { store with access := FiniteMap.put store.access (blobIdHex id) entry }
        .ok (changed, if changed then revoked.persistAccess else revoked)

/-- Registers an offer in the consensus-replay book. -/
def upsertOnchainSampleOffer (store : MediaBlobStore) (offer : MediaBlobSampleOffer) :
    Except MediaBlobStoreError MediaBlobStore :=
  match validatePayBlobSample offer.chunkIndex offer.chunkCount with
  | .error error => .error (.blob error)
  | .ok _ =>
    let key := sampleOfferMarketKey offer.blobId offer.chunkIndex offer.provider
    if !store.onchainSampleMarket.contains key ∧
        store.onchainSampleMarket.size ≥ PHASE6_MAX_SAMPLE_OFFERS then
      .error (.sampleMarketFull PHASE6_MAX_SAMPLE_OFFERS)
    else
      .ok { store with onchainSampleMarket := store.onchainSampleMarket.insert key offer }

def removeOnSettle (store : MediaBlobStore) (id : BlobId) (chunkIndex : ℕ)
    (provider : AccountId) : Bool × MediaBlobStore :=
  let key := sampleOfferMarketKey id chunkIndex provider
  if store.onchainSampleMarket.contains key then
    (true, { store with onchainSampleMarket := store.onchainSampleMarket.erase key })
  else (false, store)

def renewedPin (record : BlobMetaRecord) (height extendBlocks : ℕ) : ℕ :=
  saturatingAdd 64 (max (record.expiryHeight.getD height) height) extendBlocks

def renewPin (store : MediaBlobStore) (id : BlobId) (size height extendBlocks : ℕ) (txId : Hash) :
    Except MediaBlobStoreError (Bool × MediaBlobStore) :=
  match store.getMeta id with
  | none => .ok (false, store)
  | some record =>
    if record.size ≠ size then .error .renewSizeMismatch
    else
      let renewed := { record with
        pinUntilHeight := some (renewedPin record height extendBlocks)
        txId := txId }
      let stored := { store with index := store.index.insert (blobIdHex id) renewed }
      .ok (true, stored.persistIndex)

section Crypto

variable [Crypto]

/-- Stores the bytes unless their file exists, and sets the metadata record. -/
def put (store : MediaBlobStore) (record : BlobMetaRecord) (data : Bytes) :
    Except MediaBlobStoreError MediaBlobStore :=
  let id := blobIdOf data
  if id ≠ record.blobId then .error .idMismatch
  else
    let files := if store.data.contains (blobIdHex id) then store.data
      else store.data.insert (blobIdHex id) data
    let stored := { store with
      data := files
      index := store.index.insert (blobIdHex id) record }
    .ok stored.persistIndex

def putGossipBytesIfKnown (store : MediaBlobStore) (id : BlobId) (data : Bytes) :
    Except MediaBlobStoreError (Bool × MediaBlobStore) :=
  if blobIdOf data ≠ id then .error .idMismatch
  else
    match store.getMeta id with
    | none => .ok (false, store)
    | some record =>
      if record.size ≠ data.length then .error .gossipSizeMismatch
      else if (store.getBytes id).isSome then .ok (false, store)
      else .ok (true, { store with data := store.data.insert (blobIdHex id) data })

def publishedRecord (tx : Transaction) (retention : BlobRetention) (contentType : String)
    (data : Bytes) (height : ℕ) : BlobMetaRecord where
  blobId := blobIdOf data
  size := data.length % 2 ^ 32
  contentType := contentType
  retention := retention
  publisher := tx.sender
  includedHeight := height
  txId := tx.id
  pinUntilHeight := none

def ingestTx (store : MediaBlobStore) (height : ℕ) (tx : Transaction) :
    Except MediaBlobStoreError (ℕ × MediaBlobStore) :=
  match tx.payload with
  | .putBlob retention contentType data => do
    let stored ← store.put (publishedRecord tx retention contentType data height) data
    return (1, stored)
  | .renewMediaBlobPin blobId size extendBlocks => do
    let (renewed, stored) ← store.renewPin blobId size height extendBlocks tx.id
    return (renewed.toNat, stored)
  | .registerBlobSampleOffer blobId chunkIndex chunkCount askFee expiresAtHeight => do
    let stored ← store.upsertOnchainSampleOffer
      ⟨blobId, chunkIndex, chunkCount, tx.sender, askFee, expiresAtHeight⟩
    return (1, stored)
  | .settleBlobSampleMatch blobId chunkIndex _ provider =>
    let (removed, stored) := store.removeOnSettle blobId chunkIndex provider
    .ok (removed.toNat, stored)
  | .grantBlobDownload blobId grantee => do
    let (changed, stored) ← store.grantDownload blobId tx.sender grantee
    return (changed.toNat, stored)
  | .revokeBlobDownload blobId grantee => do
    let (changed, stored) ← store.revokeDownload blobId tx.sender grantee
    return (changed.toNat, stored)
  | _ => .ok (0, store)

/-- The transactions in order until one fails; what came before it stays stored. -/
def ingestBlockTxs (height : ℕ) : MediaBlobStore → List Transaction →
    MediaBlobStore × Except MediaBlobStoreError ℕ
  | store, [] => (store, .ok 0)
  | store, tx :: txs =>
    match store.ingestTx height tx with
    | .error error => (store, .error error)
    | .ok (changes, stored) =>
      let (finish, result) := ingestBlockTxs height stored txs
      (finish, result.map (changes + ·))

end Crypto

/-- Drops a record with its bytes and its download list. -/
def remove (store : MediaBlobStore) (entry : String × BlobMetaRecord) : MediaBlobStore :=
  { store with
    index := store.index.erase entry.1
    data := store.data.erase (blobIdHex entry.2.blobId)
    access := store.access.erase entry.1 }

def expired (store : MediaBlobStore) (tipHeight : ℕ) : List (String × BlobMetaRecord) :=
  store.index.toList.filter fun entry => entry.2.isExpired tipHeight

def pruneExpired (store : MediaBlobStore) (tipHeight : ℕ) : MediaBlobStore :=
  let expired := store.expired tipHeight
  let pruned := expired.foldl remove store
  let pruned := if expired.isEmpty then pruned else pruned.persistIndex
  if expired.any fun entry => store.access.contains entry.1 then pruned.persistAccess else pruned

/-- What `persist_block_and_state` does to the sidecar. -/
def commit [Crypto] (store : MediaBlobStore) (block : Block) : MediaBlobStore :=
  match ingestBlockTxs block.header.height store block.transactions with
  | (stored, .ok _) => stored.pruneExpired block.header.height
  | (stored, .error _) => stored

end MediaBlobStore

end BoingNetwork
