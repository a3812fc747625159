import BoingNetwork.Primitives.Blobs

/-!
# Sample offers and serve challenges

The registry of escrowed sample offers with the receipts of settled matches, and the
registry of challenges that a provider must answer with a sample of the chunk.
-/

namespace BoingNetwork

open Bincode MachineInt

def PHASE6_MAX_SAMPLE_OFFERS : ℕ := 1024
def PHASE12_MAX_SETTLE_RECEIPTS : ℕ := 256
def PHASE13_SETTLE_RECEIPT_TTL_BLOCKS : ℕ := 4096
def PHASE10_SERVE_CHALLENGE_WINDOW_BLOCKS : ℕ := 256
def PHASE10_MAX_SERVE_CHALLENGES : ℕ := 256
def PHASE24_TERMINAL_SERVE_CHALLENGE_RETENTION_BLOCKS : ℕ := 4096

structure SettledSampleMatch where
  blobId : BlobId
  chunkIndex : ℕ
  chunkCount : ℕ
  provider : AccountId
  payer : AccountId
  settledAtHeight : ℕ
deriving DecidableEq

structure EscrowedSampleOffer where
  blobId : BlobId
  chunkIndex : ℕ
  chunkCount : ℕ
  provider : AccountId
  askFee : ℕ
  expiresAtHeight : ℕ
  registeredAtHeight : ℕ
deriving DecidableEq

namespace EscrowedSampleOffer

def marketKey (offer : EscrowedSampleOffer) : String :=
  sampleOfferMarketKey offer.blobId offer.chunkIndex offer.provider

def isExpired (offer : EscrowedSampleOffer) (tipHeight : ℕ) : Bool :=
  offer.expiresAtHeight > 0 ∧ tipHeight > offer.expiresAtHeight

def serialize (offer : EscrowedSampleOffer) : Bytes :=
  bytes32 offer.blobId ++ leBytes 4 offer.chunkIndex ++ leBytes 4 offer.chunkCount ++
    bytes32 offer.provider ++ leBytes 16 offer.askFee ++ leBytes 8 offer.expiresAtHeight ++
    leBytes 8 offer.registeredAtHeight

end EscrowedSampleOffer

def SettledSampleMatch.serialize (receipt : SettledSampleMatch) : Bytes :=
  bytes32 receipt.blobId ++ leBytes 4 receipt.chunkIndex ++ leBytes 4 receipt.chunkCount ++
    bytes32 receipt.provider ++ bytes32 receipt.payer ++ leBytes 8 receipt.settledAtHeight

inductive SampleOfferRegistryError where
  | marketFull (max : ℕ)
  | notFound
  | expired (expiresAtHeight tipHeight : ℕ)
  | blob (error : BlobError)
deriving DecidableEq

def SampleOfferRegistryError.display : SampleOfferRegistryError → String
  | .marketFull max => s!"sample market full (max {max} offers)"
  | .notFound => "no matching sample offer"
  | .expired expiresAtHeight tipHeight =>
    s!"sample offer expired at height {expiresAtHeight} (tip {tipHeight})"
  | .blob error => "media blob: " ++ error.display

structure SampleOfferRegistry where
  offers : Std.ExtTreeMap String EscrowedSampleOffer := ∅
  settledReceipts : Std.ExtTreeMap String SettledSampleMatch := ∅
deriving DecidableEq

namespace SampleOfferRegistry

def serialize (registry : SampleOfferRegistry) : Bytes :=
  Bincode.map string EscrowedSampleOffer.serialize registry.offers ++
    Bincode.map string SettledSampleMatch.serialize registry.settledReceipts

def DOMAIN : Bytes := asciiBytes "BOING_BLOB_SAMPLE_MARKET_V1"

def isEmpty (registry : SampleOfferRegistry) : Bool :=
  registry.offers.isEmpty && registry.settledReceipts.isEmpty

def lookup (registry : SampleOfferRegistry) (blobId : BlobId) (chunkIndex : ℕ)
    (provider : AccountId) : Option EscrowedSampleOffer :=
  registry.offers[sampleOfferMarketKey blobId chunkIndex provider]?

def register (offer : EscrowedSampleOffer) :
    EStateM SampleOfferRegistryError SampleOfferRegistry (Option EscrowedSampleOffer) := do
  match validatePayBlobSample offer.chunkIndex offer.chunkCount with
  | .error error => throw (.blob error)
  | .ok _ =>
    let previous := (← get).offers[offer.marketKey]?
    modify fun registry => { registry with offers := registry.offers.erase offer.marketKey }
    if previous.isNone ∧ (← get).offers.size ≥ PHASE6_MAX_SAMPLE_OFFERS then
      throw (.marketFull PHASE6_MAX_SAMPLE_OFFERS)
    else
      modify fun registry =>
        { registry with offers := registry.offers.insert offer.marketKey offer }
      return previous

def settle (blobId : BlobId) (chunkIndex : ℕ) (provider : AccountId) (tipHeight : ℕ) :
    EStateM SampleOfferRegistryError SampleOfferRegistry EscrowedSampleOffer := do
  let registry ← get
  match registry.lookup blobId chunkIndex provider with
  | none => throw .notFound
  | some offer =>
    if offer.isExpired tipHeight then throw (.expired offer.expiresAtHeight tipHeight)
    else
      set { registry with
        offers := registry.offers.erase (sampleOfferMarketKey blobId chunkIndex provider) }
      return offer

def cancel (blobId : BlobId) (chunkIndex : ℕ) (provider : AccountId) :
    EStateM SampleOfferRegistryError SampleOfferRegistry EscrowedSampleOffer := do
  let registry ← get
  match registry.lookup blobId chunkIndex provider with
  | none => throw .notFound
  | some offer =>
    set { registry with
      offers := registry.offers.erase (sampleOfferMarketKey blobId chunkIndex provider) }
    return offer

def takeExpired (registry : SampleOfferRegistry) (tipHeight : ℕ) :
    List EscrowedSampleOffer × SampleOfferRegistry :=
  (registry.offers.values.filter (·.isExpired tipHeight),
    { registry with offers := registry.offers.filter fun _ offer => !offer.isExpired tipHeight })

/-- The first key with the smallest settlement height. -/
def oldestReceipt (registry : SampleOfferRegistry) : Option String :=
  (registry.settledReceipts.toList.foldl
    (fun (oldest : Option (String × SettledSampleMatch)) entry => match oldest with
      | none => some entry
      | some best => if entry.2.settledAtHeight < best.2.settledAtHeight then some entry
        else some best) none).map (·.1)

/-- A full list of receipts loses its oldest one. -/
def recordSettleReceipt (registry : SampleOfferRegistry) (receipt : SettledSampleMatch) :
    SampleOfferRegistry :=
  let key := settleReceiptKey receipt.blobId receipt.chunkIndex receipt.provider receipt.payer
  let receipts := if !registry.settledReceipts.contains key ∧
      registry.settledReceipts.size ≥ PHASE12_MAX_SETTLE_RECEIPTS then
      match registry.oldestReceipt with
      | some oldest => registry.settledReceipts.erase oldest
      | none => registry.settledReceipts
    else registry.settledReceipts
  { registry with settledReceipts := receipts.insert key receipt }

def hasSettleReceipt (registry : SampleOfferRegistry) (blobId : BlobId) (chunkIndex : ℕ)
    (provider payer : AccountId) : Bool :=
  registry.settledReceipts.contains (settleReceiptKey blobId chunkIndex provider payer)

def removeSettleReceipt (registry : SampleOfferRegistry) (blobId : BlobId) (chunkIndex : ℕ)
    (provider payer : AccountId) : SampleOfferRegistry :=
  { registry with
    settledReceipts :=
      registry.settledReceipts.erase (settleReceiptKey blobId chunkIndex provider payer) }

def pruneSettleReceipts (registry : SampleOfferRegistry) (tipHeight : ℕ) : SampleOfferRegistry :=
  { registry with
    settledReceipts := registry.settledReceipts.filter fun _ receipt =>
      tipHeight - receipt.settledAtHeight ≤ PHASE13_SETTLE_RECEIPT_TTL_BLOCKS }

end SampleOfferRegistry

inductive BlobSampleServeChallengeStatus where
  | opened
  | responded
  | failedServe
deriving DecidableEq

structure BlobSampleServeChallenge where
  blobId : BlobId
  chunkIndex : ℕ
  chunkCount : ℕ
  provider : AccountId
  challenger : AccountId
  openedAtHeight : ℕ
  deadlineHeight : ℕ
  status : BlobSampleServeChallengeStatus
  bondAmount : ℕ
  providerPenalty : ℕ
  bondSettled : Bool
  slashId : Option ℕ
deriving DecidableEq

namespace BlobSampleServeChallenge

def marketKey (challenge : BlobSampleServeChallenge) : String :=
  serveChallengeKey challenge.blobId challenge.chunkIndex challenge.provider challenge.challenger

def statusIndex : BlobSampleServeChallengeStatus → ℕ
  | .opened => 0
  | .responded => 1
  | .failedServe => 2

def serialize (challenge : BlobSampleServeChallenge) : Bytes :=
  bytes32 challenge.blobId ++ leBytes 4 challenge.chunkIndex ++ leBytes 4 challenge.chunkCount ++
    bytes32 challenge.provider ++ bytes32 challenge.challenger ++
    leBytes 8 challenge.openedAtHeight ++ leBytes 8 challenge.deadlineHeight ++
    variantIndex (statusIndex challenge.status) ++ leBytes 16 challenge.bondAmount ++
    leBytes 16 challenge.providerPenalty ++ bool challenge.bondSettled ++
    option (leBytes 8) challenge.slashId

def expire (tipHeight : ℕ) (challenge : BlobSampleServeChallenge) : BlobSampleServeChallenge :=
  if challenge.status = .opened ∧ tipHeight > challenge.deadlineHeight then
    { challenge with status := .failedServe }
  else challenge

def awaitsSettlement (challenge : BlobSampleServeChallenge) : Bool :=
  challenge.status = .failedServe ∧ !challenge.bondSettled

/-- Closed and settled long enough ago. -/
def terminalPrunable (challenge : BlobSampleServeChallenge) (tipHeight : ℕ) : Bool :=
  challenge.bondSettled ∧ challenge.status ≠ .opened ∧
    tipHeight > saturatingAdd 64 challenge.deadlineHeight
      PHASE24_TERMINAL_SERVE_CHALLENGE_RETENTION_BLOCKS

def validateRespond [Crypto] (challenge : BlobSampleServeChallenge) (tipHeight : ℕ)
    (sample : MediaBlobDasSample) : Except BlobError Unit :=
  if challenge.status ≠ .opened then .error .sampleOfferNotFound
  else if tipHeight > challenge.deadlineHeight then
    .error (.sampleOfferExpired challenge.deadlineHeight tipHeight)
  else if sample.blobId ≠ challenge.blobId ∨ sample.chunkIndex ≠ challenge.chunkIndex ∨
      sample.chunkCount ≠ challenge.chunkCount then .error .dasProofInvalid
  else sample.verify

end BlobSampleServeChallenge

inductive SampleServeChallengeError where
  | full (max : ℕ)
  | notFound
  | closed
  | blob (error : BlobError)

def SampleServeChallengeError.display : SampleServeChallengeError → String
  | .full max => s!"serve challenge registry full (max {max})"
  | .notFound => "no matching open serve challenge"
  | .closed => "serve challenge already closed"
  | .blob error => "media blob: " ++ error.display

structure SampleServeChallengeRegistry where
  challenges : Std.ExtTreeMap String BlobSampleServeChallenge := ∅
  nextFailedServeSlashId : ℕ := 1
deriving DecidableEq

namespace SampleServeChallengeRegistry

def serialize (registry : SampleServeChallengeRegistry) : Bytes :=
  Bincode.map string BlobSampleServeChallenge.serialize registry.challenges ++
    leBytes 8 registry.nextFailedServeSlashId

def DOMAIN : Bytes := asciiBytes "BOING_BLOB_SERVE_CHALLENGE_V1"

def isEmpty (registry : SampleServeChallengeRegistry) : Bool := registry.challenges.isEmpty

def pruneTerminalChallenges (registry : SampleServeChallengeRegistry) (tipHeight : ℕ) :
    SampleServeChallengeRegistry :=
  { registry with
    challenges := registry.challenges.filter fun _ challenge =>
      !challenge.terminalPrunable tipHeight }

def takeNewlyFailed (registry : SampleServeChallengeRegistry) (tipHeight : ℕ) :
    List BlobSampleServeChallenge × SampleServeChallengeRegistry :=
  let challenges := registry.challenges.map fun _ challenge => challenge.expire tipHeight
  (challenges.values.filter (·.awaitsSettlement), { registry with challenges := challenges })

def openServeChallengeWithBond (blobId : BlobId) (chunkIndex chunkCount : ℕ)
    (provider challenger : AccountId) (tipHeight bondAmount providerPenalty : ℕ) :
    Except BlobError BlobSampleServeChallenge := do
  validatePayBlobSample chunkIndex chunkCount
  if provider = challenger then .error .sampleOfferNotFound
  else .ok {
    blobId, chunkIndex, chunkCount, provider, challenger, bondAmount, providerPenalty
    openedAtHeight := tipHeight
    deadlineHeight := saturatingAdd 64 tipHeight PHASE10_SERVE_CHALLENGE_WINDOW_BLOCKS
    status := .opened
    bondSettled := false
    slashId := none }

def challenge (blobId : BlobId) (chunkIndex chunkCount : ℕ) (provider challenger : AccountId)
    (tipHeight bondAmount providerPenalty : ℕ) :
    EStateM SampleServeChallengeError SampleServeChallengeRegistry BlobSampleServeChallenge := do
  modify fun registry => (registry.takeNewlyFailed tipHeight).2
  match openServeChallengeWithBond blobId chunkIndex chunkCount provider challenger tipHeight
      bondAmount providerPenalty with
  | .error error => throw (.blob error)
  | .ok challenge =>
    let registry ← get
    let existing := registry.challenges[challenge.marketKey]?
    if existing.any fun existing => existing.status = .opened then throw .closed
    else if existing.isNone ∧ registry.challenges.size ≥ PHASE10_MAX_SERVE_CHALLENGES then
      throw (.full PHASE10_MAX_SERVE_CHALLENGES)
    else
      set { registry with
        challenges := registry.challenges.insert challenge.marketKey challenge }
      return challenge

def respond [Crypto] (blobId : BlobId) (chunkIndex : ℕ) (provider challenger : AccountId)
    (tipHeight : ℕ) (sample : MediaBlobDasSample) :
    EStateM SampleServeChallengeError SampleServeChallengeRegistry BlobSampleServeChallenge := do
  modify fun registry => (registry.takeNewlyFailed tipHeight).2
  let registry ← get
  let key := serveChallengeKey blobId chunkIndex provider challenger
  match registry.challenges[key]? with
  | none => throw .notFound
  | some challenge =>
    match challenge.validateRespond tipHeight sample with
    | .error error => throw (.blob error)
    | .ok _ =>
      let responded := { challenge with status := .responded }
      set { registry with challenges := registry.challenges.insert key responded }
      return responded

def markBondSettled (registry : SampleServeChallengeRegistry) (blobId : BlobId)
    (chunkIndex : ℕ) (provider challenger : AccountId) : SampleServeChallengeRegistry :=
  let key := serveChallengeKey blobId chunkIndex provider challenger
  match registry.challenges[key]? with
  | none => registry
  | some challenge => { registry with
      challenges := registry.challenges.insert key { challenge with bondSettled := true } }

def setFailedServeSlashId (registry : SampleServeChallengeRegistry) (blobId : BlobId)
    (chunkIndex : ℕ) (provider challenger : AccountId) (id : ℕ) : SampleServeChallengeRegistry :=
  let key := serveChallengeKey blobId chunkIndex provider challenger
  match registry.challenges[key]? with
  | none => registry
  | some challenge =>
    if challenge.slashId.isSome then registry
    else {
      challenges := registry.challenges.insert key { challenge with slashId := some id }
      nextFailedServeSlashId :=
        if registry.nextFailedServeSlashId ≤ id then saturatingAdd 64 id 1
        else registry.nextFailedServeSlashId }

end SampleServeChallengeRegistry

end BoingNetwork
