import BoingNetwork.Execution.Native
import BoingNetwork.State.RegistryLaws

/-!
# Media blobs, sample offers and serve challenges

The handlers of the media-blob payloads, and the housekeeping that settles failed
challenges and prunes the registries of the sample market.
-/

namespace BoingNetwork

def PHASE11_SERVE_CHALLENGE_BOND : ℕ := BASE_UNITS_PER_BOING
def PHASE11_FAILED_SERVE_PENALTY : ℕ := BASE_UNITS_PER_BOING
def PHASE14_FAILED_SERVE_APPEAL_WINDOW_BLOCKS : ℕ := 1000

def mediaFault (reason : String) : VmFault := .error (.mediaBlob reason)

def blobFault (reason : BlobError) : VmFault := mediaFault reason.display

def offerFault (reason : SampleOfferRegistryError) : VmFault := mediaFault reason.display

def challengeFault (reason : SampleServeChallengeError) : VmFault :=
  mediaFault reason.display

def blobResult (blobId : BlobId) (gasUsed : ℕ) : VmExecutionResult :=
  { gasUsed, returnData := bytes32 blobId }

def validateSettleBlobSampleMatch (offer : EscrowedSampleOffer) (tipHeight : ℕ)
    (provider : AccountId) : Except BlobError Unit := do
  validatePayBlobSample offer.chunkIndex offer.chunkCount
  if offer.provider ≠ provider then .error .sampleOfferNotFound
  else if offer.isExpired tipHeight then
    .error (.sampleOfferExpired offer.expiresAtHeight tipHeight)
  else .ok ()

section Handlers

variable [Crypto] {sender : AccountId}

def blobSampleAskEscrowAccount : AccountId :=
  Crypto.blake3 (asciiBytes "BOING_BLOB_SAMPLE_ASK_ESCROW_V1")

def blobSampleServeChallengeBondEscrowAccount : AccountId :=
  Crypto.blake3 (asciiBytes "BOING_BLOB_SERVE_CHALLENGE_BOND_V1")

def requireMediaBlobs (vm : Vm) (height : ℕ) : Quiet VmFault PUnit :=
  if vm.mediaBlobsActive height then pure ⟨⟩
  else reject (.mediaBlobsNotActive vm.mediaBlobsFrom)

/-- A move that is skipped for a zero amount, without the check of the balance. -/
def movePositive (source target : AccountId) (amount : ℕ) : Quiet VmFault PUnit :=
  if amount > 0 then moveNative source target amount else pure ⟨⟩

/-! ## Registries of the sample market -/

def onOffers {Value : Type}
    (operation : EStateM SampleOfferRegistryError SampleOfferRegistry Value) :
    Quiet VmFault Value :=
  (Quiet.onRegistry .sampleOffers trivial operation).mapError offerFault

def modifyOffers (update : SampleOfferRegistry → SampleOfferRegistry) :
    Quiet VmFault PUnit :=
  onOffers (modify update)

def onServe {Value : Type}
    (operation : EStateM SampleServeChallengeError SampleServeChallengeRegistry Value) :
    Quiet VmFault Value :=
  (Quiet.onRegistry .sampleServe trivial operation).mapError challengeFault

def modifyServe (update : SampleServeChallengeRegistry → SampleServeChallengeRegistry) :
    Quiet VmFault PUnit :=
  onServe (modify update)

def refundOffers : List EscrowedSampleOffer → Quiet VmFault PUnit
  | [] => pure ⟨⟩
  | offer :: offers => do
    movePositive blobSampleAskEscrowAccount offer.provider offer.askFee
    refundOffers offers

/-- Expired offers give their escrow back. -/
def refundExpiredSampleOffers (height : ℕ) : Quiet VmFault PUnit := do
  let expired ← onOffers (modifyGet (SampleOfferRegistry.takeExpired · height))
  refundOffers expired

/-! ## Housekeeping -/

def settleFailedChallenge (challenge : BlobSampleServeChallenge) (height : ℕ) :
    Quiet VmFault PUnit := do
  let escrow := blobSampleServeChallengeBondEscrowAccount
  movePositive escrow challenge.challenger challenge.bondAmount
  let slashId := (← ledgerModel.look).contents.slashAppeals.peekNextSlashId
  movePositive escrow (slashEscrowAccount slashId) challenge.providerPenalty
  modifyServe (·.markBondSettled challenge.blobId challenge.chunkIndex challenge.provider
    challenge.challenger)
  Quiet.recordSlashWithId slashId challenge.provider challenge.providerPenalty .blobFailedServe
    height PHASE14_FAILED_SERVE_APPEAL_WINDOW_BLOCKS
  modifyServe (·.setFailedServeSlashId challenge.blobId challenge.chunkIndex challenge.provider
    challenge.challenger slashId)
  modifyOffers (·.removeSettleReceipt challenge.blobId challenge.chunkIndex challenge.provider
    challenge.challenger)

/-- How many challenges were settled. -/
def settleFailedChallenges (height : ℕ) :
    List BlobSampleServeChallenge → Quiet VmFault ℕ
  | [] => pure 0
  | challenge :: challenges =>
    if challenge.bondSettled then settleFailedChallenges height challenges
    else do
      settleFailedChallenge challenge height
      return (← settleFailedChallenges height challenges) + 1

def settleExpiredServeChallenges (height : ℕ) : Quiet VmFault ℕ := do
  let failed ← onServe (modifyGet (SampleServeChallengeRegistry.takeNewlyFailed · height))
  settleFailedChallenges height failed

def applyMediaBlobBlockHousekeeping (height : ℕ) : Quiet VmFault ℕ := do
  let settled ← settleExpiredServeChallenges height
  modifyOffers (·.pruneSettleReceipts height)
  Quiet.expirePendingAppeals height
  Quiet.pruneExpiredAppeals height
  Quiet.pruneResolvedAppeals height
  modifyServe (·.pruneTerminalChallenges height)
  return settled

/-! ## Publishing -/

def executePutBlob (vm : Vm) (height : ℕ) (retention : BlobRetention) (contentType : String)
    (data : Bytes) : Handler sender :=
  Charge.after (do
      requireMediaBlobs vm height
      Within.ofExcept blobFault (validatePutBlobWithCap retention contentType data
        (vm.mediaBlobMaxBytes height)))
    fun blobId => bumpSenderNonce (blobResult blobId (mediaBlobGas data.length retention))

def executeBlobAnnounce (vm : Vm) (height : ℕ) (blobId : BlobId) (size : ℕ)
    (retention : BlobRetention) (contentType : String) : Handler sender :=
  Charge.after (do
      requireMediaBlobs vm height
      Within.ofExcept blobFault (validateBlobAnnounceWithCap blobId size retention contentType
        (vm.mediaBlobMaxBytes height)))
    fun _ => bumpSenderNonce (blobResult blobId (mediaBlobGas size retention))

/-- A blob transaction that is checked and metered only. -/
def executeBlobMetaTx (vm : Vm) (height : ℕ) (blobId : BlobId)
    (valid : Except BlobError Unit) : Handler sender :=
  Charge.after (do
      requireMediaBlobs vm height
      Within.ofExcept blobFault valid)
    fun _ => bumpSenderNonce (blobResult blobId mediaBlobMetaTxGas)

/-- Grants and revocations; the access list lives in the sidecar of the node. -/
def executeBlobDownloadAclTx (vm : Vm) (height : ℕ) (blobId : BlobId) : Handler sender :=
  executeBlobMetaTx vm height blobId (.ok ())

def executeRenewMediaBlobPin (vm : Vm) (height : ℕ) (blobId : BlobId) (size extendBlocks : ℕ) :
    Handler sender :=
  executeBlobMetaTx vm height blobId (validateRenewMediaBlobPin size extendBlocks)

def executePayBlobSample (vm : Vm) (height : ℕ) (blobId : BlobId) (chunkIndex chunkCount : ℕ) :
    Handler sender :=
  executeBlobMetaTx vm height blobId (validatePayBlobSample chunkIndex chunkCount)

/-! ## Offers -/

def validateChunkAt (vm : Vm) (height chunkIndex chunkCount : ℕ) : Except BlobError Unit :=
  validatePayBlobSampleWithMaxChunks chunkIndex chunkCount
    (mediaBlobMaxDasChunksAt height vm.mediaBlobsPhase7CapFrom)

def executeRegisterBlobSampleOffer (vm : Vm) (height : ℕ) (blobId : BlobId)
    (chunkIndex chunkCount askFee expiresAtHeight : ℕ) : Handler sender :=
  Charge.after (do
      requireMediaBlobs vm height
      Within.ofExcept blobFault (validateChunkAt vm height chunkIndex chunkCount)
      Within.ofExcept blobFault (validatePayBlobSample chunkIndex chunkCount)
      refundExpiredSampleOffers height
      let replaced ← onOffers (SampleOfferRegistry.register {
        blobId, chunkIndex, chunkCount, askFee, expiresAtHeight
        provider := sender
        registeredAtHeight := height })
      match replaced with
      | some old => movePositive blobSampleAskEscrowAccount old.provider old.askFee
      | none => pure ⟨⟩
      movePositive sender blobSampleAskEscrowAccount askFee)
    fun _ => bumpSenderNonce (blobResult blobId mediaBlobMetaTxGas)

def executeSettleBlobSampleMatch (vm : Vm) (height : ℕ) (blobId : BlobId)
    (chunkIndex chunkCount : ℕ) (provider : AccountId) : Handler sender :=
  Charge.after (do
      requireMediaBlobs vm height
      Within.ofExcept blobFault (validateChunkAt vm height chunkIndex chunkCount)
      refundExpiredSampleOffers height
      let offer ← onOffers (SampleOfferRegistry.settle blobId chunkIndex provider height)
      if offer.chunkCount ≠ chunkCount then
        Within.fail (mediaFault "settle chunk_count does not match registered offer")
      else
        Within.ofExcept blobFault (validateSettleBlobSampleMatch offer height provider)
        movePositive blobSampleAskEscrowAccount provider offer.askFee
        modifyOffers (·.recordSettleReceipt {
          blobId, chunkIndex, provider
          chunkCount := offer.chunkCount
          payer := sender
          settledAtHeight := height }))
    fun _ => bumpSenderNonce (blobResult blobId mediaBlobMetaTxGas)

def executeCancelBlobSampleOffer (vm : Vm) (height : ℕ) (blobId : BlobId) (chunkIndex : ℕ) :
    Handler sender :=
  Charge.after (do
      requireMediaBlobs vm height
      refundExpiredSampleOffers height
      let offer ← onOffers (SampleOfferRegistry.cancel blobId chunkIndex sender)
      movePositive blobSampleAskEscrowAccount sender offer.askFee)
    fun _ => bumpSenderNonce (blobResult blobId mediaBlobMetaTxGas)

/-! ## Challenges -/

def executeChallengeBlobSampleServe (vm : Vm) (height : ℕ) (blobId : BlobId)
    (chunkIndex chunkCount : ℕ) (provider : AccountId) : Handler sender :=
  Charge.after (do
      requireMediaBlobs vm height
      Within.ofExcept blobFault (validateChunkAt vm height chunkIndex chunkCount)
      let _ ← applyMediaBlobBlockHousekeeping height
      let view ← ledgerModel.look
      if !view.contents.sampleOffers.hasSettleReceipt blobId chunkIndex provider sender then
        Within.fail (mediaFault ("challenge requires prior SettleBlobSampleMatch: " ++
          BlobError.sampleOfferNotFound.display))
      else if view.contents.balanceOf sender < PHASE11_SERVE_CHALLENGE_BOND then
        reject .insufficientBalance
      else if view.contents.balanceOf provider < PHASE11_FAILED_SERVE_PENALTY then
        Within.fail (mediaFault
          "provider balance below FailedServe penalty; cannot open challenge")
      else
        let _ ← onServe (SampleServeChallengeRegistry.challenge blobId chunkIndex chunkCount
          provider sender height PHASE11_SERVE_CHALLENGE_BOND PHASE11_FAILED_SERVE_PENALTY)
        movePositive sender blobSampleServeChallengeBondEscrowAccount PHASE11_SERVE_CHALLENGE_BOND
        movePositive provider blobSampleServeChallengeBondEscrowAccount
          PHASE11_FAILED_SERVE_PENALTY)
    fun _ => bumpSenderNonce (blobResult blobId mediaBlobMetaTxGas)

/-- A valid answer earns the bond, and the penalty comes back. -/
def executeRespondBlobSampleServe (vm : Vm) (height : ℕ) (challenger : AccountId)
    (sample : MediaBlobDasSample) : Handler sender :=
  Charge.after (do
      requireMediaBlobs vm height
      let _ ← applyMediaBlobBlockHousekeeping height
      let challenge ← onServe (SampleServeChallengeRegistry.respond sample.blobId
        sample.chunkIndex sender challenger height sample)
      if !challenge.bondSettled then
        let escrow := blobSampleServeChallengeBondEscrowAccount
        movePositive escrow sender challenge.bondAmount
        movePositive escrow sender challenge.providerPenalty
        modifyServe (·.markBondSettled sample.blobId sample.chunkIndex sender challenger)
      modifyOffers (·.removeSettleReceipt sample.blobId sample.chunkIndex sender challenger))
    fun _ => bumpSenderNonce (blobResult sample.blobId mediaBlobMetaTxGas)

end Handlers

end BoingNetwork
