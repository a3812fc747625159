import BoingNetwork.Execution.Appeals
import BoingNetwork.Execution.Contracts
import BoingNetwork.Execution.Governance

/-!
# Execution of a transaction

The dispatch of a transaction to the handler of its payload, after the check of its nonce.
Its law is one for all payloads: which ballot the payload casts and how it may change the
unbonding of the sender are functions of the payload.
-/

namespace BoingNetwork

open EStateM

section Dispatch

variable [Platform]

def payloadBallot (resolvers : Resolvers) (sender : AccountId) :
    TransactionPayload → Option Ballot
  | .resolveSlashAppeal appealId approved => some ⟨appealId, approved, [sender]⟩
  | .resolveSlashAppealAttested appealId approved _ => some ⟨appealId, approved, [sender]⟩
  | .resolveSlashAppealBlsAggregate appealId approved signerBitset _ _ =>
    aggregateBallot resolvers appealId approved signerBitset
  | _ => none

def payloadLock (configured : Option OpenValidatorParams) (height : ℕ) :
    TransactionPayload → LockChange
  | .unbond amount => .unbond amount (MachineInt.saturatingAdd 64 height UNBONDING_DELAY_BLOCKS)
  | .claimUnbond => .claim height
  | .validatorDeregister _ => .release (deregisterUnlock configured height)
  | .contractDeploy .. | .contractDeployWithPurpose .. | .contractDeployWithPurposeAndMetadata ..
  | .qaPoolVote .. => .review
  | _ => .keep

def executePayload (vm : Vm) (context : VmExecutionContext) (config : LedgerConfig)
    (tx : Transaction) : (payload : TransactionPayload) →
      TxCommand config.slashAppealResolvers
        (payloadBallot config.slashAppealResolvers tx.sender payload)
        (payloadLock config.openValidatorParams context.blockHeight payload) tx.sender
  | .bond amount => Charge.applied (executeBond amount)
  | .unbond amount => Charge.applied (executeUnbond amount context.blockHeight)
  | .claimUnbond => Charge.applied (executeClaimUnbond context.blockHeight)
  | .transfer recipient amount => Charge.applied (executeTransfer recipient amount)
  | .contractCall contract calldata =>
    Charge.applied (executeContractCall vm context contract calldata 0)
  | .contractCallWithValue contract calldata value =>
    Charge.applied (executeContractCallWithValue vm context contract calldata value)
  | .contractDeploy .. => Charge.applied (executeContractDeploy vm context tx)
  | .contractDeployWithPurpose .. => Charge.applied (executeContractDeploy vm context tx)
  | .contractDeployWithPurposeAndMetadata .. =>
    Charge.applied (executeContractDeploy vm context tx)
  | .qaPoolVote subject vote => Charge.applied (executeQaPoolVote vm context subject vote)
  | .batch calls => Charge.applied (executeBatch vm context calls)
  | .validatorRegister nodeId nodeSignature =>
    Charge.applied (executeValidatorRegister vm config.openValidatorParams context.blockHeight
      nodeId nodeSignature)
  | .validatorDeregister nodeId =>
    Charge.applied (executeValidatorDeregister vm config.openValidatorParams context.blockHeight
      nodeId)
  | .validatorUnjail nodeId =>
    Charge.applied (executeValidatorUnjail config.openValidatorParams context.blockHeight nodeId)
  | .nameCommit commitment => names (.nameCommit commitment)
  | .nameRegister name salt target years => names (.nameRegister name salt target years)
  | .nameRenew name years => names (.nameRenew name years)
  | .nameTransfer name newOwner => names (.nameTransfer name newOwner)
  | .nameSetTarget name target => names (.nameSetTarget name target)
  | .nameSetPrimary name => names (.nameSetPrimary name)
  | .nameRelease name => names (.nameRelease name)
  | .putBlob retention contentType data =>
    Charge.applied (executePutBlob vm context.blockHeight retention contentType data)
  | .blobAnnounce blobId size retention contentType =>
    Charge.applied (executeBlobAnnounce vm context.blockHeight blobId size retention contentType)
  | .renewMediaBlobPin blobId size extendBlocks =>
    Charge.applied (executeRenewMediaBlobPin vm context.blockHeight blobId size extendBlocks)
  | .payBlobSample blobId chunkIndex chunkCount =>
    Charge.applied (executePayBlobSample vm context.blockHeight blobId chunkIndex chunkCount)
  | .registerBlobSampleOffer blobId chunkIndex chunkCount askFee expiresAtHeight =>
    Charge.applied (executeRegisterBlobSampleOffer vm context.blockHeight blobId chunkIndex
      chunkCount askFee expiresAtHeight)
  | .settleBlobSampleMatch blobId chunkIndex chunkCount provider =>
    Charge.applied (executeSettleBlobSampleMatch vm context.blockHeight blobId chunkIndex
      chunkCount provider)
  | .cancelBlobSampleOffer blobId chunkIndex =>
    Charge.applied (executeCancelBlobSampleOffer vm context.blockHeight blobId chunkIndex)
  | .challengeBlobSampleServe blobId chunkIndex chunkCount provider =>
    Charge.applied (executeChallengeBlobSampleServe vm context.blockHeight blobId chunkIndex
      chunkCount provider)
  | .respondBlobSampleServe blobId chunkIndex chunkCount challenger chunkHash chunksRoot
      siblings =>
      Charge.applied (executeRespondBlobSampleServe vm context.blockHeight challenger
        ⟨blobId, chunkIndex, chunkCount, chunkHash, chunksRoot, siblings⟩)
  | .submitSlashAppeal slashId evidence =>
    Charge.applied (executeSubmitSlashAppeal config.slashAppealResolvers context.blockHeight
      slashId evidence)
  | .resolveSlashAppeal appealId approved =>
    executeResolveSlashAppeal vm config.slashAppealResolvers context.blockHeight appealId
      approved none
  | .resolveSlashAppealAttested appealId approved ballotSignature =>
    executeResolveSlashAppeal vm config.slashAppealResolvers context.blockHeight appealId
      approved (some ballotSignature)
  | .resolveSlashAppealBlsAggregate appealId approved signerBitset aggregateSignature
      signerBlsPubkeys =>
      executeResolveSlashAppealBlsAggregate vm config.slashAppealResolvers context.blockHeight
        appealId approved signerBitset aggregateSignature signerBlsPubkeys
  | .grantBlobDownload blobId _ =>
    Charge.applied (executeBlobDownloadAclTx vm context.blockHeight blobId)
  | .revokeBlobDownload blobId _ =>
    Charge.applied (executeBlobDownloadAclTx vm context.blockHeight blobId)
  | .reportEquivocation evidence =>
    Charge.applied (executeReportEquivocation vm context.blockHeight evidence)
  | .governancePropose targetKey targetValue =>
    Charge.applied (executeGovernancePropose vm context targetKey targetValue)
  | .governanceVote proposalId approve =>
    Charge.applied (executeGovernanceVote vm context proposalId approve)
  | .governanceAdvanceCooling proposalId =>
    Charge.applied (executeGovernanceAdvanceCooling vm context proposalId)
where
  names {resolvers : Resolvers} {ballot : Option Ballot} (payload : TransactionPayload) :
      TxCommand resolvers ballot .keep tx.sender :=
    Charge.applied (executeNameTx config.nameRegistryParams context.blockHeight
      (vm.securityV4Active context.blockHeight) (vm.denominationAt context.blockHeight).unit
      payload)

structure TxApplied (config : LedgerConfig) (height : ℕ) (tx : Transaction) (rent : ℕ)
    (before after : Contents) : Prop where
  matched : before.nonceOf tx.sender = some tx.nonce
  applied : before.Applied config.slashAppealResolvers
    (payloadBallot config.slashAppealResolvers tx.sender tx.payload)
    (payloadLock config.openValidatorParams height tx.payload) tx.sender rent after

def executeSeen (vm : Vm) (context : VmExecutionContext) (tx : Transaction) (seen : LedgerView) :
    Command ledgerModel.conduct VmFault (ℕ × VmExecutionResult)
      fun outcome before after => seen.contents.nonceOf tx.sender = some tx.nonce ∧
        before.toContents.Applied seen.config.slashAppealResolvers
          (payloadBallot seen.config.slashAppealResolvers tx.sender tx.payload)
          (payloadLock seen.config.openValidatorParams context.blockHeight tx.payload) tx.sender
          outcome.1 after.toContents :=
  match found : seen.contents.accounts[tx.sender]? with
  | none => .refuse (.error .accountNotFound)
  | some account =>
    if matched : account.nonce = tx.nonce then
      (executePayload vm (vm.ctxAt context) seen.config tx tx.payload).weaken
        fun _ applied => ⟨by rw [Contents.nonceOf, found, Option.map_some, matched], applied⟩
    else .refuse (.error (.invalidNonce account.nonce tx.nonce))

def executeWithContext (vm : Vm) (context : VmExecutionContext) (tx : Transaction) :
    Command ledgerModel.conduct VmFault (ℕ × VmExecutionResult)
      fun outcome before after => TxApplied before.config context.blockHeight tx outcome.1
        before.toContents after.toContents :=
  (Command.select StateStore.view WriteModel.view_eq_of_same (executeSeen vm context tx)).weaken
    fun _ applied => ⟨applied.1, applied.2⟩

theorem executeWithContext_run {vm : Vm} {context : VmExecutionContext} {tx : Transaction}
    {store : StateStore} {account : AccountState}
    (found : store.toContents.accounts[tx.sender]? = some account)
    (matched : account.nonce = tx.nonce) : (executeWithContext vm context tx).run store =
      (executePayload vm (vm.ctxAt context) store.config tx tx.payload).run store := by
  have seen : store.view.contents.accounts[tx.sender]? = some account := found
  change (executeSeen vm context tx store.view).run store = _
  unfold executeSeen
  split
  next absent =>
    rw [seen] at absent
    cases absent
  next other isOther =>
    cases seen.symm.trans isOther
    rw [dif_pos matched]
    rfl

end Dispatch

end BoingNetwork
