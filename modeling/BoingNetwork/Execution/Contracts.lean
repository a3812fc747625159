import BoingNetwork.Execution.Interpreter
import BoingNetwork.Execution.Staking

/-!
# Contracts

Deploys with their quality checks, the votes on deploys that wait for review, contract
calls, and batches of transfers and calls.  A deploy that is not decided is registered
and installed later, by the vote that admits it.
-/

namespace BoingNetwork

open MachineInt

/-- The running figures of a batch. -/
structure BatchProgress where
  gasUsed : ℕ := GAS_BATCH_BASE
  budget : ℕ := GAS_BATCH_CONTRACT_BUDGET
  returnData : Bytes := []
  logs : List ExecutionLog := []
  /-- Gas of all calls so far; it is not part of the result. -/
  contractGas : ℕ := 0

def BatchProgress.result (progress : BatchProgress) : VmExecutionResult :=
  ⟨progress.gasUsed, progress.returnData, progress.logs⟩

def BatchProgress.afterTransfer (progress : BatchProgress) : BatchProgress :=
  { progress with gasUsed := saturatingAdd 64 progress.gasUsed GAS_PER_BATCH_TRANSFER }

def BatchProgress.afterCall (progress : BatchProgress) (frame : Frame) : BatchProgress where
  gasUsed := saturatingAdd 64
    (saturatingAdd 64 progress.gasUsed GAS_PER_BATCH_CONTRACT_CALL_STEP) frame.gasUsed
  budget := progress.budget - frame.gasUsed
  returnData := frame.returnData.getD []
  logs := progress.logs ++ frame.logs
  contractGas := progress.contractGas + frame.gasUsed

def batchStepFault (index : ℕ) : VmFault → VmFault
  | .error reason => .error (.batchStepFailed index reason.display)
  | .panic => .panic

/-- Takes the amount of a transfer in a batch from its sender. -/
def debitBatch (index amount : ℕ) : EStateM VmFault AccountState PUnit := do
  let account ← get
  if account.balance < amount then
    throw (.error (.batchStepFailed index VmError.insufficientBalance.display))
  else set { account with balance := account.balance - amount }

theorem debitBatch_ends (index amount : ℕ) (account : AccountState) :
    (debitBatch index amount).Ends account (fun _ => True) fun _ next =>
      amount ≤ account.balance ∧ next = { account with balance := account.balance - amount } := by
  simp only [debitBatch, EStateM.ends_bind, EStateM.ends_get]
  split
  next => trivial
  next enough => exact ⟨Nat.not_lt.mp enough, rfl⟩

section Contracts

variable [Platform] {sender : AccountId}

/-! ## Deploys -/

def deployAddress (tx : Transaction) (bytecode : Bytes) : AccountId :=
  match tx.payload.deployCreate2Salt with
  | some salt => create2ContractAddress tx.sender salt bytecode
  | none => nonceDerivedContractAddress tx.sender tx.nonce

def installCode (env : CallEnv) (deployer address : AccountId) (fields : ContractDeployFields) :
    Quiet VmFault (ℕ × List ExecutionLog) := do
  if contractDeployUsesInitCode fields.bytecode then
    let frame ← runNested env (contractDeployInitBody fields.bytecode)
      GAS_PER_CONTRACT_DEPLOY_INIT deployer address []
    let runtime := frame.returnData.getD []
    if env.context.vmHardening then
      check (qaCheckInitRuntime runtime fields.purposeCategory fields.descriptionHash
        fields.assetName fields.assetSymbol env.registry)
    Quiet.setContractCode address runtime
    return (frame.gasUsed, frame.logs)
  else
    Quiet.setContractCode address fields.bytecode
    return (0, [])

def claimAddressAct (sender address : AccountId) : Act VmFault (ℕ × PUnit) := do
  if addressInUse (← ledgerModel.look).contents address then reject .deploymentAddressInUse
  else
    let outcome ← Act.withAccount sender (.error .accountNotFound)
      (chargedRecord (.error .nonceOverflow) (pure (0, ⟨⟩)))
    Act.insertAccount address .default
    return outcome

theorem leads_claimAddress (sender address : AccountId) (before : Contents) :
    Leads (claimAddressAct sender address) before fun outcome after =>
      before.Charged .keep sender outcome.1 after := by
  refine .bind (.look fun config => ?_)
  split
  next => exact .fail
  next free =>
    refine .bind (.withAccount fun account outcome next found ran => ?_)
    obtain ⟨nonce, bounded, worth, lock⟩ := EStateM.ends_of_ok (chargedRecord_ends
      (fun outcome worth lock =>
        (account.worth < SUPPLY_LIMIT → worth + outcome.1 = account.worth) ∧
          LockChange.keep.Allows account.lock lock) (IsFair.pure account)) ran
    have absent := free_of_not_inUse free
    have apart : sender ≠ address := by
      rintro rfl
      rw [found] at absent
      cases absent
    refine .bind (.writeEntry (.pure ?_))
    refine (Contents.Charged.of_account found nonce bounded lock worth).kept
      (Contents.kept_insert ?_)
    rw [Contents.accounts_write_account, if_neg apart, absent]

def claimAddress (address : AccountId) : Charge sender VmFault PUnit :=
  (claimAddressAct sender address).strengthen fun store =>
    leads_claimAddress sender address store.toContents store rfl

def qaPoolFull (config : QaPoolGovernanceConfig) (contents : Contents) (deployer : AccountId) :
    Option String :=
  let mine := (contents.qaPending.toList.filter fun entry => entry.2.deployer = deployer).length
  if config.maxPendingItems = 0 ∨ contents.qaPending.size ≥ config.maxPendingItems then
    some "deploy QA Unsure and the QA pool is at capacity"
  else if config.maxPendingPerDeployer > 0 ∧ mine ≥ config.maxPendingPerDeployer then
    some "deploy QA Unsure and the deployer's QA pool slots are full"
  else none

/-- Whether a deploy that waits for review is admitted. -/
def admitUnsure (vm : Vm) (tx : Transaction) (height : ℕ) : Quiet VmFault PUnit := do
  let view ← ledgerModel.look
  if view.contents.qaPending.contains tx.id then reject .qaPendingAlreadyRegistered
  else if vm.qaCanonicalActive height then
    match qaPoolFull vm.qaPoolConfig view.contents tx.sender with
    | some message => reject (.qaRejected SOFT_RULE_FAILED message)
    | none => return ⟨⟩
  else return ⟨⟩

def registerUnsureDeploy (vm : Vm) (tx : Transaction) (height : ℕ) :
    ReviewHandler sender :=
  Charge.after (admitUnsure vm tx height) fun _ =>
    (bumpSenderNonce PUnit.unit).unreviewed.andQuietly fun _ => do
      Reviewing.insertQaPending tx.id (.new tx height)
      return { gasUsed := GAS_PER_CONTRACT_DEPLOY, returnData := asciiBytes "qa_pending" }

/-- A deploy that passed the quality checks. -/
def deployContract (env : CallEnv) (tx : Transaction) (fields : ContractDeployFields) :
    Handler sender :=
  let address := deployAddress tx fields.bytecode
  (claimAddress address).andQuietly fun _ => do
    let (initGas, logs) ← installCode env tx.sender address fields
    return { gasUsed := saturatingAdd 64 GAS_PER_CONTRACT_DEPLOY initGas, logs }

def executeContractDeploy (vm : Vm) (context : VmExecutionContext) (tx : Transaction) :
    ReviewHandler sender :=
  let registry := vm.qaAt context
  match tx.payload.asContractDeploy with
  | none => Charge.refuse (.notImplemented "Not a contract deploy")
  | some fields =>
    match checkContractDeployFullWithMetadata fields.bytecode fields.purposeCategory
        fields.descriptionHash fields.assetName fields.assetSymbol registry with
    | .allow => (deployContract ⟨context, registry⟩ tx fields).unreviewed
    | .reject reason => Charge.refuse reason.toVmError
    | .unsure =>
      if vm.qaPoolConfig.publicMembership then
        registerUnsureDeploy vm tx context.blockHeight
      else if vm.qaCanonicalActive context.blockHeight then
        Charge.refuse (.qaRejected SOFT_RULE_FAILED
          "deploy QA Unsure with public QA membership off")
      else (deployContract ⟨context, registry⟩ tx fields).unreviewed

/-! ## Votes on deploys -/

def QaVoterIneligible.display : QaVoterIneligible → String
  | .deployerConflict => "deployer cannot vote on their own Unsure deploy"
  | .insufficientStake => "voter stake below min_voter_stake"
  | .notMember => "voter is not eligible under qa_pool_config"

def admitQaVote (vm : Vm) (height : ℕ) (voter : AccountId) (subject : Hash) :
    Quiet VmFault PUnit := do
  let view ← ledgerModel.look
  match view.contents.qaPending[subject]? with
  | none => reject .qaPendingNotFound
  | some record =>
    let stake := view.contents.stakeOf voter / (vm.denominationAt height).unit
    match vm.qaPoolConfig.voterEligibility voter (some record.deployer) (some stake) with
    | .error reason => reject (.qaVoterIneligible reason.display)
    | .ok _ => return ⟨⟩

def QaPendingRecord.count (record : QaPendingRecord) (kind : QaPoolVoteKind) : ℕ :=
  (record.votes.toList.filter fun entry => entry.2 = kind).length

/-- Installs a deploy that was registered before; its nonce is used already. -/
def installContractFromDeployTx (env : CallEnv) (tx : Transaction) :
    Quiet VmFault ℕ := do
  match tx.payload.asContractDeploy with
  | none => reject (.notImplemented "QA allow of non-deploy")
  | some fields =>
    let address := deployAddress tx fields.bytecode
    createAccount address
    let (initGas, _) ← installCode env tx.sender address fields
    return initGas

def settleQaVote (vm : Vm) (context : VmExecutionContext) (voter : AccountId) (subject : Hash)
    (vote : QaPoolVoteKind) : Reviewing VmFault VmExecutionResult := do
  let config := vm.qaPoolConfig
  match (← ledgerModel.look).contents.qaPending[subject]? with
  | none => reject .qaPendingNotFound
  | some record =>
    let voted := { record with votes := record.votes.insert voter vote }
    let decision := config.quorumDecision (voted.count .allow) (voted.count .reject)
    if decision = .pending then
      Reviewing.qaPendingMut subject fun _ => voted
      return { gasUsed := GAS_PER_QA_POOL_VOTE, returnData := asciiBytes "qa_vote_pending" }
    else
      let unpaid := unpaidCountedVoters voted config.payAbstain
      Reviewing.qaPendingMut subject fun _ =>
        { voted with rewarded := unpaid.foldl (·.insert ·) voted.rewarded }
      let _ ← (payQaCountedVoters unpaid (saturatingMul 128
        config.rewardPerCountedVote (vm.denominationAt context.blockHeight).unit)).inReview
      (Quiet.removeQaPending subject).inReview
      if decision = .allow then
        let initGas ← (installContractFromDeployTx ⟨context, vm.qaAt context⟩ record.tx).inReview
        return { gasUsed := saturatingAdd 64 GAS_PER_QA_POOL_VOTE initGas
                 returnData := asciiBytes "qa_vote_allow" }
      else
        return { gasUsed := GAS_PER_QA_POOL_VOTE, returnData := asciiBytes "qa_vote_reject" }

def executeQaPoolVote (vm : Vm) (context : VmExecutionContext) (subject : Hash)
    (vote : QaPoolVoteKind) : ReviewHandler sender :=
  Charge.after (admitQaVote vm context.blockHeight sender subject) fun _ =>
    (bumpSenderNonce PUnit.unit).unreviewed.andQuietly fun _ =>
      settleQaVote vm context sender subject vote

/-! ## Calls -/

def contractCode (contract : AccountId) : Quiet VmFault Bytes := do
  match (← ledgerModel.look).contents.contractCode[contract]? with
  | some code => return code
  | none => reject .accountNotFound

def executeContractCall (vm : Vm) (context : VmExecutionContext) (contract : AccountId)
    (calldata : Bytes) (value : ℕ) : Handler sender :=
  (bumpSenderNonce PUnit.unit).andQuietly fun _ => do
    let code ← contractCode contract
    -- The value moves first, so that the code sees it in its own balance.
    if value > 0 then moveNative sender contract value
    let frame ← runNested ⟨context, vm.qaAt context⟩ code GAS_PER_CONTRACT_CALL sender contract
      calldata value
    return ⟨frame.gasUsed, frame.returnData.getD [], frame.logs⟩

def executeContractCallWithValue (vm : Vm) (context : VmExecutionContext) (contract : AccountId)
    (calldata : Bytes) (value : ℕ) : Handler sender :=
  Charge.after (if context.nativeValue then pure PUnit.unit else reject .nativeValueNotActive)
    fun _ => executeContractCall vm context contract calldata value

/-! ## Batches -/

def batchTransfer (sender : AccountId) (index : ℕ) (recipient : AccountId) (amount : ℕ) :
    Quiet VmFault PUnit :=
  Act.quietly (do
      Act.withAccount sender (.error .accountNotFound) (debitBatch index amount)
      Act.deposit recipient amount)
    fun before => by
      refine .bind (.withAccount fun account _ next found ran => .place ?_)
      obtain ⟨enough, rfl⟩ := EStateM.ends_of_ok (debitBatch_ends index amount account) ran
      exact (Contents.paid_debit found enough).received (fun _ => rfl)
        (Contents.received_deposit _ recipient amount)

def batchCall (env : CallEnv) (sender : AccountId) (budget : ℕ) (contract : AccountId)
    (calldata : Bytes) : Quiet VmFault Frame := do
  let code ← contractCode contract
  runNested env code budget sender contract calldata

def batchCallWithValue (env : CallEnv) (sender : AccountId) (budget : ℕ) (contract : AccountId)
    (calldata : Bytes) (value : ℕ) : Quiet VmFault Frame := do
  if env.context.nativeValue then
    let code ← contractCode contract
    moveNative sender contract value
    runNested env code budget sender contract calldata value
  else reject .nativeValueNotActive

def batchStep (env : CallEnv) (sender : AccountId) (index : ℕ) (progress : BatchProgress) :
    BatchCall → Quiet VmFault BatchProgress
  | .transfer recipient amount => do
    batchTransfer sender index recipient amount
    return progress.afterTransfer
  | .contractCall contract calldata => do
    let frame ← (batchCall env sender progress.budget contract calldata).mapError
      (batchStepFault index)
    return progress.afterCall frame
  | .contractCallWithValue contract calldata value => do
    let frame ← (batchCallWithValue env sender progress.budget contract calldata value).mapError
      (batchStepFault index)
    return progress.afterCall frame

def runBatch (env : CallEnv) (sender : AccountId) (index : ℕ) (progress : BatchProgress) :
    List BatchCall → Quiet VmFault BatchProgress
  | [] => pure progress
  | call :: calls => do
    let progress ← batchStep env sender index progress call
    runBatch env sender (index + 1) progress calls

def executeBatch (vm : Vm) (context : VmExecutionContext) (calls : List BatchCall) :
    Handler sender :=
  Charge.after (check ((validateBatchCalls calls).mapError fun reason =>
      .invalidBatch reason.display)) fun _ =>
    (bumpSenderNonce PUnit.unit).andQuietly fun _ => do
      let progress ← runBatch ⟨context, vm.qaAt context⟩ sender 0 {} calls
      return progress.result

end Contracts

end BoingNetwork
