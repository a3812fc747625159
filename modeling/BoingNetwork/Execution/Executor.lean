import BoingNetwork.Execution.Scheduler
import BoingNetwork.Execution.Vm
import BoingNetwork.State.Exact

/-!
# Sequential execution of a block

The rules in force at a height, and the sequential path of the block executor.  A
transaction runs under a checkpoint together with its fee and its tip.  If one of them
fails, everything is reverted, and the sender pays for the failure with its nonce and, once
the rule is active, with a fee that is capped at its balance.
-/

namespace BoingNetwork

open MachineInt

def FAILED_TX_GAS : ℕ := GAS_PER_TRANSFER

/-! ## Rules by height -/

structure FeeEra where
  fromHeight : ℕ
  policy : NetworkFeePolicy
  remainder : FeeRemainder

/-- The heights from which the rules of a live network apply; `none` is never. -/
structure ExecutionHistory where
  chainId : ℕ := 0
  feeEras : List FeeEra := []
  currentFrom : ℕ := 0
  failedTxFeeFrom : ℕ := 0
  registrationProofV2From : ℕ := 0
  securityV4From : ℕ := 0
  baseUnitsFrom : ℕ := 0
  nativeValueFrom : ℕ := 0
  microFeesFrom : ℕ := 0
  vmHardeningFrom : ℕ := 0
  equivocationSlashFrom : ℕ := 0
  vmJumpStrictFrom : ℕ := 0
  qaCanonicalFrom : Option ℕ := none

namespace ExecutionHistory

variable (history : ExecutionHistory) (height : ℕ)

def feeEraAt : Option FeeEra :=
  if height ≥ history.currentFrom then none
  else history.feeEras.reverse.find? fun era => era.fromHeight ≤ height

def failedTxFeeActive : Bool := history.failedTxFeeFrom ≤ height
def securityV4Active : Bool := history.securityV4From ≤ height
def microFeesActive : Bool := history.microFeesFrom ≤ height

def denominationAt : Denomination :=
  if height ≥ history.baseUnitsFrom then .baseUnits else .wholeBoing

end ExecutionHistory

/-- The rules of a block executor; without a history the current rules always applied. -/
structure BlockExecutor where
  vm : Vm
  feePolicy : NetworkFeePolicy := .treasuryDefault
  history : Option ExecutionHistory := none

namespace BlockExecutor

/-- Installs a history; the virtual machine keeps its own copy of the heights. -/
def setExecutionHistory (executor : BlockExecutor) (history : Option ExecutionHistory) :
    BlockExecutor :=
  { executor with
    history
    vm := match history with
      | some history =>
        { executor.vm with
          registrationChainId := if history.chainId ≠ 0 then some history.chainId else none
          registrationV2From := history.registrationProofV2From
          securityV4From := history.securityV4From
          baseUnitsFrom := history.baseUnitsFrom
          nativeValueFrom := history.nativeValueFrom
          vmHardeningFrom := history.vmHardeningFrom
          equivocationSlashFrom := history.equivocationSlashFrom
          vmJumpStrictFrom := history.vmJumpStrictFrom
          qaCanonicalFrom := history.qaCanonicalFrom }
      | none =>
        { executor.vm with
          baseUnitsFrom := 0
          nativeValueFrom := 0
          vmHardeningFrom := 0
          equivocationSlashFrom := 0
          vmJumpStrictFrom := 0
          qaCanonicalFrom := none } }

variable (executor : BlockExecutor) (height : ℕ)

def microFeesActive : Bool := executor.history.all (·.microFeesActive height)
def failedTxFeeActive : Bool := executor.history.all (·.failedTxFeeActive height)
def securityV4Active : Bool := executor.history.all (·.securityV4Active height)

def denominationAt : Denomination :=
  executor.history.elim .baseUnits (·.denominationAt height)

def redenominationHeight : Option ℕ :=
  (executor.history.map ExecutionHistory.baseUnitsFrom).filter (0 < ·)

/-- Before micro fees the execution part of a fee is never reduced. -/
def feeRuleAt : NetworkFeePolicy × FeeRemainder :=
  let (policy, remainder) := match executor.history.bind (·.feeEraAt height) with
    | some era => (era.policy, era.remainder)
    | none => (executor.feePolicy, .treasury)
  if !executor.microFeesActive height ∧ policy.executionGasFeeBps < 10000 then
    ({ policy with executionGasFeeBps := 10000 }, remainder)
  else (policy, remainder)

end BlockExecutor

/-! ## Failed transactions -/

def failedTxFeeAmountIn (policy : NetworkFeePolicy) (denomination : Denomination) : ℕ :=
  saturatingAdd 128 (executionGasFeeIn FAILED_TX_GAS policy denomination)
    policy.extraFixedFee

/-- The fee rule for failed transactions of one block. -/
structure FailedTxFee where
  policy : NetworkFeePolicy
  remainder : FeeRemainder
  recipient : AccountId
  denomination : Denomination

namespace FailedTxFee

def amount (fee : FailedTxFee) : ℕ := failedTxFeeAmountIn fee.policy fee.denomination

def shares (fee : FailedTxFee) (charge : ℕ) : FeeShares :=
  splitFeeWithRemainder charge fee.policy fee.remainder

end FailedTxFee

/-- The sender of a failed transaction, with the gas and the fee of the failure.  Another
nonce than the expected one costs nothing. -/
def consumeNonce (failedFee : Option FailedTxFee) (nonce : ℕ) (account : AccountState) :
    (ℕ × ℕ) × AccountState :=
  if account.nonce = nonce then
    ((failedFee.elim 0 fun _ => FAILED_TX_GAS,
      failedFee.elim 0 fun fee => min fee.amount account.balance),
      { account with nonce := saturatingAdd 64 account.nonce 1 })
  else ((0, 0), account)

variable {account : AccountState} {before : Contents} {failedFee : Option FailedTxFee}
  (progress : BlockProgress) (outcomes : List TxOutcome) {config : LedgerConfig} {env : BlockEnv}

theorem consumeNonce_charge_le {nonce : ℕ} : (consumeNonce failedFee nonce account).1.2 ≤
      (consumeNonce failedFee nonce account).2.balance := by
  unfold consumeNonce
  split
  next =>
    cases failedFee with
    | none => exact Nat.zero_le _
    | some fee => exact Nat.min_le_right _ _
  next => exact Nat.zero_le _

def Contents.payFailure (contents : Contents) (failedFee : Option FailedTxFee)
    (sender : AccountId) (account : AccountState) (charge : ℕ) : Contents :=
  match failedFee with
  | none => contents
  | some fee =>
    if charge = 0 then contents
    else contents.charge sender account charge fee.recipient (fee.shares charge)

def Contents.failTx (contents : Contents) (failedFee : Option FailedTxFee) (tx : Transaction) :
    ℕ × Contents :=
  match contents.accounts[tx.sender]? with
  | none => (0, contents)
  | some account =>
    let ((gas, charge), next) := consumeNonce failedFee tx.nonce account
    (gas, (contents.write (.account tx.sender) (some next)).payFailure failedFee tx.sender next
      charge)

section Failures

variable [Crypto] {Error : Type} {amount : ℕ}

/-- Pays a fee; an error would be passed over. -/
def payFailureFee (failedFee : Option FailedTxFee) (sender : AccountId) (charge : ℕ) :
    Act Error PUnit :=
  match failedFee with
  | none => pure ⟨⟩
  | some fee =>
    if charge = 0 then pure ⟨⟩
    else (chargeAndDistributeFee sender charge fee.recipient fee.policy fee.remainder).attempt

def applyFailedTxConsumingNonce (failedFee : Option FailedTxFee) (tx : Transaction) :
    Act Error ℕ := do
  let spent ← Act.alter tx.sender (consumeNonce failedFee tx.nonce)
  payFailureFee failedFee tx.sender (spent.getD (0, 0)).2
  return (spent.getD (0, 0)).1

theorem Yields.creditAccount {id : AccountId} :
    Yields (creditAccount id amount : Act Error PUnit).run before ⟨⟩ (before.credit id amount) :=
  of_leads (fun store _ => creditAccount_total id amount store) (.creditAccount ⟨rfl, rfl⟩)

theorem Yields.chargeShares {sender feeRecipient : AccountId} {shares : FeeShares}
    (positive : amount ≠ 0) (found : before.accounts[sender]? = some account)
    (enough : amount ≤ account.balance) :
    Yields (chargeShares sender amount feeRecipient shares).run before ⟨⟩
      (before.charge sender account amount feeRecipient shares) := by
  have debited : debitFee amount account =
      .ok ⟨⟩ { account with balance := account.balance - amount } := by
    change (if account.balance < amount then _ else _ : EStateM _ _ _) account = _
    rw [if_neg (Nat.not_lt.mpr enough)]
    rfl
  rw [BoingNetwork.chargeShares, if_neg positive]
  exact (Yields.withAccount found debited).bind (Yields.creditAccount.bind
    (Yields.creditAccount.bind Yields.creditAccount))

theorem Yields.payFailureFee {sender : AccountId} {charge : ℕ}
    (found : before.accounts[sender]? = some account) (enough : charge ≤ account.balance) :
    Yields (payFailureFee failedFee sender charge : Act Error PUnit).run before ⟨⟩
      (before.payFailure failedFee sender account charge) := by
  cases failedFee with
  | none => exact Yields.pure
  | some fee =>
    simp only [BoingNetwork.payFailureFee, Contents.payFailure]
    split
    next => exact Yields.pure
    next positive => exact (Yields.chargeShares positive found enough).attempt

theorem yields_applyFailedTx (failedFee : Option FailedTxFee) (tx : Transaction)
    (before : Contents) : Yields (applyFailedTxConsumingNonce failedFee tx : Act Error ℕ).run before
      (before.failTx failedFee tx).1 (before.failTx failedFee tx).2 := by
  cases found : before.accounts[tx.sender]? with
  | none =>
    have pays : Yields (payFailureFee failedFee tx.sender 0 : Act Error PUnit).run before ⟨⟩
        before := by
      cases failedFee <;> exact Yields.pure
    simp only [Contents.failTx, found]
    exact (Yields.alter_of_absent found).bind (pays.bind Yields.pure)
  | some account =>
    have altered : Yields (Act.alter tx.sender (consumeNonce failedFee tx.nonce) :
        Act Error (Option (ℕ × ℕ))).run before _ _ := Yields.alter_of_present found
    have written : (before.write (.account tx.sender)
        (some (consumeNonce failedFee tx.nonce account).2)).accounts[tx.sender]? =
          some (consumeNonce failedFee tx.nonce account).2 := by
      rw [Contents.accounts_write_account, if_pos rfl]
    simp only [Contents.failTx, found]
    exact altered.bind ((Yields.payFailureFee written consumeNonce_charge_le).bind Yields.pure)

end Failures

/-! ## Sequential execution -/

inductive ExecutionError where
  | vm (reason : VmError)
  | conflictDetected (message : String)
  | fee (reason : FeeError)

def ExecutionError.display : ExecutionError → String
  | .vm reason => s!"VM error: {reason.display}"
  | .conflictDetected message => s!"Conflict detected: {message}"
  | .fee reason => s!"Fee error: {reason.display}"

structure BlockEnv where
  vm : Vm
  context : VmExecutionContext
  txs : List Transaction
  tips : List ℕ
  feeRecipient : AccountId
  feePolicy : NetworkFeePolicy
  feeRemainder : FeeRemainder
  denomination : Denomination
  failedFee : Option FailedTxFee
  excludeFeeRecipient : Bool

/-- Transactions without a tip in the list pay none. -/
def BlockEnv.tipAt (env : BlockEnv) (index : ℕ) : ℕ := env.tips.getD index 0

structure BlockProgress where
  totalGas : ℕ
  receipts : List (Option ExecutionReceipt)

namespace BlockProgress

def start (count : ℕ) : BlockProgress := ⟨0, List.replicate count none⟩

def record (progress : BlockProgress) (index : ℕ) (receipt : ExecutionReceipt) : BlockProgress where
  totalGas := saturatingAdd 64 progress.totalGas receipt.gasUsed
  receipts := progress.receipts.set index (some receipt)

end BlockProgress

/-- How a transaction of a block ended. -/
inductive TxEnd where
  | applied (rent : ℕ)
  | merged
  | failed

structure TxOutcome where
  index : ℕ
  receipt : ExecutionReceipt
  ending : TxEnd

def BlockProgress.recordAll (progress : BlockProgress) (outcomes : List TxOutcome) :
    BlockProgress :=
  outcomes.foldl (fun progress outcome => progress.record outcome.index outcome.receipt) progress

namespace BlockProgress

theorem recordAll_eq : progress.recordAll outcomes =
      ⟨outcomes.foldl (fun gas outcome => saturatingAdd 64 gas outcome.receipt.gasUsed)
          progress.totalGas, outcomes.foldl (fun receipts outcome =>
          receipts.set outcome.index (some outcome.receipt)) progress.receipts⟩ := by
  induction outcomes generalizing progress with
  | nil => rfl
  | cons outcome outcomes ih => exact ih _

theorem foldl_gas_saturatingAdd (first second : ℕ) :
    outcomes.foldl (fun gas outcome => saturatingAdd 64 gas outcome.receipt.gasUsed)
        (saturatingAdd 64 first second) =
      saturatingAdd 64 first (outcomes.foldl (fun gas outcome =>
        saturatingAdd 64 gas outcome.receipt.gasUsed) second) := by
  induction outcomes generalizing second with
  | nil => rfl
  | cons outcome outcomes ih =>
    rw [List.foldl_cons, saturatingAdd_assoc, ih, List.foldl_cons]

/-- Counting the gas of some transactions apart gives the same total. -/
theorem recordAll_apart {outcomes : List TxOutcome} (notEmpty : outcomes ≠ []) :
    let apart := { progress with totalGas := 0 }.recordAll outcomes
    { apart with totalGas := saturatingAdd 64 progress.totalGas apart.totalGas } =
      progress.recordAll outcomes := by
  cases outcomes with
  | nil => exact absurd rfl notEmpty
  | cons outcome outcomes =>
    have once : saturatingAdd 64 progress.totalGas outcome.receipt.gasUsed =
        saturatingAdd 64 progress.totalGas
          (saturatingAdd 64 0 outcome.receipt.gasUsed) := by
      unfold saturatingAdd
      omega
    simp only [recordAll_eq, List.foldl_cons]
    rw [once, foldl_gas_saturatingAdd _ progress.totalGas]

end BlockProgress

section Sequential

variable [Platform]

def BlockEnv.receiptOf (env : BlockEnv) (index : ℕ) (tx : Transaction) :
    Except String VmExecutionResult → ℕ → Option ExecutionReceipt
  | .ok result, gas => ExecutionReceipt.fromTxOutcome tx env.context.blockHeight (index % 2 ^ 32)
      true gas result.returnData result.logs none
  | .error text, gas => ExecutionReceipt.fromTxOutcome tx env.context.blockHeight (index % 2 ^ 32)
      false gas [] [] (some text)

def TxRan (env : BlockEnv) (config : LedgerConfig) (tx : Transaction) (rent : ℕ)
    (before after : Contents) : Prop :=
  ∃ (store next : StateStore) (result : VmExecutionResult), store.toContents = before ∧
    store.config = config ∧ next.toContents = after ∧
      (executeWithContext env.vm env.context tx).run store = .ok (rent, result) next

/-- The state change of a transaction that was applied: its own, and its fees. -/
def TxPaid (env : BlockEnv) (config : LedgerConfig) (tx : Transaction) (rent : ℕ)
    (before after : Contents) : Prop :=
  ∃ middle, TxApplied config env.context.blockHeight tx rent before middle ∧
    TxRan env config tx rent before middle ∧ middle.Kept after

/-- The state change of a transfer that was executed in parallel.  Only the exclusion of the
fee receivers makes the merge of its snapshot keep the supply. -/
structure TxMerged (env : BlockEnv) (tx : Transaction) (before after : Contents) : Prop where
  matched : before.nonceOf tx.sender = some tx.nonce
  raised : before.Raised .keep tx.sender after
  supply : env.excludeFeeRecipient = true → before.supply < SUPPLY_LIMIT →
    after.supply = before.supply
  appeals : before.slashAppeals.Undecided after.slashAppeals
  pool : after.PoolWithin before
  isTransfer : ∃ recipient amount, tx.payload = .transfer recipient amount

/-- What the execution of one transaction does, by how it ended. -/
def TxStep (env : BlockEnv) (config : LedgerConfig) (outcome : TxOutcome)
    (before after : Contents) : Prop :=
  ∃ tx, env.txs[outcome.index]? = some tx ∧ match outcome.ending with
    | .applied rent => TxPaid env config tx rent before after ∧
        ∃ result, env.receiptOf outcome.index tx (.ok result) result.gasUsed = some outcome.receipt
    | .merged => TxMerged env tx before after ∧
        env.receiptOf outcome.index tx (.ok (gasOnly GAS_PER_TRANSFER)) GAS_PER_TRANSFER =
          some outcome.receipt
    | .failed => after = (before.failTx env.failedFee tx).2 ∧
        ∃ text, env.receiptOf outcome.index tx (.error text) (before.failTx env.failedFee tx).1 =
          some outcome.receipt

def BatchLaw (env : BlockEnv) (indices : List ℕ) (progress : BlockProgress)
    (config : LedgerConfig) (next : BlockProgress) (before after : Contents) : Prop :=
  ∃ outcomes : List TxOutcome, outcomes.map TxOutcome.index = indices ∧
    next = progress.recordAll outcomes ∧ Run.Steps (TxStep env config) outcomes before after

/-- The texts of the errors that a receipt reports. -/
def vmText : VmFault → Fault String
  | .error reason => .error reason.display
  | .panic => .panic

def chargeFees (env : BlockEnv) (index : ℕ) (tx : Transaction) (gasUsed : ℕ) :
    Quiet (Fault String) PUnit := do
  let fee := networkFeeAmountIn gasUsed tx.payload env.feePolicy env.denomination
  Within.mapError (fun reason => .error reason.display)
    (chargeAndDistributeFee tx.sender fee env.feeRecipient env.feePolicy env.feeRemainder)
  Within.mapError (fun reason => .error reason.display)
    (chargePriorityTip tx.sender (env.tipAt index) env.feeRecipient env.feePolicy)

/-- A transaction with its fee and tip; a failure of any of them is reported alike. -/
def executePaid (env : BlockEnv) (index : ℕ) (tx : Transaction) :
    Command ledgerModel.conduct (Fault String) (ℕ × VmExecutionResult) fun outcome before after =>
      TxPaid env before.config tx outcome.1 before.toContents after.toContents :=
  ((executeWithContext env.vm env.context tx).recalling.mapError vmText).andThen
    (fun outcome => Charge.tag outcome.1 (do
      chargeFees env index tx outcome.2.gasUsed
      return outcome.2))
    fun applied kept => by
      rw [kept.1]
      exact ⟨_, applied.1, ⟨_, _, _, rfl, rfl, rfl, applied.2⟩, kept.2⟩

def recordReceipt (progress : BlockProgress) (index : ℕ) (receipt : Option ExecutionReceipt) :
    BlockCommand (Fault ExecutionError) BlockProgress fun _ next before after =>
      after = before ∧ ∃ built, receipt = some built ∧ next = progress.record index built :=
  match receipt with
  | none => .refuse .panic
  | some built => .pure (progress.record index built) fun _ _ => ⟨rfl, built, rfl, rfl⟩

def concludeTx (env : BlockEnv) (index : ℕ) (tx : Transaction) (progress : BlockProgress)
    (result : Except String (ℕ × VmExecutionResult)) :
    BlockCommand (Fault ExecutionError) BlockProgress fun _ next before after => match result with
      | .ok outcome => after = before ∧ ∃ built,
          env.receiptOf index tx (.ok outcome.2) outcome.2.gasUsed = some built ∧
            next = progress.record index built
      | .error text => after = (before.failTx env.failedFee tx).2 ∧ ∃ built,
          env.receiptOf index tx (.error text) (before.failTx env.failedFee tx).1 = some built ∧
            next = progress.record index built :=
  match result with
  | .ok outcome =>
    recordReceipt progress index (env.receiptOf index tx (.ok outcome.2) outcome.2.gasUsed)
  | .error text =>
    have failed : BlockCommand (Fault ExecutionError) ℕ fun _ gas before after =>
        gas = (before.failTx env.failedFee tx).1 ∧ after = (before.failTx env.failedFee tx).2 :=
      .lift (Command.strengthen (applyFailedTxConsumingNonce env.failedFee tx) fun store =>
        (yields_applyFailedTx env.failedFee tx store.toContents).leads store rfl) id
    failed.andThen
      (fun gas => recordReceipt progress index (env.receiptOf index tx (.error text) gas))
      fun first second => by
        rw [second.1, ← first.1]
        exact ⟨first.2, second.2⟩

/-- One transaction of the sequential path. -/
def executeTx (env : BlockEnv) (index : ℕ) (progress : BlockProgress) :
    BlockCommand (Fault ExecutionError) BlockProgress (BatchLaw env [index] progress) :=
  match found : env.txs[index]? with
  | none => .refuse .panic
  | some tx =>
    have ran : BlockCommand (Fault ExecutionError) (Except String (ℕ × VmExecutionResult))
        (BlockCommand.Atomic fun config outcome =>
          TxPaid env config tx outcome.1) :=
      .atomically (executePaid env index tx) id
    ran.andThen (concludeTx env index tx progress) fun {config result next start middle finish}
      first second => by
        cases result with
        | ok outcome =>
          obtain ⟨rfl, built, isBuilt, rfl⟩ := second
          refine ⟨[⟨index, built, .applied outcome.1⟩], rfl, rfl, .single ?_⟩
          exact ⟨tx, found, first, outcome.2, isBuilt⟩
        | error text =>
          obtain ⟨rfl, built, isBuilt, rfl⟩ := second
          have unchanged : middle = start := first
          rw [unchanged] at isBuilt ⊢
          refine ⟨[⟨index, built, .failed⟩], rfl, rfl, .single ?_⟩
          exact ⟨tx, found, rfl, text, isBuilt⟩

theorem BatchLaw.nil {progress : BlockProgress} {contents : Contents} :
    BatchLaw env [] progress config progress contents contents :=
  ⟨[], rfl, rfl, rfl⟩

theorem BatchLaw.append {first second : List ℕ} {progress between next : BlockProgress}
    {start middle finish : Contents}
    (begun : BatchLaw env first progress config between start middle)
    (ended : BatchLaw env second between config next middle finish) :
    BatchLaw env (first ++ second) progress config next start finish := by
  obtain ⟨outcomes, rfl, rfl, steps⟩ := begun
  obtain ⟨more, rfl, rfl, moreSteps⟩ := ended
  refine ⟨outcomes ++ more, List.map_append, ?_, Run.steps_append.mpr ⟨middle, steps, moreSteps⟩⟩
  exact (List.foldl_append ..).symm

def executeSequentially (env : BlockEnv) : (indices : List ℕ) → (progress : BlockProgress) →
    BlockCommand (Fault ExecutionError) BlockProgress (BatchLaw env indices progress)
  | [], progress => .pure progress fun _ _ => .nil
  | index :: indices, progress =>
    (executeTx env index progress).andThen (executeSequentially env indices)
      fun begun ended => begun.append ended

end Sequential

end BoingNetwork
