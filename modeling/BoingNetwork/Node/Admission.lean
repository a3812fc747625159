import BoingNetwork.Execution.ParallelEquivalence
import BoingNetwork.Primitives.SignedTransaction

/-!
# Fee admission of transfers

Before a transaction enters the mempool, the node executes it on a copy of its state and
asks whether the sender can then pay the fee and the tip.  A transaction that fails in
execution is admitted, since it pays for its failure in the block.  For transfers the node
computes the same decision from the record of the sender alone.
-/

namespace BoingNetwork

open EStateM MachineInt

inductive MempoolError where
  | freeTxBalanceGate (owned need : ℕ)
  | insufficientFee (owned need : ℕ)
deriving DecidableEq

def NetworkFeePolicy.executionGasWaived (policy : NetworkFeePolicy) : Bool :=
  policy.executionGasFeeBps = 0

def BlockExecutor.networkFeeAt (executor : BlockExecutor) (gasUsed : ℕ)
    (payload : TransactionPayload) (height : ℕ) : ℕ :=
  networkFeeAmountIn gasUsed payload (executor.feeRuleAt height).1 (executor.denominationAt height)

section Admission

variable [Platform] {account : AccountState}

structure AdmissionNode where
  executor : BlockExecutor
  /-- `free_tx_min_balance` of the fee policy, which execution does not read. -/
  freeTxMinBalance : ℕ
  state : StateStore
  chainHeight : ℕ
  tipTimestamp : ℕ
  admissionVm : Vm

namespace AdmissionNode

variable (node : AdmissionNode)

def nextHeight : ℕ := saturatingAdd 64 node.chainHeight 1

def freeTxGate (priorityTip owned : ℕ) : Except MempoolError Unit :=
  if priorityTip = 0 ∧ node.executor.feePolicy.executionGasWaived ∧ 0 < node.freeTxMinBalance ∧
      owned < node.freeTxMinBalance then
    .error (.freeTxBalanceGate owned node.freeTxMinBalance)
  else .ok ()

def feeGate (signed : SignedTransaction) (gasUsed owned remaining : ℕ) :
    Except MempoolError Unit :=
  let need := saturatingAdd 128
    (node.executor.networkFeeAt gasUsed signed.tx.payload node.nextHeight) signed.priorityTip
  if remaining < need then .error (.insufficientFee owned need) else .ok ()

/-- Admission of a transfer without a copy of the state. -/
def precheckTransferFast (signed : SignedTransaction) (recipient : AccountId) (amount : ℕ) :
    Except MempoolError Unit := do
  let record := node.state.toContents.accounts[signed.tx.sender]?
  let nonce := record.map AccountState.nonce
  let owned := record.elim 0 AccountState.balance
  node.freeTxGate signed.priorityTip owned
  if nonce ≠ some signed.tx.nonce ∨ owned < amount then
    return ()
  else
    let remaining := if recipient = signed.tx.sender then owned else owned - amount
    node.feeGate signed GAS_PER_TRANSFER owned remaining

def precheckSenderCanPayFeeFull (signed : SignedTransaction) : Except MempoolError Unit :=
  match (node.executor.prepareStateForHeight node.nextHeight node.admissionVm :
      Act Empty Vm).run node.state with
  | .error impossible _ => impossible.elim
  | .ok vm prepared => do
    let owned :=
      prepared.toContents.accounts[signed.tx.sender]?.elim 0 AccountState.balance
    node.freeTxGate signed.priorityTip owned
    match (executeWithContext vm ⟨node.nextHeight, node.tipTimestamp, false, false, false, false,
        false⟩ signed.tx).run prepared with
    | .error _ _ => return ()
    | .ok (_, outcome) executed =>
      let remaining :=
        executed.toContents.accounts[signed.tx.sender]?.elim 0 AccountState.balance
      node.feeGate signed outcome.gasUsed owned remaining

end AdmissionNode

section Transfers

variable {tx : Transaction} {recipient : AccountId} {amount : ℕ}

omit [Platform] in
theorem enough_of_chargedRecord {Value : Type} {value : Value}
    (charged :
      (chargedRecord (.error .nonceOverflow) (debitSender amount value)).Succeeds account) :
    amount ≤ account.balance := by
  obtain ⟨outcome, next, ran⟩ := charged
  obtain ⟨updated, debited, _⟩ := eq_of_chargedRecord ran
  by_contra short
  have refused :
      debitSender amount value account = .error (.error .insufficientBalance) account := by
    change (if account.balance < amount then _ else _ : EStateM _ _ _) account = _
    rw [if_pos (Nat.not_le.mp short)]
    rfl
  cases refused.symm.trans debited

theorem canTransfer_of_executed {vm : Vm} {context : VmExecutionContext} {store next : StateStore}
    {outcome : ℕ × VmExecutionResult} (isTransfer : tx.payload = .transfer recipient amount)
    (fits : tx.nonce + 1 < 2 ^ 64)
    (ran : (executeWithContext vm context tx).run store = .ok outcome next) :
    ∃ account, store.toContents.accounts[tx.sender]? = some account ∧
      CanTransfer tx account recipient amount := by
  have applied := (ends_of_ok ((executeWithContext vm context tx).ensures store) ran).2
  obtain ⟨account, found, isNonce⟩ := Option.map_eq_some_iff.mp applied.matched
  refine ⟨account, found, isTransfer, isNonce, ?_, isNonce ▸ fits⟩
  obtain ⟨nonce, sender, payload, accessList⟩ := tx
  cases isTransfer
  rw [executeWithContext_run found isNonce] at ran
  obtain ⟨charged, middle, debited, -⟩ := bind_eq_ok.mp ran
  obtain ⟨record, isRecord, succeeded⟩ := Act.withAccount_succeeds.mp ⟨charged, middle, debited⟩
  cases found.symm.trans isRecord
  exact enough_of_chargedRecord succeeded

omit [Platform] in
theorem balance_transferred (contents : Contents) (sender : AccountId)
    (enough : amount ≤ account.balance) (small : account.balance < 2 ^ 128) :
    (contents.transferred sender account recipient amount).accounts[sender]?.elim 0
        AccountState.balance =
      if recipient = sender then account.balance else account.balance - amount := by
  unfold Contents.transferred Contents.deposit
  rw [Contents.accounts_write_account, Contents.accounts_write_account,
    Contents.accounts_write_account, if_pos rfl]
  by_cases self : recipient = sender
  · subst self
    rw [if_pos rfl, if_pos rfl, if_pos rfl]
    change saturatingAdd 128 (account.balance - amount) amount = _
    rw [saturatingAdd, maxValue]
    omega
  · rw [if_neg self, if_neg self]
    rfl

end Transfers

namespace AdmissionNode

/-- Where the ledger is not migrated, the copy of the state is the state. -/
theorem precheckSenderCanPayFeeFull_eq {node : AdmissionNode} (signed : SignedTransaction)
    (ordinary : ¬node.executor.Redenominates node.nextHeight) :
    node.precheckSenderCanPayFeeFull signed = (do
      let owned :=
        node.state.toContents.accounts[signed.tx.sender]?.elim 0 AccountState.balance
      node.freeTxGate signed.priorityTip owned
      match (executeWithContext node.admissionVm ⟨node.nextHeight, node.tipTimestamp, false, false,
          false, false, false⟩ signed.tx).run node.state with
      | .error _ _ => return ()
      | .ok (_, outcome) executed =>
        node.feeGate signed outcome.gasUsed owned
          (executed.toContents.accounts[signed.tx.sender]?.elim 0 AccountState.balance)) := by
  have prepared : (node.executor.prepareStateForHeight node.nextHeight node.admissionVm :
      Act Empty Vm).run node.state = .ok node.admissionVm node.state := by
    unfold BlockExecutor.prepareStateForHeight
    rw [if_neg ordinary]
    rfl
  unfold precheckSenderCanPayFeeFull
  rw [prepared]

/-- The fast path decides every transfer as the dry run does. -/
theorem precheckTransferFast_eq_full (node : AdmissionNode) (signed : SignedTransaction)
    (recipient : AccountId) (amount : ℕ)
    (isTransfer : signed.tx.payload = .transfer recipient amount)
    (ordinary : ¬node.executor.Redenominates node.nextHeight)
    (fits : node.state.toContents.supply < 2 ^ 128) (counted : signed.tx.nonce + 1 < 2 ^ 64) :
    node.precheckTransferFast signed recipient amount =
      node.precheckSenderCanPayFeeFull signed := by
  rw [precheckSenderCanPayFeeFull_eq signed ordinary, precheckTransferFast]
  congr 1
  funext _
  split
  next refused =>
    -- execution refuses what the record of the sender does not allow
    split
    next => rfl
    next executed outcome next ran =>
      obtain ⟨account, found, can⟩ := canTransfer_of_executed isTransfer counted ran
      rw [found] at refused
      rcases refused with otherNonce | short
      · exact absurd (congrArg some can.nonce) otherNonce
      · exact absurd short (Nat.not_lt.mpr can.enough)
  next possible =>
    obtain ⟨sameNonce, enough⟩ := not_or.mp possible
    obtain ⟨account, found, isNonce⟩ := Option.map_eq_some_iff.mp (not_not.mp sameNonce)
    rw [found] at enough ⊢
    have can : CanTransfer signed.tx account recipient amount :=
      ⟨isTransfer, isNonce, Nat.not_lt.mp enough, isNonce ▸ counted⟩
    obtain ⟨executed, ran, isExecuted⟩ := yields_executeWithContext found can node.admissionVm
      ⟨node.nextHeight, node.tipTimestamp, false, false, false, false, false⟩ node.state rfl
    have small : account.balance < 2 ^ 128 := by
      have owned := Contents.worth_le_supply found
      unfold AccountState.worth at owned
      omega
    rw [ran]
    dsimp only
    rw [isExecuted, balance_transferred _ _ can.enough small]
    rfl

end AdmissionNode

end Admission

section Funded

open Checksum

/-- A node whose first account holds one coin. -/
def fundedNode : AdmissionNode where
  executor := { vm := .new }
  freeTxMinBalance := 0
  state := { accounts := .insert ∅ 1 { AccountState.default with balance := 10 ^ 18 } }
  chainHeight := 0
  tipTimestamp := 0
  admissionVm := .new

theorem precheckTransferFast_eq_full_funded :
    fundedNode.precheckSenderCanPayFeeFull ⟨⟨0, 1, .transfer 2 5, ⟨[1, 2], [1, 2]⟩⟩, 0, 7⟩ =
      .ok () := by
  rw [← AdmissionNode.precheckTransferFast_eq_full fundedNode
    ⟨⟨0, 1, .transfer 2 5, ⟨[1, 2], [1, 2]⟩⟩, 0, 7⟩ 2 5 rfl (by decide) (by decide) (by decide)]
  decide

end Funded

end BoingNetwork
