import BoingNetwork.Execution.Failures
import BoingNetwork.Execution.Rent

/-!
# The supply of a block

The transactions of a block only move value, except for the rent of names: the supply after a
block is smaller by the rents of the transactions whose receipts report success.  This needs
the exclusion of fee receivers from parallel transfers, and a height at which the ledger is not
migrated.
-/

namespace BoingNetwork

open EStateM

section Supply

variable [Platform] {outcomes : List TxOutcome} {config : LedgerConfig} {env : BlockEnv} {vm : Vm}

def burnedRent (unit : ℕ) (tx : Transaction) (receipt : ExecutionReceipt) : ℕ :=
  if receipt.success then tx.payload.rent unit else 0

section Receipts

variable {index unit gas : ℕ} {tx : Transaction} {receipt : ExecutionReceipt}

theorem burnedRent_of_ok {result : VmExecutionResult}
    (built : env.receiptOf index tx (.ok result) gas = some receipt) :
    burnedRent unit tx receipt = tx.payload.rent unit := by
  cases built
  rfl

theorem burnedRent_of_error {text : String}
    (built : env.receiptOf index tx (.error text) gas = some receipt) :
    burnedRent unit tx receipt = 0 := by
  obtain ⟨_, _, rfl⟩ := Option.map_eq_some_iff.mp built
  rfl

end Receipts

section Steps

variable {before after : Contents}

theorem TxStep.supply {outcome : TxOutcome} (excluded : env.excludeFeeRecipient = true)
    (step : TxStep env config outcome before after) (fits : before.supply < SUPPLY_LIMIT) :
    ∃ tx, env.txs[outcome.index]? = some tx ∧ after.supply + burnedRent
      (env.vm.denominationAt env.context.blockHeight).unit tx outcome.receipt = before.supply := by
  obtain ⟨index, receipt, ending⟩ := outcome
  obtain ⟨tx, isTx, ended⟩ := step
  refine ⟨tx, isTx, ?_⟩
  cases ending with
  | applied rent =>
    obtain ⟨⟨middle, applied, ran, kept⟩, result, built⟩ := ended
    have charged := applied.applied.supply fits
    have paid := kept.supply (by omega)
    rw [burnedRent_of_ok built, paid, ← ran.isRent]
    exact charged
  | merged =>
    obtain ⟨merged, built⟩ := ended
    obtain ⟨recipient, amount, isTransfer⟩ := merged.isTransfer
    rw [burnedRent_of_ok built, merged.supply excluded fits, isTransfer,
      TransactionPayload.rent_eq_zero rfl, Nat.add_zero]
  | failed =>
    obtain ⟨rfl, text, built⟩ := ended
    rw [burnedRent_of_error built, (before.failed_failTx env.failedFee tx).supply fits,
      Nat.add_zero]

theorem supply_of_steps {burned : ℕ → ℕ} (excluded : env.excludeFeeRecipient = true)
    (isBurned : ∀ outcome ∈ outcomes, ∀ tx, env.txs[outcome.index]? = some tx →
      burned outcome.index = burnedRent (env.vm.denominationAt env.context.blockHeight).unit tx
        outcome.receipt) (steps : Run.Steps (TxStep env config) outcomes before after)
    (fits : before.supply < SUPPLY_LIMIT) :
    after.supply + ((outcomes.map TxOutcome.index).map burned).sum = before.supply := by
  induction outcomes generalizing before with
  | nil =>
    cases steps
    rfl
  | cons outcome outcomes ih =>
    obtain ⟨middle, step, rest⟩ := steps
    obtain ⟨tx, isTx, moved⟩ := step.supply excluded fits
    have later := ih
      (fun other member => isBurned other (List.mem_cons_of_mem _ member)) rest (by omega)
    rw [List.map_cons, List.map_cons, List.sum_cons, isBurned outcome List.mem_cons_self tx isTx]
    omega

end Steps

namespace BlockExecutor

variable {executor : BlockExecutor} {height timestamp : ℕ} {txs : List Transaction}
variable {feeRecipient : AccountId} {tips : List ℕ}

theorem IsBlockVm.denominationAt (machine : executor.IsBlockVm vm) :
    vm.denominationAt height = executor.vm.denominationAt height := by
  rcases machine with rfl | ⟨policy, rfl⟩ <;> rfl

def burnedRents (unit : ℕ) (txs : List Transaction) (receipts : List ExecutionReceipt) : ℕ :=
  ((txs.zip receipts).map fun entry => burnedRent unit entry.1 entry.2).sum

def burnedAt (unit : ℕ) (txs : List Transaction) (receipts : List ExecutionReceipt)
    (index : ℕ) : ℕ :=
  ((txs.zip receipts)[index]?.map fun entry => burnedRent unit entry.1 entry.2).getD 0

omit [Platform] in
theorem sum_burnedAt {receipts : List ExecutionReceipt} {unit : ℕ}
    (length : receipts.length = txs.length) :
    ((List.range txs.length).map (burnedAt unit txs receipts)).sum =
      burnedRents unit txs receipts := by
  congr 1
  apply List.ext_getElem
  · rw [List.length_map, List.length_map, List.length_range, List.length_zip, length, Nat.min_self]
  · intro index _ inRange
    rw [List.length_map] at inRange
    rw [List.getElem_map, List.getElem_map, List.getElem_range, burnedAt,
      List.getElem?_eq_getElem inRange]
    rfl

theorem BlockLaw.supply {result : ℕ × List ExecutionReceipt} {before after quieted : Contents}
    (law : executor.BlockLaw height timestamp txs feeRecipient tips config result before after vm
      outcomes quieted) (active : executor.securityV4Active height)
    (stays : ¬executor.Redenominates height) (fits : before.supply < SUPPLY_LIMIT) :
    after.supply + burnedRents (executor.vm.denominationAt height).unit txs result.2 =
      before.supply := by
  have order : (outcomes.map TxOutcome.index).Perm (List.range txs.length) :=
    law.order ▸ TransactionScheduler.schedule_partition txs
  obtain ⟨receipts, collected, length, isReceipt⟩ := BlockProgress.collect_recordAll order
  cases Option.some.inj (law.receipts.symm.trans collected)
  have isBurned : ∀ outcome ∈ outcomes, ∀ tx, txs[outcome.index]? = some tx →
      burnedAt (executor.vm.denominationAt height).unit txs result.2 outcome.index =
        burnedRent (vm.denominationAt height).unit tx outcome.receipt := by
    intro outcome member tx isTx
    have entry : (txs.zip result.2)[outcome.index]? = some (tx, outcome.receipt) :=
      List.getElem?_zip_eq_some.mpr ⟨isTx, isReceipt outcome member⟩
    rw [burnedAt, entry, law.machine.denominationAt]
    rfl
  have quiet := law.kept.supply fits
  have steps := law.steps
  rw [preparedContents, if_neg stays] at steps
  have moved := supply_of_steps active isBurned steps (by omega)
  rw [← sum_burnedAt length, ← (order.map _).sum_eq, moved, quiet]

/-- A block before its reward: the supply falls by the rents of the names. -/
theorem executeBlock_supply {store after : StateStore} {result : ℕ × List ExecutionReceipt}
    (ran : (executor.executeBlockWithTips height timestamp txs feeRecipient tips).run store =
      .ok result after)
    (journaled : store.IsJournaled) (active : executor.securityV4Active height)
    (stays : ¬executor.Redenominates height) (fits : store.toContents.supply < SUPPLY_LIMIT) :
    after.toContents.supply +
        burnedRents (executor.vm.denominationAt height).unit txs result.2 =
      store.toContents.supply := by
  obtain ⟨vm, outcomes, quieted, law⟩ := (Command.done_of_run _ ran journaled).law
  exact law.supply active stays fits

end BlockExecutor

end Supply

/-! ## Blocks that show the rents and the conditions -/

section Blocks

open Checksum

def supplyFigures
    (result : Result (Fault ExecutionError) StateStore (ℕ × List ExecutionReceipt)) :
    Option (List Bool × ℕ) :=
  match result with
  | .ok (_, receipts) after => some (receipts.map (·.success), after.toContents.supply)
  | .error _ _ => none

/-- Accounts that hold one BOING each. -/
def holders (ids : List AccountId) : Std.ExtTreeMap AccountId AccountState :=
  ids.foldl (fun accounts id =>
    accounts.insert id { AccountState.default with balance := 10 ^ 18 }) ∅

def committedStore : StateStore :=
  { accounts := .insert ∅ 1 { AccountState.default with balance := 10 ^ 19 }
    nameRegistryParams := some {}
    names := { commits := .insert ∅ (nameCommitment "alice" 1 7) ⟨1, 0⟩ } }

def namingTxs : List Transaction :=
  [⟨0, 1, .nameRegister "alice" 7 1 1, ⟨[], []⟩⟩, ⟨0, 1, .nameRegister "alice" 7 1 1, ⟨[], []⟩⟩]

theorem registration_burns_rent : ∃ result after,
    (BlockExecutor.executeBlockWithTips { vm := Vm.new } 1 5 namingTxs 9 []).run
        committedStore.snapshot = .ok result after ∧
      after.toContents.supply + BlockExecutor.burnedRents (10 ^ 18) namingTxs result.2 =
        10 ^ 19 := by
  have succeeds : (BlockExecutor.executeBlockWithTips { vm := Vm.new } 1 5 namingTxs 9
      []).run.Succeeds committedStore.snapshot := by
    decide +kernel
  obtain ⟨result, after, ran⟩ := succeeds
  exact ⟨result, after, ran, BlockExecutor.executeBlock_supply ran
    committedStore.isJournaled_snapshot rfl (by decide) (by decide +kernel)⟩

/-- A block that migrates the ledger, and one before the v4 rules in which the merge of the
second transfer overwrites the fee of the first. -/
theorem supply_changes :
    let migrating : BlockExecutor :=
      BlockExecutor.setExecutionHistory { vm := Vm.new } (some { baseUnitsFrom := 1 })
    let legacy : BlockExecutor :=
      BlockExecutor.setExecutionHistory { vm := Vm.new } (some { securityV4From := 2 })
    let store : StateStore := { accounts := holders [1, 2] }
    let txs : List Transaction :=
      [⟨0, 1, .transfer 3 100, ⟨[1, 3], [1, 3]⟩⟩,
        ⟨0, 2, .transfer PROTOCOL_TREASURY 100, ⟨[2, PROTOCOL_TREASURY], [2, PROTOCOL_TREASURY]⟩⟩]
    store.toContents.supply = 2 * 10 ^ 18 ∧
      supplyFigures ((migrating.executeBlockWithTips 1 5 [] 9 []).run store.snapshot) =
        some ([], 2 * 10 ^ 36) ∧
      supplyFigures ((legacy.executeBlockWithTips 1 5 txs 9 []).run store.snapshot) =
        some ([true, true], 2 * 10 ^ 18 - 21 * 10 ^ 15) := by
  decide +kernel

end Blocks

end BoingNetwork
