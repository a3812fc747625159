import BoingNetwork.Execution.Parallel

/-!
# Execution of a block

`execute_block_with_tips`: the committed quality policy and overdue reviews first, then the
migration of the ledger to base units at its height, and then the batches of the schedule.
The law of a block lists its transactions in the order in which they were executed.
-/

namespace BoingNetwork

/-- Every native amount multiplied by a factor. -/
def Contents.redenominated (contents : Contents) (factor : ℕ) : Contents :=
  StoreWrite.effect contents (.redenominate factor)

/-- The receipts of all indices; `none` if one is missing. -/
def BlockProgress.collect (progress : BlockProgress) : Option (List ExecutionReceipt) :=
  progress.receipts.mapM id

variable {outcomes : List TxOutcome} {receipts : List (Option ExecutionReceipt)}

namespace BlockProgress

theorem collect_eq_some {progress : BlockProgress} {receipts : List ExecutionReceipt}
    (built : progress.receipts = receipts.map some) : progress.collect = some receipts := by
  rw [collect, built]
  clear built
  induction receipts with
  | nil => rfl
  | cons receipt receipts ih => rw [List.map_cons, List.mapM_cons, ih]; rfl

theorem exists_map_some (present : ∀ receipt ∈ receipts, receipt.isSome) :
    ∃ built : List ExecutionReceipt, receipts = built.map some := by
  induction receipts with
  | nil => exact ⟨[], rfl⟩
  | cons receipt receipts ih =>
    obtain ⟨first, rfl⟩ := Option.isSome_iff_exists.mp (present receipt List.mem_cons_self)
    obtain ⟨built, rfl⟩ := ih fun other member =>
      present other (List.mem_cons_of_mem _ member)
    exact ⟨first :: built, rfl⟩

theorem length_foldl_set (outcomes : List TxOutcome) (receipts : List (Option ExecutionReceipt)) :
    (outcomes.foldl (fun receipts outcome => receipts.set outcome.index (some outcome.receipt))
      receipts).length = receipts.length := by
  induction outcomes generalizing receipts with
  | nil => rfl
  | cons outcome outcomes ih =>
    rw [List.foldl_cons, ih, List.length_set]

theorem getElem?_foldl_set_of_notMem {index : ℕ} (apart : index ∉ outcomes.map TxOutcome.index)
    (receipts : List (Option ExecutionReceipt)) :
    (outcomes.foldl (fun receipts outcome => receipts.set outcome.index (some outcome.receipt))
      receipts)[index]? = receipts[index]? := by
  induction outcomes generalizing receipts with
  | nil => rfl
  | cons outcome outcomes ih =>
    obtain ⟨differs, others⟩ := not_or.mp (mt List.mem_cons.mpr apart)
    rw [List.foldl_cons, ih others, List.getElem?_set_ne (Ne.symm differs)]

theorem getElem?_foldl_set {outcome : TxOutcome} (distinct : (outcomes.map TxOutcome.index).Nodup)
    (member : outcome ∈ outcomes) (inRange : outcome.index < receipts.length) :
    (outcomes.foldl (fun receipts outcome => receipts.set outcome.index (some outcome.receipt))
      receipts)[outcome.index]? = some (some outcome.receipt) := by
  induction outcomes generalizing receipts with
  | nil => cases member
  | cons first outcomes ih =>
    obtain ⟨apart, restDistinct⟩ := List.nodup_cons.mp distinct
    rw [List.foldl_cons]
    rcases List.mem_cons.mp member with rfl | inRest
    · rw [getElem?_foldl_set_of_notMem apart, List.getElem?_set_self inRange]
    · exact ih restDistinct inRest (by rwa [List.length_set])

theorem collect_recordAll {count : ℕ}
    (order : (outcomes.map TxOutcome.index).Perm (List.range count)) :
    ∃ receipts, ((start count).recordAll outcomes).collect = some receipts ∧
      receipts.length = count ∧
      ∀ outcome ∈ outcomes, receipts[outcome.index]? = some outcome.receipt := by
  have distinct := order.nodup_iff.mpr List.nodup_range
  have inRange : ∀ outcome ∈ outcomes,
      outcome.index < (List.replicate count (none : Option ExecutionReceipt)).length := by
    intro outcome member
    rw [List.length_replicate]
    exact List.mem_range.mp (order.mem_iff.mp (List.mem_map_of_mem member))
  have recorded : ∀ outcome ∈ outcomes,
      ((start count).recordAll outcomes).receipts[outcome.index]? =
        some (some outcome.receipt) := by
    intro outcome member
    rw [recordAll_eq]
    exact getElem?_foldl_set distinct member (inRange outcome member)
  have length : ((start count).recordAll outcomes).receipts.length = count := by
    rw [recordAll_eq, start, length_foldl_set, List.length_replicate]
  have present : ∀ receipt ∈ ((start count).recordAll outcomes).receipts, receipt.isSome := by
    intro receipt member
    obtain ⟨index, bound, rfl⟩ := List.mem_iff_getElem.mp member
    obtain ⟨outcome, isOutcome, rfl⟩ := List.mem_map.mp
      (order.mem_iff.mpr (List.mem_range.mpr (length ▸ bound)))
    have found := recorded outcome isOutcome
    rw [List.getElem?_eq_getElem bound, Option.some.injEq] at found
    rw [found]
    rfl
  obtain ⟨receipts, isReceipts⟩ := exists_map_some present
  refine ⟨receipts, collect_eq_some isReceipts, ?_, fun outcome member => ?_⟩
  · rw [← length, isReceipts, List.length_map]
  · have found := recorded outcome member
    rw [isReceipts, List.getElem?_map] at found
    simpa using found

end BlockProgress

section Block

variable [Platform]

namespace BlockExecutor

variable (executor : BlockExecutor) (height timestamp : ℕ)

/-- The context of a block; the virtual machine decides on the hash opcode itself. -/
def blockContext : VmExecutionContext where
  blockHeight := height
  blockTimestamp := timestamp
  nativeValue := executor.vm.nativeValueActive height
  vmHardening := executor.vm.vmHardeningActive height
  blake3Opcode := false
  jumpStrict := executor.vm.vmJumpStrictActive height
  qaCanonical := executor.vm.qaCanonicalActive height

/-- The environment of a block that is executed with this virtual machine. -/
def blockEnv (vm : Vm) (txs : List Transaction) (feeRecipient : AccountId) (tips : List ℕ) :
    BlockEnv where
  vm := vm
  txs := txs
  tips := tips
  feeRecipient := feeRecipient
  context := executor.blockContext height timestamp
  feePolicy := (executor.feeRuleAt height).1
  feeRemainder := (executor.feeRuleAt height).2
  denomination := executor.denominationAt height
  failedFee := if executor.failedTxFeeActive height then
      some {
        policy := (executor.feeRuleAt height).1
        remainder := (executor.feeRuleAt height).2
        recipient := feeRecipient
        denomination := executor.denominationAt height }
    else none
  excludeFeeRecipient := executor.securityV4Active height

/-- Due governance, the virtual machine with the committed policy, and overdue reviews. -/
def prepareQa : Quiet VmFault Vm :=
  if executor.vm.qaCanonicalActive height then do
    if executor.vm.governanceConsensusActive height then
      let _ ← applyDueQaGovernance timestamp
    let vm := executor.vm.withCanonicalQa (← ledgerModel.look).contents.qaPolicy
    let _ ← expireQaPending vm height
    return vm
  else do
    let _ ← expireQaPending executor.vm height
    return executor.vm

/-- The virtual machine of a block differs from the configured one in the quality policy only. -/
def IsBlockVm (vm : Vm) : Prop :=
  vm = executor.vm ∨ ∃ policy, vm = executor.vm.withCanonicalQa policy

theorem returns_prepareQa :
    (Command.run (executor.prepareQa height timestamp)).Returns executor.IsBlockVm := by
  unfold prepareQa
  split
  next =>
    split
    next => exact .andThen fun _ => .andThen fun _ => .andThen fun _ => .pure (.inr ⟨_, rfl⟩)
    next => exact .andThen fun _ => .andThen fun _ => .pure (.inr ⟨_, rfl⟩)
  next => exact .andThen fun _ => .pure (.inl rfl)

/-- The ledger is migrated at this height. -/
def Redenominates : Prop := executor.redenominationHeight = some height

instance : Decidable (executor.Redenominates height) :=
  inferInstanceAs (Decidable (_ = _))

theorem uniform_redenominate (factor : ℕ) : ledgerModel.Uniform (.redenominate factor) :=
  ledgerModel_uniform fun contents => by
    have appeals := RegistryId.slashAppeals.settled_settled contents.slashAppeals
    simp only [StoreWrite.effect, Contents.settled] at appeals ⊢
    rw [appeals]
    rfl

/-- `prepare_state_for_height`; passes the virtual machine of the block on. -/
def prepareStateForHeight {Error : Type} (vm : Vm) : Act Error Vm := do
  if executor.Redenominates height then
    Act.writeEntry (.redenominate BASE_UNITS_PER_BOING) (uniform_redenominate _)
  return vm

def preparedContents (contents : Contents) : Contents :=
  if executor.Redenominates height then contents.redenominated BASE_UNITS_PER_BOING else contents

theorem leads_prepareStateForHeight {Error : Type} {vm : Vm} {before : Contents} :
    Leads (executor.prepareStateForHeight height vm : Act Error Vm) before fun result after =>
      result = vm ∧ after = executor.preparedContents height before := by
  unfold prepareStateForHeight preparedContents
  split
  next => exact .bind (.writeEntry (.pure ⟨rfl, rfl⟩))
  next => exact .pure ⟨rfl, rfl⟩

structure BlockLaw (executor : BlockExecutor) (height timestamp : ℕ) (txs : List Transaction)
    (feeRecipient : AccountId) (tips : List ℕ) (config : LedgerConfig)
    (result : ℕ × List ExecutionReceipt) (before after : Contents) (vm : Vm)
    (outcomes : List TxOutcome) (quieted : Contents) : Prop where
  machine : executor.IsBlockVm vm
  kept : before.Kept quieted
  order : outcomes.map TxOutcome.index = (TransactionScheduler.schedule txs).flatten
  steps : Run.Steps (TxStep (executor.blockEnv height timestamp vm txs feeRecipient tips) config)
    outcomes (executor.preparedContents height quieted) after
  gas : result.1 = ((BlockProgress.start txs.length).recordAll outcomes).totalGas
  receipts : ((BlockProgress.start txs.length).recordAll outcomes).collect = some result.2

/-- The law of a block without its intermediate states. -/
def Executes (txs : List Transaction) (feeRecipient : AccountId) (tips : List ℕ)
    (config : LedgerConfig) (result : ℕ × List ExecutionReceipt) (before after : Contents) : Prop :=
  ∃ vm outcomes quieted, executor.BlockLaw height timestamp txs feeRecipient tips config result
    before after vm outcomes quieted

/-- Errors of the preparation; it has none but panics. -/
def vmFault : VmFault → Fault ExecutionError
  | .error reason => .error (.vm reason)
  | .panic => .panic

def prepare : BlockCommand (Fault ExecutionError) Vm fun _ vm before after =>
    executor.IsBlockVm vm ∧
      ∃ quieted, before.Kept quieted ∧ after = executor.preparedContents height quieted :=
  have quieted : BlockCommand (Fault ExecutionError) Vm fun _ vm before after =>
      executor.IsBlockVm vm ∧ before.Kept after :=
    .lift (Command.mapError vmFault (Command.recalling (executor.prepareQa height timestamp)))
      fun ran => ⟨(executor.returns_prepareQa height timestamp).known ran.2, ran.1⟩
  have migrated (vm : Vm) : BlockCommand (Fault ExecutionError) Vm fun _ result before after =>
      result = vm ∧ after = executor.preparedContents height before :=
    .lift (Command.strengthen (executor.prepareStateForHeight height vm) fun store =>
      executor.leads_prepareStateForHeight height store rfl) id
  quieted.andThen migrated fun first second => ⟨second.1 ▸ first.1, _, first.2, second.2⟩

def finishWith (progress : BlockProgress) : (collected : Option (List ExecutionReceipt)) →
    progress.collect = collected →
    BlockCommand (Fault ExecutionError) (ℕ × List ExecutionReceipt) fun _ result before after =>
      after = before ∧ result.1 = progress.totalGas ∧ progress.collect = some result.2
  | none, _ => .refuse .panic
  | some receipts, found => .pure (progress.totalGas, receipts) fun _ _ => ⟨rfl, rfl, found⟩

def finishBlock (progress : BlockProgress) :
    BlockCommand (Fault ExecutionError) (ℕ × List ExecutionReceipt) fun _ result before after =>
      after = before ∧ result.1 = progress.totalGas ∧ progress.collect = some result.2 :=
  finishWith progress progress.collect rfl

def TipsFit (txs : List Transaction) (tips : List ℕ) : Prop :=
  tips = [] ∨ tips.length = txs.length

instance (txs : List Transaction) (tips : List ℕ) : Decidable (TipsFit txs tips) :=
  inferInstanceAs (Decidable (_ ∨ _))

def executeBlockWithTips (txs : List Transaction) (feeRecipient : AccountId) (tips : List ℕ) :
    BlockCommand (Fault ExecutionError) (ℕ × List ExecutionReceipt)
      (executor.Executes height timestamp txs feeRecipient tips) :=
  if TipsFit txs tips then
    (executor.prepare height timestamp).andThen
      (fun vm => (executeBatches (executor.blockEnv height timestamp vm txs feeRecipient tips)
          (TransactionScheduler.schedule txs) (.start txs.length)).andThen
        finishBlock
        fun {config progress result start middle finish} batches finished =>
          show ∃ next, BatchLaw _ _ _ config next start finish ∧ result.1 = next.totalGas ∧
            next.collect = some result.2 from
          ⟨progress, finished.1 ▸ batches, finished.2⟩)
      fun {config vm result start middle finish} prepared executed => by
        obtain ⟨machine, quieted, kept, rfl⟩ := prepared
        obtain ⟨_, ⟨outcomes, order, rfl, steps⟩, gas, receipts⟩ := executed
        exact ⟨vm, outcomes, quieted, machine, kept, order, steps, gas, receipts⟩
  else .refuse (.error (.conflictDetected
    s!"priority_tips length {tips.length} != txs length {txs.length}"))

end BlockExecutor

end Block

end BoingNetwork
