import BoingNetwork.Execution.Block

/-!
# Parallel execution is sequential execution

From the v4 rules on, no account that a parallel batch declares receives a fee, so a merge
meets every account as its snapshot has it, and is the transfer itself.  The parallel path
therefore has the outcome of the sequential path, and an attempt that fails leaves the
store as it found it.
-/

namespace BoingNetwork

open EStateM

section Equivalence

variable [Platform]

variable {env : BlockEnv} {contents after : Contents} {index : ℕ} {tx : Transaction}
variable {account : AccountState} {recipient : AccountId} {amount : ℕ} {progress : BlockProgress}
  {batch : List ℕ} {views : List (ℕ × ExecutionView)} {built : ExecutionReceipt}

/-! ## Transfers on the sequential path -/

theorem executeTx_run (isTx : env.txs[index]? = some tx) (progress : BlockProgress) :
    (executeTx env index progress).run =
      BlockCommand.atomicallyRun (executePaid env index tx).run >>= fun result =>
        (concludeTx env index tx progress result).run := by
  unfold executeTx
  split
  next absent =>
    rw [isTx] at absent
    cases absent
  next other isOther =>
    cases isTx.symm.trans isOther
    rfl

theorem yields_recordReceipt {receipt : Option ExecutionReceipt} (isBuilt : receipt = some built) :
    Yields (recordReceipt progress index receipt).run contents (progress.record index built)
      contents := by
  cases isBuilt
  exact Yields.pure

section Transfers

variable (found : contents.accounts[tx.sender]? = some account)
  (can : CanTransfer tx account recipient amount)

include can

omit [Platform] in
theorem chargedRecord_debitSender {Value : Type} (value : Value) :
    chargedRecord (.error .nonceOverflow) (debitSender amount value) account =
      .ok (amount, value) (account.spend amount) := by
  have debited : debitSender amount value account =
      .ok (amount, value) { account with balance := account.balance - amount } := by
    change (if account.balance < amount then _ else _ : EStateM _ _ _) account = _
    rw [if_neg (Nat.not_lt.mpr can.enough)]
    rfl
  have bumped : bumpNonce (Fault.error VmError.nonceOverflow)
      { account with balance := account.balance - amount } = .ok ⟨⟩ (account.spend amount) := by
    rw [bumpNonce, EStateM.get_bind]
    rw [MachineInt.checkedAdd_eq_some.mpr ⟨rfl, can.fits⟩]
    rfl
  exact bind_eq_ok.mpr ⟨_, _, debited, bind_eq_ok.mpr ⟨_, _, bumped, rfl⟩⟩

include found

theorem yields_executeTransfer :
    Yields (executeTransfer recipient amount : Handler tx.sender).run contents
      (0, gasOnly GAS_PER_TRANSFER) (contents.transferred tx.sender account recipient amount) :=
  (Yields.withAccount found (chargedRecord_debitSender can _)).bind
    (Yields.place.bind Yields.pure)

theorem yields_executeWithContext (vm : Vm) (context : VmExecutionContext) :
    Yields (executeWithContext vm context tx).run contents (0, gasOnly GAS_PER_TRANSFER)
      (contents.transferred tx.sender account recipient amount) := by
  obtain ⟨nonce, sender, payload, accessList⟩ := tx
  obtain ⟨rfl, isNonce, enough, fits⟩ := can
  rintro store rfl
  rw [executeWithContext_run found isNonce]
  exact yields_executeTransfer found ⟨rfl, isNonce, enough, fits⟩ store rfl

variable (paid : (contents.transferred tx.sender account recipient amount).payFees env index tx
  GAS_PER_TRANSFER = some after)

include paid

theorem yields_executePaid :
    Yields (executePaid env index tx).run contents (0, gasOnly GAS_PER_TRANSFER) after := by
  apply (yields_executeWithContext found can env.vm env.context).adaptExcept.bind
  have fees : Yields ((Command.run (chargeFees env index tx GAS_PER_TRANSFER) >>= fun _ =>
      pure (gasOnly GAS_PER_TRANSFER)) >>= fun result => pure (0, result))
        (contents.transferred tx.sender account recipient amount) (0, gasOnly GAS_PER_TRANSFER)
        after :=
    ((yields_chargeFees paid).map fun _ => gasOnly GAS_PER_TRANSFER).map fun result => (0, result)
  exact fees

theorem yields_executeTx (isTx : env.txs[index]? = some tx)
    (isBuilt : env.receiptOf index tx (.ok (gasOnly GAS_PER_TRANSFER)) GAS_PER_TRANSFER =
      some built) (progress : BlockProgress) :
    Yields (executeTx env index progress).run contents (progress.record index built) after := by
  rw [executeTx_run isTx]
  exact (yields_executePaid found can paid).atomically.bind (yields_recordReceipt isBuilt)

end Transfers

/-! ## Merges -/

theorem leads_mergeViews_sequential {taken now : Contents} (ready : MergesReady env taken now views)
    (isExact : env.excludeFeeRecipient = true) (progress : BlockProgress) :
    Leads (mergeViews env views progress) now fun next after => ∃ outcomes : List TxOutcome,
      next = progress.recordAll outcomes ∧ (views ≠ [] → outcomes ≠ []) ∧
        ∀ other : BlockProgress, Yields (executeSequentially env (views.map Prod.fst) other).run now
          (other.recordAll outcomes) after := by
  induction views generalizing now progress with
  | nil => exact .pure ⟨[], rfl, fun notEmpty => (notEmpty rfl).elim, fun other => Yields.pure⟩
  | cons entry views ih =>
    obtain ⟨index, view⟩ := entry
    rw [mergeViews]
    split
    next => exact .fail
    next tx found =>
      refine .bind ((yields_mergeInto view.toList now).leads.mono ?_)
      rintro _ _ ⟨-, rfl⟩
      refine .bind (.mapError (Leads.forget (leads_chargeFees.mono fun _ middle paid => ?_)))
      split
      next => exact .fail
      next receipt built =>
        apply (ih (ready.next found paid) (progress.record index receipt)).mono
        rintro next finish ⟨outcomes, rfl, -, yields⟩
        obtain ⟨_, isTx, readyTx, -⟩ := ready.each (index, view) List.mem_cons_self
        cases found.symm.trans isTx
        rw [isExact] at readyTx
        obtain ⟨account, recipient, amount, hasAccount, can, isMerge⟩ :=
          readyTx.merge_eq_transferred
        refine ⟨⟨index, receipt, .merged⟩ :: outcomes, rfl, fun _ => List.cons_ne_nil _ _,
          fun other => ?_⟩
        have paidTransfer := paid
        rw [show List.foldl _ now view.toList = now.merge view from rfl, isMerge] at paidTransfer
        exact (yields_executeTx hasAccount can paidTransfer found built other).bind (yields _)

theorem leads_parallelAttempt_sequential (uses : usesParallel env batch = true)
    (isExact : env.excludeFeeRecipient = true) (progress : BlockProgress) (before : Contents) :
    Leads (parallelAttempt env batch progress) before fun next after =>
      Yields (executeSequentially env batch progress).run before next after := by
  refine .bind (.look fun _ => ?_)
  simp only [executeSnapshots_settled]
  split
  next => exact .fail
  next views ran =>
    obtain ⟨isBatch, -⟩ := executeSnapshots_eq_some ran
    have notEmpty : views ≠ [] := by
      rintro rfl
      rw [← isBatch] at uses
      cases uses
    split
    next =>
      have ready := mergesReady_of_usesParallel uses ran
      refine .bind ((leads_mergeViews_sequential ready isExact
        { progress with totalGas := 0 }).mono fun merged after law => .pure ?_)
      obtain ⟨outcomes, rfl, some, yields⟩ := law
      have yields := yields progress
      rw [isBatch, ← progress.recordAll_apart (some notEmpty)] at yields
      exact yields
    next => exact .fail

/-! ## No panic of the attempt -/

theorem calm_mergeViews (inRange : ∀ entry ∈ views, ∃ tx, env.txs[entry.1]? = some tx)
    (progress : BlockProgress) (store : StateStore) :
    (mergeViews env views progress).run.Calm store := by
  induction views generalizing progress store with
  | nil => exact calm_pure
  | cons entry views ih =>
    obtain ⟨index, view⟩ := entry
    obtain ⟨tx, isTx⟩ := inRange (index, view) List.mem_cons_self
    have rest : ∀ progress store, (mergeViews env views progress).run.Calm store :=
      ih fun other member => inRange other (List.mem_cons_of_mem _ member)
    have merges : ∀ entries : List (AccountId × AccountState), ∀ store : StateStore,
        (mergeInto entries : Act (Fault PUnit) PUnit).run.Calm store := by
      intro entries store after ran
      obtain ⟨next, alsoRan, -⟩ := yields_mergeInto entries store.toContents store rfl
      cases ran.symm.trans alsoRan
    have built : ∃ receipt, env.receiptOf index tx (.ok (gasOnly GAS_PER_TRANSFER))
        GAS_PER_TRANSFER = some receipt := ⟨_, rfl⟩
    obtain ⟨receipt, isBuilt⟩ := built
    simp only [mergeViews, isTx, isBuilt]
    refine Within.bind_calm.mpr ⟨merges view.toList store, fun _ middle _ => ?_⟩
    refine Within.bind_calm.mpr ⟨calm_adaptExcept_of_ne (by simp), fun _ paid _ => ?_⟩
    exact rest (progress.record index receipt) paid

theorem calm_parallelAttempt (batch : List ℕ) (progress : BlockProgress) (store : StateStore) :
    (parallelAttempt env batch progress).run.Calm store := by
  rw [parallelAttempt, WriteModel.look_bind_calm]
  split
  next => exact Within.fail_calm
  next views ran =>
    split
    next =>
      refine Within.bind_calm.mpr ⟨calm_mergeViews ?_ _ _, fun _ _ _ => Within.pure_calm⟩
      intro entry member
      obtain ⟨tx, isTx, -⟩ := (executeSnapshots_eq_some ran).2 entry member
      exact ⟨tx, isTx⟩
    next => exact Within.fail_calm

/-! ## The two paths -/

theorem executeSequentially_alike {left right : StateStore} (same : ledgerModel.exactly left right)
    (leftJournaled : left.IsJournaled) (rightJournaled : right.IsJournaled) :
    Alike (fun left right => left.toContents = right.toContents)
      ((executeSequentially env batch progress).run left)
      ((executeSequentially env batch progress).run right) :=
  ((executeSequentially env batch progress).respects .exact left right
    ⟨same, leftJournaled, rightJournaled⟩).mono fun _ _ related => related.1.1

/-- What the parallel path does after its attempt. -/
theorem executeInParallel_run (uses : usesParallel env batch = true) :
    (executeInParallel env batch progress uses).run =
      BlockCommand.atomicallyRun (parallelAttempt env batch progress).run >>= fun result =>
        (concludeAttempt env batch progress result).run := rfl

theorem exactly_of_failedAttempt {store reverted : StateStore} {reason : PUnit}
    (journaled : store.IsJournaled)
    (failed : (BlockCommand.atomicallyRun (parallelAttempt env batch progress).run :
        EStateM (Fault ExecutionError) _ _) store = .ok (.error reason) reverted) :
    ledgerModel.exactly reverted store ∧ reverted.IsJournaled := by
  have written := blockConduct_of_writes
    ((parallelAttempt env batch progress).always_state store.checkpoint.2)
  unfold BlockCommand.atomicallyRun at failed
  split at failed
  next => cases failed
  next reason after ran =>
    cases failed
    rw [ran] at written
    exact ⟨exactly_revert written journaled, written.1.revert.isJournaled journaled⟩
  next => cases failed

theorem sequential_of_attempt {next : BlockProgress} {store merged : StateStore}
    (uses : usesParallel env batch = true) (isExact : env.excludeFeeRecipient = true)
    (ran : (BlockCommand.atomicallyRun (parallelAttempt env batch progress).run :
        EStateM (Fault ExecutionError) _ _) store = .ok (.ok next) merged) :
    ∃ final, (executeSequentially env batch progress).run store = .ok next final ∧
      merged.toContents = final.toContents := by
  unfold BlockCommand.atomicallyRun at ran
  split at ran
  next value after attempted =>
    cases ran
    have yields := ends_of_ok (leads_parallelAttempt_sequential uses isExact progress
      store.toContents store.checkpoint.2 store.checkpoint_toContents) attempted
    obtain ⟨final, alsoRan, same⟩ := yields store rfl
    exact ⟨final, alsoRan, same.symm⟩
  next => cases ran
  next => cases ran

/-- From the v4 rules on, the batches of a block have the outcome of the sequential path,
with the same receipts, gas and contents, and a failed attempt leaves nothing behind. -/
theorem parallel_equals_sequential (executor : BlockExecutor) (height timestamp : ℕ) (vm : Vm)
    (txs : List Transaction) (feeRecipient : AccountId) (tips : List ℕ)
    (v4 : executor.securityV4Active height = true) (batch : List ℕ) (progress : BlockProgress)
    (store : StateStore) (journaled : store.IsJournaled) :
    let env := executor.blockEnv height timestamp vm txs feeRecipient tips
    Alike (fun left right => left.toContents = right.toContents)
      ((executeScheduled env batch progress).run store)
      ((executeSequentially env batch progress).run store) ∧
    ∀ reason reverted, usesParallel env batch = true →
      (BlockCommand.atomicallyRun (parallelAttempt env batch progress).run :
        EStateM (Fault ExecutionError) _ _) store = .ok (.error reason) reverted →
      (reverted.toContents = store.toContents ∧ reverted.config = store.config) ∧
        (executeScheduled env batch progress).run store =
          (executeSequentially env batch progress).run reverted := by
  intro env
  have retries : ∀ reason reverted, usesParallel env batch = true →
      (BlockCommand.atomicallyRun (parallelAttempt env batch progress).run :
        EStateM (Fault ExecutionError) _ _) store = .ok (.error reason) reverted →
      (executeScheduled env batch progress).run store =
        (executeSequentially env batch progress).run reverted := by
    intro reason reverted uses failed
    rw [executeScheduled, dif_pos uses, executeInParallel_run uses]
    change EStateM.bind _ _ store = _
    rw [EStateM.bind, failed]
    rfl
  constructor
  · by_cases uses : usesParallel env batch = true
    · cases ran : (BlockCommand.atomicallyRun (parallelAttempt env batch progress).run :
          EStateM (Fault ExecutionError) _ _) store with
      | ok result reverted =>
        cases result with
        | error reason =>
          obtain ⟨same, isJournaled⟩ := exactly_of_failedAttempt journaled ran
          rw [retries reason reverted uses ran]
          exact executeSequentially_alike same isJournaled journaled
        | ok next =>
          obtain ⟨final, alsoRan, same⟩ := sequential_of_attempt uses v4 ran
          have merges : (executeScheduled env batch progress).run store = .ok next reverted := by
            rw [executeScheduled, dif_pos uses, executeInParallel_run uses]
            exact bind_eq_ok.mpr ⟨_, _, ran, rfl⟩
          rw [merges, alsoRan]
          exact ⟨rfl, same⟩
      | error fault after =>
        have calm : (parallelAttempt env batch progress).run.Calm store.checkpoint.2 :=
          calm_parallelAttempt batch progress _
        unfold BlockCommand.atomicallyRun at ran
        split at ran
        next => cases ran
        next => cases ran
        next panicked => exact absurd panicked (calm _)
    · rw [executeScheduled, dif_neg uses]
      exact executeSequentially_alike ⟨rfl, rfl⟩ journaled journaled
  · intro reason reverted uses failed
    exact ⟨(exactly_of_failedAttempt journaled failed).1, retries reason reverted uses failed⟩

end Equivalence

section TwoTransfers

open Checksum

/-- Two transfers with declared accounts that are apart. -/
def twoTransfers : List Transaction :=
  [⟨0, 1, .transfer 2 5, ⟨[1, 2], [1, 2]⟩⟩, ⟨0, 3, .transfer 4 7, ⟨[3, 4], [3, 4]⟩⟩]

def twoSenders : StateStore :=
  let funded := { AccountState.default with balance := 10 ^ 18 }
  { accounts := .insert (.insert ∅ 1 funded) 3 funded }

theorem parallel_equals_sequential_twoTransfers :
    let executor : BlockExecutor := { vm := .new }
    let env := executor.blockEnv 1 0 .new twoTransfers 9 []
    usesParallel env [0, 1] = true ∧
    Alike (fun left right => left.toContents = right.toContents)
      ((executeScheduled env [0, 1] (.start 2)).run twoSenders.snapshot)
      ((executeSequentially env [0, 1] (.start 2)).run twoSenders.snapshot) :=
  ⟨by decide, (parallel_equals_sequential { vm := .new } 1 0 .new twoTransfers 9 [] rfl [0, 1]
    (.start 2) twoSenders.snapshot (StateStore.isJournaled_snapshot _)).1⟩

end TwoTransfers

end BoingNetwork
