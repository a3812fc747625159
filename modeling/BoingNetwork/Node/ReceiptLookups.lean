import BoingNetwork.Node.ChainRuns
import BoingNetwork.Node.Persistence

/-!
# Receipts that a node looks up

A node keeps the receipts of the last blocks by the id of the transaction, and loads them
again from one file per height.  A block may repeat a transaction of an earlier one: the
repetition fails, but it has the same id, and its receipt takes the place of the earlier one.
-/

namespace BoingNetwork

open EStateM

/-! ## Receipts by their transactions -/

def PRUNE_INTERVAL : ℕ := 256

def insertReceipts (receipts : Std.ExtTreeMap Hash ExecutionReceipt)
    (list : List ExecutionReceipt) : Std.ExtTreeMap Hash ExecutionReceipt :=
  list.foldl (fun map receipt => map.insert receipt.txId receipt) receipts

def lastReceipt (list : List ExecutionReceipt) (txId : Hash) : Option ExecutionReceipt :=
  list.reverse.find? fun receipt => receipt.txId = txId

theorem lastReceipt_append (first second : List ExecutionReceipt) (txId : Hash) :
    lastReceipt (first ++ second) txId = (lastReceipt second txId).or (lastReceipt first txId) := by
  rw [lastReceipt, List.reverse_append, List.find?_append]
  rfl

theorem lastReceipt_flatten (files : List (List ExecutionReceipt)) (count : ℕ) (txId : Hash) :
    lastReceipt files.flatten txId = (lastReceipt (files.drop count).flatten txId).or
      (lastReceipt (files.take count).flatten txId) := by
  conv_lhs => rw [← List.take_append_drop count files, List.flatten_append, lastReceipt_append]

theorem getElem?_insertReceipts (receipts : Std.ExtTreeMap Hash ExecutionReceipt)
    (list : List ExecutionReceipt) (txId : Hash) :
    (insertReceipts receipts list)[txId]? = (lastReceipt list txId).or receipts[txId]? := by
  induction list using List.reverseRecOn with
  | nil => rfl
  | append_singleton list receipt ih =>
    rw [lastReceipt_append, insertReceipts, List.foldl_append, List.foldl_cons, List.foldl_nil,
      Std.ExtTreeMap.getElem?_insert]
    by_cases same : receipt.txId = txId
    · simp [same, lastReceipt]
    · simpa [same, lastReceipt, insertReceipts] using ih

variable {list : List ExecutionReceipt} {env : BlockEnv} {txId : Hash} {count : ℕ}

theorem mem_of_lastReceipt {receipt : ExecutionReceipt}
    (found : lastReceipt list txId = some receipt) : receipt ∈ list ∧ receipt.txId = txId := by
  have isReceipt := List.find?_some found
  exact ⟨List.mem_reverse.mp (List.mem_of_find?_eq_some found), of_decide_eq_true isReceipt⟩

theorem exists_lastReceipt {receipt : ExecutionReceipt} (member : receipt ∈ list) :
    ∃ last, lastReceipt list receipt.txId = some last := by
  rw [← Option.isSome_iff_exists, lastReceipt, List.find?_isSome]
  exact ⟨receipt, List.mem_reverse.mpr member, decide_eq_true rfl⟩

/-- The last receipt of a transaction is one with no receipt of the transaction after it. -/
theorem lastReceipt_eq_some_iff {receipt : ExecutionReceipt} :
    lastReceipt list receipt.txId = some receipt ↔ ∃ place : ℕ, list[place]? = some receipt ∧
      receipt.txId ∉ (list.map (·.txId)).drop (place + 1) := by
  constructor
  · intro isLast
    obtain ⟨-, after, before, isList, others⟩ := List.find?_eq_some_iff_append.mp isLast
    obtain rfl : list = (before.reverse ++ [receipt]) ++ after.reverse := by
      simpa using congrArg List.reverse isList
    refine ⟨before.length, by simp, ?_⟩
    rw [← List.map_drop, List.drop_left' (by simp)]
    simpa using others
  · rintro ⟨place, isPlace, others⟩
    have noLater : lastReceipt (list.drop (place + 1)) receipt.txId = none := by
      simpa [lastReceipt, ← List.map_drop] using others
    conv_lhs => rw [← List.take_append_drop (place + 1) list]
    rw [List.take_add_one, isPlace, lastReceipt_append, lastReceipt_append, noLater]
    simp [lastReceipt]

section Receipts

variable [Platform] {executor : BlockExecutor}

theorem receiptOf_eq_some {index gas : ℕ} {tx : Transaction}
    {result : Except String VmExecutionResult} {receipt : ExecutionReceipt}
    (built : env.receiptOf index tx result gas = some receipt) :
    receipt.txId = tx.id ∧ receipt.blockHeight = env.context.blockHeight := by
  unfold BlockEnv.receiptOf ExecutionReceipt.fromTxOutcome at built
  split at built <;>
    obtain ⟨_, -, rfl⟩ := Option.map_eq_some_iff.mp built <;> exact ⟨rfl, rfl⟩

theorem TxStep.receipt {config : LedgerConfig} {outcome : TxOutcome} {before after : Contents}
    (step : TxStep env config outcome before after) :
    env.txs[outcome.index]?.map Transaction.id = some outcome.receipt.txId ∧
      outcome.receipt.blockHeight = env.context.blockHeight := by
  obtain ⟨tx, isTx, ended⟩ := step
  have built : ∃ result gas, env.receiptOf outcome.index tx result gas = some outcome.receipt := by
    split at ended
    next =>
      obtain ⟨-, result, built⟩ := ended
      exact ⟨_, _, built⟩
    next => exact ⟨_, _, ended.2⟩
    next =>
      obtain ⟨-, text, built⟩ := ended
      exact ⟨_, _, built⟩
  obtain ⟨result, gas, built⟩ := built
  obtain ⟨isId, isHeight⟩ := receiptOf_eq_some built
  exact ⟨by rw [isTx, Option.map_some, isId], isHeight⟩

theorem receipts_of_transition {block : BlockInput} {store after : StateStore}
    {receipts : List ExecutionReceipt} (journaled : store.IsJournaled)
    (ran : (executor.transition block).run store = .ok receipts after) :
    receipts.map (·.txId) = block.txs.map Transaction.id ∧
      ∀ receipt ∈ receipts, receipt.blockHeight = block.height := by
  obtain ⟨gas, executed, kept, ⟨vm, outcomes, quieted, law⟩, -, -⟩ :=
    (Command.done_of_run _ ran journaled).law
  have order := TransactionScheduler.schedule_partition block.txs
  rw [← law.order] at order
  obtain ⟨collected, isCollected, length, found⟩ := BlockProgress.collect_recordAll order
  obtain rfl : collected = receipts := Option.some.inj (isCollected.symm.trans law.receipts)
  have known : ∀ (index : ℕ) (receipt : ExecutionReceipt), collected[index]? = some receipt →
      block.txs[index]?.map Transaction.id = some receipt.txId ∧
        receipt.blockHeight = block.height := by
    intro index receipt isReceipt
    have small : index < block.txs.length := length ▸ (List.getElem?_eq_some_iff.mp isReceipt).1
    obtain ⟨outcome, isOutcome, rfl⟩ := List.mem_map.mp
      (order.mem_iff.mpr (List.mem_range.mpr small))
    obtain ⟨_, _, step⟩ := law.steps.exists_of_mem isOutcome
    cases isReceipt.symm.trans (found outcome isOutcome)
    exact TxStep.receipt step
  constructor
  · apply List.ext_getElem?
    intro index
    rw [List.getElem?_map, List.getElem?_map]
    cases isReceipt : collected[index]? with
    | some receipt => exact (known index receipt isReceipt).1.symm
    | none =>
      rw [List.getElem?_eq_none_iff, length] at isReceipt
      rw [List.getElem?_eq_none_iff.mpr isReceipt]
      rfl
  · intro receipt member
    obtain ⟨index, isReceipt⟩ := List.mem_iff_getElem?.mp member
    exact (known index receipt isReceipt).2

/-- An executed block has one receipt for each of its transactions, in their order. -/
theorem blocks_receipted (executor : BlockExecutor) (store : StateStore) (block : PinnedBlock) :
    (executor.transition block.input).run.Ends (store.pinned block.validators) (fun _ => True)
      fun receipts _ => receipts.map (·.txId) = block.input.txs.map Transaction.id ∧
        ∀ receipt ∈ receipts, receipt.blockHeight = block.input.height := by
  unfold EStateM.Ends
  split
  next ran => exact receipts_of_transition (store.isJournaled_pinned _) ran
  next => trivial

/-! ## A node -/

structure ReceiptNode where
  store : StateStore
  receipts : Std.ExtTreeMap Hash ExecutionReceipt := ∅
  files : List (List ExecutionReceipt) := []
  blocks : List PinnedBlock := []

inductive ReceiptEvent where
  /-- A block is committed by votes or imported. -/
  | commit (block : PinnedBlock)
  | restart

namespace ReceiptNode

variable (executor) (window : ℕ)

abbrev height (node : ReceiptNode) : ℕ := node.files.length

/-- The ids of all transactions of the chain, in its order. -/
def txIds (node : ReceiptNode) : List Hash :=
  node.blocks.flatMap fun block => block.input.txs.map Transaction.id

def pruneReceiptsIfDue (height : ℕ) (receipts : Std.ExtTreeMap Hash ExecutionReceipt) :
    Std.ExtTreeMap Hash ExecutionReceipt :=
  if height % PRUNE_INTERVAL = 0 ∧ window ≠ 0 then
    receipts.filter fun _ receipt => firstRetainedHeight height window ≤ receipt.blockHeight
  else receipts

/-- A block that does not follow the tip, or cannot be executed, is refused. -/
def commitBlock (node : ReceiptNode) (block : PinnedBlock) : ReceiptNode :=
  if block.input.height = node.height + 1 then
    match (executor.transition block.input).run (node.store.pinned block.validators) with
    | .ok list after =>
      { store := after
        receipts := pruneReceiptsIfDue window (node.height + 1)
          (insertReceipts node.receipts list)
        files := node.files ++ [list]
        blocks := node.blocks ++ [block] }
    | .error _ _ => node
  else node

def step (node : ReceiptNode) : ReceiptEvent → ReceiptNode
  | .commit block => node.commitBlock executor window block
  | .restart =>
    { node with
      receipts := insertReceipts ∅
        (node.files.drop (firstRetainedHeight node.height window - 1)).flatten }

/-- The receipts that the node promises to find: those of successful transactions in the
window. -/
def Promised (node : ReceiptNode) (receipt : ExecutionReceipt) : Prop :=
  receipt ∈ node.files.flatten ∧ receipt.success = true ∧
    firstRetainedHeight node.height window ≤ receipt.blockHeight

/-- What the files and the memory have in common. -/
structure Tracked (node : ReceiptNode) : Prop where
  ids : node.files.flatten.map (·.txId) = node.txIds
  heights : ∀ index list, node.files[index]? = some list →
    ∀ receipt ∈ list, receipt.blockHeight = index + 1
  known : ∀ txId receipt, lastReceipt node.files.flatten txId = some receipt →
    firstRetainedHeight node.height window ≤ receipt.blockHeight →
      node.receipts[txId]? = some receipt

variable {executor window} {node : ReceiptNode} {receipt : ExecutionReceipt}

theorem Tracked.height_of_mem_take (tracked : node.Tracked window)
    (member : receipt ∈ (node.files.take count).flatten) : receipt.blockHeight ≤ count := by
  obtain ⟨list, isList, inList⟩ := List.mem_flatten.mp member
  obtain ⟨index, isIndex⟩ := List.mem_iff_getElem?.mp isList
  rw [List.getElem?_take] at isIndex
  split at isIndex
  next small =>
    have isHeight := tracked.heights index list isIndex receipt inList
    omega
  next => cases isIndex

theorem Tracked.height_of_mem_drop (tracked : node.Tracked window)
    (member : receipt ∈ (node.files.drop count).flatten) : count < receipt.blockHeight := by
  obtain ⟨list, isList, inList⟩ := List.mem_flatten.mp member
  obtain ⟨index, isIndex⟩ := List.mem_iff_getElem?.mp isList
  rw [List.getElem?_drop] at isIndex
  have isHeight := tracked.heights _ list isIndex receipt inList
  omega

theorem Tracked.height_pos (tracked : node.Tracked window) (member : receipt ∈ node.files.flatten) :
    0 < receipt.blockHeight :=
  tracked.height_of_mem_drop (by rwa [List.drop_zero])

omit [Platform] in
theorem getElem?_pruneReceiptsIfDue {height : ℕ} {receipts : Std.ExtTreeMap Hash ExecutionReceipt}
    (found : receipts[txId]? = some receipt)
    (inWindow : firstRetainedHeight height window ≤ receipt.blockHeight) :
    (pruneReceiptsIfDue window height receipts)[txId]? = some receipt := by
  unfold pruneReceiptsIfDue
  split
  next =>
    rw [Std.ExtTreeMap.getElem?_filter', found]
    exact if_pos (decide_eq_true inWindow)
  next => exact found

theorem Tracked.commitBlock (tracked : node.Tracked window) (block : PinnedBlock) :
    (node.commitBlock executor window block).Tracked window := by
  unfold ReceiptNode.commitBlock
  split
  next isNext =>
    split
    next list after ran =>
      obtain ⟨sameIds, isHeight⟩ := receipts_of_transition (node.store.isJournaled_pinned _) ran
      have sameHeight : (node.files ++ [list]).length = node.height + 1 := List.length_append
      refine ⟨by simpa [txIds, sameIds] using tracked.ids,
        fun index other isOther receipt member => ?_, fun txId receipt isLast inWindow => ?_⟩
      · rcases Nat.lt_or_ge index node.files.length with earlier | last
        · rw [List.getElem?_append_left earlier] at isOther
          exact tracked.heights index other isOther receipt member
        · rw [List.getElem?_append_right last] at isOther
          obtain ⟨isLast, isList⟩ := List.getElem?_eq_some_iff.mp isOther
          rw [List.length_singleton] at isLast
          rw [List.getElem_singleton] at isList
          rw [isHeight receipt (isList ▸ member), isNext, height]
          omega
      · change firstRetainedHeight (node.files ++ [list]).length window ≤ _ at inWindow
        rw [sameHeight] at inWindow
        apply getElem?_pruneReceiptsIfDue _ inWindow
        rw [List.flatten_append, List.flatten_singleton, lastReceipt_append] at isLast
        rw [getElem?_insertReceipts]
        cases inList : lastReceipt list txId with
        | some found =>
          rw [inList] at isLast
          exact isLast
        | none =>
          rw [inList] at isLast
          refine tracked.known txId receipt isLast (le_trans ?_ inWindow)
          unfold firstRetainedHeight
          split <;> omega
    next => exact tracked
  next => exact tracked

theorem Tracked.restart (tracked : node.Tracked window) :
    (node.step executor window .restart).Tracked window where
  ids := tracked.ids
  heights := tracked.heights
  known txId receipt isLast inWindow := by
    change lastReceipt node.files.flatten txId = _ at isLast
    change firstRetainedHeight node.height window ≤ _ at inWindow
    change (insertReceipts ∅ _)[txId]? = _
    rw [lastReceipt_flatten node.files (firstRetainedHeight node.height window - 1)] at isLast
    rw [getElem?_insertReceipts]
    cases inDrop : lastReceipt
        (node.files.drop (firstRetainedHeight node.height window - 1)).flatten txId with
    | some found =>
      rw [inDrop] at isLast
      exact isLast
    | none =>
      rw [inDrop] at isLast
      have early := (mem_of_lastReceipt isLast).1
      have low := tracked.height_of_mem_take early
      have positive := tracked.height_pos ((List.take_sublist _ _).flatten.mem early)
      omega

theorem Tracked.lookup (tracked : node.Tracked window) (member : receipt ∈ node.files.flatten)
    (inWindow : firstRetainedHeight node.height window ≤ receipt.blockHeight) :
    node.receipts[receipt.txId]? = lastReceipt node.files.flatten receipt.txId := by
  obtain ⟨last, isLast⟩ := exists_lastReceipt member
  rw [isLast]
  refine tracked.known _ _ isLast (inWindow.trans ?_)
  rw [← List.take_append_drop (receipt.blockHeight - 1) node.files, List.flatten_append,
    List.mem_append] at member
  rcases member with early | late
  · have low := tracked.height_of_mem_take early
    omega
  · -- A receipt that replaces this one is of the same block or of a later one.
    obtain ⟨found, isFound⟩ := exists_lastReceipt late
    rw [lastReceipt_flatten _ (receipt.blockHeight - 1), isFound, Option.some_or] at isLast
    cases isLast
    have high := tracked.height_of_mem_drop (mem_of_lastReceipt isFound).1
    omega

theorem tracked_run (store : StateStore) (events : List ReceiptEvent) :
    (Run.run (step executor window) { store := store } events).Tracked window := by
  refine Run.invariant_of_forall (fun node event tracked => ?_) ?_ events
  · cases event with
    | commit block => exact tracked.commitBlock block
    | restart => exact tracked.restart
  · exact ⟨rfl, by simp, by simp [lastReceipt]⟩

end ReceiptNode

/-- A node finds every successful receipt in the window exactly if no transaction with the id of
one of them comes after it in the committed blocks. -/
theorem receipts_stable_iff (executor : BlockExecutor) (window : ℕ) (store : StateStore)
    (events : List ReceiptEvent) :
    let node := Run.run (ReceiptNode.step executor window) { store := store } events
    (∀ receipt, node.Promised window receipt → node.receipts[receipt.txId]? = some receipt) ↔
      ∀ receipt, node.Promised window receipt →
        ∃ place : ℕ, node.files.flatten[place]? = some receipt ∧
          receipt.txId ∉ node.txIds.drop (place + 1) := by
  intro node
  have tracked : node.Tracked window := ReceiptNode.tracked_run store events
  refine forall₂_congr fun receipt promised => ?_
  rw [tracked.lookup promised.1 promised.2.2, lastReceipt_eq_some_iff, tracked.ids]

end Receipts

section RepeatedTransaction

open Checksum

def repeatedTx : Transaction := ⟨0, 1, .transfer 2 100, ⟨[], []⟩⟩

def repeatedStore : StateStore :=
  { accounts := .insert ∅ 1 { AccountState.default with balance := 10 ^ 21 } }

def repeatedLookup (events : List ReceiptEvent) : Option (ℕ × Bool) :=
  ((Run.run (ReceiptNode.step { vm := Vm.new } 128) { store := repeatedStore }
    events).receipts[repeatedTx.id]?).map fun receipt => (receipt.blockHeight, receipt.success)

/-- A second block with the transaction hides its receipt of success, also after a restart. -/
theorem repeated_transaction_hides_receipt :
    let first := ReceiptEvent.commit ⟨⟨1, 5, [repeatedTx], 9, []⟩, [9]⟩
    let second := ReceiptEvent.commit ⟨⟨2, 6, [repeatedTx], 9, []⟩, [9]⟩
    repeatedLookup [first] = some (1, true) ∧ repeatedLookup [first, second] = some (2, false) ∧
      repeatedLookup [first, second, .restart] = some (2, false) := by
  decide +kernel

end RepeatedTransaction

end BoingNetwork
