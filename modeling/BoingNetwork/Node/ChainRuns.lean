import BoingNetwork.Node.Transition

/-!
# Runs of a chain

A node extends its chain block by block.  A block is executed on a snapshot of the state of its
parent in which the validators are pinned; a block that cannot be executed is not appended.  The
ledger of a run changes by events: what a block does before its transactions, its transactions
in the order of their execution, the reward and the bookkeeping.  Every run has a trace, a list
of events with the ledger before each of them.
-/

namespace BoingNetwork

open EStateM

structure PinnedBlock where
  input : BlockInput
  validators : List AccountId

section Runs

variable [Platform] {entries : List (LedgerEvent × Contents)} {config : LedgerConfig}

/-- The store on which a block is executed. -/
def StateStore.pinned (store : StateStore) (validators : List AccountId) : StateStore :=
  { store.snapshot with slashAppealResolvers := some validators }

theorem StateStore.isJournaled_pinned (store : StateStore) (validators : List AccountId) :
    (store.pinned validators).IsJournaled :=
  isJournaled_snapshot { store with slashAppealResolvers := some validators }

inductive LedgerEvent where
  | quiet
  | redenominated
  | executed (env : BlockEnv) (config : LedgerConfig) (outcome : TxOutcome)
  | rewarded (proposer : AccountId) (amount : ℕ)
  | hooked (config : LedgerConfig) (height : ℕ) (proposer : AccountId)

namespace LedgerEvent

def Step : LedgerEvent → Contents → Contents → Prop
  | quiet, before, after => before.Kept after
  | redenominated, before, after => after = before.redenominated BASE_UNITS_PER_BOING
  | executed env config outcome, before, after => TxStep env config outcome before after
  | rewarded proposer amount, before, after => after = before.credit proposer amount
  | hooked config height proposer, before, after => after = before.hooked config height proposer

structure AppliedTx where
  height : ℕ
  config : LedgerConfig
  tx : Transaction

/-- The transaction of an event that was applied; the merged ones are transfers. -/
def applied? : LedgerEvent → Option AppliedTx
  | executed env config ⟨index, _, .applied _⟩ =>
    env.txs[index]?.map fun tx => ⟨env.context.blockHeight, config, tx⟩
  | _ => none

def tx? : LedgerEvent → Option Transaction
  | executed env _ outcome => env.txs[outcome.index]?
  | _ => none

end LedgerEvent

namespace BlockExecutor

variable (executor : BlockExecutor) {block : BlockInput}

def advance (store : StateStore) (block : PinnedBlock) : StateStore :=
  match (executor.transition block.input).run (store.pinned block.validators) with
  | .ok _ after => after
  | .error _ _ => store

def blockEvents (block : BlockInput) (config : LedgerConfig) (vm : Vm)
    (outcomes : List TxOutcome) : List LedgerEvent :=
  .quiet :: (if executor.Redenominates block.height then [.redenominated] else []) ++
    outcomes.map (.executed (executor.blockEnv block.height block.timestamp vm block.txs
      block.proposer block.tips) config) ++
    [.rewarded block.proposer (executor.blockEmission block.height), .quiet,
      .hooked config block.height block.proposer]

def IsBlockEvents (block : BlockInput) (config : LedgerConfig) (events : List LedgerEvent) : Prop :=
  ∃ vm outcomes, outcomes.map TxOutcome.index = (TransactionScheduler.schedule block.txs).flatten ∧
    events = executor.blockEvents block config vm outcomes

theorem exists_events {receipts : List ExecutionReceipt} {before after : Contents}
    (transition : executor.Transition block config receipts before after) :
    ∃ events, executor.IsBlockEvents block config events ∧
      Run.Steps LedgerEvent.Step events before after := by
  obtain ⟨gas, executed, kept, ⟨vm, outcomes, quieted, law⟩, isKept, rfl⟩ := transition
  refine ⟨_, ⟨vm, outcomes, law.order, rfl⟩, ?_⟩
  have prepared : Run.Steps LedgerEvent.Step
      (.quiet :: (if executor.Redenominates block.height then [.redenominated] else [])) before
      (executor.preparedContents block.height quieted) := by
    refine ⟨quieted, law.kept, ?_⟩
    unfold preparedContents
    split
    next => exact .single rfl
    next => rfl
  have ran : Run.Steps LedgerEvent.Step
      (outcomes.map (.executed (executor.blockEnv block.height block.timestamp vm block.txs
        block.proposer block.tips) config)) (executor.preparedContents block.height quieted)
      executed :=
    Run.steps_map.mpr law.steps
  refine Run.steps_append.mpr ⟨executed, Run.steps_append.mpr ⟨_, prepared, ran⟩, ?_⟩
  exact ⟨_, rfl, kept, isKept, _, rfl, rfl⟩

inductive Traces : StateStore → List PinnedBlock → List (LedgerEvent × Contents) → StateStore →
    Prop
  | nil {store : StateStore} : Traces store [] [] store
  | refused {store after finish : StateStore} {block : PinnedBlock} {blocks : List PinnedBlock}
      {entries : List (LedgerEvent × Contents)} {fault : Fault String}
      (failed : (executor.transition block.input).run (store.pinned block.validators) =
        .error fault after)
      (rest : Traces store blocks entries finish) : Traces store (block :: blocks) entries finish
  | appended {store after finish : StateStore} {block : PinnedBlock} {blocks : List PinnedBlock}
      {first entries : List (LedgerEvent × Contents)} {receipts : List ExecutionReceipt}
      (ran : (executor.transition block.input).run (store.pinned block.validators) =
        .ok receipts after)
      (events : executor.IsBlockEvents block.input (store.pinned block.validators).config
        (first.map Prod.fst))
      (steps : Run.Steps (Run.Remembers LedgerEvent.Step) first store.toContents after.toContents)
      (rest : Traces after blocks entries finish) :
      Traces store (block :: blocks) (first ++ entries) finish

variable {executor} {blocks : List PinnedBlock}

theorem Traces.steps {store finish : StateStore}
    (traces : executor.Traces store blocks entries finish) :
    Run.Steps (Run.Remembers LedgerEvent.Step) entries store.toContents finish.toContents := by
  induction traces with
  | nil => rfl
  | refused _ _ ih => exact ih
  | appended _ _ steps _ ih =>
    exact Run.steps_append.mpr ⟨_, steps, ih⟩

omit [Platform] in
theorem applied_of_blockEvents {events : List LedgerEvent} {event : LedgerEvent}
    {applied : LedgerEvent.AppliedTx} (isEvents : executor.IsBlockEvents block config events)
    (listed : event ∈ events) (isApplied : event.applied? = some applied) :
    applied.tx ∈ block.txs ∧ applied.height = block.height := by
  obtain ⟨vm, outcomes, -, rfl⟩ := isEvents
  cases event with
  | executed env found outcome =>
    have isOutcome : LedgerEvent.executed env found outcome ∈ outcomes.map (.executed
        (executor.blockEnv block.height block.timestamp vm block.txs block.proposer block.tips)
        config) := by
      unfold blockEvents at listed
      split at listed <;> simpa using listed
    obtain ⟨_, _, same⟩ := List.mem_map.mp isOutcome
    cases same
    obtain ⟨index, receipt, ending⟩ := outcome
    cases ending with
    | applied rent =>
      obtain ⟨tx, isTx, rfl⟩ := Option.map_eq_some_iff.mp isApplied
      exact ⟨List.mem_of_getElem? isTx, rfl⟩
    | _ => cases isApplied
  | _ => cases isApplied

theorem Traces.applied {store finish : StateStore}
    (traces : executor.Traces store blocks entries finish) {entry : LedgerEvent × Contents}
    (listed : entry ∈ entries) {applied : LedgerEvent.AppliedTx}
    (isApplied : entry.1.applied? = some applied) :
    ∃ block ∈ blocks, applied.tx ∈ block.input.txs ∧ applied.height = block.input.height := by
  induction traces with
  | nil => cases listed
  | refused _ _ ih =>
    obtain ⟨block, isBlock, found⟩ := ih listed
    exact ⟨block, List.mem_cons_of_mem _ isBlock, found⟩
  | appended _ events _ _ ih =>
    rcases List.mem_append.mp listed with inFirst | inRest
    · exact ⟨_, List.mem_cons_self,
        applied_of_blockEvents events (List.mem_map_of_mem inFirst) isApplied⟩
    · obtain ⟨block, isBlock, found⟩ := ih inRest
      exact ⟨block, List.mem_cons_of_mem _ isBlock, found⟩

theorem exists_traces (executor : BlockExecutor) (store : StateStore)
    (blocks : List PinnedBlock) :
    ∃ entries, executor.Traces store blocks entries (Run.run executor.advance store blocks) := by
  induction blocks generalizing store with
  | nil => exact ⟨[], .nil⟩
  | cons block blocks ih =>
    obtain ⟨entries, rest⟩ := ih (executor.advance store block)
    rw [Run.run_cons]
    cases ran : (executor.transition block.input).run (store.pinned block.validators) with
    | error fault after =>
      have same : executor.advance store block = store := by rw [advance, ran]
      rw [same] at rest ⊢
      exact ⟨entries, .refused ran rest⟩
    | ok receipts after =>
      have next : executor.advance store block = after := by rw [advance, ran]
      rw [next] at rest ⊢
      have lawful := Command.done_of_run _ ran (store.isJournaled_pinned block.validators)
      obtain ⟨events, isEvents, steps⟩ := exists_events executor lawful.law
      obtain ⟨first, rfl, remembered⟩ := steps.remembered
      exact ⟨first ++ entries, .appended ran isEvents remembered rest⟩

end BlockExecutor

end Runs

end BoingNetwork
