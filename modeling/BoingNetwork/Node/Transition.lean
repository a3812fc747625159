import BoingNetwork.Execution.Block
import BoingNetwork.State.ValidatorSet

/-!
# The state transition of a block

What producers and importers do with the state of the parent: the consensus validators are
pinned for the decision of appeals, the block is executed, the proposer is rewarded, failed
challenges are settled, and the open validator set keeps its books.
-/

namespace BoingNetwork

open EStateM

/-! ## Block rewards -/

def INITIAL_SUPPLY : ℕ := 1000000000
def BLOCK_TIME_SECS : ℕ := 2
def BLOCKS_PER_YEAR : ℕ := 365 * 24 * 3600 / BLOCK_TIME_SECS
def EMISSION_YEAR_1_BPS : ℕ := 800
def EMISSION_FLOOR_BPS : ℕ := 100
def EMISSION_DECAY_BPS : ℕ := 8500
def BLOCK_EMISSION_PROPOSER_BPS : ℕ := 7000

/-- The emission after a number of years; it is not reduced any more below the floor. -/
def decayEmission (floor : ℕ) : ℕ → ℕ → ℕ
  | 0, emission => emission
  | years + 1, emission =>
    let next := emission * EMISSION_DECAY_BPS / 10000
    if next ≤ floor then next else decayEmission floor years next

def blockEmissionValidatorsBaseUnits (height : ℕ) : ℕ :=
  if height = 0 then 0
  else
    let supply := MachineInt.saturatingMul 128 INITIAL_SUPPLY BASE_UNITS_PER_BOING
    let floor := supply * EMISSION_FLOOR_BPS / 10000 / BLOCKS_PER_YEAR
    let first := supply * EMISSION_YEAR_1_BPS / 10000 / BLOCKS_PER_YEAR
    max (decayEmission floor ((height - 1) / BLOCKS_PER_YEAR) first) floor *
      BLOCK_EMISSION_PROPOSER_BPS / 10000

def blockEmissionValidatorsIn (height : ℕ) : Denomination → ℕ
  | .baseUnits => blockEmissionValidatorsBaseUnits height
  | .wholeBoing => blockEmissionValidatorsBaseUnits height / BASE_UNITS_PER_BOING

def BlockExecutor.blockEmission (executor : BlockExecutor) (height : ℕ) : ℕ :=
  blockEmissionValidatorsIn height (executor.denominationAt height)

/-! ## Bookkeeping of the open validator set -/

namespace OpenValidatorRegistry

variable (params : OpenValidatorParams) (height : ℕ)

/-- Equal but for the derived data of the last jailing. -/
def SameBooks (left right : OpenValidatorRegistry) : Prop :=
  RegistryId.openValidators.settled left = RegistryId.openValidators.settled right

section

variable {left right : OpenValidatorRegistry} (same : left.SameBooks right)

include same

theorem SameBooks.jail (id : AccountId) :
    (jail params height left id).SameBooks (jail params height right id) := by
  rw [eq_of_settled same]
  rfl

theorem SameBooks.epochTransition :
    (epochTransition params height left).SameBooks (epochTransition params height right) := by
  have jailed : ∀ (ids : List AccountId) (left right : OpenValidatorRegistry),
      left.SameBooks right → (ids.foldl (OpenValidatorRegistry.jail params height) left).SameBooks
          (ids.foldl (OpenValidatorRegistry.jail params height) right) := by
    intro ids
    induction ids with
    | nil => exact fun _ _ same => same
    | cons id ids ih =>
      intro left right same
      exact ih _ _ (same.jail params height id)
  have listed : (right.active.filter fun id => missesTooMany params (right.stats id)) =
      left.active.filter fun id => missesTooMany params (left.stats id) := by
    rw [eq_of_settled same]
    rfl
  rw [epochTransition_eq, epochTransition_eq, listed]
  rw [eq_of_settled (jailed _ left right same)]
  rfl

theorem SameBooks.onBlock (proposer : AccountId) :
    (onBlock params height proposer left).SameBooks (onBlock params height proposer right) := by
  have recorded : (recordLiveness params height proposer left).SameBooks
      (recordLiveness params height proposer right) := by
    rw [eq_of_settled same]
    unfold recordLiveness
    have set : ({ left with lastJail := right.lastJail } : OpenValidatorRegistry).consensusSet
        params = left.consensusSet params := rfl
    rw [set]
    split <;> rfl
  unfold OpenValidatorRegistry.onBlock
  split
  next => exact same
  next =>
    split
    next =>
      apply SameBooks.epochTransition
      rw [eq_of_settled recorded]
      rfl
    next => exact recorded

end

theorem settles_onBlock {Error : Type} (proposer : AccountId) : RegistryId.openValidators.Settles
      (modify (onBlock params height proposer) : EStateM Error OpenValidatorRegistry PUnit) :=
  Respects.modify fun _ _ same => SameBooks.onBlock params height same proposer

end OpenValidatorRegistry

def Contents.hooked (contents : Contents) (config : LedgerConfig) (height : ℕ)
    (proposer : AccountId) : Contents :=
  match config.openValidatorParams with
  | none => contents
  | some params => contents.setRegistry .openValidators
      (OpenValidatorRegistry.onBlock params height proposer contents.openValidators)

theorem Contents.accounts_hooked (contents : Contents) (config : LedgerConfig) (height : ℕ)
    (proposer : AccountId) :
    (contents.hooked config height proposer).accounts = contents.accounts := by
  unfold Contents.hooked
  split <;> rfl

/-- The part of a block that the state transition depends on. -/
structure BlockInput where
  height : ℕ
  timestamp : ℕ
  txs : List Transaction
  proposer : AccountId
  tips : List ℕ

section Transition

variable [Platform]

def openValidatorBlockHook {Error : Type} (params : Option OpenValidatorParams) (height : ℕ)
    (proposer : AccountId) : Act Error PUnit :=
  match params with
  | none => pure ⟨⟩
  | some params => Act.onRegistry .openValidators
      (modify (OpenValidatorRegistry.onBlock params height proposer))
      (OpenValidatorRegistry.settles_onBlock params height proposer)

theorem leads_openValidatorBlockHook {Error : Type} {config : LedgerConfig} {height : ℕ}
    {proposer : AccountId} {before : Contents} :
    Leads (openValidatorBlockHook config.openValidatorParams height proposer : Act Error PUnit)
      before fun _ after => after = before.hooked config height proposer := by
  unfold openValidatorBlockHook Contents.hooked
  split
  next => exact .pure rfl
  next =>
    refine .onRegistry fun _ next ran => ?_
    cases ran
    rfl

namespace BlockExecutor

variable (executor : BlockExecutor) (block : BlockInput)

def Transition (config : LedgerConfig) (receipts : List ExecutionReceipt)
    (before after : Contents) : Prop :=
  ∃ gas executed kept,
    executor.Executes block.height block.timestamp block.txs block.proposer block.tips config
      (gas, receipts) before executed ∧
    (executed.credit block.proposer (executor.blockEmission block.height)).Kept kept ∧
    after = kept.hooked config block.height block.proposer

def faultText {Error : Type} (display : Error → String) : Fault Error → Fault String
  | .error reason => .error (display reason)
  | .panic => .panic

def creditReward : BlockCommand (Fault String) PUnit fun _ _ before after =>
    after = before.credit block.proposer (executor.blockEmission block.height) :=
  .lift (Command.strengthen
    (creditAccount block.proposer (executor.blockEmission block.height)) fun store =>
      (Leads.creditAccount rfl : Leads _ store.toContents fun _ after => after = _) store rfl) id

/-- Settlement of failed challenges. -/
def housekeeping : BlockCommand (Fault String) PUnit fun _ _ before after => before.Kept after :=
  .lift (Command.mapError (faultText VmError.display) (do
    let _ ← applyMediaBlobBlockHousekeeping block.height
    return ⟨⟩ : Quiet VmFault PUnit)) id

/-- Bookkeeping of the open validator set of this node; passes the receipts on. -/
def keepBooks (receipts : List ExecutionReceipt) :
    BlockCommand (Fault String) (List ExecutionReceipt) fun config result before after =>
      result = receipts ∧ after = before.hooked config block.height block.proposer :=
  have books (seen : LedgerView) : BlockCommand (Fault String) (List ExecutionReceipt)
      fun _ result before after =>
        result = receipts ∧ after = before.hooked seen.config block.height block.proposer :=
    .lift (Command.strengthen (do
        openValidatorBlockHook seen.config.openValidatorParams block.height block.proposer
        return receipts : Act (Fault String) (List ExecutionReceipt)) fun store => by
      have leads : Leads (do
          openValidatorBlockHook seen.config.openValidatorParams block.height block.proposer
          return receipts : Act (Fault String) (List ExecutionReceipt)) store.toContents
            fun result after => result = receipts ∧
              after = store.toContents.hooked seen.config block.height block.proposer :=
        .bind (leads_openValidatorBlockHook.mono fun _ _ hooked => .pure ⟨rfl, hooked⟩)
      exact leads store rfl) id
  .select books id

def settleBlock (receipts : List ExecutionReceipt) :
    BlockCommand (Fault String) (List ExecutionReceipt) fun config result before after =>
      result = receipts ∧ ∃ kept,
        (before.credit block.proposer (executor.blockEmission block.height)).Kept kept ∧
        after = kept.hooked config block.height block.proposer :=
  have settled : BlockCommand (Fault String) PUnit fun _ _ before after =>
      (before.credit block.proposer (executor.blockEmission block.height)).Kept after :=
    (executor.creditReward block).andThen (fun _ => housekeeping block)
      fun {_ _ _ _ middle _} (rewarded : middle = _) kept => rewarded ▸ kept
  settled.andThen (fun _ => keepBooks block receipts)
    fun kept booked => ⟨booked.1, _, kept, booked.2⟩

/-- The transition of a block, up to the state root; returns the receipts. -/
def transition : BlockCommand (Fault String) (List ExecutionReceipt)
    (executor.Transition block) :=
  have executed : BlockCommand (Fault String) (ℕ × List ExecutionReceipt)
      (executor.Executes block.height block.timestamp block.txs block.proposer block.tips) :=
    Command.mapError (faultText ExecutionError.display)
      (executor.executeBlockWithTips block.height block.timestamp block.txs block.proposer
        block.tips)
  executed.andThen (fun result => executor.settleBlock block result.2)
    fun {config result receipts start middle finish} executes settled => by
      obtain ⟨rfl, kept, isKept, rfl⟩ := settled
      exact ⟨result.1, middle, kept, executes, isKept, rfl⟩

end BlockExecutor

end Transition

end BoingNetwork
