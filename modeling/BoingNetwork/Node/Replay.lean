import BoingNetwork.Execution.Failures
import BoingNetwork.Node.ChainRuns

/-!
# Replay protection

Over the run of a chain nonces only rise: a transaction with the nonce of its sender raises it
by one, whether it succeeds or fails, and nothing else changes a nonce or removes an account.
So a pair of a sender and a nonce takes effect at most once.  The largest nonce is the
exception: a failed transaction with it leaves it as it is.
-/

namespace BoingNetwork

open EStateM MachineInt

namespace LedgerEvent

def Matches (event : LedgerEvent) (before : Contents) (tx : Transaction) : Prop :=
  event.tx? = some tx ∧ before.nonceOf tx.sender = some tx.nonce

structure NonceLaw (event : LedgerEvent) (before after : Contents) : Prop where
  raised : ∀ tx, event.Matches before tx → tx.nonce < maxValue 64 →
    after.nonceOf tx.sender = some (tx.nonce + 1)
  kept : ∀ id, (∀ tx, event.Matches before tx → tx.sender ≠ id) → before.KeepsNonce after id

structure NonceStep (event : LedgerEvent) (before after : Contents) : Prop where
  raised : ∀ tx, event.Matches before tx →
    after.nonceOf tx.sender = some (saturatingAdd 64 tx.nonce 1)
  kept : ∀ id, (∀ tx, event.Matches before tx → tx.sender ≠ id) → before.KeepsNonce after id

variable {event : LedgerEvent} {before after : Contents} {pair : AccountId × ℕ} {tx : Transaction}
  {nonce : ℕ}

theorem NonceStep.law (step : event.NonceStep before after) : event.NonceLaw before after where
  raised tx isMatch small := by
    rw [step.raised tx isMatch, saturatingAdd_of_le small]
  kept := step.kept

theorem NonceStep.of_kept (none : event.tx? = none) (kept : ∀ id, before.KeepsNonce after id) :
    event.NonceStep before after where
  raised tx isMatch := by
    rw [isMatch.1] at none
    cases none
  kept id _ := kept id

theorem NonceStep.of_raised {change : LockChange} (isTx : event.tx? = some tx)
    (matched : before.nonceOf tx.sender = some tx.nonce)
    (raised : before.Raised change tx.sender after) : event.NonceStep before after where
  raised other isMatch := by
    cases isTx.symm.trans isMatch.1
    obtain ⟨next, fits⟩ := raised.bumped tx.nonce matched
    rw [next, saturatingAdd_of_le]
    exact Nat.le_sub_one_of_lt fits
  kept id apart := (raised.others id (apart tx ⟨isTx, matched⟩).symm).nonce

theorem NonceStep.of_failed (isTx : event.tx? = some tx) (failed : before.Failed tx after) :
    event.NonceStep before after where
  raised other isMatch := by
    cases isTx.symm.trans isMatch.1
    exact failed.spent isMatch.2
  kept id apart := by
    by_cases isSender : id = tx.sender
    · subst isSender
      exact failed.unspent fun matched => apart tx ⟨isTx, matched⟩ rfl
    · exact (failed.others id isSender).nonce

theorem nonceOf_redenominated (contents : Contents) (factor : ℕ) (id : AccountId) :
    (contents.redenominated factor).nonceOf id = contents.nonceOf id := by
  change ((contents.accounts.map fun _ => AccountState.redenominated factor)[id]?.map
    AccountState.nonce) = _
  rw [Std.ExtTreeMap.getElem?_map, Option.map_map]
  rfl

theorem NonceStep.mono (step : event.NonceStep before after) {id : AccountId}
    (found : before.nonceOf id = some nonce) : ∃ next, after.nonceOf id = some next ∧
      (nonce ≤ next ∨ next = maxValue 64) := by
  by_cases matched : ∃ tx, event.Matches before tx ∧ tx.sender = id
  · obtain ⟨tx, isMatch, rfl⟩ := matched
    cases found.symm.trans isMatch.2
    refine ⟨_, step.raised tx isMatch, ?_⟩
    unfold saturatingAdd
    omega
  · have kept := step.kept id fun tx isMatch isSender => matched ⟨tx, isMatch, isSender⟩
    exact ⟨nonce, kept.eq_some found, .inl le_rfl⟩

def effect? (entry : LedgerEvent × Contents) : Option (AccountId × ℕ) :=
  (entry.1.tx?.filter fun tx => entry.2.nonceOf tx.sender = some tx.nonce ∧
    tx.nonce < maxValue 64).map fun tx => (tx.sender, tx.nonce)

theorem effect?_eq_some {entry : LedgerEvent × Contents} :
    effect? entry = some pair ↔ ∃ tx, entry.1.Matches entry.2 tx ∧
      tx.nonce < maxValue 64 ∧ (tx.sender, tx.nonce) = pair := by
  simp [effect?, Option.map_eq_some_iff, Option.filter_eq_some_iff, Matches, and_assoc]

section Runs

variable [Platform]

theorem Step.nonceStep (step : event.Step before after) : event.NonceStep before after := by
  cases event with
  | quiet => exact .of_kept rfl fun id => (step.accounts id).nonce
  | redenominated =>
    refine .of_kept rfl fun id => .inl ?_
    rw [step, nonceOf_redenominated]
  | executed env config outcome =>
    obtain ⟨tx, isTx, ended⟩ := step
    cases ending : outcome.ending with
    | applied rent =>
      rw [ending] at ended
      obtain ⟨⟨middle, applied, -, kept⟩, -⟩ := ended
      exact .of_raised isTx applied.matched (applied.applied.toRaised.kept kept.accounts)
    | merged =>
      rw [ending] at ended
      exact .of_raised isTx ended.1.matched ended.1.raised
    | failed =>
      rw [ending] at ended
      rw [ended.1]
      exact .of_failed isTx (before.failed_failTx env.failedFee tx)
  | rewarded proposer amount =>
    rw [step]
    exact .of_kept rfl fun id => ((before.received_credit proposer amount).accounts id).nonce
  | hooked config height proposer =>
    refine .of_kept rfl fun id => .inl ?_
    rw [step, Contents.nonceOf, Contents.accounts_hooked, Contents.nonceOf]

variable {entries : List (LedgerEvent × Contents)} {start finish : Contents}

theorem effects_above (steps : Run.Steps (Run.Remembers Step) entries start finish)
    (listed : pair ∈ entries.filterMap effect?) (found : start.nonceOf pair.1 = some nonce) :
    nonce ≤ pair.2 := by
  induction entries generalizing start nonce with
  | nil => cases listed
  | cons entry entries ih =>
    obtain ⟨middle, ⟨rfl, step⟩, rest⟩ := steps
    obtain ⟨other, isOther, isEffect⟩ := List.mem_filterMap.mp listed
    obtain ⟨tx, isMatch, small, rfl⟩ := effect?_eq_some.mp isEffect
    rcases List.mem_cons.mp isOther with rfl | inRest
    · cases found.symm.trans isMatch.2
      exact le_rfl
    · obtain ⟨next, foundNext, rises⟩ := (Step.nonceStep step).mono found
      have above := ih rest (List.mem_filterMap.mpr ⟨other, inRest, isEffect⟩)
        foundNext
      dsimp only at above ⊢
      omega

theorem effects_nodup (steps : Run.Steps (Run.Remembers Step) entries start finish) :
    (entries.filterMap effect?).Nodup := by
  induction entries generalizing start with
  | nil => exact .nil
  | cons entry entries ih =>
    obtain ⟨middle, ⟨rfl, step⟩, rest⟩ := steps
    rw [List.filterMap_cons]
    cases isEffect : effect? entry with
    | none => exact ih rest
    | some pair =>
      obtain ⟨tx, isMatch, small, rfl⟩ := effect?_eq_some.mp isEffect
      refine List.nodup_cons.mpr ⟨fun repeated => ?_, ih rest⟩
      have raised := (Step.nonceStep step).law.raised tx isMatch small
      have above := effects_above rest repeated raised
      dsimp only at above
      omega

end Runs

end LedgerEvent

section Runs

variable [Platform]

/-- Every run has a trace.  In a trace every event keeps the law of nonces, and no pair of a
sender and a nonce takes effect twice. -/
theorem replay_protection (executor : BlockExecutor) (store : StateStore)
    (blocks : List PinnedBlock) :
    let finish := Run.run executor.advance store blocks
    (∃ entries, executor.Traces store blocks entries finish) ∧
      ∀ entries, executor.Traces store blocks entries finish →
        Run.Steps (fun entry before after => LedgerEvent.NonceLaw entry.1 before after) entries
          store.toContents finish.toContents ∧
        (entries.filterMap LedgerEvent.effect?).Nodup := by
  refine ⟨BlockExecutor.exists_traces executor store blocks, fun entries traces => ?_⟩
  refine ⟨traces.steps.mono ?_, LedgerEvent.effects_nodup traces.steps⟩
  rintro entry - before after ⟨-, step⟩
  exact (LedgerEvent.Step.nonceStep step).law

end Runs

section LargestNonce

open Checksum

def spentStore : StateStore :=
  { accounts := .insert ∅ 1 { AccountState.default with nonce := 2 ^ 64 - 1, balance := 10 ^ 21 } }

def spentTx : Transaction := ⟨2 ^ 64 - 1, 1, .transfer 2 100, ⟨[], []⟩⟩

/-- The transaction twice in one block. -/
def spentBlock : PinnedBlock := ⟨⟨1, 5, [spentTx, spentTx], 9, []⟩, [9]⟩

def replayFigures [Crypto]
    (result : Result (Fault String) StateStore (List ExecutionReceipt)) :
    Option (List (Bool × ℕ) × Option ℕ × ℕ) :=
  match result with
  | .ok receipts after => some (receipts.map fun receipt => (receipt.success, receipt.gasUsed),
      after.toContents.nonceOf 1, after.toContents.balanceOf 1)
  | .error _ _ => none

/-- A transaction with the largest nonce is charged twice, and the nonce stays. -/
theorem largest_nonce_charged_twice :
    spentStore.toContents.nonceOf 1 = some spentTx.nonce ∧
      replayFigures ((BlockExecutor.transition { vm := Vm.new } spentBlock.input).run
        (spentStore.pinned spentBlock.validators)) =
          some ([(false, FAILED_TX_GAS), (false, FAILED_TX_GAS)], some spentTx.nonce,
            10 ^ 21 - 2 * 21000 * 10 ^ 12) := by
  decide +kernel

end LargestNonce

end BoingNetwork
