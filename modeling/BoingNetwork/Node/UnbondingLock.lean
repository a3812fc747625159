import BoingNetwork.Execution.Failures
import BoingNetwork.Node.ChainRuns

/-!
# The lock of unbonded stake

What an account unbonds, and the bond of a validator that it deregisters, waits in one bucket
with one unlock height.  A released bond can only postpone that height, but an unbond sets it
anew, so an unbond can shorten the wait of a bond that was released with a longer delay.  Over
runs without such an unbond nothing is claimed before the end of its own delay.
-/

namespace BoingNetwork

open EStateM MachineInt

def payloadDelay (configured : Option OpenValidatorParams) : TransactionPayload → Option ℕ
  | .unbond _ => some UNBONDING_DELAY_BLOCKS
  | .validatorDeregister _ => some ((configured.map (·.deregisterDelay)).getD 0)
  | _ => none

variable {account : AccountId} {event : LedgerEvent} {next : Contents} {limit : ℕ}

namespace LedgerEvent

/-- What an event does to the bucket of the account. -/
inductive LockStep (account : AccountId) (event : LedgerEvent) (before after : Lock) : Prop
  | kept (others : ∀ applied, event.applied? = some applied → applied.tx.sender ≠ account)
      (kept : before.Kept after)
  | changed (applied : AppliedTx) (isApplied : event.applied? = some applied)
      (isSender : applied.tx.sender = account)
      (allows : (payloadLock applied.config.openValidatorParams applied.height
        applied.tx.payload).Allows before after)
  | scaled (isScaled : event = .redenominated) (unlock : after.unlock = before.unlock)

theorem LockStep.of_kept {before after : Lock} (none : event.applied? = none)
    (kept : before.Kept after) : event.LockStep account before after := by
  refine .kept (fun applied isApplied => ?_) kept
  rw [none] at isApplied
  cases isApplied

theorem unlock_redenominated (contents : Contents) (factor : ℕ) (id : AccountId) :
    ((contents.redenominated factor).lockOf id).unlock = (contents.lockOf id).unlock := by
  change (((contents.accounts.map fun _ => AccountState.redenominated factor)[id]?.map
    AccountState.lock).getD ⟨0, 0⟩).unlock = _
  rw [Std.ExtTreeMap.getElem?_map, Option.map_map, Contents.lockOf]
  cases contents.accounts[id]? <;> rfl

section Steps

variable [Platform] {before after : Contents}

theorem Step.lockStep (step : event.Step before after) (account : AccountId) :
    event.LockStep account (before.lockOf account) (after.lockOf account) := by
  cases event with
  | quiet => exact .of_kept rfl (step.accounts account).lock
  | redenominated =>
    rw [step]
    exact .scaled rfl (unlock_redenominated ..)
  | executed env config outcome =>
    obtain ⟨index, receipt, ending⟩ := outcome
    obtain ⟨tx, isTx, ended⟩ := step
    cases ending with
    | applied rent =>
      obtain ⟨⟨middle, applied, -, kept⟩, -⟩ := ended
      have raised := applied.applied.toRaised.kept kept.accounts
      have isApplied : applied? (.executed env config ⟨index, receipt, .applied rent⟩) =
          some ⟨env.context.blockHeight, config, tx⟩ := by
        rw [applied?, isTx]
        rfl
      by_cases isSender : account = tx.sender
      · exact .changed _ isApplied isSender.symm (isSender ▸ raised.lock)
      · refine .kept (fun other isOther => ?_) (raised.others account isSender).lock
        cases isApplied.symm.trans isOther
        exact Ne.symm isSender
    | merged =>
      refine .of_kept rfl ?_
      by_cases isSender : account = tx.sender
      · exact isSender ▸ ended.1.raised.lock
      · exact (ended.1.raised.others account isSender).lock
    | failed =>
      refine .of_kept rfl ?_
      rw [ended.1]
      have failed := before.failed_failTx env.failedFee tx
      by_cases isSender : account = tx.sender
      · exact isSender ▸ failed.lock
      · exact (failed.others account isSender).lock
  | rewarded proposer amount =>
    rw [step]
    exact .of_kept rfl ((before.received_credit proposer amount).accounts account).lock
  | hooked config height proposer =>
    refine .of_kept rfl ?_
    rw [step, Contents.lockOf, Contents.lockOf, Contents.accounts_hooked]
    exact .refl _

end Steps

/-! ## Deposits and claims -/

/-- Stake of the account moves to its bucket; it may be claimed from the release on. -/
def Deposits (account : AccountId) (entry : LedgerEvent × Contents) (after : Contents)
    (release : ℕ) : Prop :=
  (entry.2.lockOf account).pending < (after.lockOf account).pending ∧
    ∃ applied delay, entry.1.applied? = some applied ∧ applied.tx.sender = account ∧
      payloadDelay applied.config.openValidatorParams applied.tx.payload = some delay ∧
        applied.height + delay = release

def Claims (account : AccountId) (event : LedgerEvent) (height : ℕ) : Prop :=
  ∃ applied, event.applied? = some applied ∧ applied.tx.sender = account ∧
    applied.tx.payload = .claimUnbond ∧ applied.height = height

/-- What was deposited is not claimed before its release, as long as the bucket was not
emptied in between. -/
def Locked (account : AccountId) (entries : List (LedgerEvent × Contents)) : Prop :=
  ∀ earlier deposit middle claim later, entries = earlier ++ deposit :: (middle ++ claim :: later) →
    ∀ next release height, (middle ++ [claim]).head? = some next →
      Deposits account deposit next.2 release →
      (∀ entry ∈ middle ++ [claim], 0 < (entry.2.lockOf account).pending) →
      Claims account claim.1 height → release ≤ height

/-- The account does not unbond while its bucket has a later unlock height than the unbonding
delay gives, and its unlock heights do not overflow. -/
structure Patient (account : AccountId) (entry : LedgerEvent × Contents) : Prop where
  unbond : ∀ applied amount, entry.1.applied? = some applied → applied.tx.sender = account →
    applied.tx.payload = .unbond amount → (entry.2.lockOf account).pending = 0 ∨
      (entry.2.lockOf account).unlock ≤ applied.height + UNBONDING_DELAY_BLOCKS
  fits : ∀ applied delay, entry.1.applied? = some applied → applied.tx.sender = account →
    payloadDelay applied.config.openValidatorParams applied.tx.payload = some delay →
      applied.height + delay ≤ maxValue 64

section Locks

variable {entry : LedgerEvent × Contents} {after : Lock}

theorem LockStep.deposit {release : ℕ} (patient : Patient account entry)
    (step : entry.1.LockStep account (entry.2.lockOf account) (next.lockOf account))
    (deposits : Deposits account entry next release) : release ≤ (next.lockOf account).unlock := by
  obtain ⟨rises, applied, delay, isApplied, rfl, isDelay, rfl⟩ := deposits
  have fits := patient.fits applied delay isApplied rfl isDelay
  cases step with
  | kept others => exact absurd rfl (others applied isApplied)
  | scaled isScaled =>
    rw [isScaled] at isApplied
    cases isApplied
  | changed other isOther _ allows =>
    cases isOther.symm.trans isApplied
    unfold payloadDelay at isDelay
    split at isDelay
    next amount isPayload =>
      cases isDelay
      rw [isPayload] at allows
      rw [allows.2, saturatingAdd_of_le fits]
    next nodeId isPayload =>
      cases isDelay
      rw [isPayload] at allows
      rcases allows with kept | later
      · exact absurd kept.pending (Nat.not_le.mpr rises)
      · rw [later, deregisterUnlock, saturatingAdd_of_le fits]
        exact Nat.le_max_right _ _
    next => cases isDelay

/-- Apart from the migration, a bucket only grows by deposits. -/
theorem LockStep.deposits_of_lt
    (step : entry.1.LockStep account (entry.2.lockOf account) (next.lockOf account))
    (rises : (entry.2.lockOf account).pending < (next.lockOf account).pending) :
    entry.1 = .redenominated ∨ ∃ release, Deposits account entry next release := by
  have grows : ¬(entry.2.lockOf account).Kept (next.lockOf account) :=
    fun kept => Nat.not_lt.mpr kept.pending rises
  cases step with
  | scaled isScaled => exact .inl isScaled
  | kept _ kept => exact absurd kept grows
  | changed applied isApplied isSender allows =>
    right
    cases isPayload : applied.tx.payload <;> rw [isPayload] at allows
    case unbond | validatorDeregister =>
      exact ⟨_, rises, applied, _, isApplied, isSender, by rw [isPayload]; rfl, rfl⟩
    case claimUnbond =>
      have emptied := allows.2.2.1
      omega
    all_goals exact absurd allows grows

/-- As long as the bucket is not emptied its unlock height does not fall. -/
theorem LockStep.unlock_mono (patient : Patient account entry)
    (step : entry.1.LockStep account (entry.2.lockOf account) after)
    (pending : 0 < (entry.2.lockOf account).pending) (stillPending : 0 < after.pending) :
    (entry.2.lockOf account).unlock ≤ after.unlock := by
  cases step with
  | scaled _ same => exact same.ge
  | kept _ kept => exact kept.unlock.ge
  | changed applied isApplied isSender allows =>
    cases isPayload : applied.tx.payload <;> rw [isPayload] at allows
    case unbond amount =>
      have fits := patient.fits applied UNBONDING_DELAY_BLOCKS isApplied isSender
        (by rw [isPayload]; rfl)
      have early := patient.unbond applied amount isApplied isSender isPayload
      rw [allows.2, saturatingAdd_of_le fits]
      exact early.resolve_left pending.ne'
    case claimUnbond => exact absurd allows.2.2.1 stillPending.ne'
    case validatorDeregister nodeId =>
      rcases allows with kept | later
      · exact kept.unlock.ge
      · exact later ▸ Nat.le_max_left _ _
    all_goals exact allows.unlock.ge

theorem LockStep.unlock_le (step : entry.1.LockStep account (entry.2.lockOf account) after)
    (deposited : ∀ applied delay, entry.1.applied? = some applied → applied.tx.sender = account →
      payloadDelay applied.config.openValidatorParams applied.tx.payload = some delay →
        applied.height + delay ≤ limit) (bounded : (entry.2.lockOf account).unlock ≤ limit) :
    after.unlock ≤ limit := by
  cases step with
  | scaled _ same => exact same ▸ bounded
  | kept _ kept => exact kept.unlock ▸ bounded
  | changed applied isApplied isSender allows =>
    have early := fun delay => deposited applied delay isApplied isSender
    cases isPayload : applied.tx.payload <;> rw [isPayload] at allows early
    case unbond =>
      rw [allows.2]
      exact (saturatingAdd_le_add ..).trans (early _ rfl)
    case claimUnbond => exact allows.2.2.2.trans bounded
    case validatorDeregister =>
      rcases allows with kept | later
      · exact kept.unlock ▸ bounded
      · rw [later]
        exact Nat.max_le.mpr ⟨bounded, (saturatingAdd_le_add ..).trans (early _ rfl)⟩
    all_goals exact allows.unlock ▸ bounded

theorem LockStep.claim {height : ℕ}
    (step : entry.1.LockStep account (entry.2.lockOf account) after)
    (claims : Claims account entry.1 height) : (entry.2.lockOf account).unlock ≤ height := by
  obtain ⟨applied, isApplied, rfl, isPayload, rfl⟩ := claims
  cases step with
  | kept others => exact absurd rfl (others applied isApplied)
  | scaled isScaled =>
    rw [isScaled] at isApplied
    cases isApplied
  | changed other isOther _ allows =>
    cases isOther.symm.trans isApplied
    rw [isPayload] at allows
    exact allows.2.1

end Locks

section Runs

variable [Platform] {start finish : Contents} {middle later : List (LedgerEvent × Contents)}
variable {claim : LedgerEvent × Contents}

omit [Platform] in
theorem head?_upTo : (middle ++ claim :: later).head? = (middle ++ [claim]).head? := by
  cases middle <;> rfl

theorem unlock_le_claim (steps : Run.Steps (Run.Remembers Step) (middle ++ claim :: later) start
      finish)
    (pending : ∀ entry ∈ middle ++ [claim], 0 < (entry.2.lockOf account).pending)
    (patient : ∀ entry ∈ middle, Patient account entry) :
    (start.lockOf account).unlock ≤ (claim.2.lockOf account).unlock := by
  induction middle generalizing start with
  | nil =>
    obtain ⟨_, ⟨rfl, _⟩, _⟩ := steps
    exact le_rfl
  | cons entry middle ih =>
    obtain ⟨next, ⟨rfl, step⟩, rest⟩ := steps
    have others : ∀ other ∈ middle ++ [claim], 0 < (other.2.lockOf account).pending :=
      fun other member => pending other (List.mem_cons_of_mem _ member)
    obtain ⟨following, isHead⟩ : ∃ following, (middle ++ [claim]).head? = some following := by
      cases middle <;> exact ⟨_, rfl⟩
    have nextPending : 0 < (next.lockOf account).pending := by
      rw [← rest.head_eq (head?_upTo.trans isHead)]
      exact others following (List.mem_of_head? isHead)
    have once := (Step.lockStep step account).unlock_mono
      (patient entry List.mem_cons_self) (pending entry List.mem_cons_self) nextPending
    exact once.trans (ih rest others fun other member =>
      patient other (List.mem_cons_of_mem _ member))

variable {entries : List (LedgerEvent × Contents)}
  (steps : Run.Steps (Run.Remembers Step) entries start finish)

include steps

theorem unlock_le_of_deposits
    (deposited : ∀ entry ∈ entries, ∀ applied delay, entry.1.applied? = some applied →
      applied.tx.sender = account → payloadDelay applied.config.openValidatorParams
        applied.tx.payload = some delay → applied.height + delay ≤ limit)
    (bounded : (start.lockOf account).unlock ≤ limit) :
    ∀ entry ∈ entries, (entry.2.lockOf account).unlock ≤ limit := by
  induction entries generalizing start with
  | nil =>
    intro entry member
    cases member
  | cons entry entries ih =>
    obtain ⟨next, ⟨rfl, step⟩, rest⟩ := steps
    have nextBounded := (Step.lockStep step account).unlock_le
      (deposited entry List.mem_cons_self) bounded
    intro other member
    rcases List.mem_cons.mp member with rfl | inRest
    · exact bounded
    · exact ih rest
        (fun later isLater => deposited later (List.mem_cons_of_mem _ isLater)) nextBounded other
        inRest

theorem locked_of_patient (patient : ∀ entry ∈ entries, Patient account entry) :
    Locked account entries := by
  rintro earlier deposit middle claim later rfl next release height isNext deposits pending claims
  obtain ⟨_, -, ⟨between, ⟨rfl, step⟩, rest⟩⟩ := Run.steps_append.mp steps
  cases rest.head_eq (head?_upTo.trans isNext)
  have isPatient : ∀ entry ∈ deposit :: (middle ++ claim :: later), Patient account entry :=
    fun entry member => patient entry (List.mem_append_right _ member)
  obtain ⟨beforeClaim, -, ⟨afterClaim, ⟨rfl, claimed⟩, -⟩⟩ := Run.steps_append.mp rest
  calc release
    _ ≤ (next.2.lockOf account).unlock :=
        (Step.lockStep step account).deposit (isPatient deposit List.mem_cons_self) deposits
    _ ≤ (claim.2.lockOf account).unlock := unlock_le_claim rest pending fun entry member =>
        isPatient entry (List.mem_cons_of_mem _ (List.mem_append_left _ member))
    _ ≤ height := (Step.lockStep claimed account).claim claims

end Runs

end LedgerEvent

section Runs

variable [Platform]

/-- Every run has a trace.  In a trace a bucket only grows by deposits, and if the account is
patient its deposits are locked. -/
theorem unbonding_locked (executor : BlockExecutor) (store : StateStore)
    (blocks : List PinnedBlock) (account : AccountId) :
    let finish := Run.run executor.advance store blocks
    (∃ entries, executor.Traces store blocks entries finish) ∧
      ∀ entries, executor.Traces store blocks entries finish →
        Run.Steps (fun entry before after =>
          (before.lockOf account).pending < (after.lockOf account).pending →
            entry.1 = .redenominated ∨ ∃ release, LedgerEvent.Deposits account entry after release)
          entries store.toContents finish.toContents ∧
        ((∀ entry ∈ entries, LedgerEvent.Patient account entry) →
          LedgerEvent.Locked account entries) := by
  refine ⟨BlockExecutor.exists_traces executor store blocks, fun entries traces => ?_⟩
  refine ⟨traces.steps.mono ?_, LedgerEvent.locked_of_patient traces.steps⟩
  rintro entry - before after ⟨rfl, step⟩ rises
  exact (LedgerEvent.Step.lockStep step account).deposits_of_lt rises

end Runs

/-! ## A shortened wait -/

section ShortenedWait

open Checksum

/-- Balance, pending amount and unlock height of account 1 after each block. -/
def buckets (executor : BlockExecutor) (store : StateStore) :
    List PinnedBlock → List (ℕ × ℕ × ℕ)
  | [] => []
  | block :: blocks =>
    let next := executor.advance store block
    (next.toContents.balanceOf 1, (next.toContents.lockOf 1).pending,
      (next.toContents.lockOf 1).unlock) :: buckets executor next blocks

def delayedStore (delay : ℕ) : StateStore :=
  { accounts := .insert ∅ 1 { AccountState.default with balance := 10 ^ 18, stake := 50 }
    openValidatorParams := some { deregisterDelay := delay }
    openValidators := { records := .insert ∅ 7 ⟨1, 100, 0, .pending, 0⟩ } }

def ownBlock (height nonce : ℕ) (payload : TransactionPayload) : PinnedBlock :=
  ⟨⟨height, 5, [⟨nonce, 1, payload, ⟨[], []⟩⟩], 9, []⟩, [9]⟩

/-- A bond that is locked until height 1010 is claimed at height 111, after an unbond. -/
theorem bond_claimed_early :
    let fee := 21000 * 10 ^ 12
    buckets { vm := Vm.new } (delayedStore 1000)
      [ownBlock 10 0 (.validatorDeregister 7), ownBlock 11 1 (.unbond 50),
        ownBlock 111 2 .claimUnbond] =
      [(10 ^ 18 - fee, 100, 1010), (10 ^ 18 - 2 * fee, 150, 111),
        (10 ^ 18 - 3 * fee + 150, 0, 0)] := by
  decide +kernel

/-- Stake that is unbonded at height 10 and claimed at height 110. -/
def patientBlocks : List PinnedBlock := [ownBlock 10 0 (.unbond 50), ownBlock 110 1 .claimUnbond]

theorem patientBlocks_locked : ∃ entries,
    BlockExecutor.Traces { vm := Vm.new } (delayedStore 1000) patientBlocks entries
      (Run.run (BlockExecutor.advance { vm := Vm.new }) (delayedStore 1000) patientBlocks) ∧
    LedgerEvent.Locked 1 entries := by
  obtain ⟨⟨entries, traces⟩, locked⟩ :=
    unbonding_locked { vm := Vm.new } (delayedStore 1000) patientBlocks 1
  refine ⟨entries, traces, (locked entries traces).2 fun entry listed => ?_⟩
  have own : ∀ entry ∈ entries, ∀ applied, entry.1.applied? = some applied →
      applied.tx.payload = .unbond 50 ∧ applied.height = 10 ∨
        applied.tx.payload = .claimUnbond := by
    intro entry listed applied isApplied
    obtain ⟨block, isBlock, isTx, isHeight⟩ := traces.applied listed isApplied
    simp only [patientBlocks, List.mem_cons, List.not_mem_nil, or_false] at isBlock
    rcases isBlock with rfl | rfl
    · rw [List.mem_singleton.mp isTx]
      exact .inl ⟨rfl, isHeight⟩
    · rw [List.mem_singleton.mp isTx]
      exact .inr rfl
  have deposited : ∀ entry ∈ entries, ∀ applied delay, entry.1.applied? = some applied →
      applied.tx.sender = 1 → payloadDelay applied.config.openValidatorParams
        applied.tx.payload = some delay → applied.height + delay ≤ 110 := by
    intro entry listed applied delay isApplied _ isDelay
    rcases own entry listed applied isApplied with ⟨isPayload, isHeight⟩ | isPayload
    · rw [isPayload] at isDelay
      cases isDelay
      rw [isHeight]
      rfl
    · rw [isPayload] at isDelay
      cases isDelay
  have unlocks := LedgerEvent.unlock_le_of_deposits traces.steps deposited (by decide +kernel)
  constructor
  · intro applied amount isApplied _ isUnbond
    rcases own entry listed applied isApplied with ⟨-, isHeight⟩ | isPayload
    · rw [isHeight]
      exact .inr (unlocks entry listed)
    · rw [isUnbond] at isPayload
      cases isPayload
  · intro applied delay isApplied isSender isDelay
    exact (deposited entry listed applied delay isApplied isSender isDelay).trans (by decide)

end ShortenedWait

end BoingNetwork
