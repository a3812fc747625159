import BoingNetwork.Execution.AppealWindow

/-!
# What an equivocation costs

The capital behind a validator is the stake and the unbonding bucket of its node account, and
the bond of its open-validator record.  A report slashes half of the first two.  The bond is
kept by the registry, and no slash reaches it.  A report whose validator and round are in the
appeal book already takes nothing, even if the recorded slash took nothing.
-/

namespace BoingNetwork

open Contents EStateM MachineInt

def AccountState.locked (account : AccountState) : ℕ :=
  account.stake + account.pendingUnbond

variable (contents : Contents) (before : Contents) (account : AccountState)
  {reporter id : AccountId}

namespace Contents

/-- The slashable coins of an account. -/
def lockedOf (contents : Contents) (id : AccountId) : ℕ :=
  contents.accounts[id]?.elim 0 AccountState.locked

def bondOf (contents : Contents) (id : AccountId) : ℕ :=
  contents.openValidators.records[id]?.elim 0 ValidatorRecord.bond

/-- The coins that are bonded for the membership of a validator. -/
def capitalOf (contents : Contents) (id : AccountId) : ℕ :=
  contents.lockedOf id + contents.bondOf id

/-- What a report takes from the validator. -/
def equivocationPenalty (contents : Contents) (validator : AccountId) (round : ℕ) : ℕ :=
  match contents.slashAppeals.findEquivocationAtRound validator round with
  | some _ => 0
  | none => slashAmount (min (contents.lockedOf validator) (maxValue 128))

theorem elim_write_account (id other : AccountId) (account : AccountState)
    (measure : AccountState → ℕ) :
    (contents.write (.account id) (some account)).accounts[other]?.elim 0 measure =
      if other = id then measure account else contents.accounts[other]?.elim 0 measure := by
  rw [accounts_write_account]
  by_cases same : other = id
  · rw [if_pos same.symm, if_pos same]
    rfl
  · rw [if_neg (Ne.symm same), if_neg same]

theorem elim_write_same {contents : Contents} {account next : AccountState}
    {measure : AccountState → ℕ} (found : contents.accounts[id]? = some account)
    (same : measure next = measure account) (other : AccountId) :
    (contents.write (.account id) (some next)).accounts[other]?.elim 0 measure =
      contents.accounts[other]?.elim 0 measure := by
  rw [elim_write_account]
  split
  next isId =>
    rw [isId, found, same]
    rfl
  next => rfl

theorem lockedOf_write (id other : AccountId) (account : AccountState) :
    (contents.write (.account id) (some account)).lockedOf other =
      if other = id then account.locked else contents.lockedOf other :=
  contents.elim_write_account id other account AccountState.locked

theorem lockedOf_bumped {contents : Contents} {account : AccountState}
    (found : contents.accounts[id]? = some account) (other : AccountId) :
    (contents.write (.account id) (some { account with nonce := account.nonce + 1 })).lockedOf
      other = contents.lockedOf other := by
  have same : AccountState.locked { account with nonce := account.nonce + 1 } = account.locked :=
    rfl
  exact elim_write_same found same other

theorem lockedOf_credit (id other : AccountId) (amount : ℕ) :
    (contents.credit id amount).lockedOf other = contents.lockedOf other := by
  unfold credit
  split
  next => rfl
  next =>
    rw [deposit, lockedOf_write]
    split
    next same =>
      rw [same, lockedOf]
      cases contents.accounts[id]? <;> rfl
    next => rfl

theorem bondOf_credit (id other : AccountId) (amount : ℕ) :
    (contents.credit id amount).bondOf other = contents.bondOf other := by
  unfold credit
  split <;> rfl

end Contents

theorem slashAmount_zero : slashAmount 0 = 0 := rfl

theorem slashAccount_fst : (slashAccount account).1 = slashAmount (slashableStake account) := by
  unfold slashAccount
  simp only
  split
  next nothing => rw [nothing, slashAmount_zero]
  next => rfl

theorem slashAccount_locked :
    (slashAccount account).2.locked + slashAmount (slashableStake account) = account.locked := by
  have enough := slashAmount_le (slashableStake account)
  unfold slashAccount
  simp only
  split
  next nothing => rw [nothing, slashAmount_zero, Nat.add_zero]
  next =>
    simp only [debitSlashable, AccountState.locked, slashableStake,
      saturatingAdd] at enough ⊢
    omega

/-- Half of the capital is no more than the slash, if the product does not saturate. -/
theorem half_le_slashAmount_iff {locked bond : ℕ}
    (fits : locked * EQUIVOCATION_SLASH_BPS ≤ maxValue 128) :
    (locked + bond) / 2 ≤ slashAmount (min locked (maxValue 128)) ↔
      locked + bond ≤ 1 ∨ bond = 0 ∨ (bond = 1 ∧ locked % 2 = 0) ∨ (locked = 1 ∧ bond ≤ 2) := by
  have bounded : locked ≤ maxValue 128 :=
    (Nat.le_mul_of_pos_right _ (by decide)).trans fits
  rw [min_eq_left bounded, slashAmount, saturatingMul, min_eq_left fits]
  have half : locked * EQUIVOCATION_SLASH_BPS / 10000 = locked / 2 := by
    unfold EQUIVOCATION_SLASH_BPS
    omega
  rw [half]
  by_cases small : locked / 2 = 0
  · rw [if_pos small]
    omega
  · rw [if_neg small]
    omega

section Report

variable [Platform] {vm : Vm} {height : ℕ} {evidence : EquivocationEvidence}

theorem leads_slashEquivocationStake_capital {Error : Type} {validator : AccountId} {slashId : ℕ} :
    Leads (slashEquivocationStake validator slashId : Quiet Error ℕ) before fun amount after =>
      amount = slashAmount (min (before.lockedOf validator) (maxValue 128)) ∧
        after.lockedOf validator + amount = before.lockedOf validator ∧
        after.bondOf validator = before.bondOf validator ∧
        after.slashAppeals = before.slashAppeals := by
  refine .quietly (.bind (.alter (fun absent => .pure ?_) fun account found =>
    .bind (.creditAccount (.pure ?_))))
  · have nothing : before.lockedOf validator = 0 := by rw [lockedOf, absent]; rfl
    rw [nothing]
    exact ⟨rfl, rfl, rfl, rfl⟩
  · have locked : before.lockedOf validator = account.locked := by
      rw [lockedOf, found]; rfl
    have amount := slashAccount_fst account
    have taken := slashAccount_locked account
    rw [lockedOf_credit, lockedOf_write, if_pos rfl, locked,
      bondOf_credit, slashAppeals_credit]
    exact ⟨amount, amount ▸ taken, rfl, rfl⟩

theorem leads_slashEvidence_capital : Leads (slashEvidence vm height evidence) before fun _ after =>
      after.capitalOf evidence.voteA.validator +
          before.equivocationPenalty evidence.voteA.validator evidence.voteA.round =
        before.capitalOf evidence.voteA.validator := by
  unfold slashEvidence
  split
  next => exact .fail
  next =>
    refine .bind (.ofExcept fun _ _ => .bind (.look fun config => ?_))
    have seen : before.settled.slashAppeals.findEquivocationAtRound evidence.voteA.validator
      evidence.voteA.round = before.slashAppeals.findEquivocationAtRound evidence.voteA.validator
      evidence.voteA.round := rfl
    rw [seen]
    unfold equivocationPenalty
    cases before.slashAppeals.findEquivocationAtRound evidence.voteA.validator
        evidence.voteA.round with
    | some existing => exact .pure rfl
    | none =>
      dsimp only
      refine .bind ((leads_slashEquivocationStake_capital before).mono
        fun amount middle taken => ?_)
      refine .bind (.onAppeals fun _ next ran => .pure ?_)
      have same : (middle.setRegistry .slashAppeals next).capitalOf evidence.voteA.validator =
          middle.capitalOf evidence.voteA.validator := rfl
      obtain ⟨isAmount, locked, bond, -⟩ := taken
      rw [same, capitalOf, capitalOf, bond, ← isAmount]
      omega

theorem leads_executeReportEquivocation_capital :
    Leads (executeReportEquivocation vm height evidence : Handler reporter) before fun _ after =>
      after.capitalOf evidence.voteA.validator +
          before.equivocationPenalty evidence.voteA.validator evidence.voteA.round =
        before.capitalOf evidence.voteA.validator := by
  refine .after ((leads_slashEvidence_capital before).mono fun slashId middle taken =>
    .bumpSenderNonce fun account found => ?_)
  have kept : (middle.write (.account reporter)
      (some { account with nonce := account.nonce + 1 })).lockedOf evidence.voteA.validator =
        middle.lockedOf evidence.voteA.validator :=
    lockedOf_bumped found _
  rw [capitalOf, kept]
  exact taken

theorem capitalOf_executeReportEquivocation {before after : StateStore}
    {outcome : ℕ × VmExecutionResult}
    (ran : (executeReportEquivocation vm height evidence :
      Handler reporter).run before = .ok outcome after) :
    after.capitalOf evidence.voteA.validator +
        before.equivocationPenalty evidence.voteA.validator evidence.voteA.round =
      before.capitalOf evidence.voteA.validator := by
  have taken := ends_of_ok
    (leads_executeReportEquivocation_capital before.toContents before rfl) ran
  exact taken

/-- A report takes half of the capital exactly if the capital has no half, or the offence is not
in the book and the slash of the account is as much; the latter holds, up to rounding, exactly if
the validator has no bond in the registry. -/
theorem equivocation_takes_half_iff {reporter : AccountId} {before after : StateStore}
    {outcome : ℕ × VmExecutionResult}
    (ran : (executeReportEquivocation vm height evidence :
      Handler reporter).run before = .ok outcome after) :
    let validator := evidence.voteA.validator
    let locked := before.lockedOf validator
    let bond := before.bondOf validator
    (before.capitalOf validator / 2 ≤
        before.capitalOf validator - after.capitalOf validator ↔
      before.capitalOf validator ≤ 1 ∨
        before.slashAppeals.findEquivocationAtRound validator evidence.voteA.round = none ∧
          before.capitalOf validator / 2 ≤
            slashAmount (min locked (maxValue 128))) ∧
    (locked * EQUIVOCATION_SLASH_BPS ≤ maxValue 128 →
      (before.capitalOf validator / 2 ≤ slashAmount (min locked (maxValue 128)) ↔
        before.capitalOf validator ≤ 1 ∨ bond = 0 ∨ (bond = 1 ∧ locked % 2 = 0) ∨
          (locked = 1 ∧ bond ≤ 2))) := by
  have taken := capitalOf_executeReportEquivocation ran
  refine ⟨?_, half_le_slashAmount_iff⟩
  have removed : before.capitalOf evidence.voteA.validator -
      after.capitalOf evidence.voteA.validator =
        before.equivocationPenalty evidence.voteA.validator evidence.voteA.round := by
    omega
  rw [removed, equivocationPenalty]
  cases before.slashAppeals.findEquivocationAtRound evidence.voteA.validator
      evidence.voteA.round with
  | some existing =>
    simp only [reduceCtorEq, false_and, or_false]
    omega
  | none =>
    simp only [true_and]
    omega

end Report

/-! ## A bonded open validator -/

section Bonded

open Checksum

def bondedStore : StateStore :=
  { accounts := .insert ∅ 1 .default
    openValidators :=
      { activatedAt := some 0
        active := [7]
        records := .insert ∅ 7 ⟨2, 100, 0, .active, 0⟩ } }

theorem bondedStore_capitalOf : bondedStore.capitalOf 7 = 100 := by
  decide +kernel

/-- The report of a member of the consensus set takes nothing of its bond. -/
theorem equivocation_spares_bond :
    bondedStore.openValidators.consensusSet {} = some [7] ∧
      bondedStore.slashAppeals.findEquivocationAtRound 7 5 = none ∧
        ∃ outcome after, reportLate.run bondedStore = .ok outcome after ∧
          bondedStore.capitalOf 7 = 100 ∧ after.capitalOf 7 = 100 := by
  refine ⟨by decide +kernel, rfl, ?_⟩
  obtain ⟨outcome, after, ran⟩ : reportLate.run.Succeeds bondedStore :=
    executeReportEquivocation_succeeds rfl lateEvidence_valid ⟨0, by decide +kernel, by decide⟩
  have taken : after.capitalOf 7 + bondedStore.equivocationPenalty 7 5 =
      bondedStore.capitalOf 7 := capitalOf_executeReportEquivocation ran
  have nothing : bondedStore.equivocationPenalty 7 5 = 0 := by decide +kernel
  exact ⟨outcome, after, ran, bondedStore_capitalOf, taken⟩

/-- The stake of an account is halved. -/
theorem equivocation_takes_half_of_stake : ∃ outcome after,
    reportLate.run lateStore = .ok outcome after ∧
      lateStore.capitalOf 7 / 2 ≤ lateStore.capitalOf 7 - after.capitalOf 7 := by
  obtain ⟨outcome, after, ran⟩ := reportLate_succeeds
  have covers : lateStore.capitalOf 7 / 2 ≤
      slashAmount (min (lateStore.lockedOf 7) (maxValue 128)) := by
    decide +kernel
  refine ⟨outcome, after, ran, ?_⟩
  exact (equivocation_takes_half_iff ran).1.mpr (.inr ⟨rfl, covers⟩)

end Bonded

end BoingNetwork
