import BoingNetwork.Tokenomics.Fees

/-!
# Slashes, restores and treasury payouts

A slash moves bonded capital into an escrow account of its own, an approved restore moves
it back, and the treasury pays the voters of decided deploys.  All of them only move value.
-/

namespace BoingNetwork

open MachineInt

def UNBONDING_DELAY_BLOCKS : ℕ := 100
def EQUIVOCATION_SLASH_BPS : ℕ := 5000
def EQUIVOCATION_APPEAL_WINDOW_BLOCKS : ℕ := 1000

def slashEscrowAccount (slashId : ℕ) : AccountId :=
  wordOfBytes (asciiBytes "SLASH" ++ List.replicate 3 0 ++ leBytes 8 slashId ++
    List.replicate 15 0 ++ [1])

inductive SlashRestoreError where
  | insufficientEscrow (slashId needed available : ℕ)

def SlashRestoreError.display : SlashRestoreError → String
  | .insufficientEscrow slashId needed available =>
    s!"slash escrow underfunded for slash_id={slashId}: need {needed}, have {available} " ++
      "(fail-closed)"

def slashableStake (account : AccountState) : ℕ :=
  saturatingAdd 128 account.stake account.pendingUnbond

def debitSlashable (account : AccountState) (amount : ℕ) : AccountState :=
  let fromStake := min amount account.stake
  { account with
    stake := account.stake - fromStake
    pendingUnbond := account.pendingUnbond - (amount - fromStake) }

/-- Half of the slashable capital, and at least one unit. -/
def slashAmount (slashable : ℕ) : ℕ :=
  let share := saturatingMul 128 slashable EQUIVOCATION_SLASH_BPS / 10000
  if share = 0 then min 1 slashable else share

def slashAccount (account : AccountState) : ℕ × AccountState :=
  let slashable := slashableStake account
  if slashable = 0 then (0, account)
  else (slashAmount slashable, debitSlashable account (slashAmount slashable))

theorem slashAmount_le (slashable : ℕ) : slashAmount slashable ≤ slashable := by
  have share : saturatingMul 128 slashable EQUIVOCATION_SLASH_BPS ≤ slashable * 5000 :=
    min_le_left _ _
  unfold slashAmount
  simp only
  split <;> omega

theorem debitSlashable_worth {account : AccountState} {amount : ℕ}
    (enough : amount ≤ slashableStake account) :
    (debitSlashable account amount).worth + amount = account.worth := by
  simp only [slashableStake, saturatingAdd, debitSlashable, AccountState.worth] at *
  omega

variable (account : AccountState) (contents : Contents) (id : AccountId)

theorem slashAccount_worth :
    (slashAccount account).2.worth + (slashAccount account).1 = account.worth := by
  unfold slashAccount
  simp only
  split
  next => rfl
  next => exact debitSlashable_worth (slashAmount_le _)

theorem slashAccount_nonce : (slashAccount account).2.nonce = account.nonce := by
  unfold slashAccount
  simp only
  split <;> rfl

theorem slashAccount_lock : account.lock.Kept (slashAccount account).2.lock := by
  unfold slashAccount
  simp only
  split
  next => exact .refl _
  next => exact ⟨Nat.sub_le .., rfl⟩

def restoredStake (amount : ℕ) : Option AccountState → AccountState
  | some account => { account with stake := saturatingAdd 128 account.stake amount }
  | none => { AccountState.default with stake := amount }

theorem Contents.received_restoredStake (amount : ℕ) :
    contents.Received amount (contents.write (.account id)
      (some (restoredStake amount contents.accounts[id]?))) := by
  apply Received.of_account
  · cases contents.accounts[id]? <;> rfl
  · unfold lockOf
    cases contents.accounts[id]? <;> rfl
  · intro fits
    cases found : contents.accounts[id]? with
    | none => simp [restoredStake, AccountState.worth, AccountState.default]
    | some account =>
      rw [found, FiniteMap.entryWeight_some] at fits
      simp only [restoredStake, AccountState.worth, saturatingAdd,
        maxValue, SUPPLY_LIMIT, FiniteMap.entryWeight_some] at fits ⊢
      omega

def AccountState.withdraw (amount : ℕ) (account : AccountState) : PUnit × AccountState :=
  (⟨⟩, { account with balance := account.balance - amount })

def Contents.balanceOf (contents : Contents) (id : AccountId) : ℕ :=
  (contents.accounts[id]?.map AccountState.balance).getD 0

theorem Contents.balanceOf_le_supply : contents.balanceOf id ≤ contents.supply := by
  unfold balanceOf
  cases found : contents.accounts[id]? with
  | none => exact Nat.zero_le _
  | some account =>
    have owned := worth_le_supply found
    simp only [AccountState.worth, Option.map_some, Option.getD_some] at owned ⊢
    omega

def Contents.stakeOf (contents : Contents) (id : AccountId) : ℕ :=
  (contents.accounts[id]?.map AccountState.stake).getD 0

/-- What each voter gets and what the treasury pays: the reward, or an even split. -/
def voterPayout (rewardEach available count : ℕ) : ℕ × ℕ :=
  let want := saturatingMul 128 rewardEach count
  if available ≥ want then (rewardEach, want)
  else
    let each := available / count
    (each, saturatingMul 128 each count)

theorem voterPayout_le (rewardEach available count : ℕ) :
    (voterPayout rewardEach available count).2 ≤ available := by
  have split : available / count * count ≤ available := Nat.div_mul_le_self ..
  unfold voterPayout saturatingMul
  simp only
  split
  next enough => exact enough
  next => exact (min_le_left _ _).trans split

/-- The voters get what the treasury pays, unless it owns every unit there can be. -/
theorem voterPayout_eq {rewardEach available count : ℕ} (bounded : available < SUPPLY_LIMIT) :
    (voterPayout rewardEach available count).1 * count =
      (voterPayout rewardEach available count).2 := by
  have split : available / count * count ≤ available := Nat.div_mul_le_self ..
  unfold voterPayout saturatingMul maxValue
  simp only [SUPPLY_LIMIT] at *
  split
  next enough =>
    dsimp only
    omega
  next =>
    dsimp only
    omega

section Commands

variable [Crypto] {Error : Type}

def slashEquivocationStake (validator : AccountId) (slashId : ℕ) : Quiet Error ℕ :=
  Act.quietly (do
      match ← Act.alter validator slashAccount with
      | none => return 0
      | some amount =>
        creditAccount (slashEscrowAccount slashId) amount
        return amount)
    fun before => .bind (.alter (fun _ => .pure (.refl before)) fun account found =>
      .bind (.creditAccount (.pure
        ((Contents.Paid.of_account found (slashAccount_nonce account) (slashAccount_lock account)
          fun _ => slashAccount_worth account).received (fun _ => rfl)
            (Contents.received_credit ..)))))

theorem slashEquivocationStake_total (validator : AccountId) (slashId : ℕ) :
    (slashEquivocationStake validator slashId : Quiet Error ℕ).Total := by
  apply Within.Total.bind (Act.alter_total _ _)
  intro slashed
  cases slashed with
  | none => exact .pure _
  | some amount => exact .bind (creditAccount_total _ _) fun _ => .pure _

def debitSlashRestoreSource (slashId amount : ℕ) : Act SlashRestoreError PUnit :=
  if amount = 0 then pure ⟨⟩
  else do
    let view ← ledgerModel.look
    let escrow := slashEscrowAccount slashId
    if view.contents.balanceOf escrow ≥ amount then
      let _ ← Act.alter escrow (AccountState.withdraw amount)
    else if view.contents.balanceOf escrow > 0 then
      Within.fail (.insufficientEscrow slashId amount (view.contents.balanceOf escrow))
    else if view.contents.balanceOf FEE_BURN_SINK < amount then
      Within.fail (.insufficientEscrow slashId amount (view.contents.balanceOf FEE_BURN_SINK))
    else
      let _ ← Act.alter FEE_BURN_SINK (AccountState.withdraw amount)

theorem leads_withdraw {before : Contents} {id : AccountId} {amount : ℕ}
    (funded : before.balanceOf id ≠ 0) (enough : amount ≤ before.balanceOf id) :
    Leads (Act.alter id (AccountState.withdraw amount) : Act Error (Option PUnit)) before
      fun _ after => before.Paid amount after := by
  apply Leads.alter
  · intro absent
    rw [Contents.balanceOf, absent] at funded
    exact absurd rfl funded
  · intro account found
    rw [Contents.balanceOf, found] at enough
    exact Contents.paid_debit found enough

theorem leads_debitSlashRestoreSource (before : Contents) (slashId amount : ℕ) :
    Leads (debitSlashRestoreSource slashId amount) before fun _ after =>
      before.Paid amount after := by
  unfold debitSlashRestoreSource
  split
  next zero =>
    rw [zero]
    exact .pure (Contents.Paid.zero before)
  next positive =>
    refine .bind (.look fun config => ?_)
    have seen : ∀ id, before.settled.balanceOf id = before.balanceOf id := fun _ => rfl
    simp only [seen]
    split
    next enough =>
      exact .bind ((leads_withdraw (by omega) enough).mono fun _ _ paid => .pure paid)
    next =>
      split
      next => exact .fail
      next =>
        split
        next => exact .fail
        next enough =>
          exact .bind ((leads_withdraw (by omega) (Nat.not_lt.mp enough)).mono
            fun _ _ paid => .pure paid)

def restoreSlash (account : AccountId) (slashId amount : ℕ)
    (restored : Option AccountState → AccountState)
    (received : ∀ contents : Contents, contents.Received amount (contents.write (.account account)
      (some (restored contents.accounts[account]?)))) : Quiet SlashRestoreError ℕ :=
  Act.quietly (do
      debitSlashRestoreSource slashId amount
      if amount = 0 then return 0
      else
        Act.place account restored
        return amount)
    fun before => .bind ((leads_debitSlashRestoreSource before slashId amount).mono
      fun _ middle paid => by
        split
        next zero =>
          rw [zero] at paid
          exact .pure paid.kept
        next => exact .bind (.place (.pure (paid.received (fun _ => rfl) (received middle)))))

def restoreEquivocationSlash (validator : AccountId) (slashId amount : ℕ) :
    Quiet SlashRestoreError ℕ :=
  restoreSlash validator slashId amount (restoredStake amount)
    fun contents => contents.received_restoredStake validator amount

def restoreFailedServePenalty (provider : AccountId) (slashId amount : ℕ) :
    Quiet SlashRestoreError ℕ :=
  restoreSlash provider slashId amount (Contents.deposited amount)
    fun contents => contents.received_deposit provider amount

theorem leads_creditAll (voters : List AccountId) (amount : ℕ) (before : Contents) :
    Leads (voters.forM (creditAccount · amount) : Act Error PUnit) before fun _ after =>
      before.Received (amount * voters.length) after := by
  induction voters generalizing before with
  | nil => exact .pure (.zero before)
  | cons voter voters ih =>
    refine .bind (.creditAccount ((ih _).mono fun _ after received => ?_))
    have both := (before.received_credit voter amount).trans received
    rw [List.length_cons, Nat.mul_succ, Nat.add_comm]
    exact both

def payQaCountedVoters (voters : List AccountId) (rewardEach : ℕ) : Quiet Error ℕ :=
  Act.quietly (do
      let available := (← ledgerModel.look).contents.balanceOf PROTOCOL_TREASURY
      let payout := voterPayout rewardEach available voters.length
      if voters = [] ∨ rewardEach = 0 ∨ available = 0 ∨ payout.1 = 0 then return 0
      else
        let _ ← Act.alter PROTOCOL_TREASURY (AccountState.withdraw payout.2)
        voters.forM (creditAccount · payout.1)
        return payout.2)
    fun before => by
      refine .bind (.look fun config => ?_)
      have seen : before.settled.balanceOf PROTOCOL_TREASURY =
        before.balanceOf PROTOCOL_TREASURY := rfl
      simp only [seen]
      split
      next => exact .pure (.refl before)
      next due =>
        simp only [not_or] at due
        refine .bind ((leads_withdraw due.2.2.1 (voterPayout_le ..)).mono fun _ middle paid => ?_)
        refine .bind ((leads_creditAll voters _ middle).mono fun _ after received => .pure ?_)
        refine paid.received (fun fits => voterPayout_eq ?_) received
        exact (before.balanceOf_le_supply _).trans_lt fits

end Commands

end BoingNetwork
