import BoingNetwork.Execution.Basic

/-!
# Moves of native value

The commands of execution that move value or create accounts: native moves, transfers,
new contract accounts, and the bonds of registered validators.
-/

namespace BoingNetwork

open Contents EStateM FiniteMap

variable {change : LockChange} {before : Contents} {sender : AccountId} (amount : ℕ) (value : Value)

namespace Contents

variable {rent amount : ℕ}
variable {start middle finish : Contents}

theorem Charged.received (first : start.Charged change sender (rent + amount) middle)
    (second : middle.Received amount finish) : start.Charged change sender rent finish where
  toRaised := first.toRaised.kept second.accounts
  supply fits := by
    have paid := first.supply fits
    rw [second.supply (by omega)]
    omega
  appeals := first.appeals.trans second.appeals
  pool keeps := second.within.trans (first.pool keeps)

theorem Paid.charged {account next : AccountState} (paid : start.Paid amount middle)
    (found : middle.accounts[sender]? = some account) (nonce : next.nonce = account.nonce + 1)
    (bounded : next.nonce < 2 ^ 64) (lock : change.Allows account.lock next.lock)
    (worth : account.worth + amount < SUPPLY_LIMIT → next.worth = account.worth + amount) :
    start.Charged change sender 0 (middle.write (.account sender) (some next)) where
  toRaised := .of_kept paid.accounts (.of_account found nonce bounded lock)
  supply fits := by
    have taken := paid.supply fits
    have owned := worth_le_supply found
    have changed := middle.supply_write_account sender (some next)
    rw [found, entryWeight_some, entryWeight_some] at changed
    omega
  appeals := paid.appeals
  pool _ := paid.within

end Contents

section Records

variable {Error Value : Type} {address : AccountId}

def addressInUse (contents : Contents) (address : AccountId) : Bool :=
  contents.accounts.contains address || contents.contractCode.contains address

theorem Contents.kept_insert (free : before.accounts[address]? = none) :
    before.Kept (before.write (.account address) (some AccountState.default)) := by
  refine (Paid.zero before).received (fun _ => rfl) (.of_account ?_ ?_ ?_)
  · rw [free]
    rfl
  · rw [lockOf, free]
    rfl
  · intro _
    rw [free]
    rfl

theorem free_of_not_inUse {contents : Contents}
    (notUsed : ¬addressInUse contents.settled address = true) :
    contents.accounts[address]? = none := by
  have absent : ¬address ∈ contents.accounts := by
    intro member
    exact notUsed (by simp [addressInUse, settled, member])
  exact Std.ExtTreeMap.getElem?_eq_none absent

/-- No change of the record but the nonce. -/
theorem IsFair.pure {value : Value} :
    IsFair .keep (pure (0, value) : EStateM Error AccountState (ℕ × Value)) :=
  fun _ => ⟨rfl, fun _ => rfl, .refl _⟩

def debitSender (amount : ℕ) (value : Value) :
    EStateM VmFault AccountState (ℕ × Value) := do
  let account ← get
  if account.balance < amount then throw (.error .insufficientBalance)
  else
    set { account with balance := account.balance - amount }
    return (amount, value)

theorem debitSender_ends (account : AccountState) :
    (debitSender amount value).Ends account (fun _ => True) fun outcome next =>
      next.nonce = account.nonce ∧ (outcome.1 = amount ∧ next.worth + amount = account.worth ∧
        LockChange.keep.Allows account.lock next.lock) := by
  simp only [debitSender, ends_bind, ends_get]
  split
  next => trivial
  next enough =>
    refine ⟨rfl, rfl, ?_, .refl _⟩
    simp only [AccountState.worth]
    omega

theorem isFair_debitSender : IsFair .keep (debitSender amount value) := by
  intro account
  apply (debitSender_ends amount value account).imp
  intro outcome next ⟨nonce, taken, worth, lock⟩
  exact ⟨nonce, fun _ => by rw [taken, worth], lock⟩

end Records

section Commands

variable [Crypto] {Error Value : Type}

/-- The handler of a payload. -/
abbrev Handler (sender : AccountId) : Type := Charge sender VmFault VmExecutionResult

abbrev ReviewHandler (sender : AccountId) : Type := ReviewCharge sender VmFault VmExecutionResult

/-- Ends with an error of execution. -/
def reject {effect : Effect StateStore} (reason : VmError) :
    Within ledgerModel.conduct effect VmFault Value :=
  Within.fail (.error reason)

def check {effect : Effect StateStore} (result : Except VmError Value) :
    Within ledgerModel.conduct effect VmFault Value :=
  Within.ofExcept .error result

/-! ## Moves -/

def creditedTo (credited amount : ℕ) : Option AccountState → AccountState
  | some account => { account with balance := credited }
  | none => { AccountState.default with balance := amount }

def takeBalance (amount : ℕ) : EStateM VmFault AccountState PUnit :=
  modify fun account => { account with balance := account.balance - amount }

/-- Moves an amount between two accounts; a missing target is created. -/
def moveNativeAct (source target : AccountId) (amount : ℕ) : Act VmFault PUnit := do
  let view ← ledgerModel.look
  if view.contents.balanceOf source < amount then reject .insufficientBalance
  else if amount = 0 ∨ source = target then pure ⟨⟩
  else match MachineInt.checkedAdd 128 (view.contents.balanceOf target) amount with
    | none => reject .insufficientBalance
    | some credited => do
      Act.withAccount source (.error .accountNotFound) (takeBalance amount)
      Act.place target (creditedTo credited amount)

theorem leads_moveNative {source target : AccountId} {amount : ℕ} (before : Contents) :
    Leads (moveNativeAct source target amount) before fun _ after => before.Kept after := by
  refine .bind (.look fun config => ?_)
  have seen : ∀ id, before.settled.balanceOf id = before.balanceOf id := fun _ => rfl
  simp only [seen]
  split
  next => exact .fail
  next funded =>
    split
    next => exact .pure (.refl before)
    next moves =>
      obtain ⟨-, apart⟩ := not_or.mp moves
      split
      next => exact .fail
      next credited added =>
        obtain ⟨rfl, -⟩ := MachineInt.checkedAdd_eq_some.mp added
        refine .bind (.withAccount fun account _ next found ran => .place ?_)
        cases ran
        have enough : amount ≤ account.balance := by
          rw [balanceOf, found] at funded
          exact Nat.not_lt.mp funded
        refine (paid_debit found enough).received (fun _ => rfl) (.of_account ?_ ?_ ?_)
        · rw [accounts_write_account, if_neg apart]
          cases before.accounts[target]? <;> rfl
        · rw [lockOf_write_account, if_neg apart, lockOf,
            accounts_write_account, if_neg apart]
          cases before.accounts[target]? <;> rfl
        · intro _
          rw [accounts_write_account, if_neg apart, balanceOf]
          cases before.accounts[target]? with
          | none => simp [creditedTo, AccountState.worth, AccountState.default]
          | some account =>
            simp only [creditedTo, AccountState.worth, Option.map_some, Option.getD_some,
              entryWeight_some]
            omega

def moveNative (source target : AccountId) (amount : ℕ) : Quiet VmFault PUnit :=
  (moveNativeAct source target amount).quietly leads_moveNative

/-! ## New accounts -/

/-- A new contract account. -/
def createAccount (address : AccountId) : Quiet VmFault PUnit :=
  Act.quietly (do
      if addressInUse (← ledgerModel.look).contents address then reject .deploymentAddressInUse
      else Act.insertAccount address .default)
    fun before => .bind (.look fun config => by
      split
      next => exact .fail
      next free => exact .writeEntry (kept_insert (free_of_not_inUse free)))

/-! ## Charges -/

def bumpSenderNonce (value : Value) : Charge sender VmFault Value :=
  Charge.touch (.error .accountNotFound) (.error .nonceOverflow) (pure (0, value)) .pure

theorem Leads.bumpSenderNonce {value : Value} {post : ℕ × Value → Contents → Prop}
    (reached : ∀ account, before.accounts[sender]? = some account → post (0, value)
      (before.write (.account sender) (some { account with nonce := account.nonce + 1 }))) :
    Leads (bumpSenderNonce value : Charge sender VmFault Value) before post := by
  refine .touch fun account outcome next found charged => ?_
  obtain ⟨updated, same, rfl⟩ := eq_of_chargedRecord charged
  cases same
  exact reached account found

namespace Charge

/-- Always ends with the error. -/
def refuse (reason : VmError) : LockingCharge change sender VmFault Value :=
  Charge.after (reject reason : Quiet VmFault PEmpty) fun value => value.elim

def settle (recipient : AccountId) (amount : ℕ) (value : Value) :
    Command ledgerModel.conduct VmFault (ℕ × Value) fun outcome before after =>
      outcome.1 = 0 ∧ before.toContents.Received amount after.toContents :=
  Command.strengthen
    (do
      Act.deposit recipient amount
      pure (0, value) : Act VmFault (ℕ × Value))
    fun store => by
      have leads : Leads (do
          Act.deposit recipient amount
          pure (0, value) : Act VmFault (ℕ × Value)) store.toContents fun outcome after =>
            outcome.1 = 0 ∧ store.toContents.Received amount after :=
        .bind (.place (.pure ⟨rfl, store.toContents.received_deposit recipient amount⟩))
      exact leads store rfl

def deliver (charge : LockingCharge change sender VmFault Value) (recipient : AccountId) :
    LockingCharge change sender VmFault Value :=
  charge.andThen (fun outcome => settle recipient outcome.1 outcome.2) fun charged received => by
    rw [received.1]
    rw [← Nat.zero_add (Prod.fst _)] at charged
    exact charged.received received.2

end Charge

end Commands

end BoingNetwork
