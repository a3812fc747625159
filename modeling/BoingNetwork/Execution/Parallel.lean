import BoingNetwork.Execution.Executor

/-!
# Parallel execution of transfers

A batch of transfers may run on snapshots of the accounts that each of them declares, and
the snapshots are merged one after the other, each with its fee and its tip.  Any failure
reverts the attempt and runs the batch on the sequential path.  A merge writes back whole
accounts, so a fee that an earlier merge credited to one of them would be lost: from the v4
rules on, no declared account may be a fee receiver.
-/

namespace BoingNetwork

open EStateM FiniteMap

/-- The accounts that one transfer works on. -/
abbrev ExecutionView : Type := Std.ExtTreeMap AccountId AccountState

/-! ## Transfers on a view -/

namespace AccountState

/-- The sender of a transfer. -/
def spend (account : AccountState) (amount : ℕ) : AccountState :=
  { account with balance := account.balance - amount, nonce := account.nonce + 1 }

/-- What fees do not change. -/
def profile (account : AccountState) : ℕ × Lock := (account.nonce, account.lock)

end AccountState

namespace ExecutionView

def transferred (view : ExecutionView) (sender : AccountId) (account : AccountState)
    (recipient : AccountId) (amount : ℕ) : ExecutionView :=
  put (put view sender (some (account.spend amount))) recipient
    (some (Contents.deposited amount
      (put view sender (some (account.spend amount)))[recipient]?))

def executeTransfer (view : ExecutionView) (tx : Transaction) : Except VmError ExecutionView :=
  match view[tx.sender]? with
  | none => .error .accountNotFound
  | some account =>
    if account.nonce ≠ tx.nonce then .error (.invalidNonce account.nonce tx.nonce)
    else match tx.payload with
      | .transfer recipient amount =>
        if account.balance < amount then .error .insufficientBalance
        else if 2 ^ 64 ≤ account.nonce + 1 then .error .nonceOverflow
        else .ok (view.transferred tx.sender account recipient amount)
      | _ => .error (.notImplemented "Not a Transfer")

end ExecutionView

/-- The sender has this record and can make the transfer. -/
structure CanTransfer (tx : Transaction) (account : AccountState) (recipient : AccountId)
    (amount : ℕ) : Prop where
  payload : tx.payload = .transfer recipient amount
  nonce : account.nonce = tx.nonce
  enough : amount ≤ account.balance
  fits : account.nonce + 1 < 2 ^ 64

variable {tx : Transaction} (contents : Contents) {shares : FeeShares} {amount : ℕ}
  {account : AccountState} {view : ExecutionView} {before after : Contents}
  {sender feeRecipient : AccountId}

theorem ExecutionView.executeTransfer_eq_ok {next : ExecutionView}
    (ran : view.executeTransfer tx = .ok next) : ∃ account recipient amount,
      view[tx.sender]? = some account ∧ CanTransfer tx account recipient amount ∧
        next = view.transferred tx.sender account recipient amount := by
  unfold executeTransfer at ran
  split at ran
  next => cases ran
  next account found =>
    split at ran
    next => cases ran
    next nonce =>
      split at ran
      next recipient amount payload =>
        split at ran
        next => cases ran
        next enough =>
          split at ran
          next => cases ran
          next fits =>
            cases ran
            exact ⟨account, recipient, amount, found,
              ⟨payload, not_not.mp nonce, Nat.not_lt.mp enough, Nat.not_le.mp fits⟩, rfl⟩
      next => cases ran

namespace Contents

/-- The declared accounts that exist. -/
def snapshot (contents : Contents) (ids : List AccountId) : ExecutionView :=
  ids.foldl (fun view id => put view id contents.accounts[id]?) ∅

theorem getElem?_snapshot (ids : List AccountId) (id : AccountId) :
    (contents.snapshot ids)[id]? = if id ∈ ids then contents.accounts[id]? else none := by
  rw [snapshot, getElem?_foldl_put ids (fun id => contents.accounts[id]?)]
  rfl

def merge (contents : Contents) (view : ExecutionView) : Contents :=
  view.toList.foldl (fun contents entry => contents.write (.account entry.1) (some entry.2))
    contents

theorem merge_eq (view : ExecutionView) : contents.merge view = { contents with
      accounts := view.toList.foldl (fun accounts entry =>
        put accounts entry.1 (some entry.2)) contents.accounts } := by
  unfold merge
  induction view.toList generalizing contents with
  | nil => rfl
  | cons entry entries ih => exact ih _

theorem accounts_merge (view : ExecutionView) (id : AccountId) :
    (contents.merge view).accounts[id]? = view[id]?.or contents.accounts[id]? := by
  rw [merge_eq]
  exact getElem?_foldl_put_toList view contents.accounts id

def transferred (contents : Contents) (sender : AccountId) (account : AccountState)
    (recipient : AccountId) (amount : ℕ) : Contents :=
  (contents.write (.account sender) (some (account.spend amount))).deposit recipient amount

end Contents

theorem ExecutionView.getElem?_transferred (view : ExecutionView) (sender : AccountId)
    (account : AccountState) (recipient : AccountId) (amount : ℕ) (id : AccountId) :
    (view.transferred sender account recipient amount)[id]? =
      if recipient = id then some (Contents.deposited amount
        (if sender = recipient then some (account.spend amount) else view[recipient]?))
      else if sender = id then some (account.spend amount) else view[id]? := by
  simp only [transferred, getElem?_put]

/-! ## Profiles -/

namespace Contents

def profileOf (contents : Contents) (id : AccountId) : ℕ × Lock :=
  (contents.accounts[id]?.map AccountState.profile).getD (0, ⟨0, 0⟩)

/-- The account may have another balance, and it may be new. -/
structure SameProfile (before after : Contents) (id : AccountId) : Prop where
  profile : after.profileOf id = before.profileOf id
  stays : before.accounts[id]?.isSome → after.accounts[id]?.isSome

theorem SameProfile.refl (id : AccountId) :
    contents.SameProfile contents id := ⟨rfl, fun isSome => isSome⟩

variable {id : AccountId}

theorem SameProfile.trans {start middle finish : Contents} (first : start.SameProfile middle id)
    (second : middle.SameProfile finish id) : start.SameProfile finish id :=
  ⟨second.profile.trans first.profile, fun isSome => second.stays (first.stays isSome)⟩

theorem SameProfile.of_eq (same : after.accounts[id]? = before.accounts[id]?) :
    before.SameProfile after id := by
  constructor
  · unfold profileOf
    rw [same]
  · intro isSome
    rw [same]
    exact isSome

theorem SameProfile.keepsAccount (same : before.SameProfile after id) :
    before.KeepsAccount after id := by
  obtain ⟨profile, stays⟩ := same
  unfold profileOf at profile
  constructor
  · unfold KeepsNonce nonceOf
    cases found : before.accounts[id]? with
    | none =>
      cases foundAfter : after.accounts[id]? with
      | none => exact .inl rfl
      | some account =>
        rw [found, foundAfter] at profile
        exact .inr ⟨rfl, congrArg some (congrArg Prod.fst profile)⟩
    | some account =>
      rw [found] at profile stays
      obtain ⟨next, foundAfter⟩ := Option.isSome_iff_exists.mp (stays rfl)
      rw [foundAfter] at profile ⊢
      exact .inl (congrArg some (congrArg Prod.fst profile))
  · have lock : after.lockOf id = before.lockOf id := by
      unfold lockOf
      cases found : before.accounts[id]? <;> cases foundAfter : after.accounts[id]? <;>
        rw [found, foundAfter] at profile <;> exact congrArg Prod.snd profile
    rw [lock]
    exact .refl _

theorem sameProfile_write {contents : Contents} {next : AccountState}
    (profile : next.profile = contents.profileOf id) (other : AccountId) :
    contents.SameProfile (contents.write (.account id) (some next)) other := by
  by_cases same : id = other
  · subst same
    constructor
    · rw [← profile, profileOf, accounts_write_account, if_pos rfl]
      rfl
    · intro _
      rw [accounts_write_account, if_pos rfl]
      rfl
  · apply SameProfile.of_eq
    rw [accounts_write_account, if_neg same]

theorem sameProfile_credit (receiver : AccountId) (amount : ℕ) (id : AccountId) :
    contents.SameProfile (contents.credit receiver amount) id := by
  unfold credit
  split
  next => exact .refl _ _
  next =>
    apply sameProfile_write
    unfold profileOf
    cases contents.accounts[receiver]? <;> rfl

theorem sameProfile_charge {contents : Contents} (found : contents.accounts[sender]? = some account)
    (amount : ℕ) (feeRecipient : AccountId) (shares : FeeShares) (id : AccountId) :
    contents.SameProfile (contents.charge sender account amount feeRecipient shares) id := by
  have debited : contents.SameProfile (contents.write (.account sender)
      (some { account with balance := account.balance - amount })) id := by
    apply sameProfile_write
    rw [profileOf, found]
    rfl
  exact debited.trans ((sameProfile_credit ..).trans
    ((sameProfile_credit ..).trans (sameProfile_credit ..)))

theorem accounts_credit_of_ne {receiver : AccountId} (amount : ℕ) (differ : id ≠ receiver) :
    (contents.credit receiver amount).accounts[id]? = contents.accounts[id]? := by
  unfold credit
  split
  next => rfl
  next => rw [deposit, accounts_write_account, if_neg differ.symm]

end Contents

/-- Fees are credited to this account. -/
def IsFeeReceiver (feeRecipient id : AccountId) : Prop :=
  id = feeRecipient ∨ id = PROTOCOL_TREASURY ∨ id = FEE_BURN_SINK

instance (feeRecipient id : AccountId) : Decidable (IsFeeReceiver feeRecipient id) :=
  inferInstanceAs (Decidable (_ ∨ _ ∨ _))

theorem Contents.accounts_charge_of_ne {contents : Contents} {id : AccountId}
    (notSender : id ≠ sender) (notReceiver : ¬IsFeeReceiver feeRecipient id) :
    (contents.charge sender account amount feeRecipient shares).accounts[id]? =
      contents.accounts[id]? := by
  obtain ⟨notRecipient, notOther⟩ := not_or.mp notReceiver
  obtain ⟨notTreasury, notBurn⟩ := not_or.mp notOther
  rw [charge, distribute, accounts_credit_of_ne _ _ notBurn,
    accounts_credit_of_ne _ _ notTreasury, accounts_credit_of_ne _ _ notRecipient,
    accounts_write_account, if_neg notSender.symm]

/-! ## Exact fees -/

def Contents.chargeOf (contents : Contents) (sender : AccountId) (amount : ℕ)
    (feeRecipient : AccountId) (shares : FeeShares) : Option Contents :=
  if amount = 0 then some contents
  else match contents.accounts[sender]? with
    | none => none
    | some account =>
      if account.balance < amount then none
      else some (contents.charge sender account amount feeRecipient shares)

def Contents.payFees (contents : Contents) (env : BlockEnv) (index : ℕ) (tx : Transaction)
    (gasUsed : ℕ) : Option Contents :=
  let fee := networkFeeAmountIn gasUsed tx.payload env.feePolicy env.denomination
  (contents.chargeOf tx.sender fee env.feeRecipient
    (splitFeeWithRemainder fee env.feePolicy env.feeRemainder)).bind fun paid =>
      paid.chargeOf tx.sender (env.tipAt index) env.feeRecipient
        (splitTip (env.tipAt index) env.feePolicy)

variable {env : BlockEnv} {views : List (ℕ × ExecutionView)} {batch : List ℕ} {gasUsed index : ℕ}
  {recipient : AccountId}

namespace Contents

section

variable (charged : before.chargeOf sender amount feeRecipient shares = some after)

include charged

theorem chargeOf_eq_some : amount = 0 ∧ after = before ∨ amount ≠ 0 ∧ ∃ account,
      before.accounts[sender]? = some account ∧ amount ≤ account.balance ∧
        after = before.charge sender account amount feeRecipient shares := by
  unfold chargeOf at charged
  split at charged
  next zero =>
    cases charged
    exact .inl ⟨zero, rfl⟩
  next positive =>
    split at charged
    next => cases charged
    next account found =>
      split at charged
      next => cases charged
      next enough =>
        cases charged
        exact .inr ⟨positive, account, found, Nat.not_lt.mp enough, rfl⟩

theorem sameProfile_chargeOf (id : AccountId) : before.SameProfile after id := by
  rcases chargeOf_eq_some charged with ⟨-, rfl⟩ | ⟨-, account, found, -, rfl⟩
  · exact .refl _ _
  · exact sameProfile_charge found ..

theorem accounts_chargeOf {id : AccountId} (notSender : id ≠ sender)
    (notReceiver : ¬IsFeeReceiver feeRecipient id) :
    after.accounts[id]? = before.accounts[id]? := by
  rcases chargeOf_eq_some charged with ⟨-, rfl⟩ | ⟨-, account, found, -, rfl⟩
  · rfl
  · exact accounts_charge_of_ne notSender notReceiver

end

theorem sameProfile_payFees (paid : before.payFees env index tx gasUsed = some after)
    (id : AccountId) : before.SameProfile after id := by
  obtain ⟨middle, charged, tipped⟩ := Option.bind_eq_some_iff.mp paid
  exact (sameProfile_chargeOf charged id).trans (sameProfile_chargeOf tipped id)

theorem accounts_payFees (paid : before.payFees env index tx gasUsed = some after)
    {id : AccountId} (notSender : id ≠ tx.sender)
    (notReceiver : ¬IsFeeReceiver env.feeRecipient id) :
    after.accounts[id]? = before.accounts[id]? := by
  obtain ⟨middle, charged, tipped⟩ := Option.bind_eq_some_iff.mp paid
  rw [accounts_chargeOf tipped notSender notReceiver,
    accounts_chargeOf charged notSender notReceiver]

end Contents

section Runs

variable [Platform]

theorem leads_chargeShares_eq :
    Leads (chargeShares sender amount feeRecipient shares) before fun _ after =>
      before.chargeOf sender amount feeRecipient shares = some after := by
  apply leads_chargeShares
  · intro zero
    rw [Contents.chargeOf, if_pos zero]
  · intro positive account found enough
    rw [Contents.chargeOf, if_neg positive, found]
    simp only [if_neg (Nat.not_lt.mpr enough)]

theorem yields_chargeShares
    (charged : before.chargeOf sender amount feeRecipient shares = some after) :
    Yields (chargeShares sender amount feeRecipient shares).run before ⟨⟩ after := by
  rcases Contents.chargeOf_eq_some charged with ⟨rfl, rfl⟩ | ⟨positive, account, found, enough, rfl⟩
  · exact Yields.pure
  · exact Yields.chargeShares positive found enough

theorem leads_chargeFees : Leads (chargeFees env index tx gasUsed) before fun _ after =>
      before.payFees env index tx gasUsed = some after := by
  refine .bind (.mapError ((Leads.quietly leads_chargeShares_eq).mono fun _ middle charged => ?_))
  refine .mapError ((Leads.quietly leads_chargeShares_eq).mono fun _ after tipped => ?_)
  exact Option.bind_eq_some_iff.mpr ⟨middle, charged, tipped⟩

theorem yields_chargeFees (paid : before.payFees env index tx gasUsed = some after) :
    Yields (Command.run (chargeFees env index tx gasUsed)) before ⟨⟩ after := by
  obtain ⟨middle, charged, tipped⟩ := Option.bind_eq_some_iff.mp paid
  exact (yields_chargeShares charged).adaptExcept.bind (yields_chargeShares tipped).adaptExcept

end Runs

/-! ## Merges -/

/-- A declared account is as in the snapshot, up to fees.  From the v4 rules on (`exact`) there
are no fees either. -/
structure FitsSnapshot (exact : Bool) (taken now : Contents) (id : AccountId) : Prop where
  profile : taken.SameProfile now id
  same : exact = true → now.accounts[id]? = taken.accounts[id]?

structure MergeReady (exact : Bool) (taken now : Contents) (tx : Transaction)
    (view : ExecutionView) : Prop where
  ran : (taken.snapshot tx.accessList.all).executeTransfer tx = .ok view
  declared : ∀ recipient amount, tx.payload = .transfer recipient amount →
    tx.sender ∈ tx.accessList.all ∧ recipient ∈ tx.accessList.all
  fits : ∀ id ∈ tx.accessList.all, FitsSnapshot exact taken now id

namespace MergeReady

variable {exact : Bool} {taken now : Contents}

theorem exists_transfer (ready : MergeReady exact taken now tx view) :
    ∃ account recipient amount, taken.accounts[tx.sender]? = some account ∧
      CanTransfer tx account recipient amount ∧
      view = (taken.snapshot tx.accessList.all).transferred tx.sender account recipient amount := by
  obtain ⟨account, recipient, amount, found, can, rfl⟩ :=
    ExecutionView.executeTransfer_eq_ok ready.ran
  rw [Contents.getElem?_snapshot, if_pos (ready.declared recipient amount can.payload).1] at found
  exact ⟨account, recipient, amount, found, can, rfl⟩

theorem accounts_merge (taken now : Contents) (account : AccountState) (amount : ℕ)
    (declared : tx.sender ∈ tx.accessList.all ∧ recipient ∈ tx.accessList.all) (id : AccountId) :
    (now.merge ((taken.snapshot tx.accessList.all).transferred tx.sender account recipient
        amount)).accounts[id]? =
      if recipient = id then some (Contents.deposited amount
        (if tx.sender = recipient then some (account.spend amount)
          else taken.accounts[recipient]?))
      else if tx.sender = id then some (account.spend amount)
      else if id ∈ tx.accessList.all then taken.accounts[id]?.or now.accounts[id]?
      else now.accounts[id]? := by
  rw [Contents.accounts_merge, ExecutionView.getElem?_transferred, Contents.getElem?_snapshot,
    Contents.getElem?_snapshot, if_pos declared.2]
  split
  · rfl
  · split
    · rfl
    · split
      · rfl
      · rfl

theorem profile_deposited (amount : ℕ) (account : Option AccountState) :
    (Contents.deposited amount account).profile =
      (account.map AccountState.profile).getD (0, ⟨0, 0⟩) := by
  cases account <;> rfl

theorem sameProfile_merge (ready : MergeReady exact taken now tx view) {id : AccountId}
    (notSender : id ≠ tx.sender) : now.SameProfile (now.merge view) id := by
  obtain ⟨account, recipient, amount, -, can, rfl⟩ := ready.exists_transfer
  have declared := ready.declared recipient amount can.payload
  have merged := accounts_merge taken now account amount declared id
  by_cases isRecipient : recipient = id
  · subst isRecipient
    rw [if_pos rfl, if_neg fun same => notSender same.symm] at merged
    have fits := (ready.fits recipient declared.2).profile.profile
    constructor
    · rw [fits, Contents.profileOf, merged, Option.map_some, Option.getD_some, profile_deposited]
      rfl
    · intro _
      rw [merged]
      rfl
  · rw [if_neg isRecipient, if_neg fun same => notSender same.symm] at merged
    split at merged
    next isDeclared =>
      have fits := (ready.fits id isDeclared).profile
      cases found : taken.accounts[id]? with
      | none =>
        rw [found, Option.none_or] at merged
        exact .of_eq merged
      | some old =>
        rw [found, Option.some_or] at merged
        constructor
        · rw [fits.profile, Contents.profileOf, Contents.profileOf, merged, found]
        · intro _
          rw [merged]
          rfl
    next => exact .of_eq merged

theorem raised_merge (ready : MergeReady exact taken now tx view) :
    now.nonceOf tx.sender = some tx.nonce ∧ now.Raised .keep tx.sender (now.merge view) := by
  obtain ⟨account, recipient, amount, found, can, isView⟩ := ready.exists_transfer
  have declared := ready.declared recipient amount can.payload
  obtain ⟨current, isCurrent⟩ : ∃ current, now.accounts[tx.sender]? = some current := by
    apply Option.isSome_iff_exists.mp
    apply (ready.fits tx.sender declared.1).profile.stays
    rw [found]
    rfl
  have profile : current.profile = account.profile := by
    have fits := (ready.fits tx.sender declared.1).profile.profile
    rw [Contents.profileOf, Contents.profileOf, found, isCurrent] at fits
    exact fits
  have nonce : current.nonce = account.nonce := congrArg Prod.fst profile
  have lock : current.lock = account.lock := congrArg Prod.snd profile
  obtain ⟨next, isNext, nextNonce, nextLock⟩ : ∃ next,
      (now.merge view).accounts[tx.sender]? = some next ∧ next.nonce = account.nonce + 1 ∧
        next.lock = account.lock := by
    rw [isView, accounts_merge taken now account amount declared tx.sender]
    by_cases self : recipient = tx.sender
    · rw [if_pos self, if_pos self.symm]
      exact ⟨_, rfl, rfl, rfl⟩
    · rw [if_neg self, if_pos rfl]
      exact ⟨_, rfl, rfl, rfl⟩
  refine ⟨?_, ?_, ?_, ?_⟩
  · rw [Contents.nonceOf, isCurrent, Option.map_some, nonce, can.nonce]
  · intro old isOld
    rw [Contents.nonceOf, isCurrent, Option.map_some, nonce] at isOld
    cases isOld
    rw [Contents.nonceOf, isNext, Option.map_some, nextNonce]
    exact ⟨rfl, can.fits⟩
  · intro id isOther
    exact (ready.sameProfile_merge isOther).keepsAccount
  · rw [Contents.lockOf_of_found isCurrent, Contents.lockOf_of_found isNext, nextLock, lock]
    exact .refl _

theorem merge_eq_transferred (ready : MergeReady true taken now tx view) :
    ∃ account recipient amount, now.accounts[tx.sender]? = some account ∧
      CanTransfer tx account recipient amount ∧
      now.merge view = now.transferred tx.sender account recipient amount := by
  obtain ⟨account, recipient, amount, found, can, isView⟩ := ready.exists_transfer
  have declared := ready.declared recipient amount can.payload
  have same : ∀ id ∈ tx.accessList.all, now.accounts[id]? = taken.accounts[id]? :=
    fun id isDeclared => (ready.fits id isDeclared).same rfl
  refine ⟨account, recipient, amount, (same _ declared.1).trans found, can, ?_⟩
  have accounts : (now.merge view).accounts =
      (now.transferred tx.sender account recipient amount).accounts := by
    apply Std.ExtTreeMap.ext_getElem?
    intro id
    rw [isView, accounts_merge taken now account amount declared id, Contents.transferred,
      Contents.deposit, Contents.accounts_write_account, Contents.accounts_write_account,
      Contents.accounts_write_account, same _ declared.2]
    split
    · rfl
    · split
      · rfl
      · split
        next isDeclared =>
          rw [same id isDeclared]
          cases taken.accounts[id]? <;> rfl
        next => rfl
  have others : now.merge view = { now with accounts := (now.merge view).accounts } := by
    rw [now.merge_eq view]
  rw [others, accounts]
  rfl

end MergeReady

theorem Contents.charged_transferred {contents : Contents}
    (found : contents.accounts[tx.sender]? = some account)
    (can : CanTransfer tx account recipient amount) : contents.Charged .keep tx.sender 0
      (contents.transferred tx.sender account recipient amount) := by
  have spent : contents.Charged .keep tx.sender (0 + amount)
      (contents.write (.account tx.sender) (some (account.spend amount))) := by
    apply Charged.of_account found
    · rfl
    · exact can.fits
    · exact .refl _
    · intro _
      have enough := can.enough
      simp only [AccountState.spend, AccountState.worth]
      omega
  exact spent.received (received_deposit ..)

theorem Contents.kept_payFees (paid : before.payFees env index tx gasUsed = some after) :
    before.Kept after := by
  obtain ⟨middle, charged, tipped⟩ := Option.bind_eq_some_iff.mp paid
  have fee : before.Kept middle := by
    rcases chargeOf_eq_some charged with ⟨-, rfl⟩ | ⟨-, account, found, enough, rfl⟩
    · exact .refl _
    · exact charge_kept found enough fun bounded => sum_splitFeeWithRemainder bounded ..
  have tip : middle.Kept after := by
    rcases chargeOf_eq_some tipped with ⟨-, rfl⟩ | ⟨-, account, found, enough, rfl⟩
    · exact .refl _
    · exact charge_kept found enough fun bounded => sum_splitTip bounded _
  exact fee.trans tip

/-! ## The attempt -/

def transferBatchIsSafe (txs : List Transaction) : List AccountId → List ℕ → Bool
  | _, [] => true
  | touched, index :: indices => match txs[index]? with
      | none => false
      | some tx => match tx.payload with
          | .transfer recipient _ =>
            ([tx.sender, recipient].all fun id =>
              tx.accessList.read.contains id && tx.accessList.write.contains id) &&
            (tx.accessList.all.all fun id => !touched.contains id) &&
            transferBatchIsSafe txs (tx.accessList.all ++ touched) indices
          | _ => false

/-- What the safety check makes sure of. -/
structure SafeBatch (txs : List Transaction) (touched : List AccountId) (batch : List ℕ) :
    Prop where
  each : ∀ index ∈ batch, ∃ tx, txs[index]? = some tx ∧
    (∃ recipient amount, tx.payload = .transfer recipient amount ∧
      tx.sender ∈ tx.accessList.all ∧ recipient ∈ tx.accessList.all) ∧
    ∀ id ∈ tx.accessList.all, id ∉ touched
  apart : batch.Pairwise fun first second => ∀ tx other, txs[first]? = some tx →
    txs[second]? = some other → ∀ id ∈ tx.accessList.all, id ∉ other.accessList.all

theorem safeBatch_of_isSafe {txs : List Transaction} {touched : List AccountId}
    (safe : transferBatchIsSafe txs touched batch = true) : SafeBatch txs touched batch := by
  induction batch generalizing touched with
  | nil => exact ⟨nofun, .nil⟩
  | cons index indices ih =>
    unfold transferBatchIsSafe at safe
    split at safe
    next => cases safe
    next tx found =>
      split at safe
      next recipient amount payload =>
        simp only [List.all_cons, List.all_nil, Bool.and_true, Bool.and_eq_true, List.all_eq_true,
          Bool.not_eq_true', List.contains_eq_mem, decide_eq_false_iff_not] at safe
        obtain ⟨⟨⟨⟨senderRead, -⟩, recipientRead, -⟩, fresh⟩, rest⟩ := safe
        obtain ⟨each, apart⟩ := ih rest
        constructor
        · intro other member
          rcases List.mem_cons.mp member with rfl | inRest
          · exact ⟨tx, found, ⟨recipient, amount, payload,
              List.mem_append_left _ (by simpa using senderRead),
              List.mem_append_left _ (by simpa using recipientRead)⟩, fresh⟩
          · obtain ⟨otherTx, isOther, transfers, notTouched⟩ := each other inRest
            exact ⟨otherTx, isOther, transfers, fun id isDeclared inTouched =>
              notTouched id isDeclared (List.mem_append_right _ inTouched)⟩
        · refine List.pairwise_cons.mpr ⟨fun second inRest first other isFirst isOther id => ?_,
            apart⟩
          cases found.symm.trans isFirst
          obtain ⟨otherTx, isOtherTx, -, notTouched⟩ := each second inRest
          cases isOther.symm.trans isOtherTx
          intro isDeclared alsoDeclared
          exact notTouched id alsoDeclared (List.mem_append_left _ isDeclared)
      next => cases safe

/-- Some declared account receives fees. -/
def touchesFeeReceiver (env : BlockEnv) (batch : List ℕ) : Bool :=
  batch.any fun index => env.txs[index]?.any fun tx =>
    tx.accessList.all.any fun id => decide (IsFeeReceiver env.feeRecipient id)

def usesParallel (env : BlockEnv) (batch : List ℕ) : Bool :=
  (batch.all fun index => env.txs[index]?.any fun tx => match tx.payload with
    | .transfer _ _ => true
    | _ => false) &&
  decide (1 < batch.length) && transferBatchIsSafe env.txs [] batch &&
  !(env.excludeFeeRecipient && touchesFeeReceiver env batch)

/-- All transfers on their snapshots; `none` if one of them fails. -/
def executeSnapshots (env : BlockEnv) (contents : Contents) :
    List ℕ → Option (List (ℕ × ExecutionView))
  | [] => some []
  | index :: indices => do
    let tx ← env.txs[index]?
    let view ← ((contents.snapshot tx.accessList.all).executeTransfer tx).toOption
    return (index, view) :: (← executeSnapshots env contents indices)

structure MergesReady (env : BlockEnv) (taken now : Contents) (views : List (ℕ × ExecutionView)) :
    Prop where
  each : ∀ entry ∈ views, ∃ tx, env.txs[entry.1]? = some tx ∧
    MergeReady env.excludeFeeRecipient taken now tx entry.2 ∧
    (env.excludeFeeRecipient = true → ∀ id ∈ tx.accessList.all, ¬IsFeeReceiver env.feeRecipient id)
  apart : views.Pairwise fun first second => ∀ tx other, env.txs[first.1]? = some tx →
    env.txs[second.1]? = some other → ∀ id ∈ tx.accessList.all, id ∉ other.accessList.all

theorem MergesReady.next {taken now : Contents}
    (ready : MergesReady env taken now ((index, view) :: views)) (found : env.txs[index]? = some tx)
    (paid : (now.merge view).payFees env index tx gasUsed = some after) :
    MergesReady env taken after views := by
  obtain ⟨others, apart⟩ := List.pairwise_cons.mp ready.apart
  refine ⟨fun entry member => ?_, apart⟩
  obtain ⟨first, isFirst⟩ : ∃ first, env.txs[index]? = some first ∧
      MergeReady env.excludeFeeRecipient taken now first view := by
    obtain ⟨first, isFirst, readyFirst, -⟩ := ready.each (index, view) List.mem_cons_self
    exact ⟨first, isFirst, readyFirst⟩
  cases found.symm.trans isFirst.1
  obtain ⟨other, isOther, second, notReceiver⟩ := ready.each entry (List.mem_cons_of_mem _ member)
  refine ⟨other, isOther, ⟨second.ran, second.declared, fun id isDeclared => ?_⟩, notReceiver⟩
  obtain ⟨account, recipient, amount, -, can, isView⟩ := isFirst.2.exists_transfer
  have declared := isFirst.2.declared recipient amount can.payload
  have notDeclared : id ∉ tx.accessList.all := fun alsoDeclared =>
    others entry member tx other found isOther id alsoDeclared isDeclared
  have notSender : id ≠ tx.sender := fun same => notDeclared (same ▸ declared.1)
  have unmerged : (now.merge view).accounts[id]? = now.accounts[id]? := by
    have notRecipient : recipient ≠ id := fun same => notDeclared (same ▸ declared.2)
    rw [isView, MergeReady.accounts_merge taken now account amount declared id,
      if_neg notRecipient, if_neg notSender.symm, if_neg notDeclared]
  have fits := second.fits id isDeclared
  constructor
  · exact fits.profile.trans ((Contents.SameProfile.of_eq unmerged).trans
      (Contents.sameProfile_payFees paid id))
  · intro isExact
    rw [Contents.accounts_payFees paid notSender (notReceiver isExact id isDeclared), unmerged,
      fits.same isExact]

theorem MergeReady.txMerged {taken now : Contents}
    (ready : MergeReady env.excludeFeeRecipient taken now tx view)
    (paid : (now.merge view).payFees env index tx gasUsed = some after) :
    TxMerged env tx now after where
  matched := ready.raised_merge.1
  raised := ready.raised_merge.2.kept fun id =>
    (Contents.sameProfile_payFees paid id).keepsAccount
  supply isExact fits := by
    rw [isExact] at ready
    obtain ⟨account, recipient, amount, found, can, isMerge⟩ := ready.merge_eq_transferred
    have moved := (Contents.charged_transferred found can).supply fits
    rw [← isMerge, Nat.add_zero] at moved
    rw [(Contents.kept_payFees paid).supply (moved ▸ fits), moved]
  appeals := by
    have kept := (Contents.kept_payFees paid).appeals
    rw [now.merge_eq view] at kept
    exact kept
  pool := by
    have kept := (Contents.kept_payFees paid).within
    rw [now.merge_eq view] at kept
    exact kept
  isTransfer := by
    obtain ⟨account, recipient, amount, -, can, -⟩ := ready.exists_transfer
    exact ⟨recipient, amount, can.payload⟩

theorem executeSnapshots_eq_some {contents : Contents}
    (ran : executeSnapshots env contents batch = some views) :
    views.map Prod.fst = batch ∧ ∀ entry ∈ views, ∃ tx, env.txs[entry.1]? = some tx ∧
      (contents.snapshot tx.accessList.all).executeTransfer tx = .ok entry.2 := by
  induction batch generalizing views with
  | nil =>
    cases ran
    exact ⟨rfl, nofun⟩
  | cons index indices ih =>
    simp only [executeSnapshots, Option.bind_eq_bind, Option.bind_eq_some_iff, Option.pure_def,
      Option.some.injEq] at ran
    obtain ⟨tx, found, view, isView, rest, isRest, rfl⟩ := ran
    obtain ⟨rfl, each⟩ := ih isRest
    refine ⟨rfl, fun entry member => ?_⟩
    rcases List.mem_cons.mp member with rfl | inRest
    · refine ⟨tx, found, ?_⟩
      cases transferred : (contents.snapshot tx.accessList.all).executeTransfer tx with
      | error =>
        rw [transferred] at isView
        cases isView
      | ok view =>
        rw [transferred] at isView
        cases isView
        rfl
    · exact each entry inRest

theorem mergesReady_of_usesParallel {contents : Contents} (uses : usesParallel env batch = true)
    (ran : executeSnapshots env contents batch = some views) :
    MergesReady env contents contents views := by
  simp only [usesParallel, Bool.and_eq_true, Bool.not_eq_true', Bool.and_eq_false_iff] at uses
  obtain ⟨⟨-, safe⟩, excluded⟩ := uses
  obtain ⟨each, apart⟩ := safeBatch_of_isSafe safe
  obtain ⟨rfl, onSnapshots⟩ := executeSnapshots_eq_some ran
  constructor
  · intro entry member
    obtain ⟨tx, found, executed⟩ := onSnapshots entry member
    obtain ⟨_, isTx, ⟨recipient, amount, payload, declared⟩, -⟩ :=
      each entry.1 (List.mem_map_of_mem member)
    cases found.symm.trans isTx
    refine ⟨tx, found, ⟨executed, ?_, fun id _ => ⟨.refl _ _, fun _ => rfl⟩⟩, ?_⟩
    · intro other value otherPayload
      cases payload.symm.trans otherPayload
      exact declared
    · intro isExact id isDeclared receives
      rcases excluded with off | untouched
      · rw [isExact] at off
        cases off
      · have touched : touchesFeeReceiver env (views.map Prod.fst) = true := by
          simp only [touchesFeeReceiver, List.any_eq_true, Option.any_eq_true, decide_eq_true_eq]
          exact ⟨entry.1, List.mem_map_of_mem member, tx, found, id, isDeclared, receives⟩
        rw [untouched] at touched
        cases touched
  · exact List.pairwise_map.mp apart

theorem executeSnapshots_settled (env : BlockEnv) (contents : Contents) (batch : List ℕ) :
    executeSnapshots env contents.settled batch = executeSnapshots env contents batch := by
  induction batch with
  | nil => rfl
  | cons index indices ih =>
    rw [executeSnapshots, ih]
    rfl

section Attempt

variable [Platform]

def mergeInto {Error : Type} : List (AccountId × AccountState) → Act Error PUnit
  | [] => pure ⟨⟩
  | (id, account) :: entries => do
    Act.insertAccount id account
    mergeInto entries

def mergeViews (env : BlockEnv) :
    List (ℕ × ExecutionView) → BlockProgress → Act (Fault PUnit) BlockProgress
  | [], progress => pure progress
  | (index, view) :: views, progress => match env.txs[index]? with
      | none => Within.fail .panic
      | some tx => do
        mergeInto view.toList
        Within.mapError (fun _ => .error ⟨⟩) (chargeFees env index tx GAS_PER_TRANSFER).forget
        match env.receiptOf index tx (.ok (gasOnly GAS_PER_TRANSFER)) GAS_PER_TRANSFER with
        | none => Within.fail .panic
        | some receipt => mergeViews env views (progress.record index receipt)

/-- The parallel attempt; its gas is counted apart and added at the end. -/
def parallelAttempt (env : BlockEnv) (batch : List ℕ) (progress : BlockProgress) :
    Act (Fault PUnit) BlockProgress := do
  let seen ← ledgerModel.look
  match executeSnapshots env seen.contents batch with
  | none => Within.fail (.error ⟨⟩)
  | some views =>
    if (views.flatMap fun view => view.2.keys).Nodup then do
      let merged ← mergeViews env views { progress with totalGas := 0 }
      return { merged with
        totalGas := MachineInt.saturatingAdd 64 progress.totalGas merged.totalGas }
    else Within.fail (.error ⟨⟩)

theorem yields_mergeInto {Error : Type} (entries : List (AccountId × AccountState))
    (before : Contents) : Yields (mergeInto entries : Act Error PUnit).run before ⟨⟩ (entries.foldl
      (fun contents entry => contents.write (.account entry.1) (some entry.2)) before) := by
  induction entries generalizing before with
  | nil => exact Yields.pure
  | cons entry entries ih =>
    have inserted : Yields (Act.insertAccount entry.1 entry.2 : Act Error PUnit).run before ⟨⟩
        (before.write (.account entry.1) (some entry.2)) :=
      .of_leads (fun store _ => Act.writeEntry_total _ _ store) (.writeEntry ⟨rfl, rfl⟩)
    exact inserted.bind (ih _)

theorem leads_mergeViews {taken now : Contents} (ready : MergesReady env taken now views)
    (progress : BlockProgress) (config : LedgerConfig) :
    Leads (mergeViews env views progress) now fun next after =>
      BatchLaw env (views.map Prod.fst) progress config next now after := by
  induction views generalizing now progress with
  | nil => exact .pure .nil
  | cons entry views ih =>
    obtain ⟨index, view⟩ := entry
    rw [mergeViews]
    split
    next => exact .fail
    next tx found =>
      refine .bind ((yields_mergeInto view.toList now).leads.mono ?_)
      rintro _ _ ⟨-, rfl⟩
      refine .bind (.mapError (Leads.forget (leads_chargeFees.mono fun _ after paid => ?_)))
      split
      next => exact .fail
      next receipt built =>
        apply (ih (ready.next found paid) (progress.record index receipt)).mono
        intro next finish law
        obtain ⟨_, isTx, readyTx, -⟩ := ready.each (index, view) List.mem_cons_self
        cases found.symm.trans isTx
        have first : BatchLaw env [index] progress config (progress.record index receipt) now
            after :=
          ⟨[⟨index, receipt, .merged⟩], rfl, rfl, .single ⟨tx, found, readyTx.txMerged paid, built⟩⟩
        exact first.append law

theorem leads_parallelAttempt (uses : usesParallel env batch = true) (progress : BlockProgress)
    (config : LedgerConfig) (before : Contents) :
    Leads (parallelAttempt env batch progress) before fun next after =>
      BatchLaw env batch progress config next before after := by
  refine .bind (.look fun _ => ?_)
  simp only [executeSnapshots_settled]
  split
  next => exact .fail
  next views ran =>
    split
    next =>
      have ready := mergesReady_of_usesParallel uses ran
      refine .bind ((leads_mergeViews ready { progress with totalGas := 0 } config).mono
        fun merged after law => .pure ?_)
      obtain ⟨outcomes, isBatch, rfl, steps⟩ := law
      have notEmpty : outcomes ≠ [] := by
        rintro rfl
        have short : batch = [] := by
          rw [← (executeSnapshots_eq_some ran).1, ← isBatch]
          rfl
        rw [short] at uses
        cases uses
      exact ⟨outcomes, isBatch.trans (executeSnapshots_eq_some ran).1,
        progress.recordAll_apart notEmpty, steps⟩
    next => exact .fail

/-- What follows the attempt: nothing, or the sequential path. -/
def concludeAttempt (env : BlockEnv) (batch : List ℕ) (progress : BlockProgress)
    (result : Except PUnit BlockProgress) :
    BlockCommand (Fault ExecutionError) BlockProgress fun config next before after =>
      match result with
      | .ok merged => next = merged ∧ after = before
      | .error _ => BatchLaw env batch progress config next before after :=
  match result with
  | .ok merged => .pure merged fun _ _ => ⟨rfl, rfl⟩
  | .error _ => executeSequentially env batch progress

/-- The parallel path: the attempt under a checkpoint, and the sequential path if it fails. -/
def executeInParallel (env : BlockEnv) (batch : List ℕ) (progress : BlockProgress)
    (uses : usesParallel env batch = true) :
    BlockCommand (Fault ExecutionError) BlockProgress (BatchLaw env batch progress) :=
  have attempt : BlockCommand (Fault ExecutionError) (Except PUnit BlockProgress)
      (BlockCommand.Atomic (BatchLaw env batch progress)) :=
    .atomically (Command.strengthen (parallelAttempt env batch progress) fun store =>
      leads_parallelAttempt uses progress store.config store.toContents store rfl) id
  attempt.andThen (concludeAttempt env batch progress)
    fun {config result next start middle finish} first second => by
      cases result with
      | ok merged =>
        obtain ⟨rfl, rfl⟩ := second
        exact first
      | error =>
        have unchanged : middle = start := first
        exact unchanged ▸ second

def executeScheduled (env : BlockEnv) (batch : List ℕ) (progress : BlockProgress) :
    BlockCommand (Fault ExecutionError) BlockProgress (BatchLaw env batch progress) :=
  if uses : usesParallel env batch = true then executeInParallel env batch progress uses
  else executeSequentially env batch progress

def executeBatches (env : BlockEnv) : (batches : List (List ℕ)) → (progress : BlockProgress) →
    BlockCommand (Fault ExecutionError) BlockProgress (BatchLaw env batches.flatten progress)
  | [], progress => .pure progress fun _ _ => .nil
  | batch :: batches, progress =>
    (executeScheduled env batch progress).andThen (executeBatches env batches)
      fun begun ended => begun.append ended

end Attempt

end BoingNetwork
