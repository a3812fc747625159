import BoingNetwork.Execution.Block

/-!
# What a failed transaction leaves behind

A transaction that fails is reverted with its fee and its tip.  What is left is that its sender
pays with its nonce, and with a fee that is capped at the balance, if the nonce was the expected
one.
-/

namespace BoingNetwork

open EStateM

namespace Contents

variable {before : Contents} {failedFee : Option FailedTxFee} {tx : Transaction}
  {account : AccountState}

structure Failed (tx : Transaction) (before after : Contents) : Prop where
  spent : before.nonceOf tx.sender = some tx.nonce →
    after.nonceOf tx.sender = some (MachineInt.saturatingAdd 64 tx.nonce 1)
  unspent : before.nonceOf tx.sender ≠ some tx.nonce → before.KeepsNonce after tx.sender
  others : ∀ id, id ≠ tx.sender → before.KeepsAccount after id
  lock : (before.lockOf tx.sender).Kept (after.lockOf tx.sender)
  supply : before.supply < SUPPLY_LIMIT → after.supply = before.supply
  appeals : before.slashAppeals.Undecided after.slashAppeals
  pool : after.PoolWithin before

theorem failTx_of_absent (absent : before.accounts[tx.sender]? = none) :
    before.failTx failedFee tx = (0, before) := by
  rw [failTx, absent]

theorem failTx_of_found (found : before.accounts[tx.sender]? = some account) :
    (before.failTx failedFee tx).2 = (before.write (.account tx.sender)
      (some (consumeNonce failedFee tx.nonce account).2)).payFailure failedFee tx.sender
        (consumeNonce failedFee tx.nonce account).2
        (consumeNonce failedFee tx.nonce account).1.2 := by
  rw [failTx, found]

theorem kept_payFailure {contents : Contents} {sender : AccountId} {charge : ℕ}
    (found : contents.accounts[sender]? = some account) (enough : charge ≤ account.balance) :
    contents.Kept (contents.payFailure failedFee sender account charge) := by
  unfold payFailure
  cases failedFee with
  | none => exact .refl _
  | some fee =>
    dsimp only
    split
    next => exact .refl _
    next => exact charge_kept found enough fun bounded => sum_splitFeeWithRemainder bounded ..

theorem consumeNonce_worth (failedFee : Option FailedTxFee) (nonce : ℕ) (account : AccountState) :
    (consumeNonce failedFee nonce account).2.worth = account.worth := by
  unfold consumeNonce
  split <;> rfl

theorem consumeNonce_lock (failedFee : Option FailedTxFee) (nonce : ℕ) (account : AccountState) :
    (consumeNonce failedFee nonce account).2.lock = account.lock := by
  unfold consumeNonce
  split <;> rfl

theorem failed_failTx (before : Contents) (failedFee : Option FailedTxFee) (tx : Transaction) :
    before.Failed tx (before.failTx failedFee tx).2 := by
  cases found : before.accounts[tx.sender]? with
  | none =>
    rw [failTx_of_absent found]
    refine ⟨fun matched => ?_, fun _ => .inl rfl, fun _ _ => .of_eq rfl, .refl _, fun _ => rfl,
      .refl _, .of_eq rfl⟩
    rw [nonceOf, found] at matched
    cases matched
  | some account =>
    rw [failTx_of_found found]
    have worth := consumeNonce_worth failedFee tx.nonce account
    have lock := consumeNonce_lock failedFee tx.nonce account
    have written : (before.write (.account tx.sender)
        (some (consumeNonce failedFee tx.nonce account).2)).accounts[tx.sender]? =
          some (consumeNonce failedFee tx.nonce account).2 := by
      rw [accounts_write_account, if_pos rfl]
    have paid := @kept_payFailure failedFee _ _ _ _ written consumeNonce_charge_le
    have isNonce : before.nonceOf tx.sender = some account.nonce := by
      rw [nonceOf, found]
      rfl
    constructor
    · intro matched
      have same : account.nonce = tx.nonce := Option.some.inj (isNonce.symm.trans matched)
      refine (paid.accounts tx.sender).nonce.eq_some ?_
      rw [nonceOf, written, consumeNonce, if_pos same, ← same]
      rfl
    · intro unmatched
      rw [isNonce, Ne, Option.some.injEq] at unmatched
      refine .inl ((paid.accounts tx.sender).nonce.eq_some ?_ |>.trans isNonce.symm)
      rw [nonceOf, written, consumeNonce, if_neg unmatched]
      rfl
    · intro id isOther
      have same : (before.write (.account tx.sender)
          (some (consumeNonce failedFee tx.nonce account).2)).accounts[id]? =
            before.accounts[id]? := by
        rw [accounts_write_account, if_neg isOther.symm]
      exact (KeepsAccount.of_eq same).trans (paid.accounts id)
    · have kept := (paid.accounts tx.sender).lock
      rw [lockOf_of_found written, lock, ← lockOf_of_found found] at kept
      exact kept
    · intro fits
      have changed := before.supply_write_account tx.sender
        (some (consumeNonce failedFee tx.nonce account).2)
      rw [found, FiniteMap.entryWeight_some, FiniteMap.entryWeight_some, worth] at changed
      rw [paid.supply (by omega)]
      omega
    · exact paid.appeals
    · exact paid.within

end Contents

end BoingNetwork
