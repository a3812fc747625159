import BoingNetwork.State.Ledger

/-!
# What ledger commands keep

A quiet command may move value, but it changes no nonce, no total and no vote of an
appeal, it removes no account, and it neither adds to what is unbonding nor unlocks it.  A
charged command is quiet except that it raises the nonce of one account by one, may burn
rent and may change the unbonding of the account.  Both are closed under sequencing.
-/

namespace BoingNetwork

open FiniteMap MachineInt

/-- Everything an account owns. -/
def AccountState.worth (account : AccountState) : ℕ :=
  account.balance + account.stake + account.pendingUnbond

/-- What is unbonding, and the height that unlocks it. -/
@[ext]
structure Lock where
  pending : ℕ
  unlock : ℕ

def AccountState.lock (account : AccountState) : Lock :=
  ⟨account.pendingUnbond, account.unbondUnlockHeight⟩

/-- Nothing was added and the height is the same. -/
structure Lock.Kept (before after : Lock) : Prop where
  pending : after.pending ≤ before.pending
  unlock : after.unlock = before.unlock

theorem Lock.Kept.refl (lock : Lock) : lock.Kept lock := ⟨Nat.le_refl _, rfl⟩

theorem Lock.Kept.trans {start middle finish : Lock} (first : start.Kept middle)
    (second : middle.Kept finish) : start.Kept finish :=
  ⟨second.pending.trans first.pending, second.unlock.trans first.unlock⟩

/-- How a charge may change the unbonding of its sender.  A review keeps it, and may change the
pool of pending deploys. -/
inductive LockChange where
  | keep
  | review
  | unbond (amount unlock : ℕ)
  | claim (height : ℕ)
  | release (unlock : ℕ)

/-- The changes that are allowed.  One height covers all that is pending: an unbond sets it
anew, and a released bond can only postpone it. -/
def LockChange.Allows : LockChange → Lock → Lock → Prop
  | .keep, before, after | .review, before, after => before.Kept after
  | .unbond amount unlock, before, after =>
    after.pending ≤ before.pending + amount ∧ after.unlock = unlock
  | .claim height, before, after =>
    0 < before.pending ∧ before.unlock ≤ height ∧ after.pending = 0 ∧
      after.unlock ≤ before.unlock
  | .release unlock, before, after =>
    before.Kept after ∨ after.unlock = max before.unlock unlock

variable {change : LockChange}

theorem LockChange.Allows.of_kept {start middle finish : Lock} (kept : start.Kept middle)
    (allows : change.Allows middle finish) : change.Allows start finish := by
  obtain ⟨less, same⟩ := kept
  cases change with
  | keep | review => exact Lock.Kept.trans ⟨less, same⟩ allows
  | unbond amount unlock => exact ⟨allows.1.trans (Nat.add_le_add_right less _), allows.2⟩
  | claim height => exact ⟨allows.1.trans_le less, same ▸ allows.2.1, same ▸ allows.2.2⟩
  | release unlock =>
    rcases allows with keeps | later
    · exact .inl (Lock.Kept.trans ⟨less, same⟩ keeps)
    · exact .inr (same ▸ later)

theorem LockChange.Allows.kept {start middle finish : Lock} (allows : change.Allows start middle)
    (kept : middle.Kept finish) : change.Allows start finish := by
  obtain ⟨less, same⟩ := kept
  cases change with
  | keep | review => exact Lock.Kept.trans allows ⟨less, same⟩
  | unbond amount unlock => exact ⟨less.trans allows.1, same.trans allows.2⟩
  | claim height =>
    exact ⟨allows.1, allows.2.1, Nat.le_zero.mp (less.trans_eq allows.2.2.1), same ▸ allows.2.2.2⟩
  | release unlock =>
    rcases allows with keeps | later
    · exact .inl (keeps.trans ⟨less, same⟩)
    · exact .inr (same.trans later)

variable {id : AccountId} (contents : Contents) {account : AccountState}

namespace Contents

/-- Balances, stakes, pending unbonds and registered bonds. -/
def supply (contents : Contents) : ℕ :=
  total AccountState.worth contents.accounts +
    total ValidatorRecord.bond contents.openValidators.records

def nonceOf (contents : Contents) (id : AccountId) : Option ℕ :=
  contents.accounts[id]?.map AccountState.nonce

def lockOf (contents : Contents) (id : AccountId) : Lock :=
  (contents.accounts[id]?.map AccountState.lock).getD ⟨0, 0⟩

theorem supply_write_account (id : AccountId) (account : Option AccountState) :
    (contents.write (.account id) account).supply +
        entryWeight AccountState.worth contents.accounts[id]? =
      contents.supply + entryWeight AccountState.worth account := by
  have accounts : total AccountState.worth (put contents.accounts id account) +
      entryWeight AccountState.worth contents.accounts[id]? =
        total AccountState.worth contents.accounts +
          entryWeight AccountState.worth account := total_put ..
  simp only [supply, write]
  omega

theorem worth_le_supply {contents : Contents} (found : contents.accounts[id]? = some account) :
    account.worth ≤ contents.supply := by
  have part : entryWeight AccountState.worth contents.accounts[id]? ≤
      total AccountState.worth contents.accounts := entryWeight_le_total ..
  rw [found, entryWeight_some] at part
  exact part.trans (Nat.le_add_right _ _)

@[simp]
theorem accounts_write_account (id other : AccountId) (account : Option AccountState) :
    (contents.write (.account id) account).accounts[other]? =
      if id = other then account else contents.accounts[other]? :=
  getElem?_put ..

end Contents

/-- A supply below this is never cut by saturating arithmetic. -/
def SUPPLY_LIMIT : ℕ := 2 ^ 128 - 1

/-- Without votes, and not decided. -/
def ConsensusSlashAppeal.IsFresh (appeal : ConsensusSlashAppeal) : Prop :=
  appeal.votes = ∅ ∧ (appeal.status = .pending ∨ appeal.status = .expired)

/-- The same appeal, perhaps expired meanwhile. -/
def ConsensusSlashAppeal.Follows (appeal old : ConsensusSlashAppeal) : Prop :=
  appeal = old ∨ old.status = .pending ∧ appeal = { old with status := .expired }

theorem ConsensusSlashAppeal.Follows.trans {first second third : ConsensusSlashAppeal}
    (later : third.Follows second) (earlier : second.Follows first) : third.Follows first := by
  rcases later with rfl | ⟨pending, rfl⟩
  · exact earlier
  · rcases earlier with rfl | ⟨_, rfl⟩
    · exact .inr ⟨pending, rfl⟩
    · cases pending

theorem ConsensusSlashAppeal.IsFresh.of_follows {old appeal : ConsensusSlashAppeal}
    (isFresh : old.IsFresh) (same : appeal.Follows old) : appeal.IsFresh := by
  rcases same with rfl | ⟨_, rfl⟩
  · exact isFresh
  · exact ⟨isFresh.1, .inr rfl⟩

namespace SlashAppealRegistry

/-- No vote was cast, no appeal was decided and no slash was changed. -/
structure Undecided (before after : SlashAppealRegistry) : Prop where
  appeals : ∀ (id : ℕ) (appeal : ConsensusSlashAppeal), after.appeals[id]? = some appeal →
    appeal.IsFresh ∨ ∃ old, before.appeals[id]? = some old ∧ appeal.Follows old
  slashes : ∀ (id : ℕ) (slash : ConsensusSlashRecord), before.slashes[id]? = some slash →
    after.slashes[id]? = some slash

theorem Undecided.refl (registry : SlashAppealRegistry) : registry.Undecided registry where
  appeals _ appeal found := .inr ⟨appeal, found, .inl rfl⟩
  slashes _ _ found := found

theorem Undecided.trans {start middle finish : SlashAppealRegistry}
    (first : start.Undecided middle) (second : middle.Undecided finish) :
    start.Undecided finish where
  appeals id appeal found := by
    rcases second.appeals id appeal found with isFresh | ⟨between, foundBetween, same⟩
    · exact .inl isFresh
    · rcases first.appeals id between foundBetween with isFresh | ⟨old, foundOld, earlier⟩
      · exact .inl (isFresh.of_follows same)
      · exact .inr ⟨old, foundOld, same.trans earlier⟩
  slashes id slash found := second.slashes id slash (first.slashes id slash found)

end SlashAppealRegistry

variable {before middle finish start : Contents} {next : AccountState} {sender : AccountId}

namespace Contents

def KeepsNonce (before after : Contents) (id : AccountId) : Prop :=
  after.nonceOf id = before.nonceOf id ∨ before.nonceOf id = none ∧ after.nonceOf id = some 0

theorem KeepsNonce.trans (first : start.KeepsNonce middle id)
    (second : middle.KeepsNonce finish id) : start.KeepsNonce finish id := by
  unfold KeepsNonce at *
  grind

variable {after : Contents}

theorem KeepsNonce.eq_some {nonce : ℕ} (keeps : before.KeepsNonce after id)
    (found : before.nonceOf id = some nonce) : after.nonceOf id = some nonce := by
  rcases keeps with same | ⟨absent, -⟩
  · rw [same, found]
  · rw [absent] at found
    cases found

structure KeepsAccount (before after : Contents) (id : AccountId) : Prop where
  nonce : before.KeepsNonce after id
  lock : (before.lockOf id).Kept (after.lockOf id)

theorem KeepsAccount.of_eq (same : after.accounts[id]? = before.accounts[id]?) :
    before.KeepsAccount after id where
  nonce := .inl (by rw [nonceOf, same, nonceOf])
  lock := by
    unfold lockOf
    rw [same]
    exact .refl _

theorem KeepsAccount.trans (first : start.KeepsAccount middle id)
    (second : middle.KeepsAccount finish id) : start.KeepsAccount finish id :=
  ⟨first.nonce.trans second.nonce, first.lock.trans second.lock⟩

/-- The pool holds no other deploys than before. -/
def PoolWithin (after before : Contents) : Prop :=
  ∀ (subject : Hash) (record : QaPendingRecord),
    after.qaPending[subject]? = some record → before.qaPending[subject]? = some record

theorem PoolWithin.of_eq (same : after.qaPending = before.qaPending) : after.PoolWithin before :=
  fun _ _ found => same ▸ found

theorem PoolWithin.trans (second : finish.PoolWithin middle) (first : middle.PoolWithin start) :
    finish.PoolWithin start :=
  fun subject record found => first subject record (second subject record found)

/-- What all but charges leave alone; only a review may add to the pool. -/
structure Calm (change : LockChange) (before after : Contents) : Prop where
  accounts : ∀ id, before.KeepsAccount after id
  appeals : before.slashAppeals.Undecided after.slashAppeals
  pool : change ≠ .review → after.PoolWithin before

theorem Calm.refl : contents.Calm change contents :=
  ⟨fun _ => .of_eq rfl, .refl _, fun _ => .of_eq rfl⟩

theorem Calm.trans (first : start.Calm change middle) (second : middle.Calm change finish) :
    start.Calm change finish where
  accounts id := (first.accounts id).trans (second.accounts id)
  appeals := first.appeals.trans second.appeals
  pool keeps := (second.pool keeps).trans (first.pool keeps)

/-- The effect of a quiet command, or of a review. -/
structure KeptBut (change : LockChange) (before after : Contents) : Prop
    extends Calm change before after where
  supply : before.supply < SUPPLY_LIMIT → after.supply = before.supply

theorem KeptBut.refl : contents.KeptBut change contents := ⟨.refl contents, fun _ => rfl⟩

theorem KeptBut.trans (first : start.KeptBut change middle)
    (second : middle.KeptBut change finish) : start.KeptBut change finish where
  toCalm := first.toCalm.trans second.toCalm
  supply fits := by
    have same := first.supply fits
    rw [second.supply (by omega), same]

theorem Calm.within (calm : before.Calm .keep after) : after.PoolWithin before :=
  calm.pool (by simp)

abbrev Kept (before after : Contents) : Prop := before.KeptBut .keep after

theorem KeptBut.of_apart (pool : change ≠ .review → after.PoolWithin before)
    (apart : after.accounts = before.accounts ∧ after.openValidators = before.openValidators ∧
      after.slashAppeals = before.slashAppeals) : before.KeptBut change after where
  accounts id := .of_eq (by rw [apart.1])
  supply _ := by rw [Contents.supply, apart.1, apart.2.1, Contents.supply]
  appeals := by
    rw [apart.2.2]
    exact .refl _
  pool := pool

structure Raised (change : LockChange) (sender : AccountId) (before after : Contents) : Prop where
  bumped : ∀ nonce, before.nonceOf sender = some nonce →
    after.nonceOf sender = some (nonce + 1) ∧ nonce + 1 < 2 ^ 64
  others : ∀ id, id ≠ sender → before.KeepsAccount after id
  lock : change.Allows (before.lockOf sender) (after.lockOf sender)

variable {rent amount : ℕ}

theorem Raised.of_kept (kept : ∀ id, start.KeepsAccount middle id)
    (raised : middle.Raised change sender finish) : start.Raised change sender finish where
  bumped nonce found := raised.bumped nonce ((kept sender).nonce.eq_some found)
  others id isOther := (kept id).trans (raised.others id isOther)
  lock := raised.lock.of_kept (kept sender).lock

theorem Raised.kept (raised : start.Raised change sender middle)
    (kept : ∀ id, middle.KeepsAccount finish id) : start.Raised change sender finish where
  bumped nonce found := by
    obtain ⟨next, fits⟩ := raised.bumped nonce found
    exact ⟨(kept sender).nonce.eq_some next, fits⟩
  others id isOther := (raised.others id isOther).trans (kept id)
  lock := raised.lock.kept (kept sender).lock

/-- The effect of a charged command: the sender pays with its nonce, and perhaps rent. -/
structure Charged (change : LockChange) (sender : AccountId) (rent : ℕ)
    (before after : Contents) : Prop extends Raised change sender before after where
  supply : before.supply < SUPPLY_LIMIT → after.supply + rent = before.supply
  appeals : before.slashAppeals.Undecided after.slashAppeals
  pool : change ≠ .review → after.PoolWithin before

theorem Kept.charged (first : start.Kept middle)
    (second : middle.Charged change sender rent finish) :
    start.Charged change sender rent finish where
  toRaised := second.toRaised.of_kept first.accounts
  supply fits := by
    have same := first.supply fits
    rw [second.supply (by omega), same]
  appeals := first.appeals.trans second.appeals
  pool keeps := (second.pool keeps).trans first.within

theorem Charged.kept (first : start.Charged change sender rent middle)
    (second : middle.KeptBut change finish) : start.Charged change sender rent finish where
  toRaised := first.toRaised.kept second.accounts
  supply fits := by
    have burned := first.supply fits
    rw [second.supply (by omega), burned]
  appeals := first.appeals.trans second.appeals
  pool keeps := (second.pool keeps).trans (first.pool keeps)

theorem Charged.unreviewed (charged : start.Charged .keep sender rent finish) :
    start.Charged .review sender rent finish :=
  { charged with
    lock := charged.lock
    pool := fun keeps => absurd rfl keeps }

/-- An amount was taken and is still in flight. -/
structure Paid (amount : ℕ) (before after : Contents) : Prop extends Calm .keep before after where
  supply : before.supply < SUPPLY_LIMIT → after.supply + amount = before.supply

/-- An amount that was in flight was credited. -/
structure Received (amount : ℕ) (before after : Contents) : Prop
    extends Calm .keep before after where
  supply : before.supply + amount < SUPPLY_LIMIT → after.supply = before.supply + amount

theorem Received.zero : contents.Received 0 contents := ⟨.refl contents, fun _ => rfl⟩

theorem Received.trans {first second : ℕ} (one : start.Received first middle)
    (other : middle.Received second finish) : start.Received (first + second) finish where
  toCalm := one.toCalm.trans other.toCalm
  supply fits := by
    have same := one.supply (by omega)
    rw [other.supply (by omega), same, Nat.add_assoc]

theorem Paid.zero : contents.Paid 0 contents := ⟨.refl contents, fun _ => rfl⟩

theorem Paid.received {arrived : ℕ} (paid : start.Paid amount middle)
    (whole : start.supply < SUPPLY_LIMIT → arrived = amount)
    (received : middle.Received arrived finish) : start.Kept finish where
  toCalm := paid.toCalm.trans received.toCalm
  supply fits := by
    have taken := paid.supply fits
    have all := whole fits
    rw [received.supply (by omega), all, taken]

theorem lockOf_write_account (id other : AccountId) (account : AccountState) :
    (contents.write (.account id) (some account)).lockOf other =
      if id = other then account.lock else contents.lockOf other := by
  rw [lockOf, accounts_write_account]
  split
  · rfl
  · rfl

theorem lockOf_of_found {contents : Contents} (found : contents.accounts[id]? = some account) :
    contents.lockOf id = account.lock := by
  rw [lockOf, found]
  rfl

/-- One account was rewritten without a charge. -/
theorem KeepsAccount.of_write
    (nonce : next.nonce = (before.accounts[id]?.map AccountState.nonce).getD 0)
    (lock : (before.lockOf id).Kept next.lock) (other : AccountId) :
    before.KeepsAccount (before.write (.account id) (some next)) other := by
  by_cases same : id = other
  · subst same
    constructor
    · unfold KeepsNonce
      simp only [nonceOf, accounts_write_account, if_true, Option.map_some, nonce]
      cases before.accounts[id]? with
      | none => exact .inr ⟨rfl, rfl⟩
      | some account => exact .inl rfl
    · rw [lockOf_write_account, if_pos rfl]
      exact lock
  · apply KeepsAccount.of_eq
    rw [accounts_write_account, if_neg same]

theorem Paid.of_account (found : before.accounts[id]? = some account)
    (nonce : next.nonce = account.nonce) (lock : account.lock.Kept next.lock)
    (worth : account.worth < SUPPLY_LIMIT → next.worth + amount = account.worth) :
    before.Paid amount (before.write (.account id) (some next)) where
  accounts := by
    apply KeepsAccount.of_write
    · rw [found]
      exact nonce
    · rw [lockOf_of_found found]
      exact lock
  supply fits := by
    have whole := worth_le_supply found
    have changed := before.supply_write_account id (some next)
    rw [found, entryWeight_some, entryWeight_some] at changed
    omega
  appeals := .refl _
  pool _ := .of_eq rfl

theorem Paid.kept (paid : start.Paid 0 finish) : start.Kept finish :=
  paid.received (fun _ => rfl) (.zero finish)

theorem Received.of_account
    (nonce : next.nonce = (before.accounts[id]?.map AccountState.nonce).getD 0)
    (lock : next.lock = before.lockOf id)
    (worth : entryWeight AccountState.worth before.accounts[id]? + amount < SUPPLY_LIMIT →
        next.worth = entryWeight AccountState.worth before.accounts[id]? + amount) :
    before.Received amount (before.write (.account id) (some next)) where
  accounts := KeepsAccount.of_write nonce (lock ▸ .refl _)
  supply fits := by
    have whole : entryWeight AccountState.worth before.accounts[id]? ≤
        total AccountState.worth before.accounts := entryWeight_le_total ..
    have part : total AccountState.worth before.accounts ≤ before.supply :=
      Nat.le_add_right _ _
    have changed := before.supply_write_account id (some next)
    rw [entryWeight_some] at changed
    omega
  appeals := .refl _
  pool _ := .of_eq rfl

section

variable (found : before.accounts[sender]? = some account) (nonce : next.nonce = account.nonce + 1)
  (bounded : next.nonce < 2 ^ 64) (lock : change.Allows account.lock next.lock)

include found nonce bounded lock

theorem Raised.of_account :
    before.Raised change sender (before.write (.account sender) (some next)) where
  bumped old isOld := by
    rw [nonceOf, found] at isOld
    cases isOld
    rw [nonceOf, accounts_write_account, if_pos rfl, Option.map_some, nonce, ← nonce]
    exact ⟨rfl, bounded⟩
  others id isOther := .of_eq (by rw [accounts_write_account, if_neg isOther.symm])
  lock := by
    rw [lockOf_of_found found, lockOf_write_account, if_pos rfl]
    exact lock

theorem Charged.of_account
    (worth : account.worth < SUPPLY_LIMIT → next.worth + rent = account.worth) :
    before.Charged change sender rent (before.write (.account sender) (some next)) where
  toRaised := .of_account found nonce bounded lock
  supply fits := by
    have whole := worth_le_supply found
    have changed := before.supply_write_account sender (some next)
    rw [found, entryWeight_some, entryWeight_some] at changed
    omega
  appeals := .refl _
  pool _ := .of_eq rfl

end

/-! ## Deposits -/

/-- An account after a deposit; a new one is created for it. -/
def deposited (amount : ℕ) : Option AccountState → AccountState
  | some account =>
    { account with balance := saturatingAdd 128 account.balance amount }
  | none => { AccountState.default with balance := amount }

def deposit (contents : Contents) (id : AccountId) (amount : ℕ) : Contents :=
  contents.write (.account id) (some (deposited amount contents.accounts[id]?))

theorem received_deposit (id : AccountId) (amount : ℕ) :
    contents.Received amount (contents.deposit id amount) := by
  apply Received.of_account
  · cases contents.accounts[id]? <;> rfl
  · unfold lockOf
    cases contents.accounts[id]? <;> rfl
  · intro fits
    cases found : contents.accounts[id]? with
    | none =>
      simp [deposited, AccountState.worth, AccountState.default]
    | some account =>
      rw [found, entryWeight_some] at fits
      simp only [deposited, AccountState.worth, saturatingAdd, maxValue,
        SUPPLY_LIMIT, entryWeight_some] at fits ⊢
      omega

end Contents

def RegistryId.IsPlain : RegistryId → Prop
  | .openValidators | .slashAppeals => False
  | _ => True

theorem RegistryId.IsPlain.settles {Error Value : Type} {id : RegistryId} (plain : id.IsPlain)
    (operation : EStateM Error id.Carrier Value) : id.Settles operation := by
  intro left right same
  have equal : left = right := by
    cases id with
    | openValidators => exact plain.elim
    | slashAppeals => exact plain.elim
    | _ => exact same
  rw [equal]
  cases operation right with
  | ok => exact ⟨rfl, rfl⟩
  | error => exact ⟨rfl, rfl⟩

theorem RegistryId.IsPlain.kept {id : RegistryId} (plain : id.IsPlain) (contents : Contents)
    (registry : id.Carrier) : contents.Kept (contents.setRegistry id registry) := by
  cases id with
  | openValidators => exact plain.elim
  | slashAppeals => exact plain.elim
  | _ => exact .of_apart (fun _ => .of_eq rfl) ⟨rfl, rfl, rfl⟩

section Commands

variable [Crypto] {Error Value Next Outcome : Type} {done : Value → StateStore → StateStore → Prop}
  {overflow missing : Error} {command : Command ledgerModel.conduct Error Value done}
  {update : EStateM Error AccountState Outcome} {post : Value → Contents → Prop}

def Leads (command : Command ledgerModel.conduct Error Value done) (before : Contents)
    (post : Value → Contents → Prop) : Prop :=
  ∀ store : StateStore, store.toContents = before →
    command.run.Ends store (fun _ => True) fun value after => post value after.toContents

namespace Leads

variable {effect : Effect StateStore}

variable {first : Within ledgerModel.conduct effect Error Value}

theorem mono {weaker : Value → Contents → Prop} (leads : Leads command before post)
    (follows : ∀ value after, post value after → weaker value after) :
    Leads command before weaker :=
  fun store isBefore => (leads store isBefore).imp
    fun value _ reached => follows value _ reached

theorem pure {value : Value} (reached : post value before) :
    Leads (pure value : Within ledgerModel.conduct effect Error Value) before post := by
  rintro store rfl
  exact reached

theorem fail {error : Error} :
    Leads (Within.fail error : Within ledgerModel.conduct effect Error Value) before post :=
  fun _ _ => trivial

theorem bind {next : Value → Within ledgerModel.conduct effect Error Next}
    {post : Next → Contents → Prop}
    (leads : Leads first before fun value middle => Leads (next value) middle post) :
    Leads (first >>= next) before post := by
  intro store isBefore
  apply EStateM.ends_bind.mpr
  apply (leads store isBefore).imp
  intro value middle continues
  exact continues middle rfl

theorem of_forall (holds : ∀ value after, post value after) : Leads command before post := by
  intro store _
  unfold EStateM.Ends
  split
  next value after _ => exact holds value after.toContents
  next => trivial

/-- Only the last program matters. -/
theorem andThen {next : Value → Within ledgerModel.conduct effect Error Next}
    {post : Next → Contents → Prop} (continues : ∀ value middle, Leads (next value) middle post) :
    Leads (first >>= next) before post :=
  .bind (.of_forall continues)

section

variable {program : Within ledgerModel.conduct effect Error Value}
  (leads : Leads program before post)

include leads

theorem mapError {OtherError : Type} {describe : Error → OtherError} :
    Leads (program.mapError describe) before post :=
  fun store isBefore => EStateM.ends_adaptExcept.mpr (leads store isBefore)

theorem forget : Leads program.forget before post :=
  leads

end

theorem look {post : LedgerView → Contents → Prop}
    (reached : ∀ config, post ⟨before.settled, config⟩ before) :
    Leads (ledgerModel.look : Within ledgerModel.conduct effect Error LedgerView) before post := by
  rintro store rfl
  exact reached store.config

theorem decide {choose : LedgerView → Except Error Value × List StoreWrite}
    {uniform : ∀ view, ∀ write ∈ (choose view).2, ledgerModel.Uniform write}
    (reached : ∀ config value writes, choose ⟨before.settled, config⟩ = (.ok value, writes) →
      post value (writes.foldl StoreWrite.effect before)) :
    Leads (ledgerModel.decide choose uniform) before post := by
  rintro store rfl
  have ends : ∀ result writes, choose store.view = (result, writes) →
      (ledgerModel.decide choose uniform).run store = match result with
        | .ok value => .ok value (writes.foldl StateStore.applyWrite store)
        | .error error => .error error (writes.foldl StateStore.applyWrite store) := by
    intro result writes chosen
    simp only [WriteModel.decide, ledgerModel, chosen]
    cases result <;> rfl
  cases chosen : choose store.view with
  | mk result writes =>
    rw [EStateM.Ends, ends result writes chosen]
    cases result with
    | error => trivial
    | ok value =>
      change post value (writes.foldl StateStore.applyWrite store).toContents
      rw [StateStore.foldl_applyWrite_toContents]
      exact reached store.config value writes chosen

theorem withAccount {body : EStateM Error AccountState Value}
    (reached : ∀ account value next, before.accounts[id]? = some account →
      body account = .ok value next → post value (before.write (.account id) (some next))) :
    Leads (Act.withAccount id missing body) before post := by
  apply Leads.decide
  intro config value writes chosen
  have seen : before.settled.accounts[id]? = before.accounts[id]? := rfl
  simp only [seen] at chosen
  cases found : before.accounts[id]? with
  | none =>
    rw [found] at chosen
    cases chosen
  | some account =>
    rw [found] at chosen
    obtain ⟨returned, rfl⟩ := Prod.mk.inj chosen
    cases ran : body account with
    | error =>
      rw [ran] at returned
      cases returned
    | ok result next =>
      rw [ran] at returned
      cases returned
      have written := reached account value next found ran
      simp only [List.foldl_cons, List.foldl_nil, StoreWrite.effect, found, Option.map_some, ran]
      exact written

theorem alter {update : AccountState → Value × AccountState} {post : Option Value → Contents → Prop}
    (absent : before.accounts[id]? = none → post none before)
    (present : ∀ account, before.accounts[id]? = some account →
      post (some (update account).1) (before.write (.account id) (some (update account).2))) :
    Leads (Act.alter id update : Act Error (Option Value)) before post := by
  apply Leads.decide
  intro config value writes chosen
  have seen : before.settled.accounts[id]? = before.accounts[id]? := rfl
  simp only [seen] at chosen
  cases found : before.accounts[id]? with
  | none =>
    rw [found] at chosen
    cases chosen
    exact absent found
  | some account =>
    have written := present account found
    rw [found] at chosen
    cases chosen
    simp only [List.foldl_cons, List.foldl_nil, StoreWrite.effect, found, Option.map_some]
    exact written

theorem writeEntry {write : StoreWrite} {uniform : ledgerModel.Uniform write}
    {post : PUnit → Contents → Prop} (reached : post ⟨⟩ (write.effect before)) :
    Leads (Act.writeEntry write uniform : Act Error PUnit) before post := by
  apply Leads.decide
  intro config value writes chosen
  cases chosen
  exact reached

theorem onRegistry {id : RegistryId} {operation : EStateM Error id.Carrier Value}
    {settles : id.Settles operation}
    (reached : ∀ value next, operation (before.registry id) = .ok value next →
      post value (before.setRegistry id next)) :
    Leads (Act.onRegistry id operation settles) before post := by
  apply Leads.decide
  intro config value writes chosen
  have alike := settles (before.settled.registry id) (before.registry id) (by
    rw [Contents.registry_settled]
    exact id.settled_settled _)
  obtain ⟨returned, rfl⟩ := Prod.mk.inj chosen
  have same := alike.returned
  rw [returned] at same
  cases ran : operation (before.registry id) with
  | error =>
    rw [ran] at same
    cases same
  | ok result next =>
    rw [ran] at same
    cases same
    have written := reached value next ran
    simp only [List.foldl_cons, List.foldl_nil, StoreWrite.effect, ran]
    exact written

end Leads

/-- Changes an account that exists, and inserts one that is absent. -/
def Act.place (id : AccountId) (placed : Option AccountState → AccountState) : Act Error PUnit :=
  ledgerModel.decide (fun view => match view.contents.accounts[id]? with
    | some _ => (.ok ⟨⟩, [.getMut id fun account => placed (some account)])
    | none => (.ok ⟨⟩, [.insert id (placed none)]))
    fun view write member => by
      split at member <;> rw [List.mem_singleton.mp member] <;>
        exact ledgerModel_uniform_entry (.account id) trivial (fun _ => rfl) fun _ => rfl

theorem Act.place_total (id : AccountId) (placed : Option AccountState → AccountState) :
    (Act.place id placed : Act Error PUnit).Total := by
  apply ledgerModel.decide_total
  intro view
  cases view.contents.accounts[id]? with
  | none => exact ⟨_, _, rfl⟩
  | some account => exact ⟨_, _, rfl⟩

theorem Leads.place {placed : Option AccountState → AccountState} {post : PUnit → Contents → Prop}
    (reached : post ⟨⟩ (before.write (.account id) (some (placed before.accounts[id]?)))) :
    Leads (Act.place id placed : Act Error PUnit) before post := by
  apply Leads.decide
  intro config value writes chosen
  have seen : before.settled.accounts[id]? = before.accounts[id]? := rfl
  simp only [seen] at chosen
  cases found : before.accounts[id]? with
  | none =>
    rw [found] at chosen reached
    cases chosen
    exact reached
  | some account =>
    rw [found] at chosen reached
    cases chosen
    simp only [List.foldl_cons, List.foldl_nil, StoreWrite.effect, found, Option.map_some]
    exact reached

/-- Credits an account that may be absent. -/
def Act.deposit (id : AccountId) (amount : ℕ) : Act Error PUnit :=
  Act.place id (Contents.deposited amount)

/-! ## Quiet commands -/

def keeping (change : LockChange) : Effect StateStore where
  rel before after := before.toContents.KeptBut change after.toContents
  refl _ := .refl _
  trans := .trans

abbrev Quiet (Error Value : Type) : Type := Within ledgerModel.conduct (keeping .keep) Error Value

/-- A command whose effect was shown to be quiet. -/
def Act.quietly (act : Act Error Value)
    (kept : ∀ before, Leads act before fun _ after => before.Kept after) : Quiet Error Value :=
  act.strengthen fun store => kept store.toContents store rfl

/-- What is known of the runs of a command stays known. -/
theorem Leads.quietly {act : Act Error Value}
    {kept : ∀ before, Leads act before fun _ after => before.Kept after}
    (leads : Leads act before post) : Leads (act.quietly kept) before post :=
  leads

namespace Quiet

def setContractCode (account : AccountId) (bytecode : Bytes) : Quiet Error PUnit :=
  (Act.writeEntry (.setContractCode account bytecode)
      (ledgerModel_uniform_entry (.code account) trivial (fun _ => rfl) fun _ => rfl)).quietly
    fun _ => .writeEntry (.of_apart (fun _ => .of_eq rfl) ⟨rfl, rfl, rfl⟩)

def mergeContractStorage (contract : AccountId) (key value : BitVec 256) : Quiet Error PUnit :=
  (Act.writeEntry (.mergeContractStorage contract key value) (ledgerModel_uniform_entry
      (.storage contract key) trivial (fun _ => rfl) fun _ => rfl)).quietly
    fun _ => .writeEntry (.of_apart (fun _ => .of_eq rfl) ⟨rfl, rfl, rfl⟩)

def removeQaPending (subject : Hash) : Quiet Error PUnit :=
  (Act.writeEntry (.removeQaPending subject)
      (ledgerModel_uniform_entry (.qaPending subject) trivial (fun _ => rfl) fun _ => rfl)).quietly
    fun _ => .writeEntry (.of_apart (fun _ other record found => by
      rw [StoreWrite.effect, Contents.write, getElem?_put] at found
      split at found
      · cases found
      · exact found) ⟨rfl, rfl, rfl⟩)

/-- Operates on a registry that holds no bond and no appeal. -/
def onRegistry (id : RegistryId) (plain : id.IsPlain)
    (operation : EStateM Error id.Carrier Value) : Quiet Error Value :=
  (Act.onRegistry id operation (plain.settles operation)).quietly fun before =>
    .onRegistry fun _ next _ => plain.kept before next

end Quiet

/-! ## Reviews -/

abbrev Reviewing (Error Value : Type) : Type :=
  Within ledgerModel.conduct (keeping .review) Error Value

/-- A quiet command within a review. -/
def Quiet.inReview (command : Quiet Error Value) : Reviewing Error Value :=
  Command.weaken command fun _ kept => { kept with pool := fun keeps => absurd rfl keeps }

theorem Leads.inReview {command : Quiet Error Value} (leads : Leads command before post) :
    Leads command.inReview before post :=
  leads

namespace Reviewing

/-- Writes an entry of the pool. -/
def writeEntry (write : StoreWrite) (uniform : ledgerModel.Uniform write)
    (apart : ∀ contents, (write.effect contents).accounts = contents.accounts ∧
      (write.effect contents).openValidators = contents.openValidators ∧
      (write.effect contents).slashAppeals = contents.slashAppeals) : Reviewing Error PUnit :=
  (Act.writeEntry write uniform).strengthen fun store =>
    Leads.writeEntry (.of_apart (absurd rfl ·) (apart store.toContents)) store rfl

def insertQaPending (subject : Hash) (record : QaPendingRecord) : Reviewing Error PUnit :=
  writeEntry (.insertQaPending subject record)
    (ledgerModel_uniform_entry (.qaPending subject) trivial (fun _ => rfl) fun _ => rfl)
    fun _ => ⟨rfl, rfl, rfl⟩

def qaPendingMut (subject : Hash) (update : QaPendingRecord → QaPendingRecord) :
    Reviewing Error PUnit :=
  writeEntry (.qaPendingMut subject update)
    (ledgerModel_uniform_entry (.qaPending subject) trivial (fun _ => rfl) fun _ => rfl)
    fun _ => ⟨rfl, rfl, rfl⟩

end Reviewing

/-! ## Charged commands -/

abbrev LockingCharge (change : LockChange) (sender : AccountId) (Error Value : Type) : Type :=
  Command ledgerModel.conduct Error (ℕ × Value) fun outcome before after =>
    before.toContents.Charged change sender outcome.1 after.toContents

/-- Charges that leave the unbonding of the sender alone. -/
abbrev Charge (sender : AccountId) (Error Value : Type) : Type :=
  LockingCharge .keep sender Error Value

/-- Charges that may change the pool of pending deploys. -/
abbrev ReviewCharge (sender : AccountId) (Error Value : Type) : Type :=
  LockingCharge .review sender Error Value

/-- The last step of a charge. -/
def bumpNonce (overflow : Error) : EStateM Error AccountState PUnit := do
  let account ← get
  match checkedAdd 64 account.nonce 1 with
  | none => throw overflow
  | some nonce => set { account with nonce }

def chargedRecord {Outcome : Type} (overflow : Error)
    (update : EStateM Error AccountState Outcome) : EStateM Error AccountState Outcome := do
  let outcome ← update
  bumpNonce overflow
  return outcome

omit [Crypto] in
theorem eq_of_chargedRecord {outcome : Outcome}
    (charged : chargedRecord overflow update account = .ok outcome next) :
    ∃ updated, update account = .ok outcome updated ∧
      next = { updated with nonce := updated.nonce + 1 } := by
  have ends : (chargedRecord overflow update).Ends account (fun _ => True) fun outcome next =>
      ∃ updated, update account = .ok outcome updated ∧
        next = { updated with nonce := updated.nonce + 1 } := by
    rw [chargedRecord, EStateM.ends_bind, EStateM.Ends]
    cases ran : update account with
    | error => trivial
    | ok value updated =>
      simp only [bumpNonce, EStateM.ends_bind, EStateM.ends_get]
      cases raised : checkedAdd 64 updated.nonce 1 with
      | none => trivial
      | some nonce =>
        have isNext : updated.nonce + 1 = nonce := by
          unfold checkedAdd at raised
          split at raised
          · exact Option.some.inj raised
          · cases raised
        exact ⟨updated, rfl, by rw [isNext]⟩
  exact EStateM.ends_of_ok ends charged

omit [Crypto] in
theorem chargedRecord_ends (owns : Outcome → ℕ → Lock → Prop)
    (ends : update.Ends account (fun _ => True) fun outcome next =>
      next.nonce = account.nonce ∧ owns outcome next.worth next.lock) :
    (chargedRecord overflow update).Ends account (fun _ => True) fun outcome next =>
      next.nonce = account.nonce + 1 ∧ next.nonce < 2 ^ 64 ∧ owns outcome next.worth next.lock := by
  rw [chargedRecord, EStateM.ends_bind]
  apply ends.imp
  intro outcome next ⟨nonce, worth⟩
  simp only [bumpNonce, EStateM.ends_bind, EStateM.ends_get]
  cases added : checkedAdd 64 next.nonce 1 with
  | none => trivial
  | some nonce =>
    obtain ⟨rfl, bounded⟩ := checkedAdd_eq_some.mp added
    exact ⟨congrArg (· + 1) nonce, bounded, worth⟩

omit [Crypto] in
theorem bumpNonce_succeeds :
    (bumpNonce overflow).Succeeds account ↔ account.nonce + 1 < 2 ^ 64 := by
  rw [bumpNonce, EStateM.succeeds_get_bind]
  cases added : checkedAdd 64 account.nonce 1 with
  | none =>
    simp only [EStateM.not_succeeds_throw, false_iff]
    intro fits
    rw [checkedAdd_eq_some.mpr ⟨rfl, fits⟩] at added
    cases added
  | some nonce =>
    simp only [EStateM.succeeds_set, true_iff]
    exact (checkedAdd_eq_some.mp added).2

omit [Crypto] in
theorem chargedRecord_succeeds : (chargedRecord overflow update).Succeeds account ↔
      ∃ outcome next, update account = .ok outcome next ∧ next.nonce + 1 < 2 ^ 64 := by
  rw [chargedRecord, EStateM.succeeds_bind]
  refine exists_congr fun outcome => exists_congr fun next => and_congr_right fun _ => ?_
  have bumps : (bumpNonce overflow).Succeeds next ↔ next.nonce + 1 < 2 ^ 64 := bumpNonce_succeeds
  rw [EStateM.succeeds_bind, ← bumps]
  simp only [EStateM.succeeds_pure, and_true]
  rfl

def IsFair (change : LockChange) (update : EStateM Error AccountState (ℕ × Value)) : Prop :=
  ∀ account, update.Ends account (fun _ => True) fun outcome next =>
    next.nonce = account.nonce ∧
      (account.worth < SUPPLY_LIMIT → next.worth + outcome.1 = account.worth) ∧
        change.Allows account.lock next.lock

namespace Charge

def touch (missing overflow : Error) (update : EStateM Error AccountState (ℕ × Value))
    (fair : IsFair change update) : LockingCharge change sender Error Value :=
  (Act.withAccount sender missing (chargedRecord overflow update)).strengthen fun store => by
    refine Leads.withAccount ?_ store rfl
    intro account outcome next found ran
    obtain ⟨nonce, bounded, worth, lock⟩ := EStateM.ends_of_ok (chargedRecord_ends
      (fun outcome worth lock =>
        (account.worth < SUPPLY_LIMIT → worth + outcome.1 = account.worth) ∧
          change.Allows account.lock lock) (fair account)) ran
    exact .of_account found nonce bounded lock worth

def after (prologue : Quiet Error Value)
    (charge : Value → LockingCharge change sender Error Next) :
    LockingCharge change sender Error Next :=
  prologue.andThen charge fun kept charged => Contents.Kept.charged kept charged

def tag {effect : Effect StateStore} (rent : ℕ)
    (command : Within ledgerModel.conduct effect Error Value) :
    Command ledgerModel.conduct Error (ℕ × Value) fun outcome before after =>
      outcome.1 = rent ∧ effect.rel before after where
  run := command.run >>= fun value => pure (rent, value)
  ensures before := by
    rw [EStateM.ends_bind]
    apply (command.ensures before).mono
    · intro after always
      exact always
    · intro value after kept
      exact ⟨kept.1, rfl, kept.2⟩
  respects sight := (command.respects sight).bind fun _ => .pure _

/-- A charge that leaves the pool alone, among those that may change it. -/
def unreviewed (charge : Charge sender Error Value) : ReviewCharge sender Error Value :=
  charge.weaken fun _ charged => charged.unreviewed

end Charge

/-- A quiet command or a review after the charge; the rent is passed on. -/
def LockingCharge.andQuietly (charge : LockingCharge change sender Error Value)
    (epilogue : Value → Within ledgerModel.conduct (keeping change) Error Next) :
    LockingCharge change sender Error Next :=
  charge.andThen (fun outcome => Charge.tag outcome.1 (epilogue outcome.2)) fun charged kept => by
    rw [kept.1]
    exact charged.kept kept.2

theorem Leads.after {prologue : Quiet Error Value}
    {charge : Value → LockingCharge change sender Error Next} {post : ℕ × Next → Contents → Prop}
    (leads : Leads prologue before fun value middle => Leads (charge value) middle post) :
    Leads (Charge.after prologue charge) before post := by
  intro store isBefore
  apply EStateM.ends_bind.mpr
  apply (leads store isBefore).imp
  intro value middle continues
  exact continues middle rfl

theorem Leads.touch {update : EStateM Error AccountState (ℕ × Value)} {fair : IsFair change update}
    {post : ℕ × Value → Contents → Prop}
    (reached : ∀ account outcome next, before.accounts[sender]? = some account →
      chargedRecord overflow update account = .ok outcome next →
        post outcome (before.write (.account sender) (some next))) :
    Leads (Charge.touch missing overflow update fair : LockingCharge change sender Error Value)
      before post :=
  Leads.withAccount reached

end Commands

end BoingNetwork
