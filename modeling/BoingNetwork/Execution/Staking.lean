import BoingNetwork.Execution.Native
import BoingNetwork.State.RegistryLaws

/-!
# Transfers, stakes, validators and names

The handlers of the payloads that only touch the record of the sender, one registry and
the recipient of a transfer.
-/

namespace BoingNetwork

open EStateM MachineInt OpenValidatorRegistry

/-! ## Records of the sender -/

def bondStake (amount : ℕ) : EStateM VmFault AccountState (ℕ × VmExecutionResult) := do
  let account ← get
  if account.balance < amount then throw (.error .insufficientBalance)
  else
    set { account with
      balance := account.balance - amount
      stake := saturatingAdd 128 account.stake amount }
    return (0, gasOnly GAS_STAKING)

theorem isFair_bondStake (amount : ℕ) : IsFair .keep (bondStake amount) := by
  intro account
  simp only [bondStake, ends_bind, ends_get]
  split
  next => trivial
  next enough =>
    refine ⟨rfl, fun fits => ?_, .refl _⟩
    simp only [AccountState.worth, SUPPLY_LIMIT, saturatingAdd, maxValue] at *
    omega

def unbondStake (amount height : ℕ) :
    EStateM VmFault AccountState (ℕ × VmExecutionResult) := do
  let account ← get
  if account.stake < amount then throw (.error .insufficientBalance)
  else
    set { account with
      stake := account.stake - amount
      pendingUnbond := saturatingAdd 128 account.pendingUnbond amount
      unbondUnlockHeight := saturatingAdd 64 height UNBONDING_DELAY_BLOCKS }
    return (0, gasOnly GAS_STAKING)

theorem isFair_unbondStake (amount height : ℕ) :
    IsFair (.unbond amount (saturatingAdd 64 height UNBONDING_DELAY_BLOCKS))
      (unbondStake amount height) := by
  intro account
  simp only [unbondStake, ends_bind, ends_get]
  split
  next => trivial
  next enough =>
    refine ⟨rfl, fun fits => ?_, Nat.min_le_left _ _, rfl⟩
    simp only [AccountState.worth, SUPPLY_LIMIT, saturatingAdd, maxValue] at *
    omega

def claimUnbonded (height : ℕ) :
    EStateM VmFault AccountState (ℕ × VmExecutionResult) := do
  let account ← get
  if account.pendingUnbond = 0 then throw (.error .insufficientBalance)
  else if height < account.unbondUnlockHeight then
    throw (.error (.unbondNotMature account.unbondUnlockHeight height))
  else
    set { account with
      balance := saturatingAdd 128 account.balance account.pendingUnbond
      pendingUnbond := 0
      unbondUnlockHeight := 0 }
    return (0, gasOnly GAS_STAKING)

theorem isFair_claimUnbonded (height : ℕ) : IsFair (.claim height) (claimUnbonded height) := by
  intro account
  simp only [claimUnbonded, ends_bind, ends_get]
  split
  next => trivial
  next pending =>
    split
    next => trivial
    next matured =>
      refine ⟨rfl, fun fits => ?_, Nat.pos_of_ne_zero pending, Nat.not_lt.mp matured, rfl,
        Nat.zero_le _⟩
      simp only [AccountState.worth, SUPPLY_LIMIT, saturatingAdd,
        maxValue] at *
      omega

/-- The bond of a deregistered validator unlocks with what is already pending. -/
def addUnbonding (refund unlockHeight : ℕ) :
    EStateM VmFault AccountState (ℕ × VmExecutionResult) := do
  let account ← get
  if refund > 0 then
    set { account with
      pendingUnbond := saturatingAdd 128 account.pendingUnbond refund
      unbondUnlockHeight := max account.unbondUnlockHeight unlockHeight }
  return (0, gasOnly GAS_STAKING)

theorem addUnbonding_ends (refund unlockHeight : ℕ) (account : AccountState) :
    (addUnbonding refund unlockHeight).Ends account (fun _ => True) fun outcome next =>
      next.nonce = account.nonce ∧ (outcome.1 = 0 ∧
        (account.worth + refund < SUPPLY_LIMIT → next.worth = account.worth + refund) ∧
          (LockChange.release unlockHeight).Allows account.lock next.lock) := by
  simp only [addUnbonding, ends_bind, ends_get]
  split
  next =>
    refine ⟨rfl, rfl, fun fits => ?_, .inr rfl⟩
    simp only [AccountState.worth, SUPPLY_LIMIT, saturatingAdd, maxValue] at *
    omega
  next none =>
    refine ⟨rfl, rfl, fun _ => ?_, .inl (.refl _)⟩
    omega

section Handlers

variable [Platform] {sender : AccountId} (params : OpenValidatorParams) (height : ℕ)
  (nodeId : AccountId)

def touchSender {Value : Type} {change : LockChange}
    (update : EStateM VmFault AccountState (ℕ × Value)) (fair : IsFair change update) :
    LockingCharge change sender VmFault Value :=
  Charge.touch (.error .accountNotFound) (.error .nonceOverflow) update fair

def executeBond (amount : ℕ) : Handler sender :=
  touchSender (bondStake amount) (isFair_bondStake amount)

def executeUnbond (amount height : ℕ) :
    LockingCharge (.unbond amount (saturatingAdd 64 height UNBONDING_DELAY_BLOCKS))
      sender VmFault VmExecutionResult :=
  touchSender (unbondStake amount height) (isFair_unbondStake amount height)

def executeClaimUnbond (height : ℕ) :
    LockingCharge (.claim height) sender VmFault VmExecutionResult :=
  touchSender (claimUnbonded height) (isFair_claimUnbonded height)

/-- The amount is in flight between the two accounts. -/
def executeTransfer (recipient : AccountId) (amount : ℕ) : Handler sender :=
  Charge.deliver (touchSender (debitSender amount (gasOnly GAS_PER_TRANSFER))
    (isFair_debitSender amount _)) recipient

/-! ## Validators -/

def openValidatorParamsAt (configured : Option OpenValidatorParams) (height : ℕ) :
    Except VmError OpenValidatorParams :=
  match configured with
  | none => .error (.openValidator OpenValidatorError.disabled.display)
  | some params =>
    if height < params.activationHeight then
      .error (.openValidator (OpenValidatorError.notYetActive params.activationHeight).display)
    else .ok params

def openValidatorFault (reason : OpenValidatorError) : VmFault :=
  .error (.openValidator reason.display)

def registerBond (sender : AccountId) (params : OpenValidatorParams) (height : ℕ)
    (nodeId : AccountId) (capped : Bool) : Act VmFault (ℕ × VmExecutionResult) := do
  (Act.onRegistry .openValidators
    (registerWithCap params height sender nodeId capped)
    (settles_registerWithCap _ _ _ _ _)).mapError openValidatorFault
  let (_, result) ← Act.withAccount sender (.error .accountNotFound)
    (chargedRecord (.error .nonceOverflow) (debitSender params.bond (gasOnly GAS_STAKING)))
  return (0, result)

theorem leads_registerBond (capped : Bool) (before : Contents) :
    Leads (registerBond sender params height nodeId capped) before fun outcome after =>
      before.Charged .keep sender outcome.1 after := by
  refine .bind (.mapError (.onRegistry fun _ registry registered => ?_))
  have more := ends_of_ok (registerWithCap_bonds ..) registered
  refine .bind (.withAccount fun account outcome next found ran => .pure ?_)
  obtain ⟨nonce, bounded, -, worth, lock⟩ := ends_of_ok (chargedRecord_ends
    (fun outcome worth lock => outcome.1 = params.bond ∧ worth + params.bond = account.worth ∧
      LockChange.keep.Allows account.lock lock) (debitSender_ends params.bond _ account)) ran
  -- The account and the registry are apart, so the debit may come first.
  have debited : before.Charged .keep sender (0 + params.bond)
      (before.write (.account sender) (some next)) :=
    .of_account found nonce bounded lock fun _ => by rw [Nat.zero_add, worth]
  exact debited.received (Contents.received_bonds more)

def deregisterBond (sender : AccountId) (params : OpenValidatorParams) (height : ℕ)
    (nodeId : AccountId) (jailLocksBond : Bool) :
    Act VmFault (ℕ × VmExecutionResult) := do
  let refund ← (Act.onRegistry .openValidators
    (deregisterAt sender nodeId height jailLocksBond)
    (settles_deregisterAt _ _ _ _)).mapError openValidatorFault
  Act.withAccount sender (.error .accountNotFound) (chargedRecord (.error .nonceOverflow)
    (addUnbonding refund (saturatingAdd 64 height params.deregisterDelay)))

theorem leads_deregisterBond (jailLocksBond : Bool) (before : Contents) :
    Leads (deregisterBond sender params height nodeId jailLocksBond) before fun outcome after =>
      before.Charged (.release (saturatingAdd 64 height params.deregisterDelay)) sender
        outcome.1 after := by
  refine .bind (.mapError (.onRegistry fun refund registry deregistered => ?_))
  have less := ends_of_ok (deregisterAt_bonds ..) deregistered
  refine .withAccount fun account outcome next found ran => ?_
  obtain ⟨nonce, bounded, zero, worth, lock⟩ := ends_of_ok (chargedRecord_ends
    (fun outcome worth lock => outcome.1 = 0 ∧
      (account.worth + refund < SUPPLY_LIMIT → worth = account.worth + refund) ∧
        LockChange.Allows _ account.lock lock) (addUnbonding_ends _ _ account)) ran
  rw [zero]
  exact (Contents.paid_bonds less).charged found nonce bounded lock worth

def unjailValidator (sender : AccountId) (height : ℕ) (nodeId : AccountId) :
    Quiet VmFault PUnit :=
  Act.quietly ((Act.onRegistry .openValidators
      (unjail sender nodeId height)
      (settles_unjail _ _ _)).mapError openValidatorFault)
    fun before => .mapError (.onRegistry fun _ registry unjailed => by
      have same := ends_of_ok (unjail_bonds ..) unjailed
      exact Contents.Paid.kept (Contents.paid_bonds same))

def executeValidatorRegister (vm : Vm) (configured : Option OpenValidatorParams) (height : ℕ)
    (nodeId : AccountId) (nodeSignature : Bytes) : Handler sender :=
  Charge.after (do
      let params ← check (openValidatorParamsAt configured height)
      -- The configured bond is whole BOING; the record and the debit are ledger units.
      let params := { params with bond := (vm.denominationAt height).scale params.bond }
      let view ← ledgerModel.look
      if !vm.registrationProofOk height sender nodeId nodeSignature then
        reject (.openValidator OpenValidatorError.invalidNodeSignature.display)
      else if view.contents.balanceOf sender < params.bond then reject .insufficientBalance
      else return params)
    fun params => (registerBond sender params height nodeId (vm.securityV4Active height)).strengthen
      fun store => leads_registerBond _ _ _ _ store.toContents store rfl

def deregisterUnlock (configured : Option OpenValidatorParams) (height : ℕ) : ℕ :=
  saturatingAdd 64 height ((configured.map (·.deregisterDelay)).getD 0)

def executeValidatorDeregister (vm : Vm) (configured : Option OpenValidatorParams) (height : ℕ)
    (nodeId : AccountId) :
    LockingCharge (.release (deregisterUnlock configured height)) sender VmFault
      VmExecutionResult :=
  match configured with
  | none => Charge.refuse (.openValidator OpenValidatorError.disabled.display)
  | some params => Charge.after (check (openValidatorParamsAt (some params) height)) fun _ =>
    (deregisterBond sender params height nodeId (vm.securityV4Active height)).strengthen
      fun store => leads_deregisterBond _ _ _ _ store.toContents store rfl

def executeValidatorUnjail (configured : Option OpenValidatorParams) (height : ℕ)
    (nodeId : AccountId) : Handler sender :=
  Charge.after (do
      let _ ← check (openValidatorParamsAt configured height)
      unjailValidator sender height nodeId)
    fun _ => bumpSenderNonce (gasOnly GAS_STAKING)

/-! ## Names -/

def nameParamsAt (configured : Option NameRegistryParams) (height : ℕ) :
    Except VmError NameRegistryParams :=
  match configured with
  | none => .error (.name NameRegistryError.disabled.display)
  | some params =>
    if height < params.activationHeight then
      .error (.name (NameRegistryError.notYetActive params.activationHeight).display)
    else .ok params

def nameFault (reason : NameRegistryError) : VmFault := .error (.name reason.display)

def onNames {Value : Type} (operation : EStateM NameRegistryError NameRegistry Value) :
    Quiet VmFault Value :=
  (Quiet.onRegistry .names trivial operation).mapError nameFault

def nameLabel (name : String) : Quiet VmFault String :=
  Within.ofExcept (fun reason => nameFault (.invalidName reason.display)) (normalizeName name)

def nameOperation (params : NameRegistryParams) (height : ℕ) (sender : AccountId)
    (senderKeyed : Bool) (unit : ℕ) :
    TransactionPayload → Quiet VmFault ℕ
  | .nameCommit commitment => do
    onNames (NameRegistry.commitKeyed params height sender commitment senderKeyed)
    return 0
  | .nameRegister name salt target years => do
    let view ← ledgerModel.look
    let label ← nameLabel name
    let (rent, _) ← Within.ofExcept nameFault (view.contents.names.checkRegisterKeyed params
      height sender label salt years senderKeyed)
    let rent := saturatingMul 128 rent unit
    if view.contents.balanceOf sender < rent then
      Within.fail (nameFault (.insufficientBalance rent))
    else
      let rent ← onNames (NameRegistry.registerKeyed params height sender label salt target years
        senderKeyed)
      return saturatingMul 128 rent unit
  | .nameRenew name years => do
    let view ← ledgerModel.look
    let label ← nameLabel name
    -- The registry is changed in place; the executor reverts it if the rent is not paid.
    let rent ← onNames (NameRegistry.renew params height sender label years)
    let rent := saturatingMul 128 rent unit
    if view.contents.balanceOf sender < rent then
      Within.fail (nameFault (.insufficientBalance rent))
    else return rent
  | .nameTransfer name newOwner => do
    let label ← nameLabel name
    onNames (NameRegistry.transfer params height sender label newOwner)
    return 0
  | .nameSetTarget name target => do
    let label ← nameLabel name
    onNames (NameRegistry.setTarget params height sender label target)
    return 0
  | .nameSetPrimary name => do
    let label ← match name with
      | some name => some <$> nameLabel name
      | none => pure none
    onNames (NameRegistry.setPrimary params height sender label)
    return 0
  | .nameRelease name => do
    let label ← nameLabel name
    onNames (NameRegistry.release params height sender label)
    return 0
  | _ => return 0

def executeNameTx (configured : Option NameRegistryParams) (height : ℕ) (senderKeyed : Bool)
    (unit : ℕ) (payload : TransactionPayload) : Handler sender :=
  Charge.after (do
      let params ← check (nameParamsAt configured height)
      nameOperation params height sender senderKeyed unit payload)
    fun rent => touchSender (debitSender rent (gasOnly GAS_NAME)) (isFair_debitSender rent _)

end Handlers

end BoingNetwork
