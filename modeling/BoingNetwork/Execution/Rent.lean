import BoingNetwork.Execution.Block

/-!
# The rent of a payload

Only the registration and the renewal of a name burn value, and what they burn is the rent of
the label for the years, in units of the ledger.  All other handlers return no rent.
-/

namespace BoingNetwork

open EStateM MachineInt

def TransactionPayload.nameRent : TransactionPayload → ℕ
  | .nameRegister name _ _ years | .nameRenew name years =>
    ((normalizeName name).toOption.map (BoingNetwork.nameRent · years)).getD 0
  | _ => 0

def TransactionPayload.rent (unit : ℕ) (payload : TransactionPayload) : ℕ :=
  saturatingMul 128 payload.nameRent unit

section Rent

variable [Platform] {sender owner target : AccountId} {Value Next : Type}
  {payload : TransactionPayload} {params : NameRegistryParams}
  {update : EStateM VmFault AccountState (ℕ × Value)} {keyed : Bool} {tx : Transaction}
  {known : ℕ × Value → Prop} {label : String} {before : Contents} {context : VmExecutionContext}
  {salt : BitVec 256} {config : LedgerConfig} {height years unit rent : ℕ}

/-- The successes of a handler burn nothing. -/
class RentFree {done : ℕ × Value → StateStore → StateStore → Prop}
    (command : Command ledgerModel.conduct VmFault (ℕ × Value) done) : Prop where
  returns : command.run.Returns fun outcome => outcome.1 = 0

section Rules

variable {change : LockChange}

instance rentFree_after {prologue : Quiet VmFault Value}
    {charge : Value → LockingCharge change sender VmFault Next}
    [free : ∀ value, RentFree (charge value)] : RentFree (Charge.after prologue charge) :=
  ⟨.andThen fun value => (free value).returns⟩

instance rentFree_andQuietly {charge : LockingCharge change sender VmFault Value}
    {epilogue : Value → Within ledgerModel.conduct (keeping change) VmFault Next}
    [free : RentFree charge] :
    RentFree (charge.andQuietly epilogue) :=
  ⟨free.returns.bind fun _ zero => .andThen fun _ => .pure zero⟩

instance rentFree_unreviewed {charge : Charge sender VmFault Value}
    [free : RentFree charge] : RentFree charge.unreviewed :=
  ⟨free.returns⟩

instance rentFree_deliver {charge : LockingCharge change sender VmFault Value}
    {recipient : AccountId} : RentFree (Charge.deliver charge recipient) :=
  ⟨.andThen fun _ => .andThen fun _ => .pure rfl⟩

instance rentFree_refuse {reason : VmError} :
    RentFree (Charge.refuse reason : LockingCharge change sender VmFault Value) :=
  ⟨.andThen fun value => value.elim⟩

theorem returns_chargedRecord {overflow missing : VmFault} (returns : update.Returns known) :
    (Act.withAccount sender missing (chargedRecord overflow update)).run.Returns known := by
  intro store
  have leads : Leads (Act.withAccount sender missing (chargedRecord overflow update))
      store.toContents fun outcome _ => known outcome := by
    refine .withAccount fun account outcome next _ charged => ?_
    obtain ⟨updated, ran, -⟩ := eq_of_chargedRecord charged
    exact returns.known ran
  exact leads store rfl

theorem returns_touchSender {fair : IsFair change update} (returns : update.Returns known) :
    (touchSender update fair : LockingCharge change sender VmFault Value).run.Returns
      known :=
  returns_chargedRecord returns

instance rentFree_bumpSenderNonce {value : Value} :
    RentFree (bumpSenderNonce value : Charge sender VmFault Value) :=
  ⟨returns_touchSender (.pure rfl)⟩

end Rules

/-! ## Handlers -/

omit [Platform] in
theorem returns_debitSender {amount : ℕ} {value : Value} :
    (debitSender amount value).Returns fun outcome => outcome.1 = amount := by
  intro account
  exact (debitSender_ends amount value account).imp fun _ _ ended => ended.2.1

instance rentFree_executeBond {amount : ℕ} :
    RentFree (executeBond amount : Handler sender) := by
  refine ⟨returns_touchSender (.andThen fun account => ?_)⟩
  split
  next => exact .throw
  next => exact .andThen fun _ => .pure rfl

instance rentFree_executeUnbond {amount height : ℕ} :
    RentFree (executeUnbond amount height : LockingCharge _ sender _ _) := by
  refine ⟨returns_touchSender (.andThen fun account => ?_)⟩
  split
  next => exact .throw
  next => exact .andThen fun _ => .pure rfl

instance rentFree_executeClaimUnbond {height : ℕ} :
    RentFree (executeClaimUnbond height : LockingCharge _ sender _ _) := by
  refine ⟨returns_touchSender (.andThen fun account => ?_)⟩
  split
  next => exact .throw
  next =>
    split
    next => exact .throw
    next => exact .andThen fun _ => .pure rfl

instance rentFree_executeTransfer {recipient : AccountId} {amount : ℕ} :
    RentFree (executeTransfer recipient amount : Charge sender VmFault _) :=
  rentFree_deliver

instance rentFree_claimAddress {address : AccountId} :
    RentFree (claimAddress address : Charge sender VmFault PUnit) := by
  refine ⟨.andThen fun view => ?_⟩
  dsimp only
  split
  next => exact .throw
  next =>
    have raised : RentFree (bumpSenderNonce ⟨⟩ : Charge sender VmFault PUnit) :=
      inferInstance
    exact raised.returns.bind fun outcome zero => .andThen fun _ => .pure zero

instance rentFree_deployContract {env : CallEnv} {tx : Transaction}
    {fields : ContractDeployFields} :
    RentFree (deployContract env tx fields : Charge sender VmFault _) := by
  unfold deployContract
  infer_instance

instance rentFree_registerUnsureDeploy {vm : Vm} {tx : Transaction} {height : ℕ} :
    RentFree (registerUnsureDeploy vm tx height : LockingCharge _ sender _ _) :=
  rentFree_after

instance rentFree_executeContractDeploy {vm : Vm} {context : VmExecutionContext}
    {tx : Transaction} : RentFree (executeContractDeploy vm context tx :
      LockingCharge _ sender _ _) := by
  unfold executeContractDeploy
  dsimp only
  split
  next => infer_instance
  next =>
    split
    next => infer_instance
    next => infer_instance
    next =>
      split
      next => infer_instance
      next => split <;> infer_instance

instance rentFree_executeContractCall {vm : Vm} {context : VmExecutionContext}
    {contract : AccountId} {calldata : Bytes} {value : ℕ} :
    RentFree (executeContractCall vm context contract calldata value : Charge sender _ _) :=
  rentFree_andQuietly

instance rentFree_executeValidatorRegister {vm : Vm} {configured : Option OpenValidatorParams}
    {height : ℕ} {nodeId : AccountId} {nodeSignature : Bytes} :
    RentFree (executeValidatorRegister vm configured height nodeId nodeSignature :
      Charge sender _ _) :=
  ⟨.andThen fun _ => .andThen fun _ => .andThen fun _ => .pure rfl⟩

omit [Platform] in
theorem returns_addUnbonding {refund unlockHeight : ℕ} :
    (addUnbonding refund unlockHeight).Returns fun outcome => outcome.1 = 0 := by
  intro account
  exact (addUnbonding_ends refund unlockHeight account).imp
    fun _ _ ended => ended.2.1

instance rentFree_executeValidatorDeregister {vm : Vm}
    {configured : Option OpenValidatorParams} {height : ℕ} {nodeId : AccountId} :
    RentFree (executeValidatorDeregister vm configured height nodeId :
      LockingCharge _ sender _ _) := by
  cases configured with
  | none => exact rentFree_refuse
  | some params =>
    exact ⟨.andThen fun _ => .andThen fun _ => returns_chargedRecord returns_addUnbonding⟩

theorem returns_settle {resolvers : Resolvers} {ballot : Option Ballot}
    {cast : CastCommand resolvers ballot (ℕ × CastResolveOutcome)} {appealId : ℕ} :
    (cast.settle appealId : TxCommand resolvers ballot .keep sender).run.Returns
      fun outcome => outcome.1 = 0 :=
  .andThen fun _ => .andThen fun _ => rentFree_bumpSenderNonce.returns

/-! ## Names -/

theorem leads_onNames {operation : EStateM NameRegistryError NameRegistry Value}
    {known : Value → Prop} (returns : operation.Returns known) :
    Leads (onNames operation) before fun value _ => known value := by
  refine .mapError (.quietly (.onRegistry fun value next ran => ?_))
  exact returns.known ran

theorem NameRegistry.rent_of_checkRegisterKeyed {registry : NameRegistry} {used : BitVec 256}
    (checked : registry.checkRegisterKeyed params height owner label salt years keyed =
      .ok (rent, used)) : rent = nameRent label years := by
  unfold checkRegisterKeyed at checked
  grind

theorem returns_registerKeyed :
    (NameRegistry.registerKeyed params height owner label salt target years keyed).Returns
      fun rent => rent = nameRent label years := by
  refine .andThen fun registry => ?_
  split
  next => exact .throw
  next rent key checked =>
    exact .andThen fun _ => .pure (NameRegistry.rent_of_checkRegisterKeyed checked)

omit [Platform] in
theorem returns_renew : (NameRegistry.renew params height owner label years).Returns
      fun rent => rent = nameRent label years := by
  refine .andThen fun registry => ?_
  split
  next => exact .throw
  next =>
    split
    next => exact .throw
    next =>
      dsimp only
      split
      next => exact .throw
      next => exact .andThen fun _ => .pure rfl

omit [Platform] in
theorem TransactionPayload.rent_eq (isRent : payload.nameRent = rent) :
    saturatingMul 128 rent unit = payload.rent unit := by
  rw [TransactionPayload.rent, isRent]

omit [Platform] in
theorem TransactionPayload.rent_eq_zero (isNone : payload.nameRent = 0) :
    payload.rent unit = 0 := by
  rw [TransactionPayload.rent, isNone, saturatingMul, Nat.zero_mul, Nat.zero_min]

section Operations

variable {name : String}
-- What a run does with a label is not to be evaluated.
attribute [local irreducible] Leads

theorem leads_nameRegister :
    Leads (nameOperation params height sender keyed unit (.nameRegister name salt target years))
      before fun rent _ =>
        rent = (TransactionPayload.nameRegister name salt target years).rent unit := by
  refine .bind (.look fun config => .bind (.ofExcept fun label isLabel => ?_))
  refine .bind (.ofExcept fun _ _ => ?_)
  dsimp only
  split
  next => exact .fail
  next =>
    refine .bind ((leads_onNames returns_registerKeyed).mono fun rent _ isRent => ?_)
    refine .pure (isRent ▸ TransactionPayload.rent_eq ?_)
    rw [TransactionPayload.nameRent, isLabel]
    rfl

theorem leads_nameRenew :
    Leads (nameOperation params height sender keyed unit (.nameRenew name years)) before
      fun rent _ => rent = (TransactionPayload.nameRenew name years).rent unit := by
  refine .bind (.look fun config => .bind (.ofExcept fun label isLabel => ?_))
  refine .bind ((leads_onNames returns_renew).mono fun rent _ isRent => ?_)
  dsimp only
  split
  next => exact .fail
  next =>
    refine .pure (isRent ▸ TransactionPayload.rent_eq ?_)
    rw [TransactionPayload.nameRent, isLabel]
    rfl

theorem leads_nameOperation : Leads (nameOperation params height sender keyed unit payload) before
      fun rent _ => rent = payload.rent unit := by
  have burnsNothing (none : payload.nameRent = 0) : 0 = payload.rent unit :=
    (TransactionPayload.rent_eq_zero none).symm
  cases payload with
  | nameRegister => exact leads_nameRegister
  | nameRenew => exact leads_nameRenew
  | nameCommit =>
    exact .andThen fun _ _ => .pure (burnsNothing rfl)
  | nameSetPrimary =>
    unfold nameOperation
    dsimp only
    split <;> exact .andThen fun _ _ => .andThen fun _ _ => .pure (burnsNothing rfl)
  | nameTransfer | nameSetTarget | nameRelease =>
    exact .andThen fun _ _ => .andThen fun _ _ => .pure (burnsNothing rfl)
  | _ =>
    exact .pure (burnsNothing rfl)

end Operations

theorem returns_executeNameTx {configured : Option NameRegistryParams} :
    (executeNameTx configured height keyed unit payload : Handler sender).run.Returns
        fun outcome => outcome.1 = payload.rent unit := by
  intro store
  have leads : Leads (executeNameTx configured height keyed unit payload :
      Handler sender) store.toContents fun outcome _ =>
        outcome.1 = payload.rent unit := by
    refine .after (.bind (.ofExcept fun params _ =>
      leads_nameOperation.mono fun rent _ isRent => ?_))
    rintro next rfl
    exact isRent ▸ returns_touchSender returns_debitSender next
  exact leads store rfl

theorem returns_executePayload {vm : Vm} :
    (executePayload vm context config tx payload).run.Returns fun outcome =>
      outcome.1 = payload.rent (vm.denominationAt context.blockHeight).unit := by
  have burnsNothing (none : payload.nameRent = 0) :
      payload.rent (vm.denominationAt context.blockHeight).unit = 0 :=
    TransactionPayload.rent_eq_zero none
  cases payload with
  | nameCommit | nameRegister | nameRenew | nameTransfer | nameSetTarget | nameSetPrimary
  | nameRelease => exact returns_executeNameTx
  | resolveSlashAppeal | resolveSlashAppealAttested | resolveSlashAppealBlsAggregate =>
    rw [burnsNothing rfl]
    exact returns_settle
  | bond =>
    rw [burnsNothing rfl]
    exact rentFree_executeBond.returns
  | unbond =>
    rw [burnsNothing rfl]
    exact rentFree_executeUnbond.returns
  | claimUnbond =>
    rw [burnsNothing rfl]
    exact rentFree_executeClaimUnbond.returns
  | transfer =>
    rw [burnsNothing rfl]
    exact rentFree_executeTransfer.returns
  | contractCall =>
    rw [burnsNothing rfl]
    exact rentFree_executeContractCall.returns
  | contractDeploy | contractDeployWithPurpose | contractDeployWithPurposeAndMetadata =>
    rw [burnsNothing rfl]
    exact rentFree_executeContractDeploy.returns
  | validatorRegister =>
    rw [burnsNothing rfl]
    exact rentFree_executeValidatorRegister.returns
  | validatorDeregister =>
    rw [burnsNothing rfl]
    exact rentFree_executeValidatorDeregister.returns
  | contractCallWithValue =>
    rw [burnsNothing rfl]
    exact rentFree_after.returns
  | qaPoolVote | batch =>
    rw [burnsNothing rfl]
    exact Returns.andThen fun _ => rentFree_andQuietly.returns
  | _ =>
    rw [burnsNothing rfl]
    exact Returns.andThen fun _ => rentFree_bumpSenderNonce.returns

theorem returns_executeWithContext {vm : Vm} :
    (executeWithContext vm context tx).run.Returns fun outcome =>
      outcome.1 = tx.payload.rent (vm.denominationAt context.blockHeight).unit := by
  intro store
  change (executeSeen vm context tx store.view).run.Ends _ _ _
  unfold executeSeen
  split
  next => exact trivial
  next =>
    split
    next => exact returns_executePayload store
    next => exact trivial

theorem TxRan.isRent {env : BlockEnv} {after : Contents}
    (ran : TxRan env config tx rent before after) :
    rent = tx.payload.rent (env.vm.denominationAt env.context.blockHeight).unit := by
  obtain ⟨store, next, result, -, -, -, executed⟩ := ran
  exact returns_executeWithContext.known executed

end Rent

end BoingNetwork
