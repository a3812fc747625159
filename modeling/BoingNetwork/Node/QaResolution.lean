import BoingNetwork.Execution.AppealWindow
import BoingNetwork.Execution.Failures
import BoingNetwork.Node.ChainRuns

/-!
# Resolution of pending deploys

A vote that reaches a quorum also installs the deploy.  If the installation fails, which the
deployer can arrange by its init code, the vote fails with it and the deploy stays pending.
Blocks change the pool by votes, by deploys that have to wait and by removing deploys only, so
recorded tallies are never decisive as long as the quorum itself does not change.
-/

namespace BoingNetwork

open Contents EStateM FiniteMap MachineInt

namespace QaPendingRecord

def withVote (record : QaPendingRecord) (voter : AccountId) (vote : QaPoolVoteKind) :
    QaPendingRecord :=
  { record with votes := record.votes.insert voter vote }

def decision (record : QaPendingRecord) (config : QaPoolGovernanceConfig) : QaQuorumDecision :=
  config.quorumDecision (record.count .allow) (record.count .reject)

theorem decision_new (tx : Transaction) (height : ℕ) (config : QaPoolGovernanceConfig) :
    (new tx height).decision config = .pending := by
  have none_ (kind : QaPoolVoteKind) : (new tx height).count kind = 0 := by simp [count, new]
  rfl

end QaPendingRecord

/-- No pending deploy has a decisive tally. -/
def Contents.Undecided (contents : Contents) (config : QaPoolGovernanceConfig) : Prop :=
  ∀ (subject : Hash) (record : QaPendingRecord), contents.qaPending[subject]? = some record →
    record.decision config = .pending

variable {before after : Contents} {env : CallEnv} {tx : Transaction} {subject : Hash}
  {record : QaPendingRecord} {voters : List AccountId} {Value Next : Type} {rewardEach : ℕ}

section

variable {config : QaPoolGovernanceConfig} (undecided : before.Undecided config)

include undecided

theorem Contents.Undecided.of_poolWithin (within : after.PoolWithin before) :
    after.Undecided config :=
  fun subject record found => undecided subject record (within subject record found)

theorem Contents.Undecided.insert (pending : record.decision config = .pending)
    (inserted : after.qaPending = before.qaPending.insert subject record) :
    after.Undecided config := by
  intro other found isFound
  rw [inserted, getElem?_insert] at isFound
  split at isFound
  next => exact Option.some.inj isFound ▸ pending
  next => exact undecided other found isFound

end

/-- The item is removed, and what follows adds nothing. -/
theorem Contents.PoolWithin.removed {paid : Contents} {change}
    (within : paid.PoolWithin (StoreWrite.effect before (.qaPendingMut subject change)))
    (kept : after.PoolWithin (StoreWrite.effect paid (.removeQaPending subject))) :
    after.PoolWithin before ∧ after.qaPending[subject]? = none := by
  have others (other : Hash) (record : QaPendingRecord)
      (isRecord : after.qaPending[other]? = some record) :
      other ≠ subject ∧ before.qaPending[other]? = some record := by
    have stays := kept other record isRecord
    simp only [StoreWrite.effect, write, getElem?_put] at stays
    split at stays
    · cases stays
    next differs =>
      have was := within other record stays
      simp only [StoreWrite.effect, write, getElem?_put, if_neg differs] at was
      exact ⟨Ne.symm differs, was⟩
  refine ⟨fun other record isRecord => (others other record isRecord).2, ?_⟩
  cases isRecord : after.qaPending[subject]? with
  | none => rfl
  | some record => exact absurd rfl (others subject record isRecord).1

/-! ## Votes -/

section Votes

variable [Platform] {store : StateStore} {address : AccountId}

/-- Quiet commands add nothing to the pool. -/
theorem Leads.poolWithin (command : Quiet VmFault Value) (before : Contents) :
    Leads command before fun _ after => after.PoolWithin before := by
  rintro store rfl
  exact (command.ensures store).imp fun _ _ kept => kept.2.within

theorem Leads.poolEntry {write : StoreWrite} {uniform : ledgerModel.Uniform write}
    {apart : ∀ contents, (write.effect contents).accounts = contents.accounts ∧
      (write.effect contents).openValidators = contents.openValidators ∧
      (write.effect contents).slashAppeals = contents.slashAppeals} {post : PUnit → Contents → Prop}
    (reached : post ⟨⟩ (write.effect before)) :
    Leads (Reviewing.writeEntry write uniform apart : Reviewing VmFault PUnit) before post :=
  @Leads.writeEntry _ _ _ _ uniform _ reached

theorem Leads.andQuietly {sender : AccountId} {charge : ReviewCharge sender VmFault Value}
    {epilogue : Value → Reviewing VmFault Next} {post : ℕ × Next → Contents → Prop}
    (leads : Leads charge before fun outcome middle =>
      Leads (epilogue outcome.2) middle fun value after => post (outcome.1, value) after) :
    Leads (charge.andQuietly epilogue) before post := by
  intro store isBefore
  apply ends_bind.mpr
  apply (leads store isBefore).imp
  intro outcome middle continues
  apply ends_bind.mpr
  exact continues middle rfl

theorem Leads.unreviewed {sender : AccountId} {charge : Charge sender VmFault Value}
    {post : ℕ × Value → Contents → Prop} (leads : Leads charge before post) :
    Leads charge.unreviewed before post :=
  leads

theorem payQaCountedVoters_total :
    (payQaCountedVoters voters rewardEach : Quiet VmFault ℕ).Total := by
  intro store
  change EStateM.Succeeds (Command.run (if _ then _ else _ : Act _ _)) store
  split
  next => exact succeeds_pure
  next =>
    have credits : ∀ voters : List AccountId, ∀ amount : ℕ,
        (voters.forM (creditAccount · amount) : Act VmFault PUnit).Total := by
      intro voters amount
      induction voters with
      | nil => exact .pure _
      | cons voter voters ih =>
        exact (creditAccount_total voter amount).bind fun _ => ih
    exact (Act.alter_total _ _).bind (fun _ => (credits _ _).bind fun _ => .pure _) store

/-- What a deploy installs: its bytecode, or what its init code returns. -/
def deployedCode (env : CallEnv) (deployer address : AccountId) (fields : ContractDeployFields)
    (store : StateStore) : Option Bytes :=
  if contractDeployUsesInitCode fields.bytecode then
    match Command.run (runNested env (contractDeployInitBody fields.bytecode)
        GAS_PER_CONTRACT_DEPLOY_INIT deployer address []) store with
    | .ok frame _ => some (frame.returnData.getD [])
    | .error _ _ => none
  else some fields.bytecode

theorem installCode_ends {deployer : AccountId} {fields : ContractDeployFields} :
    (Command.run (installCode env deployer address fields)).Ends store (fun _ => True)
      fun _ after => ∃ code, deployedCode env deployer address fields store = some code ∧
        after.contractCode[address]? = some code := by
  have stored (code : Bytes) (result : ℕ × List ExecutionLog) (middle : Contents)
      (isCode : deployedCode env deployer address fields store = some code) :
      Leads (Quiet.setContractCode address code >>= fun _ => Pure.pure result :
          Quiet VmFault _) middle fun _ after =>
        ∃ code, deployedCode env deployer address fields store = some code ∧
          after.contractCode[address]? = some code :=
    .bind (.quietly (.writeEntry (.pure ⟨code, isCode, by simp [StoreWrite.effect, write, put]⟩)))
  unfold installCode
  split
  next uses =>
    apply ends_bind.mpr
    unfold EStateM.Ends
    split
    next frame middle ran =>
      have isCode : deployedCode env deployer address fields store =
          some (frame.returnData.getD []) := by rw [deployedCode, if_pos uses, ran]
      split
      · exact Leads.andThen (fun _ after => stored _ _ after isCode) middle rfl
      · exact stored _ (frame.gasUsed, frame.logs) _ isCode middle rfl
    next => trivial
  next plain => exact stored _ _ _ (if_neg plain) store rfl

/-- The address is free, and the init code runs and returns code that passes the checks, in the
state in which the deploy is installed. -/
def CanInstall (env : CallEnv) (tx : Transaction) (store : StateStore) : Prop :=
  ∃ fields, tx.payload.asContractDeploy = some fields ∧
    addressInUse store.toContents (deployAddress tx fields.bytecode) = false ∧
      (installCode env tx.sender (deployAddress tx fields.bytecode) fields).run.Succeeds
        (store.insert (deployAddress tx fields.bytecode) .default)

theorem createAccount_eq_ok {created : StateStore} :
    Command.run (createAccount address) store = .ok ⟨⟩ created ↔
      addressInUse store.toContents address = false ∧ store.insert address .default = created := by
  have runs : Command.run (createAccount address) store =
      Command.run (if addressInUse store.toContents address then reject .deploymentAddressInUse
        else Act.insertAccount address .default : Act VmFault PUnit) store := rfl
  rw [runs]
  cases addressInUse store.toContents address with
  | true =>
    constructor
    · rintro ⟨⟩
    · rintro ⟨⟨⟩, _⟩
  | false =>
    constructor
    · rintro ⟨⟩
      exact ⟨rfl, rfl⟩
    · rintro ⟨-, rfl⟩
      rfl

theorem installContractFromDeployTx_eq_ok {gas : ℕ} {installed : StateStore} :
    Command.run (installContractFromDeployTx env tx) store = .ok gas installed ↔
      ∃ fields result, tx.payload.asContractDeploy = some fields ∧
        addressInUse store.toContents (deployAddress tx fields.bytecode) = false ∧
        Command.run (installCode env tx.sender (deployAddress tx fields.bytecode) fields)
          (store.insert (deployAddress tx fields.bytecode) .default) = .ok result installed ∧
        result.1 = gas := by
  unfold installContractFromDeployTx
  cases tx.payload.asContractDeploy with
  | none =>
    constructor
    · rintro ⟨⟩
    · rintro ⟨_, _, ⟨⟩, _⟩
  | some fields =>
    refine bind_eq_ok.trans ⟨?_, ?_⟩
    · rintro ⟨_, created, creates, continues⟩
      obtain ⟨free, rfl⟩ := createAccount_eq_ok.mp creates
      obtain ⟨result, _, installs, returns⟩ := bind_eq_ok.mp continues
      cases returns
      exact ⟨fields, result, rfl, free, installs, rfl⟩
    · rintro ⟨_, result, ⟨⟩, free, installs, rfl⟩
      exact ⟨⟨⟩, _, createAccount_eq_ok.mpr ⟨free, rfl⟩,
        bind_eq_ok.mpr ⟨result, installed, installs, rfl⟩⟩

theorem installContractFromDeployTx_succeeds :
    (installContractFromDeployTx env tx).run.Succeeds store ↔ CanInstall env tx store := by
  simp only [Succeeds, installContractFromDeployTx_eq_ok, CanInstall]
  constructor
  · rintro ⟨_, installed, fields, result, isDeploy, free, installs, -⟩
    exact ⟨fields, isDeploy, free, result, installed, installs⟩
  · rintro ⟨fields, isDeploy, free, result, installed, installs⟩
    exact ⟨_, installed, fields, result, isDeploy, free, installs, rfl⟩

variable {vm : Vm} {context : VmExecutionContext} {voter : AccountId} {vote : QaPoolVoteKind}

/-- The code of the deploy is at its address: its bytecode, or what its init code returned on the
store on which it was installed. -/
def QaPendingRecord.IsInstalled (record : QaPendingRecord) (env : CallEnv)
    (store : StateStore) (contents : Contents) : Prop :=
  ∃ fields code, record.tx.payload.asContractDeploy = some fields ∧
    deployedCode env record.tx.sender (deployAddress record.tx fields.bytecode) fields
      (store.insert (deployAddress record.tx fields.bytecode) .default) = some code ∧
    contents.contractCode[deployAddress record.tx fields.bytecode]? = some code

/-- What a vote that succeeds does to the pool. -/
def VotedPool (config : QaPoolGovernanceConfig) (voter : AccountId) (subject : Hash)
    (vote : QaPoolVoteKind) (before after : Contents) : Prop :=
  ∃ record, before.qaPending[subject]? = some record ∧
    ((record.withVote voter vote).decision config = .pending ∧
        after.qaPending = before.qaPending.insert subject (record.withVote voter vote) ∨
      (record.withVote voter vote).decision config ≠ .pending ∧
        after.PoolWithin before ∧ after.qaPending[subject]? = none)

theorem leads_settleQaVote :
    Leads (settleQaVote vm context voter subject vote) before fun _ after =>
      VotedPool vm.qaPoolConfig voter subject vote before after := by
  refine .bind (.look fun _ => ?_)
  dsimp only [settled]
  cases found : before.qaPending[subject]? with
  | none => exact .fail
  | some record =>
    dsimp only
    split
    next pending =>
      refine .bind (.poolEntry (.pure ⟨record, found, .inl ⟨pending, ?_⟩⟩))
      simp [StoreWrite.effect, write, put, found, QaPendingRecord.withVote]
    next decisive =>
      refine .bind (.poolEntry (.bind ((Leads.poolWithin _ _).inReview.mono fun _ paid within =>
        .bind (.inReview (.quietly (.writeEntry ?_))))))
      split
      next => exact .bind ((Leads.poolWithin _ _).inReview.mono fun _ _ kept =>
        .pure ⟨record, found, .inr ⟨decisive, within.removed kept⟩⟩)
      next => exact .pure ⟨record, found, .inr ⟨decisive, within.removed (.of_eq rfl)⟩⟩

/-- The vote can be cast, and completes a quorum. -/
structure DecidingVote (vm : Vm) (context : VmExecutionContext) (voter : AccountId)
    (subject : Hash) (vote : QaPoolVoteKind) (record : QaPendingRecord) (store : StateStore) :
    Prop where
  pending : store.qaPending[subject]? = some record
  eligible : vm.qaPoolConfig.voterEligibility voter (some record.deployer)
    (some (store.stakeOf voter / (vm.denominationAt context.blockHeight).unit)) = .ok ()
  sender : ∃ account, store.accounts[voter]? = some account ∧ account.nonce + 1 < 2 ^ 64
  decisive : (record.withVote voter vote).decision vm.qaPoolConfig ≠ .pending

def closeItem (vm : Vm) (context : VmExecutionContext) (subject : Hash) (voted : QaPendingRecord) :
    Reviewing VmFault PUnit := do
  let unpaid := unpaidCountedVoters voted vm.qaPoolConfig.payAbstain
  Reviewing.qaPendingMut subject fun _ =>
    { voted with rewarded := unpaid.foldl (·.insert ·) voted.rewarded }
  let _ ← (payQaCountedVoters unpaid (saturatingMul 128
    vm.qaPoolConfig.rewardPerCountedVote (vm.denominationAt context.blockHeight).unit)).inReview
  (Quiet.removeQaPending subject).inReview

/-- A decisive vote without the installation. -/
def countedVote (vm : Vm) (context : VmExecutionContext) (voter : AccountId) (subject : Hash)
    (voted : QaPendingRecord) : ReviewCharge voter VmFault PUnit :=
  (bumpSenderNonce PUnit.unit).unreviewed.andQuietly fun _ => closeItem vm context subject voted

def finishVote (vm : Vm) (context : VmExecutionContext) (tx : Transaction)
    (decision : QaQuorumDecision) : Reviewing VmFault VmExecutionResult :=
  if decision = .allow then do
    let initGas ← (installContractFromDeployTx ⟨context, vm.qaAt context⟩ tx).inReview
    return { gasUsed := saturatingAdd 64 GAS_PER_QA_POOL_VOTE initGas
             returnData := asciiBytes "qa_vote_allow" }
  else
    return { gasUsed := GAS_PER_QA_POOL_VOTE, returnData := asciiBytes "qa_vote_reject" }

theorem run_look {effect : Effect StateStore}
    (next : LedgerView → Within ledgerModel.conduct effect VmFault Value) :
    Command.run (ledgerModel.look >>= next) store = Command.run (next store.view) store :=
  rfl

theorem settleQaVote_of_decisive (pending : store.qaPending[subject]? = some record)
    (decisive : (record.withVote voter vote).decision vm.qaPoolConfig ≠ .pending) :
    Command.run (settleQaVote vm context voter subject vote) store =
      (Command.run (closeItem vm context subject (record.withVote voter vote)) >>= fun _ =>
        Command.run (finishVote vm context record.tx
          ((record.withVote voter vote).decision vm.qaPoolConfig))) store := by
  have inView : store.view.contents.qaPending[subject]? = some record := pending
  rw [settleQaVote, run_look]
  simp only [inView]
  change Command.run (if (record.withVote voter vote).decision vm.qaPoolConfig = .pending then _
    else _ : Reviewing VmFault VmExecutionResult) store = _
  rw [if_neg decisive]
  change (Command.run (Reviewing.qaPendingMut subject _) >>= fun _ =>
    Command.run (payQaCountedVoters _ _) >>= fun _ =>
      Command.run (Quiet.removeQaPending subject) >>= fun _ =>
        Command.run (finishVote vm context record.tx _)) store =
    ((Command.run (Reviewing.qaPendingMut subject _) >>= fun _ =>
      Command.run (payQaCountedVoters _ _) >>= fun _ =>
        Command.run (Quiet.removeQaPending subject)) >>= fun _ => _) store
  simp only [bind_assoc]
  rfl

/-- A deciding vote is counted, and then only the installation can fail. -/
theorem DecidingVote.run_eq (decides : DecidingVote vm context voter subject vote record store) :
    ∃ result closed,
      (countedVote vm context voter subject (record.withVote voter vote)).run store =
        .ok result closed ∧
      (executeQaPoolVote vm context subject vote :
          ReviewHandler voter).run store =
        (Command.run (finishVote vm context record.tx
            ((record.withVote voter vote).decision vm.qaPoolConfig)) >>=
          fun value => pure (result.1, value)) closed := by
  have admits : (admitQaVote vm context.blockHeight voter subject).run store = .ok ⟨⟩ store := by
    have inView : store.view.contents.qaPending[subject]? = some record := decides.pending
    have isEligible : vm.qaPoolConfig.voterEligibility voter (some record.deployer)
        (some (store.view.contents.stakeOf voter / (vm.denominationAt context.blockHeight).unit)) =
          .ok () := decides.eligible
    rw [admitQaVote, run_look]
    simp only [inView, isEligible]
    rfl
  obtain ⟨outcome, bumped, bumps⟩ : (bumpSenderNonce PUnit.unit :
      Charge voter VmFault PUnit).run.Succeeds store :=
    bumpSenderNonce_succeeds.mpr decides.sender
  have keeps : Leads (bumpSenderNonce PUnit.unit : Charge voter VmFault PUnit)
      store.toContents fun _ after => after.qaPending = store.qaPending :=
    .bumpSenderNonce fun _ _ => rfl
  have pool := ends_of_ok (keeps store rfl) bumps
  obtain ⟨done, closed, closes⟩ : (Command.run (closeItem vm context subject
      (record.withVote voter vote))).Succeeds bumped :=
    Within.bind_succeeds.mpr ⟨⟨_, _, rfl⟩, fun _ middle _ => Within.bind_succeeds.mpr
      ⟨payQaCountedVoters_total middle, fun _ _ _ => ⟨_, _, rfl⟩⟩⟩
  refine ⟨(outcome.1, done), closed, bind_eq_ok.mpr ⟨outcome, bumped, bumps,
    bind_eq_ok.mpr ⟨done, closed, closes, rfl⟩⟩, ?_⟩
  change (Command.run (admitQaVote vm context.blockHeight voter subject) >>= fun _ =>
    (bumpSenderNonce PUnit.unit : Charge voter VmFault PUnit).run >>= fun outcome =>
      Command.run (settleQaVote vm context voter subject vote) >>= fun value =>
        pure (outcome.1, value)) store = _
  have settles : Command.run (settleQaVote vm context voter subject vote) bumped = _ :=
    settleQaVote_of_decisive (pool ▸ decides.pending) decides.decisive
  rw [bind_of_ok admits, bind_of_ok bumps]
  change EStateM.bind _ _ bumped = EStateM.bind _ _ closed
  rw [EStateM.bind, settles, bind_of_ok closes]
  rfl

section

variable (decides : DecidingVote vm context voter subject vote record store)

include decides

theorem DecidingVote.succeeds_iff : (executeQaPoolVote vm context subject vote :
        ReviewHandler voter).run.Succeeds store ↔
      ((record.withVote voter vote).decision vm.qaPoolConfig = .allow → ∀ result closed,
        (countedVote vm context voter subject (record.withVote voter vote)).run store =
            .ok result closed → CanInstall ⟨context, vm.qaAt context⟩ record.tx closed) := by
  obtain ⟨result, closed, counted, runs⟩ := decides.run_eq
  rw [Succeeds, runs]
  change (Command.run (finishVote vm context record.tx _) >>= fun value =>
    pure (result.1, value)).Succeeds closed ↔ _
  rw [succeeds_bind_iff]
  simp only [succeeds_pure, implies_true, and_true, counted, Result.ok.injEq]
  rw [finishVote]
  split
  next allowed =>
    have finishes : EStateM.Succeeds (Command.run (do
        let initGas ←
          (installContractFromDeployTx ⟨context, vm.qaAt context⟩ record.tx).inReview
        return { gasUsed := saturatingAdd 64 GAS_PER_QA_POOL_VOTE initGas
                 returnData := asciiBytes "qa_vote_allow" } :
          Reviewing VmFault VmExecutionResult)) closed ↔
        CanInstall ⟨context, vm.qaAt context⟩ record.tx closed := by
      rw [Within.bind_succeeds, ← installContractFromDeployTx_succeeds]
      exact and_iff_left fun _ _ _ => succeeds_pure
    refine finishes.trans ⟨fun can _ _ _ same => same.2 ▸ can, fun all => ?_⟩
    exact all allowed _ _ ⟨rfl, rfl⟩
  next refused => exact ⟨fun _ allowed => absurd allowed refused, fun _ => ⟨_, _, rfl⟩⟩

theorem DecidingVote.installs {result : ℕ × VmExecutionResult} {after : StateStore}
    (allowed : (record.withVote voter vote).decision vm.qaPoolConfig = .allow)
    (ran : (executeQaPoolVote vm context subject vote :
      ReviewHandler voter).run store = .ok result after) :
    ∀ result closed, (countedVote vm context voter subject (record.withVote voter vote)).run store =
        .ok result closed →
      record.IsInstalled ⟨context, vm.qaAt context⟩ closed after.toContents := by
  obtain ⟨counted, closed, counts, runs⟩ := decides.run_eq
  rintro _ _ same
  cases counts.symm.trans same
  rw [runs] at ran
  obtain ⟨_, _, finishes, returns⟩ := bind_eq_ok.mp ran
  rw [finishVote, if_pos allowed] at finishes
  obtain ⟨_, _, installs, returned⟩ := bind_eq_ok.mp finishes
  cases returns
  cases returned
  obtain ⟨fields, _, isDeploy, -, installed, -⟩ := installContractFromDeployTx_eq_ok.mp installs
  obtain ⟨code, isCode, stored⟩ := ends_of_ok installCode_ends installed
  exact ⟨fields, code, isDeploy, isCode, stored⟩

end

theorem leads_executeQaPoolVote : Leads (executeQaPoolVote vm context subject vote :
      ReviewHandler voter) before fun _ after =>
        VotedPool vm.qaPoolConfig voter subject vote before after := by
  refine .after (.bind (.look fun _ => ?_))
  dsimp only
  split
  next => exact .fail
  split
  next => exact .fail
  next => exact .pure (.andQuietly (.unreviewed (.bumpSenderNonce fun _ _ => leads_settleQaVote)))

/-! ## Runs -/

theorem leads_registerUnsureDeploy {height : ℕ} :
    Leads (registerUnsureDeploy vm tx height : ReviewHandler voter)
      before fun _ after => after.qaPending = before.qaPending.insert tx.id (.new tx height) := by
  have admits : Leads (admitUnsure vm tx height) before fun _ after => after = before := by
    refine .bind (.look fun _ => ?_)
    split
    · exact .fail
    split
    · split
      · exact .fail
      · exact .pure rfl
    · exact .pure rfl
  refine .after (admits.mono fun _ _ same => ?_)
  rw [same]
  exact .andQuietly (.unreviewed (.bumpSenderNonce fun _ _ => .bind (.poolEntry (.pure rfl))))

/-- What happens to the pool: a vote, a deploy that has to wait, anything that adds and
changes no item, and a new configuration under which no tally is decisive. -/
inductive PoolStep : Vm × Contents → Vm × Contents → Prop
  | voted {vm : Vm} {before after : StateStore} (context : VmExecutionContext) (voter : AccountId)
      (subject : Hash) (vote : QaPoolVoteKind) (result : ℕ × VmExecutionResult)
      (ran : (executeQaPoolVote vm context subject vote : ReviewHandler voter).run before =
        .ok result after) : PoolStep (vm, before.toContents) (vm, after.toContents)
  | registered {vm : Vm} {before after : StateStore} (tx : Transaction) (height : ℕ)
      (result : ℕ × VmExecutionResult)
      (ran : (registerUnsureDeploy vm tx height : ReviewHandler tx.sender).run before =
        .ok result after) : PoolStep (vm, before.toContents) (vm, after.toContents)
  | shrunk {vm : Vm} {before after : Contents} (shrinks : after.PoolWithin before) :
      PoolStep (vm, before) (vm, after)
  | configured {vm next : Vm} {contents : Contents}
      (undecided : contents.Undecided next.qaPoolConfig) : PoolStep (vm, contents) (next, contents)

theorem PoolStep.undecided {before after : Vm × Contents} (step : PoolStep before after)
    (undecided : before.2.Undecided before.1.qaPoolConfig) :
    after.2.Undecided after.1.qaPoolConfig := by
  cases step with
  | voted context voter subject vote result ran =>
    obtain ⟨record, found, ⟨pending, inserted⟩ | ⟨-, within, -⟩⟩ :=
      ends_of_ok (leads_executeQaPoolVote _ rfl) ran
    · exact undecided.insert pending inserted
    · exact undecided.of_poolWithin within
  | @registered vm store _ tx height _ ran =>
    have inserts : Leads (registerUnsureDeploy vm tx height : ReviewHandler tx.sender)
        store.toContents _ := leads_registerUnsureDeploy
    have inserted := ends_of_ok (inserts store rfl) ran
    exact undecided.insert (QaPendingRecord.decision_new ..) inserted
  | shrunk shrinks => exact undecided.of_poolWithin shrinks
  | configured settled => exact settled

/-! ### Blocks -/

theorem executeContractDeploy_cases {after : StateStore} {result : ℕ × VmExecutionResult}
    (ran : (executeContractDeploy vm context tx : ReviewHandler tx.sender).run store =
      .ok result after) : PoolStep (vm, store.toContents) (vm, after.toContents) := by
  have deployed {fields : ContractDeployFields} (ran : (deployContract ⟨context, vm.qaAt context⟩ tx
      fields : Charge tx.sender _ _).run store = .ok result after) :
      PoolStep (vm, store.toContents) (vm, after.toContents) :=
    .shrunk ((Command.done_of_run _ ran).pool (by simp))
  unfold executeContractDeploy at ran
  dsimp only at ran
  split at ran
  · cases ran
  split at ran
  · exact deployed ran
  · cases ran
  split at ran
  · exact .registered tx _ _ ran
  split at ran
  · cases ran
  · exact deployed ran

theorem TxRan.poolStep {env : BlockEnv} {config : LedgerConfig} {rent : ℕ}
    (ran : TxRan env config tx rent before after)
    (applied : TxApplied config env.context.blockHeight tx rent before after) :
    PoolStep (env.vm, before) (env.vm, after) := by
  obtain ⟨store, next, result, rfl, rfl, rfl, ran⟩ := ran
  obtain ⟨account, found, matched⟩ := Option.map_eq_some_iff.mp applied.matched
  rw [executeWithContext_run found matched] at ran
  have other := applied.applied.pool
  cases payload : tx.payload <;> rw [payload] at ran other
  case qaPoolVote subject vote => exact .voted _ tx.sender subject vote _ ran
  case contractDeploy | contractDeployWithPurpose | contractDeployWithPurposeAndMetadata =>
    exact executeContractDeploy_cases ran
  all_goals exact .shrunk (other (by simp [payloadLock]))

/-- The machine of the block in which the event happens. -/
def LedgerEvent.RunsOn (vm : Vm) : LedgerEvent → Prop
  | executed env _ _ => env.vm = vm
  | _ => True

theorem LedgerEvent.Step.poolSteps {event : LedgerEvent} (step : event.Step before after)
    (runsOn : event.RunsOn vm) :
    Relation.ReflTransGen PoolStep (vm, before) (vm, after) := by
  cases event with
  | quiet => exact .single (.shrunk step.within)
  | redenominated =>
    rw [step]
    exact .single (.shrunk (.of_eq rfl))
  | executed env config outcome =>
    obtain rfl := runsOn
    obtain ⟨tx, -, ended⟩ := step
    split at ended
    next =>
      obtain ⟨⟨middle, applied, ran, kept⟩, -⟩ := ended
      exact (Relation.ReflTransGen.single (ran.poolStep applied)).tail (.shrunk kept.within)
    next => exact .single (.shrunk ended.1.pool)
    next =>
      rw [ended.1]
      exact .single (.shrunk (before.failed_failTx env.failedFee tx).pool)
  | rewarded proposer amount =>
    rw [step]
    exact .single (.shrunk (before.received_credit proposer amount).within)
  | hooked config height proposer =>
    rw [step, Contents.hooked]
    split <;> exact .single (.shrunk (.of_eq rfl))

/-- A vote that completes a quorum succeeds, removes its item and installs an accepted deploy
exactly if the installation is possible.  In every run in which new configurations decide no
recorded tally, no item has a decisive one, and what blocks do to the pool are such runs. -/
theorem qaPool_resolution (decides : DecidingVote vm context voter subject vote record store) :
    (((executeQaPoolVote vm context subject vote :
          ReviewHandler voter).run.Succeeds store ∧
        ∀ result after, (executeQaPoolVote vm context subject vote :
            ReviewHandler voter).run store = .ok result after →
          after.qaPending[subject]? = none ∧
            ((record.withVote voter vote).decision vm.qaPoolConfig = .allow → ∀ result closed,
              (countedVote vm context voter subject (record.withVote voter vote)).run store =
                  .ok result closed →
                record.IsInstalled ⟨context, vm.qaAt context⟩ closed after.toContents)) ↔
      ((record.withVote voter vote).decision vm.qaPoolConfig = .allow → ∀ result closed,
        (countedVote vm context voter subject (record.withVote voter vote)).run store =
            .ok result closed →
          CanInstall ⟨context, vm.qaAt context⟩ record.tx closed)) ∧
    (∀ start last : Vm × Contents, start.2.Undecided start.1.qaPoolConfig →
      Relation.ReflTransGen PoolStep start last → last.2.Undecided last.1.qaPoolConfig) ∧
    ∀ (executor : BlockExecutor) (start : StateStore) (blocks : List PinnedBlock),
      let finish := Run.run executor.advance start blocks
      (∃ entries, executor.Traces start blocks entries finish) ∧
        ∀ entries, executor.Traces start blocks entries finish →
          Run.Steps (fun entry before after => ∀ vm, entry.1.RunsOn vm →
            Relation.ReflTransGen PoolStep (vm, before) (vm, after))
            entries start.toContents finish.toContents := by
  refine ⟨⟨fun resolved => decides.succeeds_iff.mp resolved.1, fun can =>
    ⟨decides.succeeds_iff.mpr can, fun result after ran => ⟨?_, fun allowed =>
      decides.installs allowed ran⟩⟩⟩, fun start last undecided run => ?_,
    fun executor start blocks => ⟨executor.exists_traces start blocks, fun entries traces =>
      traces.steps.mono ?_⟩⟩
  · obtain ⟨other, found, ⟨pending, -⟩ | ⟨-, -, removed⟩⟩ :=
      ends_of_ok (leads_executeQaPoolVote store rfl) ran
    · cases decides.pending.symm.trans found
      exact absurd pending decides.decisive
    · exact removed
  · induction run with
    | refl => exact undecided
    | tail _ step ih => exact step.undecided ih
  · rintro entry - before after ⟨rfl, step⟩ vm runsOn
    exact step.poolSteps runsOn

end Votes

/-! ## A deploy that cannot be installed -/

section Pending

open Checksum

/-- A deploy whose init code adds on an empty stack. -/
def pendingRecord : QaPendingRecord :=
  .new ⟨0, 2, .contractDeploy [CONTRACT_DEPLOY_INIT_CODE_MARKER, 0x01] none, ⟨[], []⟩⟩ 1

/-- One account, which may vote on the deploy. -/
def pendingStore : StateStore :=
  { accounts := .insert ∅ 1 .default
    qaPending := .insert ∅ 9 pendingRecord }

theorem pendingStore_decides (vote : QaPoolVoteKind)
    (decisive : (pendingRecord.withVote 1 vote).decision .developmentDefault ≠ .pending) :
    DecidingVote .new ⟨5, 0, false, false, false, false, false⟩ 1 9 vote pendingRecord
      pendingStore where
  pending := by decide +kernel
  eligible := by decide +kernel
  sender := ⟨.default, by decide +kernel, by decide⟩
  decisive := decisive

theorem accepting_vote_fails :
    DecidingVote .new ⟨5, 0, false, false, false, false, false⟩ 1 9 .allow pendingRecord
        pendingStore ∧
      ¬ (executeQaPoolVote .new ⟨5, 0, false, false, false, false, false⟩ 9 .allow :
        ReviewHandler 1).run.Succeeds pendingStore :=
  ⟨pendingStore_decides _ (by decide +kernel), by decide +kernel⟩

theorem qaPool_resolution_refusal :
    (executeQaPoolVote .new ⟨5, 0, false, false, false, false, false⟩ 9 .reject :
      ReviewHandler 1).run.Succeeds pendingStore :=
  ((qaPool_resolution (pendingStore_decides .reject (by decide +kernel))).1.mpr
    fun allowed => absurd allowed (by decide +kernel)).1

end Pending

end BoingNetwork
