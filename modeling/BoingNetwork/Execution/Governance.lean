import BoingNetwork.Execution.MediaBlobs

/-!
# Governance and the committed quality policy

The handlers of the governance payloads, and what a block does with due proposals and
overdue reviews before its transactions.
-/

namespace BoingNetwork

open EStateM

def notYetAdmittedMessage (activation : Option ℕ) (height : ℕ) : String :=
  match activation with
  | none => "governance consensus txs not admitted (set " ++
      "BOING_GOVERNANCE_CONSENSUS_TX_ACTIVATION_HEIGHT to a height to enable)"
  | some from_ =>
    if height < from_ then
      s!"governance consensus txs activate at height {from_} (current {height})"
    else "governance consensus txs are active at this height"

def validatePlannedPropose (targetKey : String) (targetValue : Bytes) :
    Except GovernanceError Unit :=
  if !ALLOWED_TARGET_KEYS.contains targetKey then .error (.unknownTargetKey targetKey)
  else if targetValue.isEmpty then .error .emptyTargetValue
  else .ok ()

def governanceFault : Fault GovernanceError → VmFault
  | .error reason => mediaFault reason.display
  | .panic => .panic

namespace GovernanceRegistry

/-- With the strict quorum that consensus transactions set first. -/
def strictly {Error Value : Type} (operation : EStateM Error GovernanceRegistry Value) :
    EStateM Error GovernanceRegistry Value := do
  modify (·.setStrictQuorum true)
  operation

/-- The ids of the proposals for quality policies that may be executed now. -/
def dueQaProposals (registry : GovernanceRegistry) (now : ℕ) : List ℕ :=
  ((registry.proposals.values.mergeSort fun first second => first.id ≤ second.id).filter
    fun proposal => ["qa_registry", "qa_pool_config"].contains proposal.targetKey &&
      match proposal.phase with
      | .cooling => proposal.coolingEndsAt.any (· ≤ now)
      | .execution => proposal.executionEndsAt.any (now ≤ ·)
      | .proposal => false).map Proposal.id

/-- Moves a cooled proposal into its execution window and executes it; a refusal is
passed over, a panic is not. -/
def executeDue (id now : ℕ) :
    EStateM (Fault GovernanceError) GovernanceRegistry (Option (String × Bytes)) := fun registry =>
  let advanced :=
    if registry.proposals[id]?.map Proposal.phase = some .cooling then
      advanceToExecution id now registry
    else .ok () registry
  match advanced with
  | .error .panic registry => .error .panic registry
  | .error (.error _) registry => .ok none registry
  | .ok _ registry => match execute id now registry with
    | .ok executed registry => .ok (some executed) registry
    | .error _ registry => .ok none registry

end GovernanceRegistry

section Handlers

variable [Platform] {sender : AccountId}

def onGovernance {Value : Type}
    (operation : EStateM (Fault GovernanceError) GovernanceRegistry Value) :
    Quiet VmFault Value :=
  (Quiet.onRegistry .governance trivial operation).mapError governanceFault

def requireGovernanceConsensus (vm : Vm) (height : ℕ) : Quiet VmFault PUnit :=
  if vm.governanceConsensusActive height then pure ⟨⟩
  else Within.fail (mediaFault (notYetAdmittedMessage vm.governanceConsensusFrom height))

/-- `UNIX_EPOCH + Duration::from_secs(timestamp)`. -/
def blockTime (timestamp : ℕ) : Quiet VmFault ℕ :=
  match addSeconds 0 timestamp with
  | some now => pure now
  | none => Within.fail .panic

def executeGovernancePropose (vm : Vm) (context : VmExecutionContext) (targetKey : String)
    (targetValue : Bytes) : Handler sender :=
  Charge.after (do
      requireGovernanceConsensus vm context.blockHeight
      Within.ofExcept (fun reason => governanceFault (.error reason))
        (validatePlannedPropose targetKey targetValue)
      let now ← blockTime context.blockTimestamp
      onGovernance (GovernanceRegistry.strictly
        ((GovernanceRegistry.proposeAt targetKey targetValue now).adaptExcept .error)))
    fun id => bumpSenderNonce (idResult GAS_PER_TRANSFER id)

def executeGovernanceVote (vm : Vm) (context : VmExecutionContext) (proposalId : ℕ)
    (approve : Bool) : Handler sender :=
  Charge.after (do
      requireGovernanceConsensus vm context.blockHeight
      let view ← ledgerModel.look
      onGovernance (GovernanceRegistry.strictly ((GovernanceRegistry.castVote proposalId sender
        approve (view.contents.stakeOf sender)).adaptExcept .error)))
    fun _ => bumpSenderNonce (gasOnly GAS_PER_TRANSFER)

def executeGovernanceAdvanceCooling (vm : Vm) (context : VmExecutionContext)
    (proposalId : ℕ) : Handler sender :=
  Charge.after (do
      requireGovernanceConsensus vm context.blockHeight
      let now ← blockTime context.blockTimestamp
      onGovernance (GovernanceRegistry.strictly
        (GovernanceRegistry.advanceToCooling proposalId now)))
    fun _ => bumpSenderNonce (gasOnly GAS_PER_TRANSFER)

/-! ## Before the transactions of a block -/

def modifyQaPolicy (update : CommittedQaPolicy → CommittedQaPolicy) :
    Quiet VmFault PUnit :=
  Quiet.onRegistry .qaPolicy trivial (modify update)

/-- Commits an executed value that parses; returns how many updates were applied. -/
def commitQaPolicy (key : String) (value : Bytes) : Quiet VmFault ℕ :=
  if key = "qa_registry" then
    if (Platform.ruleRegistryFromJson value).isSome then do
      modifyQaPolicy ({ · with registryJson := some value })
      return 1
    else return 0
  else if (Platform.qaPoolConfigFromJson value).isSome then do
    modifyQaPolicy ({ · with poolConfigJson := some value })
    return 1
  else return 0

def applyDueProposals (now : ℕ) : List ℕ → Quiet VmFault ℕ
  | [] => pure 0
  | id :: ids => do
    let applied ← match ← onGovernance (GovernanceRegistry.executeDue id now) with
      | some (key, value) => commitQaPolicy key value
      | none => pure 0
    return applied + (← applyDueProposals now ids)

def applyDueQaGovernance (blockTimestamp : ℕ) : Quiet VmFault ℕ := do
  let now ← blockTime blockTimestamp
  applyDueProposals now ((← ledgerModel.look).contents.governance.dueQaProposals now)

def canonicalQaPolicy (policy : CommittedQaPolicy) : RuleRegistry × QaPoolGovernanceConfig :=
  ((policy.registryJson.bind Platform.ruleRegistryFromJson).getD {},
    (policy.poolConfigJson.bind Platform.qaPoolConfigFromJson).getD .canonicalDefault)

def Vm.withCanonicalQa (vm : Vm) (policy : CommittedQaPolicy) : Vm :=
  vm.setQaPolicies (canonicalQaPolicy policy).1 (canonicalQaPolicy policy).2

/-- Reviews that were not decided in the window, by subject. -/
def qaPendingExpired (contents : Contents) (height window : ℕ) : List Hash :=
  (contents.qaPending.toList.filter fun (_, record) =>
    MachineInt.saturatingAdd 64 record.enteredHeight window ≤ height).map Prod.fst

def removeQaPendings : List Hash → Quiet VmFault PUnit
  | [] => pure ⟨⟩
  | subject :: subjects => do
    Quiet.removeQaPending subject
    removeQaPendings subjects

def expireQaPending (vm : Vm) (height : ℕ) : Quiet VmFault ℕ := do
  let window := vm.qaPoolConfig.reviewWindowBlocks
  if window = 0 ∨ !vm.qaCanonicalActive height then return 0
  else
    let expired := qaPendingExpired (← ledgerModel.look).contents height window
    removeQaPendings expired
    return expired.length

end Handlers

end BoingNetwork
