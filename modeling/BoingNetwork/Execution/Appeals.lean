import BoingNetwork.Execution.Ballots
import BoingNetwork.Execution.MediaBlobs
import BoingNetwork.State.Voting

/-!
# Slashes and appeals

The handlers that slash an equivocation, appeal a slash and vote on an appeal.  A resolve
transaction casts one ballot: that of its sender, or that of the listed signers of an
aggregate ballot.  Each vote weighs the stake of its voter at the time of the cast.
-/

namespace BoingNetwork

open EStateM

def PHASE14_MAX_APPEAL_EVIDENCE_BYTES : ℕ := 4096

/-- Accounts that decide appeals, as the host configured them. -/
abbrev Resolvers := Option (List AccountId)

def Resolvers.pinned (resolvers : Resolvers) : List AccountId := resolvers.getD []

def ConsensusSlashAppeal.isLegacy (appeal : ConsensusSlashAppeal) : Bool :=
  phase20IsLegacyElectorateSnapshot appeal.electorateWSnapshot appeal.pinSetCommitment

/-- The stake of the voter, or one without a pin set. -/
def voteWeight (resolvers : Resolvers) (contents : Contents) (voter : AccountId) : ℕ :=
  if resolvers.pinned = [] then 1 else contents.stakeOf voter

/-- The summed stakes now, or one without a pin set. -/
def liveElectorate (resolvers : Resolvers) (contents : Contents) : ℕ :=
  if resolvers.pinned = [] then 1
  else (resolvers.pinned.map contents.stakeOf).foldl (MachineInt.saturatingAdd 128) 0

/-- The snapshot of the submission; appeals from before snapshots use the live electorate. -/
def electorateOf (resolvers : Resolvers) (contents : Contents) (appeal : ConsensusSlashAppeal) :
    ℕ :=
  if appeal.isLegacy then liveElectorate resolvers contents else appeal.electorateWSnapshot

/-! ## The law of a ballot -/

structure ConsensusSlashAppeal.CastBy (ballot : Ballot) (weigh : AccountId → ℕ)
    (old appeal : ConsensusSlashAppeal) : Prop where
  pending : old.status = .pending
  kept : ∀ (voter : AccountId) (vote : ResolveVote), old.votes[voter]? = some vote →
    appeal.votes[voter]? = some vote
  cast : ∀ (voter : AccountId) (vote : ResolveVote), appeal.votes[voter]? = some vote →
    old.votes[voter]? = some vote ∨
      voter ∈ ballot.voters ∧ vote.approved = ballot.approved ∧ vote.weight = weigh voter
  decided : ∃ electorateW, (old.isLegacy = false → electorateW = old.electorateWSnapshot) ∧
    appeal = { old with votes := appeal.votes, status := appeal.verdict electorateW }

/-- How an appeal came about in a transaction that may cast a ballot. -/
inductive AppealStep (resolvers : Resolvers) (ballot : Option Ballot) (before : Contents) (id : ℕ)
    (appeal : ConsensusSlashAppeal) : Prop where
  | fresh (isFresh : appeal.IsFresh)
  | follows {old : ConsensusSlashAppeal} (found : before.slashAppeals.appeals[id]? = some old)
      (same : appeal.Follows old)
  | voted {old decided : ConsensusSlashAppeal} {given : Ballot}
      (found : before.slashAppeals.appeals[id]? = some old) (isBallot : ballot = some given)
      (isId : given.appealId = id) (pinned : resolvers ≠ none → given.voters ⊆ resolvers.pinned)
      (cast : old.CastBy given (voteWeight resolvers before) decided)
      (same : appeal.Follows decided)

variable {signature : Option Signature} {signerBlsPubkeys : List BlsPublicKeyG1} {before : Contents}
  {ballot : Option Ballot} {resolvers : Resolvers} {change : LockChange} {sender : AccountId}
  {given : Ballot}

namespace Contents

structure Voted (resolvers : Resolvers) (ballot : Option Ballot) (before after : Contents) :
    Prop where
  appeals : ∀ (id : ℕ) (appeal : ConsensusSlashAppeal),
    after.slashAppeals.appeals[id]? = some appeal → AppealStep resolvers ballot before id appeal
  slashes : before.slashAppeals.KeepsSlashes after.slashAppeals

variable {rent : ℕ} {start middle finish : Contents}

theorem voted_of_undecided
    (undecided : start.slashAppeals.Undecided finish.slashAppeals) :
    Voted resolvers ballot start finish where
  appeals id appeal found := by
    rcases undecided.appeals id appeal found with isFresh | ⟨old, foundOld, same⟩
    · exact .fresh isFresh
    · exact .follows foundOld same
  slashes := .of_eq undecided.slashes

theorem Voted.undecided (first : Voted resolvers ballot start middle)
    (second : middle.slashAppeals.Undecided finish.slashAppeals) :
    Voted resolvers ballot start finish where
  appeals id appeal found := by
    rcases second.appeals id appeal found with isFresh | ⟨between, foundBetween, same⟩
    · exact .fresh isFresh
    · cases first.appeals id between foundBetween with
      | fresh isFresh => exact .fresh (isFresh.of_follows same)
      | follows foundOld earlier => exact .follows foundOld (same.trans earlier)
      | voted foundOld isBallot isId pinned cast earlier =>
        exact .voted foundOld isBallot isId pinned cast (same.trans earlier)
  slashes := first.slashes.trans (.of_eq second.slashes)

/-- The effect of a cast alone. -/
structure Cast (resolvers : Resolvers) (ballot : Option Ballot) (before after : Contents) :
    Prop where
  accounts : ∀ id, before.KeepsAccount after id
  supply : before.supply < SUPPLY_LIMIT → after.supply = before.supply
  votes : Voted resolvers ballot before after
  pool : after.PoolWithin before

/-- The effect of an applied transaction: a charge of the sender, and perhaps a ballot. -/
structure Applied (resolvers : Resolvers) (ballot : Option Ballot) (change : LockChange)
    (sender : AccountId) (rent : ℕ) (before after : Contents) : Prop
    extends Raised change sender before after where
  supply : before.supply < SUPPLY_LIMIT → after.supply + rent = before.supply
  votes : Voted resolvers ballot before after
  pool : change ≠ .review → after.PoolWithin before

theorem Charged.applied (charged : start.Charged change sender rent finish) :
    Applied resolvers ballot change sender rent start finish where
  toRaised := charged.toRaised
  supply := charged.supply
  votes := voted_of_undecided charged.appeals
  pool := charged.pool

theorem Cast.charged (cast : Cast resolvers ballot start middle)
    (charged : middle.Charged change sender rent finish) :
    Applied resolvers ballot change sender rent start finish where
  toRaised := .of_kept cast.accounts charged.toRaised
  supply fits := by
    have same := cast.supply fits
    rw [charged.supply (by omega), same]
  votes := cast.votes.undecided charged.appeals
  pool keeps := (charged.pool keeps).trans cast.pool

theorem cast_of_replaces {registry : SlashAppealRegistry} {electorateW : ℕ}
    {old : ConsensusSlashAppeal} {votes : Std.ExtTreeMap AccountId ResolveVote}
    (found : start.slashAppeals.appeals[given.appealId]? = some old)
    (pending : old.status = .pending)
    (frozen : old.isLegacy = false → electorateW = old.electorateWSnapshot)
    (pinned : resolvers ≠ none → given.voters ⊆ resolvers.pinned)
    (added : SlashAppealRegistry.AddsVotes (given.voters.map fun voter =>
      (voter, given.approved, voteWeight resolvers start voter, signature)) old.votes votes)
    (replaced : start.slashAppeals.Replaces given.appealId { old with
      votes := votes
      status := ConsensusSlashAppeal.verdict { old with votes := votes } electorateW } registry) :
    Cast resolvers (some given) start (start.setRegistry .slashAppeals registry) where
  accounts _ := .of_eq rfl
  supply _ := rfl
  pool := .of_eq rfl
  votes := by
    refine ⟨fun id appeal isAppeal => ?_, replaced.slashes⟩
    have lookup : registry.appeals[id]? = some appeal := isAppeal
    rw [replaced.appeals id] at lookup
    split at lookup
    next isId =>
      cases lookup
      refine .voted (isId ▸ found) rfl isId pinned ⟨pending, added.1, ?_, electorateW, frozen, rfl⟩
        (.inl rfl)
      intro voter vote foundVote
      rcases added.2 voter vote foundVote with before | listed
      · exact .inl before
      · obtain ⟨other, member, same⟩ := List.mem_map.mp listed
        simp only [Prod.mk.injEq] at same
        obtain ⟨rfl, side, weight, -⟩ := same
        exact .inr ⟨member, side.symm, weight.symm⟩
    next => exact .follows lookup (.inl rfl)

end Contents

section Commands

variable [Platform] {Error Value : Type}

/-- Commands of a transaction, under the resolvers of the host. -/
abbrev TxCommand (resolvers : Resolvers) (ballot : Option Ballot) (change : LockChange)
    (sender : AccountId) : Type :=
  Command ledgerModel.conduct VmFault (ℕ × VmExecutionResult) fun outcome before after =>
    Contents.Applied resolvers ballot change sender outcome.1 before.toContents after.toContents

variable {aggregateSignature : BlsSignatureG2} {approved : Bool} {appealId height : ℕ}
  {signerBitset : Bytes} {vm : Vm}

def Charge.applied
    (charge : LockingCharge change sender VmFault VmExecutionResult) :
    TxCommand resolvers ballot change sender :=
  charge.weaken fun _ charged => charged.applied

/-! ## Slashing -/

def slashEvidence (vm : Vm) (height : ℕ) (evidence : EquivocationEvidence) :
    Quiet VmFault ℕ := do
  if !vm.equivocationSlashActive height then
    Within.fail (mediaFault
      s!"ReportEquivocation not active until height {vm.equivocationSlashFrom}")
  else
    let _ ← Within.ofExcept (fun reason => mediaFault ("invalid equivocation evidence: " ++
        EquivocationError.display reason))
      (EquivocationEvidence.tryFromVotes evidence.voteA evidence.voteB)
    let offender := evidence.voteA.validator
    let round := evidence.voteA.round
    let view ← ledgerModel.look
    match view.contents.slashAppeals.findEquivocationAtRound offender round with
    | some existing => return existing.id
    | none =>
      let slashId := view.contents.slashAppeals.peekNextSlashId
      let slashed ← slashEquivocationStake offender slashId
      Quiet.recordSlashWithId slashId offender slashed .equivocation round
        EQUIVOCATION_APPEAL_WINDOW_BLOCKS
      return slashId

def executeReportEquivocation (vm : Vm) (height : ℕ) (evidence : EquivocationEvidence) :
    Handler sender :=
  Charge.after (slashEvidence vm height evidence) fun slashId =>
    bumpSenderNonce (idResult GAS_PER_TRANSFER slashId)

/-! ## Appealing -/

def appealFault (reason : SlashAppealError) : VmFault := mediaFault reason.display

def submitToBook (resolvers : Resolvers) (height slashId : ℕ) (evidence : Bytes) :
    Quiet VmFault ℕ := do
  let view ← ledgerModel.look
  (Quiet.onAppeals (SlashAppealRegistry.submitAppeal slashId evidence height
      PHASE14_MAX_APPEAL_EVIDENCE_BYTES
      (phase20SnapshotElectorateW (resolvers.pinned.map view.contents.stakeOf))
      (phase20PinSetCommitment resolvers.pinned))
    (SlashAppealRegistry.settles_submitAppeal _ _ _ _ _ _)
    (SlashAppealRegistry.submitAppeal_undecided _ _ _ _ _ _)).mapError appealFault

def executeSubmitSlashAppeal (resolvers : Resolvers) (height slashId : ℕ) (evidence : Bytes) :
    Handler sender :=
  Charge.after (submitToBook resolvers height slashId evidence) fun _ =>
    bumpSenderNonce (idResult mediaBlobMetaTxGas slashId)

/-! ## Voting -/

def gateResolve (appealId height : ℕ) : Act VmFault PUnit :=
  (Act.onRegistry .slashAppeals (SlashAppealRegistry.gateResolveWindow appealId height)
    (SlashAppealRegistry.settles_gateResolveWindow _ _)).mapError appealFault

theorem Leads.gateResolve {post : PUnit → Contents → Prop} (reached : post ⟨⟩ before) :
    Leads (gateResolve appealId height) before post := by
  refine .mapError (.onRegistry fun _ next ran => ?_)
  have same := ends_of_ok (SlashAppealRegistry.gateResolveWindow_same ..) ran
  rw [same]
  exact reached

def castBallot (resolvers : Resolvers) (given : Ballot) (signature : Option Signature) :
    Act VmFault (ℕ × CastResolveOutcome) := do
  let view ← ledgerModel.look
  match view.contents.slashAppeals.appeals[given.appealId]? with
  | none => Within.fail (mediaFault "appeal not found")
  | some appeal => do
    let outcome ← (Act.onRegistry .slashAppeals
      (SlashAppealRegistry.castResolveVotesBatch given.appealId
        (given.voters.map fun voter => (voter, given.approved,
          voteWeight resolvers view.contents voter, signature))
        (electorateOf resolvers view.contents appeal))
      (SlashAppealRegistry.settles_castResolveVotesBatch _ _ _)).mapError appealFault
    return (appeal.slashId, outcome)

theorem Leads.castBallot (pinned : resolvers ≠ none → given.voters ⊆ resolvers.pinned) :
    Leads (castBallot resolvers given signature) before fun _ after =>
      Contents.Cast resolvers (some given) before after := by
  refine .bind (.look fun config => ?_)
  have seen : before.settled.slashAppeals.appeals = before.slashAppeals.appeals := rfl
  simp only [seen]
  cases found : before.slashAppeals.appeals[given.appealId]? with
  | none => exact .fail
  | some appeal =>
    refine .bind (.mapError (.onRegistry fun outcome next ran => .pure ?_))
    obtain ⟨old, votes, foundOld, pending, added, replaced⟩ :=
      ends_of_ok (SlashAppealRegistry.castResolveVotesBatch_ends ..) ran
    have same : old = appeal := Option.some.inj (foundOld.symm.trans found)
    subst same
    refine Contents.cast_of_replaces found pending (fun frozen => ?_) pinned added replaced
    rw [electorateOf, frozen]
    rfl

def restoreReversed (slashId : ℕ) (outcome : CastResolveOutcome) : Quiet VmFault PUnit := do
  if outcome = .finalized true then
    match (← ledgerModel.look).contents.slashAppeals.slashes[slashId]? with
    | none => Within.fail (mediaFault "slash not found after finalize")
    | some slash =>
      let restore := match slash.reason with
        | .blobFailedServe => restoreFailedServePenalty slash.account slashId slash.amount
        | _ => restoreEquivocationSlash slash.account slashId slash.amount
      let _ ← restore.mapError fun reason => mediaFault reason.display

def settleResolve (appealId slashId : ℕ) (outcome : CastResolveOutcome) : Handler sender :=
  Charge.after (restoreReversed slashId outcome) fun _ =>
    bumpSenderNonce (idResult mediaBlobMetaTxGas appealId)

abbrev CastCommand (resolvers : Resolvers) (ballot : Option Ballot) (Value : Type) : Type :=
  Command ledgerModel.conduct VmFault Value fun _ before after =>
    Contents.Cast resolvers ballot before.toContents after.toContents

def CastCommand.settle (cast : CastCommand resolvers ballot (ℕ × CastResolveOutcome))
    (appealId : ℕ) : TxCommand resolvers ballot .keep sender :=
  cast.andThen (fun outcome => settleResolve appealId outcome.1 outcome.2)
    fun voted charged => voted.charged charged

def senderMayResolveSlashAppeal (resolvers : Resolvers) (contents : Contents)
    (sender : AccountId) : Bool :=
  match resolvers with
  | some set => set.contains sender
  | none =>
    contents.openValidators.records[sender]?.any (fun record =>
      record.status = .active ∨ record.status = .pending) ||
    contents.accounts[sender]?.any fun account => account.stake > 0

def ballotChainId (vm : Vm) : ℕ :=
  (vm.registrationChainId <|> Platform.defaultSigningChainId).getD 0

def checkBallotSignature (vm : Vm) (contents : Contents) (sender : AccountId) (appealId : ℕ)
    (approved : Bool) (signature : Signature) : Except String Unit :=
  match contents.slashAppeals.appeals[appealId]?.filter (·.status = .pending) with
  | none => .error "appeal not found or not pending for attested resolve"
  | some appeal =>
    (verifySlashAppealResolveBallotDual (ballotChainId vm) appealId appeal.slashId approved
      sender appeal.pinSetCommitment signature).mapError
        fun reason => "invalid resolve ballot: " ++ reason.display

def admitResolve (vm : Vm) (resolvers : Resolvers) (height : ℕ) (contents : Contents)
    (sender : AccountId) (appealId : ℕ) (approved : Bool) (signature : Option Signature) :
    Except String Unit := do
  if phase32CommitteeRequiresBlsAggregate resolvers.pinned.length height
      vm.blsCommitteeFlipFrom then
    throw ("ResolveSlashAppeal / ResolveSlashAppealAttested (31/32) rejected when BLS " ++
      "committee flip active and |slash_appeal_resolvers| > 1; use " ++
      "ResolveSlashAppealBlsAggregate (33)")
  match signature with
  | some signature => checkBallotSignature vm contents sender appealId approved signature
  | none =>
    if phase32CommitteeRequiresAttested resolvers.pinned.length height
        vm.blsCommitteeFlipFrom then
      throw ("ResolveSlashAppeal (31) rejected when |slash_appeal_resolvers| > 1; use " ++
        "ResolveSlashAppealAttested (32)")
  match contents.slashAppeals.appeals[appealId]? with
  | none => throw "appeal not found"
  | some appeal =>
    if !appeal.isLegacy ∧ phase20PinSetCommitment resolvers.pinned ≠ appeal.pinSetCommitment then
      throw "slash appeal pin set changed since submit"

/-- The sender votes for itself. -/
def resolveAct (vm : Vm) (resolvers : Resolvers) (height : ℕ) (sender : AccountId)
    (appealId : ℕ) (approved : Bool) (signature : Option Signature) :
    Act VmFault (ℕ × CastResolveOutcome) := do
  let view ← ledgerModel.look
  if !senderMayResolveSlashAppeal resolvers view.contents sender then
    Within.fail (mediaFault "ResolveSlashAppeal requires a consensus validator")
  else
    gateResolve appealId height
    Within.ofExcept mediaFault (admitResolve vm resolvers height view.contents sender appealId
      approved signature)
    castBallot resolvers ⟨appealId, approved, [sender]⟩ signature

theorem Leads.ofExcept {OtherError : Type} {effect : Effect StateStore}
    {describe : OtherError → Error} {result : Except OtherError Value}
    {post : Value → Contents → Prop} (reached : ∀ value, result = .ok value → post value before) :
    Leads (Within.ofExcept describe result : Within ledgerModel.conduct effect Error Value)
      before post := by
  cases result with
  | error => exact .fail
  | ok value => exact .pure (reached value rfl)

theorem leads_resolveAct (before : Contents) :
    Leads (resolveAct vm resolvers height sender appealId approved signature) before fun _ after =>
      Contents.Cast resolvers (some ⟨appealId, approved, [sender]⟩) before after := by
  refine .bind (.look fun config => ?_)
  split
  next => exact .fail
  next mayResolve =>
    refine .bind (.gateResolve (.bind (.ofExcept fun _ _ => .castBallot fun isPinned => ?_)))
    cases resolvers with
    | none => exact absurd rfl isPinned
    | some set => simpa [senderMayResolveSlashAppeal, Resolvers.pinned] using mayResolve

def executeResolveSlashAppeal (vm : Vm) (resolvers : Resolvers) (height appealId : ℕ)
    (approved : Bool) (signature : Option Signature) :
    TxCommand resolvers (some ⟨appealId, approved, [sender]⟩) .keep sender :=
  CastCommand.settle ((resolveAct vm resolvers height sender appealId approved signature).strengthen
    fun store => leads_resolveAct store.toContents store rfl) appealId

/-! ## Aggregate ballots -/

def aggregateBallot (resolvers : Resolvers) (appealId : ℕ) (approved : Bool)
    (signerBitset : Bytes) : Option Ballot :=
  match phase29DecodeSignerBitset resolvers.pinned signerBitset with
  | .ok signers => some ⟨appealId, approved, signers⟩
  | .error _ => none

def admitAggregate (vm : Vm) (resolvers : Resolvers) (contents : Contents) (appealId : ℕ)
    (approved : Bool) (signerBitset : Bytes) (aggregateSignature : BlsSignatureG2)
    (signerBlsPubkeys : List BlsPublicKeyG1) : Except String (List AccountId) :=
  match contents.slashAppeals.appeals[appealId]?.filter (·.status = .pending) with
  | none => .error "appeal not found or not pending for BLS aggregate resolve"
  | some appeal =>
    if resolvers.pinned = [] then
      .error "empty slash_appeal_resolvers pin set — cannot execute BLS aggregate resolve"
    else if !appeal.isLegacy ∧
        phase20PinSetCommitment resolvers.pinned ≠ appeal.pinSetCommitment then
      .error "slash appeal pin set changed since submit"
    else
      match phase30VerifyAggregateResolveSelfContained (ballotChainId vm) appeal.slashId
        appeal.pinSetCommitment resolvers.pinned appealId approved signerBitset
        aggregateSignature signerBlsPubkeys with
      | .error reason => .error ("invalid BLS aggregate resolve: " ++ reason.display)
      | .ok () => match phase29DecodeSignerBitset resolvers.pinned signerBitset with
        | .error reason => .error reason.display
        | .ok signers => .ok signers

theorem decoded_of_admitted {contents : Contents} {signers : List AccountId}
    (admitted : admitAggregate vm resolvers contents appealId approved signerBitset
      aggregateSignature signerBlsPubkeys = .ok signers) :
    phase29DecodeSignerBitset resolvers.pinned signerBitset = .ok signers := by
  unfold admitAggregate at admitted
  split at admitted
  next => cases admitted
  split at admitted
  next => cases admitted
  split at admitted
  next => cases admitted
  split at admitted
  next => cases admitted
  split at admitted
  next => cases admitted
  next decoded => rw [decoded, Except.ok.inj admitted]

/-- The votes of the listed signers; the sender need not be one of them. -/
def aggregateAct (vm : Vm) (resolvers : Resolvers) (height appealId : ℕ) (approved : Bool)
    (signerBitset : Bytes) (aggregateSignature : BlsSignatureG2)
    (signerBlsPubkeys : List BlsPublicKeyG1) : Act VmFault (ℕ × CastResolveOutcome) := do
  gateResolve appealId height
  let view ← ledgerModel.look
  let signers ← Within.ofExcept mediaFault (admitAggregate vm resolvers view.contents appealId
    approved signerBitset aggregateSignature signerBlsPubkeys)
  castBallot resolvers ⟨appealId, approved, signers⟩ none

theorem leads_aggregateAct (before : Contents) :
    Leads (aggregateAct vm resolvers height appealId approved signerBitset aggregateSignature
      signerBlsPubkeys) before fun _ after =>
        Contents.Cast resolvers (aggregateBallot resolvers appealId approved signerBitset)
          before after := by
  refine .bind (.gateResolve (.bind (.look fun config => .bind (.ofExcept fun signers admitted =>
    ?_))))
  have decoded := decoded_of_admitted admitted
  rw [aggregateBallot, decoded]
  exact .castBallot fun _ => mem_of_decoded decoded

def executeResolveSlashAppealBlsAggregate (vm : Vm) (resolvers : Resolvers)
    (height appealId : ℕ) (approved : Bool) (signerBitset : Bytes)
    (aggregateSignature : BlsSignatureG2) (signerBlsPubkeys : List BlsPublicKeyG1) :
    TxCommand resolvers (aggregateBallot resolvers appealId approved signerBitset) .keep sender :=
  CastCommand.settle ((aggregateAct vm resolvers height appealId approved signerBitset
    aggregateSignature signerBlsPubkeys).strengthen
      fun store => leads_aggregateAct store.toContents store rfl) appealId

end Commands

end BoingNetwork
