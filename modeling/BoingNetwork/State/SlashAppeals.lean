import BoingNetwork.Primitives.Bincode

/-!
# Slash and appeal book

Slashes get ids from one allocator.  An appeal of a slash is decided by votes
weighted with bonded stake; an approved appeal marks its slash as reversed.
-/

namespace BoingNetwork

open Bincode MachineInt

def PHASE21_RESOLVE_WINDOW_BLOCKS : ℕ := 1000
def PHASE23_EXPIRED_APPEAL_RETENTION_BLOCKS : ℕ := 4096
def PHASE25_RESOLVED_APPEAL_RETENTION_BLOCKS : ℕ := 4096
def PHASE17_RESOLVE_THRESHOLD_NUM : ℕ := 2
def PHASE17_RESOLVE_THRESHOLD_DEN : ℕ := 3

/-- At least two thirds of the electorate; never with an empty one. -/
def phase17ResolveThresholdMet (weight electorateW : ℕ) : Bool :=
  electorateW ≠ 0 ∧
    saturatingMul 128 weight PHASE17_RESOLVE_THRESHOLD_DEN ≥
      saturatingMul 128 PHASE17_RESOLVE_THRESHOLD_NUM electorateW

def phase21ResolveDeadline (submitHeight : ℕ) : ℕ :=
  saturatingAdd 64 submitHeight PHASE21_RESOLVE_WINDOW_BLOCKS

def phase21ResolveExpired (tipHeight resolveDeadline : ℕ) : Bool := tipHeight > resolveDeadline

def phase23ExpiredAppealPrunable (tipHeight resolveDeadline : ℕ) : Bool :=
  tipHeight > saturatingAdd 64 resolveDeadline PHASE23_EXPIRED_APPEAL_RETENTION_BLOCKS

def phase25ResolvedAppealPrunable (tipHeight resolveDeadline : ℕ) : Bool :=
  tipHeight > saturatingAdd 64 resolveDeadline PHASE25_RESOLVED_APPEAL_RETENTION_BLOCKS

inductive ConsensusSlashReason where
  | equivocation
  | liveness
  | fraud
  | blobFailedServe
  | other (text : String)
deriving DecidableEq

inductive ConsensusAppealStatus where
  | pending
  | approved
  | rejected
  | expired
deriving DecidableEq

/-- One vote with the bonded stake at the time of the cast. -/
structure ResolveVote where
  approved : Bool
  weight : ℕ
  ballotSignature : Option Signature
deriving DecidableEq

inductive CastResolveOutcome where
  | pending (approveWeight rejectWeight electorateW : ℕ)
  | finalized (approved : Bool)
deriving DecidableEq

structure ConsensusSlashRecord where
  id : ℕ
  account : AccountId
  amount : ℕ
  reason : ConsensusSlashReason
  blockHeight : ℕ
  appealDeadline : ℕ
  reversed : Bool
deriving DecidableEq

structure ConsensusSlashAppeal where
  id : ℕ
  slashId : ℕ
  evidence : Bytes
  status : ConsensusAppealStatus
  votes : Std.ExtTreeMap AccountId ResolveVote
  electorateWSnapshot : ℕ
  pinSetCommitment : BitVec 256
  resolveDeadline : ℕ
deriving DecidableEq

inductive SlashAppealError where
  | slashNotFound
  | appealNotFound
  | appealAlreadyExists
  | appealAlreadyResolved
  | alreadyVoted
  | appealWindowClosed
  | resolveWindowClosed
  | evidenceTooLarge (max : ℕ)
  | alreadyReversed
  | slashIdExists
  | pinSetChanged

def SlashAppealError.display : SlashAppealError → String
  | .slashNotFound => "slash record not found"
  | .appealNotFound => "appeal not found"
  | .appealAlreadyExists => "appeal already exists for this slash"
  | .appealAlreadyResolved => "appeal already resolved"
  | .alreadyVoted => "voter already cast a resolve vote on this appeal"
  | .appealWindowClosed => "appeal window closed"
  | .resolveWindowClosed => "resolve window closed"
  | .evidenceTooLarge max => s!"evidence exceeds max ({max} bytes)"
  | .alreadyReversed => "slash already reversed"
  | .slashIdExists => "slash id already recorded"
  | .pinSetChanged => "slash appeal pin set changed since submit"

structure SlashAppealRegistry where
  slashes : Std.ExtTreeMap ℕ ConsensusSlashRecord := ∅
  appeals : Std.ExtTreeMap ℕ ConsensusSlashAppeal := ∅
  nextAppealId : ℕ := 1
  /-- Allocator of slash ids; skipped by the encoding. -/
  nextSlashId : ℕ := 1
deriving DecidableEq

def ConsensusSlashReason.serialize : ConsensusSlashReason → Bytes
  | .equivocation => variantIndex 0
  | .liveness => variantIndex 1
  | .fraud => variantIndex 2
  | .blobFailedServe => variantIndex 3
  | .other text => variantIndex 4 ++ string text

def ConsensusAppealStatus.serialize : ConsensusAppealStatus → Bytes
  | .pending => variantIndex 0
  | .approved => variantIndex 1
  | .rejected => variantIndex 2
  | .expired => variantIndex 3

def ResolveVote.serialize (vote : ResolveVote) : Bytes :=
  bool vote.approved ++ leBytes 16 vote.weight ++
    option (fun signature => array 64 signature.toNat) vote.ballotSignature

def ConsensusSlashRecord.serialize (record : ConsensusSlashRecord) : Bytes :=
  leBytes 8 record.id ++ bytes32 record.account ++ leBytes 16 record.amount ++
    record.reason.serialize ++ leBytes 8 record.blockHeight ++ leBytes 8 record.appealDeadline ++
    bool record.reversed

def ConsensusSlashAppeal.serialize (appeal : ConsensusSlashAppeal) : Bytes :=
  leBytes 8 appeal.id ++ leBytes 8 appeal.slashId ++ byteVec appeal.evidence ++
    appeal.status.serialize ++ Bincode.map bytes32 ResolveVote.serialize appeal.votes ++
    leBytes 16 appeal.electorateWSnapshot ++ bytes32 appeal.pinSetCommitment ++
    leBytes 8 appeal.resolveDeadline

namespace SlashAppealRegistry

def serialize (registry : SlashAppealRegistry) : Bytes :=
  Bincode.map (leBytes 8) ConsensusSlashRecord.serialize registry.slashes ++
    Bincode.map (leBytes 8) ConsensusSlashAppeal.serialize registry.appeals ++
    leBytes 8 registry.nextAppealId

def DOMAIN : Bytes := asciiBytes "BOING_SLASH_APPEAL_REGISTRY_V5"

def isEmpty (registry : SlashAppealRegistry) : Bool :=
  registry.slashes.isEmpty && registry.appeals.isEmpty

def peekNextSlashId (registry : SlashAppealRegistry) : ℕ :=
  let greatest := registry.slashes.maxKey?.getD 0
  let next := max registry.nextSlashId 1
  if next ≤ greatest then saturatingAdd 64 greatest 1 else next

/-- Inserts a slash under a known id; an existing row is kept. -/
def recordSlashWithId (registry : SlashAppealRegistry) (id : ℕ) (account : AccountId)
    (amount : ℕ) (reason : ConsensusSlashReason) (blockHeight appealWindowBlocks : ℕ) :
    SlashAppealRegistry :=
  { registry with
    slashes := registry.slashes.insertIfNew id {
      id, account, amount, reason, blockHeight
      appealDeadline := saturatingAdd 64 blockHeight appealWindowBlocks
      reversed := false }
    nextSlashId := if registry.nextSlashId ≤ id then saturatingAdd 64 id 1
      else registry.nextSlashId }

def submitAppeal (slashId : ℕ) (evidence : Bytes) (tipHeight maxEvidence : ℕ)
    (electorateWSnapshot : ℕ) (pinSetCommitment : BitVec 256) :
    EStateM SlashAppealError SlashAppealRegistry ℕ := do
  let registry ← get
  if evidence.length > maxEvidence then throw (.evidenceTooLarge maxEvidence)
  else match registry.slashes[slashId]? with
    | none => throw .slashNotFound
    | some slash =>
      if tipHeight > slash.appealDeadline then throw .appealWindowClosed
      else if slash.reversed then throw .alreadyReversed
      else if registry.appeals.values.any (·.slashId = slashId) then throw .appealAlreadyExists
      else
        let id := registry.nextAppealId
        set { registry with
          nextAppealId := saturatingAdd 64 id 1
          appeals := registry.appeals.insert id {
            id, slashId, evidence, electorateWSnapshot, pinSetCommitment
            status := .pending
            votes := ∅
            resolveDeadline := phase21ResolveDeadline tipHeight } }
        return id

def expirePendingAppeals (registry : SlashAppealRegistry) (tipHeight : ℕ) : SlashAppealRegistry :=
  { registry with
    appeals := registry.appeals.map fun _ appeal =>
      if appeal.status = .pending ∧ phase21ResolveExpired tipHeight appeal.resolveDeadline then
        { appeal with status := .expired }
      else appeal }

def pruneExpiredAppeals (registry : SlashAppealRegistry) (tipHeight : ℕ) : SlashAppealRegistry :=
  { registry with
    appeals := registry.appeals.filter fun _ appeal =>
      appeal.status ≠ .expired ∨ !phase23ExpiredAppealPrunable tipHeight appeal.resolveDeadline }

def pruneResolvedAppeals (registry : SlashAppealRegistry) (tipHeight : ℕ) : SlashAppealRegistry :=
  { registry with
    appeals := registry.appeals.filter fun _ appeal =>
      match appeal.status with
      | .approved | .rejected => !phase25ResolvedAppealPrunable tipHeight appeal.resolveDeadline
      | .pending | .expired => true }

def gateResolveWindow (appealId tipHeight : ℕ) :
    EStateM SlashAppealError SlashAppealRegistry Unit := do
  let registry ← get
  match registry.appeals[appealId]? with
  | none => throw .appealNotFound
  | some appeal =>
    if appeal.status ≠ .pending then throw .appealAlreadyResolved
    else if phase21ResolveExpired tipHeight appeal.resolveDeadline then
      set { registry with
        appeals := registry.appeals.insert appealId { appeal with status := .expired } }
      throw .resolveWindowClosed
    else return ()

def weightTallies (appeal : ConsensusSlashAppeal) : ℕ × ℕ :=
  appeal.votes.values.foldl (fun (approve, reject) vote =>
    if vote.approved then (saturatingAdd 128 approve vote.weight, reject)
    else (approve, saturatingAdd 128 reject vote.weight)) (0, 0)

def finalizeAppeal (appealId slashId : ℕ) (approved : Bool) :
    EStateM SlashAppealError SlashAppealRegistry Unit := do
  match (← get).appeals[appealId]? with
  | none => throw .appealNotFound
  | some appeal =>
    modify fun registry => { registry with
      appeals := registry.appeals.insert appealId
        { appeal with status := if approved then .approved else .rejected } }
    match (← get).slashes[slashId]? with
    | none => throw .slashNotFound
    | some slash =>
      if !approved then return ()
      else if slash.reversed then throw .alreadyReversed
      else
        modify fun registry => { registry with
          slashes := registry.slashes.insert slashId { slash with reversed := true } }

/-- Inserts the votes one by one; the votes before a repeated one stay recorded. -/
def insertVotes (appealId : ℕ) :
    List (AccountId × Bool × ℕ × Option Signature) →
      EStateM SlashAppealError SlashAppealRegistry Unit
  | [] => return ()
  | (voter, approved, weight, ballotSignature) :: votes => do
    match (← get).appeals[appealId]? with
    | none => throw .appealNotFound
    | some appeal =>
      if appeal.votes.contains voter then throw .alreadyVoted
      else
        modify fun registry => { registry with
          appeals := registry.appeals.insert appealId { appeal with
            votes := appeal.votes.insert voter ⟨approved, weight, ballotSignature⟩ } }
        insertVotes appealId votes

def castResolveVotesBatch (appealId : ℕ) (votes : List (AccountId × Bool × ℕ × Option Signature))
    (electorateW : ℕ) : EStateM SlashAppealError SlashAppealRegistry CastResolveOutcome := do
  match (← get).appeals[appealId]? with
  | none => throw .appealNotFound
  | some appeal =>
    if appeal.status ≠ .pending then throw .appealAlreadyResolved
    else
      insertVotes appealId votes
      match (← get).appeals[appealId]? with
      | none => throw .appealNotFound
      | some voted =>
        let (approveWeight, rejectWeight) := weightTallies voted
        if phase17ResolveThresholdMet approveWeight electorateW then
          finalizeAppeal appealId appeal.slashId true
          return .finalized true
        else if phase17ResolveThresholdMet rejectWeight electorateW then
          finalizeAppeal appealId appeal.slashId false
          return .finalized false
        else return .pending approveWeight rejectWeight electorateW

def findEquivocationAtRound (registry : SlashAppealRegistry) (account : AccountId) (round : ℕ) :
    Option ConsensusSlashRecord :=
  registry.slashes.values.find? fun slash =>
    slash.account = account ∧ slash.blockHeight = round ∧ slash.reason = .equivocation

end SlashAppealRegistry

end BoingNetwork
