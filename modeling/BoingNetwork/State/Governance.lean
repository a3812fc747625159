import BoingNetwork.Library.Effects
import BoingNetwork.Primitives.Bincode

/-!
# Phased governance

A proposal collects stake-weighted votes, cools down, and may then be executed within
a window.  The engine is committed into the state root once a proposal was made.  Adding to
a time panics past the largest representable second.
-/

namespace BoingNetwork

open Bincode MachineInt

inductive ProposalPhase where
  | proposal
  | cooling
  | execution
deriving DecidableEq

structure ProposalVote where
  approve : Bool
  weight : ℕ
deriving DecidableEq

/-- Times are seconds since the Unix epoch. -/
structure Proposal where
  id : ℕ
  targetKey : String
  targetValue : Bytes
  phase : ProposalPhase
  proposedAt : ℕ
  coolingEndsAt : Option ℕ
  executionEndsAt : Option ℕ
  /-- Ballots by the lowercase hex of the voter's account id. -/
  votes : Std.ExtTreeMap String ProposalVote
deriving DecidableEq

def DEFAULT_COOLING : ℕ := 86400
def DEFAULT_EXECUTION_WINDOW : ℕ := 7 * 86400
def DEFAULT_QUORUM_APPROVE_BPS : ℕ := 6667
def ALLOWED_TARGET_KEYS : List String := ["qa_registry", "qa_pool_config", "network_fee_config"]

inductive GovernanceError where
  | notFound
  | invalidPhase
  | coolingNotEnded
  | executionWindowExpired
  | unknownTargetKey (key : String)
  | emptyTargetValue
  | zeroVoteWeight
  | quorumNotMet

def GovernanceError.display : GovernanceError → String
  | .notFound => "Proposal not found"
  | .invalidPhase => "Invalid phase"
  | .coolingNotEnded => "Cooling period not ended"
  | .executionWindowExpired => "Execution window expired"
  | .unknownTargetKey key => s!"Unknown governance target_key: {key}"
  | .emptyTargetValue => "Empty target_value"
  | .zeroVoteWeight => "Vote weight must be non-zero"
  | .quorumNotMet => "Governance quorum not met (need approve share of cast stake weight)"

/-- `Governance`, the engine held by the registry of the state store. -/
structure GovernanceRegistry where
  proposals : Std.ExtTreeMap ℕ Proposal := ∅
  nextId : ℕ := 1
  coolingPeriod : ℕ := DEFAULT_COOLING
  executionWindow : ℕ := DEFAULT_EXECUTION_WINDOW
  strictQuorum : Bool := true
  quorumApproveBps : ℕ := DEFAULT_QUORUM_APPROVE_BPS
deriving DecidableEq

def ProposalPhase.serialize : ProposalPhase → Bytes
  | .proposal => variantIndex 0
  | .cooling => variantIndex 1
  | .execution => variantIndex 2

def ProposalVote.serialize (vote : ProposalVote) : Bytes :=
  bool vote.approve ++ leBytes 16 vote.weight

def Proposal.serialize (proposal : Proposal) : Bytes :=
  leBytes 8 proposal.id ++ string proposal.targetKey ++ byteVec proposal.targetValue ++
    proposal.phase.serialize ++ leBytes 8 proposal.proposedAt ++
    option (leBytes 8) proposal.coolingEndsAt ++ option (leBytes 8) proposal.executionEndsAt ++
    Bincode.map string ProposalVote.serialize proposal.votes

/-- `SystemTime + Duration`: seconds are signed 64-bit numbers; `none` is a panic. -/
def addSeconds (time duration : ℕ) : Option ℕ :=
  if time + duration < 2 ^ 63 then some (time + duration) else none

namespace GovernanceRegistry

def setStrictQuorum (registry : GovernanceRegistry) (strict : Bool) : GovernanceRegistry :=
  { registry with strictQuorum := strict }

def serialize (registry : GovernanceRegistry) : Bytes :=
  Bincode.map (leBytes 8) Proposal.serialize registry.proposals ++ leBytes 8 registry.nextId ++
    leBytes 8 registry.coolingPeriod ++ leBytes 8 registry.executionWindow ++
    bool registry.strictQuorum ++ leBytes 4 registry.quorumApproveBps

def DOMAIN : Bytes := asciiBytes "BOING_GOVERNANCE_REGISTRY_V1"

def isEmpty (registry : GovernanceRegistry) : Bool :=
  registry.proposals.isEmpty && registry.nextId ≤ 1

def proposeAt (targetKey : String) (targetValue : Bytes) (now : ℕ) :
    EStateM GovernanceError GovernanceRegistry ℕ := do
  let registry ← get
  if !ALLOWED_TARGET_KEYS.contains targetKey then throw (.unknownTargetKey targetKey)
  else if targetValue.isEmpty then throw .emptyTargetValue
  else
    let id := registry.nextId
    set { registry with
      nextId := (id + 1) % 2 ^ 64
      proposals := registry.proposals.insert id {
        id, targetKey, targetValue
        phase := .proposal
        proposedAt := now
        coolingEndsAt := none
        executionEndsAt := none
        votes := ∅ } }
    return id

/-- A second vote of one voter replaces the first. -/
def castVote (id : ℕ) (voter : AccountId) (approve : Bool) (weight : ℕ) :
    EStateM GovernanceError GovernanceRegistry Unit := do
  let registry ← get
  if weight = 0 then throw .zeroVoteWeight
  else match registry.proposals[id]? with
    | none => throw .notFound
    | some proposal =>
      if proposal.phase ≠ .proposal then throw .invalidPhase
      else set { registry with
        proposals := registry.proposals.insert id { proposal with
          votes := proposal.votes.insert (hexEncode (bytes32 voter)) ⟨approve, weight⟩ } }

def tally (registry : GovernanceRegistry) (id : ℕ) : Except GovernanceError (ℕ × ℕ × ℕ) :=
  match registry.proposals[id]? with
  | none => .error .notFound
  | some proposal =>
    let (yes, no) := proposal.votes.values.foldl (fun (yes, no) vote =>
      if vote.approve then (saturatingAdd 128 yes vote.weight, no)
      else (yes, saturatingAdd 128 no vote.weight)) (0, 0)
    .ok (yes, no, saturatingAdd 128 yes no)

def quorumMet (registry : GovernanceRegistry) (id : ℕ) : Except GovernanceError Bool := do
  let (yes, _, cast) ← registry.tally id
  if cast = 0 then return false
  else
    return saturatingMul 128 yes 10000 ≥
      saturatingMul 128 cast (min registry.quorumApproveBps 10000)

def advanceToCooling (id now : ℕ) : EStateM (Fault GovernanceError) GovernanceRegistry Unit := do
  let registry ← get
  let quorum := if registry.strictQuorum then registry.quorumMet id else .ok true
  match quorum with
  | .error reason => throw (.error reason)
  | .ok false => throw (.error .quorumNotMet)
  | .ok true =>
    match registry.proposals[id]? with
    | none => throw (.error .notFound)
    | some proposal =>
      if proposal.phase ≠ .proposal then throw (.error .invalidPhase)
      else match addSeconds now registry.coolingPeriod with
        | none => throw .panic
        | some coolingEnds => set { registry with
            proposals := registry.proposals.insert id { proposal with
              phase := .cooling
              coolingEndsAt := some coolingEnds } }

def advanceToExecution (id now : ℕ) : EStateM (Fault GovernanceError) GovernanceRegistry Unit := do
  let registry ← get
  match registry.proposals[id]? with
  | none => throw (.error .notFound)
  | some proposal =>
    if proposal.phase ≠ .cooling then throw (.error .invalidPhase)
    else match proposal.coolingEndsAt with
      | none => throw (.error .invalidPhase)
      | some coolingEnds =>
        if now < coolingEnds then throw (.error .coolingNotEnded)
        else match addSeconds now registry.executionWindow with
          | none => throw .panic
          | some executionEnds => set { registry with
              proposals := registry.proposals.insert id { proposal with
                phase := .execution
                executionEndsAt := some executionEnds } }

def execute (id now : ℕ) : EStateM GovernanceError GovernanceRegistry (String × Bytes) := do
  let registry ← get
  match registry.proposals[id]? with
  | none => throw .notFound
  | some proposal =>
    if proposal.phase ≠ .execution then throw .invalidPhase
    else if !ALLOWED_TARGET_KEYS.contains proposal.targetKey then
      throw (.unknownTargetKey proposal.targetKey)
    else match proposal.executionEndsAt with
      | none => throw .invalidPhase
      | some window =>
        if now > window then throw .executionWindowExpired
        else
          set { registry with proposals := registry.proposals.erase id }
          return (proposal.targetKey, proposal.targetValue)

end GovernanceRegistry

end BoingNetwork
