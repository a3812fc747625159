import BoingNetwork.Primitives.Bincode
import Mathlib.Data.List.Sort

/-!
# Open validator registry

Permissionless registration with a bond, and jailing by liveness.  Everything in the
registry but the jail snapshots is committed into the state root once the registry
is not empty.
-/

namespace BoingNetwork

open MachineInt

/-- Node configuration of the open mode; not part of the state root. -/
structure OpenValidatorParams where
  activationHeight : ℕ := 0
  anchors : List AccountId := []
  bond : ℕ := 100
  deregisterDelay : ℕ := 100
  epochLen : ℕ := 100
  maxOpenValidators : ℕ := 20
  livenessWindow : ℕ := 1000
  missThresholdBps : ℕ := 1000
  minLivenessSamples : ℕ := 10
  jailCooldown : ℕ := 500

def OpenValidatorParams.isAnchor (params : OpenValidatorParams) (id : AccountId) : Bool :=
  params.anchors.contains id

inductive ValidatorStatus where
  | pending
  | active
  | jailed (until_ : ℕ)
  | exiting
deriving DecidableEq

structure ValidatorRecord where
  owner : AccountId
  bond : ℕ
  registeredAt : ℕ
  status : ValidatorStatus
  jailCount : ℕ
deriving DecidableEq

/-- One produced block: who was scheduled and who proposed. -/
structure LivenessEntry where
  height : ℕ
  expected : AccountId
  proposer : AccountId
deriving DecidableEq

structure LivenessStats where
  scheduled : ℕ
  missed : ℕ

structure JailSnapshot where
  jailedAt : ℕ
  scheduled : ℕ
  missed : ℕ
deriving DecidableEq

inductive OpenValidatorError where
  | disabled
  | notYetActive (activationHeight : ℕ)
  | invalidNodeSignature
  | alreadyRegistered
  | ownerAlreadyRegistered
  | anchorNotRegistrable
  | notRegistered
  | notOwner
  | alreadyExiting
  | notJailed
  | jailCooldown (until_ : ℕ)
  | registryFull (max : ℕ)

def OpenValidatorError.display : OpenValidatorError → String
  | .disabled => "open validator registration is not enabled on this network"
  | .notYetActive activationHeight =>
    s!"open validator registration activates at height {activationHeight}"
  | .invalidNodeSignature =>
    "invalid node signature (node key must sign the registration for this owner)"
  | .alreadyRegistered => "node is already registered"
  | .ownerAlreadyRegistered => "owner already has a registered validator"
  | .anchorNotRegistrable => "anchor validators cannot be registered"
  | .notRegistered => "validator not registered"
  | .notOwner => "only the registering owner can do this"
  | .alreadyExiting => "validator is already exiting"
  | .notJailed => "validator is not jailed"
  | .jailCooldown until_ => s!"jail cooldown until height {until_}"
  | .registryFull max => s!"open validator registry is full ({max} records)"

structure OpenValidatorRegistry where
  activatedAt : Option ℕ := none
  records : Std.ExtTreeMap AccountId ValidatorRecord := ∅
  active : List AccountId := []
  liveness : List LivenessEntry := []
  /-- Derived data of the last jailing; skipped by the encoding. -/
  lastJail : Std.ExtTreeMap AccountId JailSnapshot := ∅
deriving DecidableEq

open Bincode

def ValidatorStatus.serialize : ValidatorStatus → Bytes
  | .pending => variantIndex 0
  | .active => variantIndex 1
  | .jailed until_ => variantIndex 2 ++ leBytes 8 until_
  | .exiting => variantIndex 3

def ValidatorRecord.serialize (record : ValidatorRecord) : Bytes :=
  bytes32 record.owner ++ leBytes 16 record.bond ++ leBytes 8 record.registeredAt ++
    record.status.serialize ++ leBytes 4 record.jailCount

def LivenessEntry.serialize (entry : LivenessEntry) : Bytes :=
  leBytes 8 entry.height ++ bytes32 entry.expected ++ bytes32 entry.proposer

namespace OpenValidatorRegistry

def serialize (registry : OpenValidatorRegistry) : Bytes :=
  option (leBytes 8) registry.activatedAt ++
    Bincode.map bytes32 ValidatorRecord.serialize registry.records ++
    vec bytes32 registry.active ++ vec LivenessEntry.serialize registry.liveness

def DOMAIN : Bytes := asciiBytes "BOING_OPEN_VALIDATOR_REGISTRY_V1"

def isEmpty (registry : OpenValidatorRegistry) : Bool :=
  registry.activatedAt.isNone && registry.records.isEmpty && registry.liveness.isEmpty

def consensusSet (registry : OpenValidatorRegistry) (params : OpenValidatorParams) :
    Option (List AccountId) :=
  registry.activatedAt.map fun _ =>
    let set := registry.active.foldl
      (fun set id => if set.contains id then set else set ++ [id]) params.anchors
    (set.mergeSort (· ≤ ·)).dedup

def maxRecords (params : OpenValidatorParams) : ℕ :=
  max (saturatingMul 64 params.maxOpenValidators 4) 16

/-- `capped` enforces the bound on the number of records. -/
def registerWithCap (params : OpenValidatorParams) (height : ℕ) (owner nodeId : AccountId)
    (capped : Bool) : EStateM OpenValidatorError OpenValidatorRegistry Unit := do
  let registry ← get
  if height < params.activationHeight then
    throw (.notYetActive params.activationHeight)
  else if params.isAnchor nodeId then
    throw .anchorNotRegistrable
  else if registry.records.contains nodeId then
    throw .alreadyRegistered
  else if registry.records.values.any (·.owner = owner) then
    throw .ownerAlreadyRegistered
  else if capped && registry.records.size ≥ maxRecords params then
    throw (.registryFull (maxRecords params))
  else
    set { registry with
      records := registry.records.insert nodeId ⟨owner, params.bond, height, .pending, 0⟩ }

def deregisterAt (owner nodeId : AccountId) (height : ℕ) (jailLocksBond : Bool) :
    EStateM OpenValidatorError OpenValidatorRegistry ℕ := do
  let registry ← get
  match registry.records[nodeId]? with
  | none => throw .notRegistered
  | some record =>
    if record.owner ≠ owner then throw .notOwner
    else match record.status with
      | .exiting => throw .alreadyExiting
      | .active =>
        set { registry with
          records := registry.records.insert nodeId
            { record with status := .exiting, bond := 0 } }
        return record.bond
      | .pending =>
        set { registry with records := registry.records.erase nodeId }
        return record.bond
      | .jailed until_ =>
        if jailLocksBond ∧ height < until_ then throw (.jailCooldown until_)
        else
          set { registry with records := registry.records.erase nodeId }
          return record.bond

def unjail (owner nodeId : AccountId) (height : ℕ) :
    EStateM OpenValidatorError OpenValidatorRegistry Unit := do
  let registry ← get
  match registry.records[nodeId]? with
  | none => throw .notRegistered
  | some record =>
    if record.owner ≠ owner then throw .notOwner
    else match record.status with
      | .jailed until_ =>
        if height ≥ until_ then
          set { registry with
            records := registry.records.insert nodeId { record with status := .pending } }
        else throw (.jailCooldown until_)
      | _ => throw .notJailed

/-- Liveness over the current window. -/
def stats (registry : OpenValidatorRegistry) (id : AccountId) : LivenessStats :=
  let scheduled := registry.liveness.filter (·.expected = id)
  ⟨scheduled.length, (scheduled.filter (·.proposer ≠ id)).length⟩

def missesTooMany (params : OpenValidatorParams) (stats : LivenessStats) : Bool :=
  stats.scheduled ≥ max params.minLivenessSamples 1 ∧
    stats.missed * 10000 > params.missThresholdBps * stats.scheduled

/-- Jails one validator, with its liveness measured now; old misses are forgotten. -/
def jail (params : OpenValidatorParams) (height : ℕ) (registry : OpenValidatorRegistry)
    (id : AccountId) : OpenValidatorRegistry :=
  let stats := registry.stats id
  { registry with
    lastJail := registry.lastJail.insert id ⟨height, stats.scheduled, stats.missed⟩
    records := match registry.records[id]? with
      | some record =>
        if record.status = .active then
          registry.records.insert id { record with
            status := .jailed (saturatingAdd 64 height params.jailCooldown)
            jailCount := saturatingAdd 32 record.jailCount 1 }
        else registry.records
      | none => registry.records
    liveness := registry.liveness.filter (·.expected ≠ id) }

def eligible (record : ValidatorRecord) : Bool :=
  record.status = .pending ∨ record.status = .active

def chosen (params : OpenValidatorParams) (registry : OpenValidatorRegistry) : List AccountId :=
  (((registry.records.toList.filter (eligible ·.2)).map
      fun (id, record) => (record.registeredAt, id)).mergeSort
    fun first second => first.1 < second.1 ∨ (first.1 = second.1 ∧ first.2 ≤ second.2)).take
      params.maxOpenValidators |>.map (·.2)

def epochTransition (params : OpenValidatorParams) (height : ℕ)
    (registry : OpenValidatorRegistry) : OpenValidatorRegistry :=
  let jailed := registry.active.filter fun id => missesTooMany params (registry.stats id)
  let registry := jailed.foldl (jail params height) registry
  let records := registry.records.filter fun _ record => record.status ≠ .exiting
  let registry := { registry with
    records := records
    lastJail := registry.lastJail.filter fun id _ => records.contains id }
  let chosen := registry.chosen params
  { registry with
    records := registry.records.map fun id record =>
      if eligible record then
        { record with status := if chosen.contains id then .active else .pending }
      else record
    active := chosen.mergeSort (· ≤ ·) }

/-- The scheduled leader and the proposer of a block, in a window of bounded length. -/
def recordLiveness (params : OpenValidatorParams) (height : ℕ) (proposer : AccountId)
    (registry : OpenValidatorRegistry) : OpenValidatorRegistry :=
  match registry.consensusSet params with
  | none => registry
  | some [] => registry
  | some (first :: rest) =>
    let set := first :: rest
    let expected := set.getD (height % set.length) first
    let liveness := registry.liveness ++ [⟨height, expected, proposer⟩]
    { registry with liveness := liveness.drop (liveness.length - max params.livenessWindow 1) }

/-- End-of-block hook. -/
def onBlock (params : OpenValidatorParams) (height : ℕ) (proposer : AccountId)
    (registry : OpenValidatorRegistry) : OpenValidatorRegistry :=
  if height < params.activationHeight ∨ params.epochLen = 0 then registry
  else
    let registry := registry.recordLiveness params height proposer
    if height % params.epochLen = 0 then
      epochTransition params height
        { registry with activatedAt := some (registry.activatedAt.getD height) }
    else registry

end OpenValidatorRegistry

end BoingNetwork
