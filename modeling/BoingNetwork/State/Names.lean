import BoingNetwork.Primitives.Bincode

/-!
# Name registry

Label rules, rent and commitments, and the registry that the name transactions
change.  A name is active until it expires, then in grace, where only its owner may
renew it, and afterwards free again.
-/

namespace BoingNetwork

open Bincode MachineInt

def NAME_MIN_LEN : ℕ := 3
def NAME_MAX_LEN : ℕ := 32
def NAME_MIN_YEARS : ℕ := 1
def NAME_MAX_YEARS : ℕ := 10
def NAME_COMMIT_DOMAIN : Bytes := asciiBytes "BOING_NAME_COMMIT_V1"

def RESERVED_NAMES : List String :=
  ["boing", "admin", "administrator", "root", "system", "validator", "validators", "faucet",
    "observer", "wallet", "support", "help", "official", "team", "dex", "finance", "express",
    "network", "treasury", "governance", "security", "staking", "bridge", "testnet", "mainnet",
    "null", "undefined", "anchor", "registry", "names"]

inductive NameError where
  | length
  | charset
  | hyphen
  | looksLikeAddress
  | reserved
deriving DecidableEq

def NameError.display : NameError → String
  | .length => s!"name must be {NAME_MIN_LEN}-{NAME_MAX_LEN} characters"
  | .charset => "name may only contain a-z, 0-9 and '-'"
  | .hyphen => "name cannot start or end with '-' or contain '--'"
  | .looksLikeAddress => "name cannot look like an address or be purely numeric"
  | .reserved => "name is reserved"

namespace Label

def isLowercase (byte : UInt8) : Bool := 97 ≤ byte ∧ byte ≤ 122
def isDigit (byte : UInt8) : Bool := 48 ≤ byte ∧ byte ≤ 57
def isHexDigit (byte : UInt8) : Bool :=
  isDigit byte ∨ (97 ≤ byte ∧ byte ≤ 102) ∨ (65 ≤ byte ∧ byte ≤ 70)
def hyphenByte : UInt8 := 45

/-- Starts or ends with a hyphen, or contains two in a row. -/
def misplacesHyphen (bytes : Bytes) : Bool :=
  bytes.head? = some hyphenByte ∨ bytes.getLast? = some hyphenByte ∨
    (hyphenByte, hyphenByte) ∈ bytes.zip bytes.tail

def looksLikeAddress (bytes : Bytes) : Bool :=
  bytes.take 2 = asciiBytes "0x" ∨ bytes.all isDigit ∨
    (32 ≤ bytes.length ∧ bytes.all isHexDigit)

end Label

def validateLabel (label : String) : Except NameError Unit :=
  let bytes := utf8 label
  if bytes.length < NAME_MIN_LEN ∨ NAME_MAX_LEN < bytes.length then .error .length
  else if !bytes.all fun byte =>
      Label.isLowercase byte || Label.isDigit byte || byte == Label.hyphenByte then
    .error .charset
  else if Label.misplacesHyphen bytes then .error .hyphen
  else if Label.looksLikeAddress bytes then .error .looksLikeAddress
  else .ok ()

def isReserved (label : String) : Bool := RESERVED_NAMES.contains label

def checkRegistrable (label : String) : Except NameError Unit := do
  validateLabel label
  if isReserved label then .error .reserved else .ok ()

def nameRentPerYear (label : String) : ℕ :=
  let length := (utf8 label).length
  if length ≤ 3 then 10 else if length = 4 then 5 else if length = 5 then 2 else 1

def nameRent (label : String) (years : ℕ) : ℕ := nameRentPerYear label * years

def nameCommitment [Crypto] (label : String) (owner : AccountId) (salt : BitVec 256) : BitVec 256 :=
  Crypto.blake3 (NAME_COMMIT_DOMAIN ++ leBytes 4 (utf8 label).length ++ utf8 label ++
    bytes32 owner ++ bytes32 salt)

/-- Node configuration of the registry; not part of the state root. -/
structure NameRegistryParams where
  activationHeight : ℕ := 0
  blocksPerYear : ℕ := 15768000
  graceBlocks : ℕ := 1296000
  commitMinAge : ℕ := 1
  commitMaxAge : ℕ := 43200

structure NameRecord where
  owner : AccountId
  target : AccountId
  registeredAt : ℕ
  expiresAt : ℕ
deriving DecidableEq

structure CommitRecord where
  sender : AccountId
  height : ℕ
deriving DecidableEq

inductive NameStatus where
  | active
  | grace
  | expired
deriving DecidableEq

inductive NameRegistryError where
  | disabled
  | notYetActive (activationHeight : ℕ)
  | invalidName (reason : String)
  | invalidYears
  | commitExists
  | commitNotFound
  | commitTooNew (readyAt : ℕ)
  | commitTooOld
  | notAvailable
  | notRegistered
  | notOwner
  | expired
  | tooFarAhead
  | primaryMismatch
  | insufficientBalance (rent : ℕ)

def NameRegistryError.display : NameRegistryError → String
  | .disabled => "the name registry is not enabled on this network"
  | .notYetActive activationHeight =>
    s!"the name registry activates at height {activationHeight}"
  | .invalidName reason => s!"invalid name: {reason}"
  | .invalidYears => s!"years must be {NAME_MIN_YEARS}-{NAME_MAX_YEARS}"
  | .commitExists => "commitment already exists"
  | .commitNotFound => "no matching commitment from this sender (send NameCommit first)"
  | .commitTooNew readyAt => s!"commitment too new: reveal at or after height {readyAt}"
  | .commitTooOld => "commitment expired; commit again"
  | .notAvailable => "name is not available"
  | .notRegistered => "name is not registered"
  | .notOwner => "only the owner can do this"
  | .expired => "name has expired"
  | .tooFarAhead => s!"renewal would exceed {NAME_MAX_YEARS} years of prepaid time"
  | .primaryMismatch => "primary name must be active and resolve to the sender"
  | .insufficientBalance rent => s!"insufficient balance for rent ({rent} BOING)"

structure NameRegistry where
  names : Std.ExtTreeMap String NameRecord := ∅
  reverse : Std.ExtTreeMap AccountId String := ∅
  commits : Std.ExtTreeMap (BitVec 256) CommitRecord := ∅
deriving DecidableEq

def NameRecord.serialize (record : NameRecord) : Bytes :=
  bytes32 record.owner ++ bytes32 record.target ++ leBytes 8 record.registeredAt ++
    leBytes 8 record.expiresAt

def CommitRecord.serialize (record : CommitRecord) : Bytes :=
  bytes32 record.sender ++ leBytes 8 record.height

namespace NameRegistry

def serialize (registry : NameRegistry) : Bytes :=
  Bincode.map string NameRecord.serialize registry.names ++
    Bincode.map bytes32 string registry.reverse ++
    Bincode.map bytes32 CommitRecord.serialize registry.commits

def DOMAIN : Bytes := asciiBytes "BOING_NAME_REGISTRY_V1"

def isEmpty (registry : NameRegistry) : Bool :=
  registry.names.isEmpty && registry.reverse.isEmpty && registry.commits.isEmpty

def statusOf (record : NameRecord) (params : NameRegistryParams) (height : ℕ) : NameStatus :=
  if height < record.expiresAt then .active
  else if height < saturatingAdd 64 record.expiresAt params.graceBlocks then .grace
  else .expired

def isAvailable (registry : NameRegistry) (label : String) (params : NameRegistryParams)
    (height : ℕ) : Bool :=
  match registry.names[label]? with
  | none => true
  | some record => statusOf record params height = .expired

def resolve (registry : NameRegistry) (label : String) (params : NameRegistryParams)
    (height : ℕ) : Option NameRecord :=
  registry.names[label]?.filter fun record => statusOf record params height = .active

def clearReversePointingTo (registry : NameRegistry) (addr : AccountId) (label : String) :
    NameRegistry :=
  if registry.reverse[addr]? = some label then
    { registry with reverse := registry.reverse.erase addr }
  else registry

def pruneCommits (registry : NameRegistry) (params : NameRegistryParams) (height : ℕ) :
    NameRegistry :=
  { registry with
    commits := registry.commits.filter fun _ commit =>
      height - commit.height ≤ params.commitMaxAge }

def senderCommitKey [Crypto] (sender : AccountId) (commitment : BitVec 256) : BitVec 256 :=
  Crypto.blake3 (asciiBytes "BOING_NAME_COMMIT_V2" ++ bytes32 sender ++ bytes32 commitment)

/-- Old commitments are pruned before the new one is looked up, also when it exists. -/
def commitKeyed [Crypto] (params : NameRegistryParams) (height : ℕ) (sender : AccountId)
    (commitment : BitVec 256) (senderKeyed : Bool) :
    EStateM NameRegistryError NameRegistry Unit := do
  modify (pruneCommits · params height)
  let registry ← get
  let key := if senderKeyed then senderCommitKey sender commitment else commitment
  if registry.commits.contains key then throw .commitExists
  else set { registry with commits := registry.commits.insert key ⟨sender, height⟩ }

/-- The sender-keyed entry first, then the entry under the raw commitment. -/
def findCommit [Crypto] (registry : NameRegistry) (sender : AccountId) (commitment : BitVec 256)
    (senderKeyed : Bool) : Option (BitVec 256 × CommitRecord) :=
  let keyed := if senderKeyed then
      let key := senderCommitKey sender commitment
      registry.commits[key]?.map fun record => (key, record)
    else none
  keyed <|> (registry.commits[commitment]?.filter fun record => record.sender = sender).map
    fun record => (commitment, record)

def checkRegisterKeyed [Crypto] (registry : NameRegistry) (params : NameRegistryParams)
    (height : ℕ) (sender : AccountId) (label : String) (salt : BitVec 256) (years : ℕ)
    (senderKeyed : Bool) : Except NameRegistryError (ℕ × BitVec 256) :=
  match checkRegistrable label with
  | .error reason => .error (.invalidName reason.display)
  | .ok _ =>
    if years < NAME_MIN_YEARS ∨ NAME_MAX_YEARS < years then .error .invalidYears
    else match registry.findCommit sender (nameCommitment label sender salt) senderKeyed with
      | none => .error .commitNotFound
      | some (key, commit) =>
        let age := height - commit.height
        if age < params.commitMinAge then
          .error (.commitTooNew (commit.height + params.commitMinAge))
        else if age > params.commitMaxAge then .error .commitTooOld
        else if !registry.isAvailable label params height then .error .notAvailable
        else .ok (nameRent label years, key)

/-- Forgets an earlier registration together with the reverse records of it. -/
def evict (registry : NameRegistry) (label : String) : NameRegistry :=
  match registry.names[label]? with
  | none => registry
  | some old =>
    let registry := { registry with names := registry.names.erase label }
    (registry.clearReversePointingTo old.target label).clearReversePointingTo old.owner label

def registerKeyed [Crypto] (params : NameRegistryParams) (height : ℕ) (sender : AccountId)
    (label : String) (salt : BitVec 256) (target : AccountId) (years : ℕ) (senderKeyed : Bool) :
    EStateM NameRegistryError NameRegistry ℕ := do
  let registry ← get
  match registry.checkRegisterKeyed params height sender label salt years senderKeyed with
  | .error error => throw error
  | .ok (rent, key) =>
    let registry := evict { registry with commits := registry.commits.erase key } label
    let expiresAt := saturatingAdd 64 height
      (saturatingMul 64 params.blocksPerYear years)
    let registry := { registry with
      names := registry.names.insert label ⟨sender, target, height, expiresAt⟩ }
    set (registry.pruneCommits params height)
    return rent

def owned (registry : NameRegistry) (params : NameRegistryParams) (height : ℕ)
    (sender : AccountId) (label : String) (allowGrace : Bool) :
    Except NameRegistryError NameRecord :=
  match registry.names[label]? with
  | none => .error .notRegistered
  | some record =>
    match statusOf record params height with
    | .expired => .error .notRegistered
    | .grace =>
      if !allowGrace then .error .expired
      else if record.owner ≠ sender then .error .notOwner
      else .ok record
    | .active => if record.owner ≠ sender then .error .notOwner else .ok record

def renew (params : NameRegistryParams) (height : ℕ) (sender : AccountId) (label : String)
    (years : ℕ) : EStateM NameRegistryError NameRegistry ℕ := do
  let registry ← get
  if years < NAME_MIN_YEARS ∨ NAME_MAX_YEARS < years then throw .invalidYears
  else match registry.owned params height sender label true with
    | .error error => throw error
    | .ok record =>
      let newExpiry := saturatingAdd 64 (max record.expiresAt height)
        (saturatingMul 64 params.blocksPerYear years)
      if newExpiry - height > saturatingMul 64 params.blocksPerYear NAME_MAX_YEARS then
        throw .tooFarAhead
      else
        set { registry with
          names := registry.names.insert label { record with expiresAt := newExpiry } }
        return nameRent label years

def transfer (params : NameRegistryParams) (height : ℕ) (sender : AccountId) (label : String)
    (newOwner : AccountId) : EStateM NameRegistryError NameRegistry Unit := do
  let registry ← get
  match registry.owned params height sender label false with
  | .error error => throw error
  | .ok record =>
    let registry := { registry with
      names := registry.names.insert label { record with owner := newOwner } }
    set (registry.clearReversePointingTo sender label)

def setTarget (params : NameRegistryParams) (height : ℕ) (sender : AccountId) (label : String)
    (target : AccountId) : EStateM NameRegistryError NameRegistry Unit := do
  let registry ← get
  match registry.owned params height sender label false with
  | .error error => throw error
  | .ok record =>
    let registry' := { registry with
      names := registry.names.insert label { record with target := target } }
    if record.target ≠ target then set (registry'.clearReversePointingTo record.target label)
    else set registry'

def setPrimary (params : NameRegistryParams) (height : ℕ) (sender : AccountId)
    (label : Option String) : EStateM NameRegistryError NameRegistry Unit := do
  let registry ← get
  match label with
  | none => set { registry with reverse := registry.reverse.erase sender }
  | some label =>
    if (registry.resolve label params height).any fun record => record.target = sender then
      set { registry with reverse := registry.reverse.insert sender label }
    else throw .primaryMismatch

def release (params : NameRegistryParams) (height : ℕ) (sender : AccountId) (label : String) :
    EStateM NameRegistryError NameRegistry Unit := do
  let registry ← get
  match registry.owned params height sender label true with
  | .error error => throw error
  | .ok _ => set (registry.evict label)

end NameRegistry

end BoingNetwork
