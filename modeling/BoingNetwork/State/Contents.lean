import BoingNetwork.Library.UndoLog
import BoingNetwork.State.Governance
import BoingNetwork.State.Names
import BoingNetwork.State.OpenValidators
import BoingNetwork.State.QaPool
import BoingNetwork.State.SampleMarket
import BoingNetwork.State.SlashAppeals

/-!
# Contents of the state store

Accounts, contract code and storage, pending deploys and the singleton registries.  All
of it is read and written slot by slot: an entry of one of the maps, or a registry.
-/

namespace BoingNetwork

open FiniteMap Std

/-- The registries that are committed as one leaf each. -/
inductive RegistryId where
  | openValidators
  | names
  | sampleOffers
  | sampleServe
  | slashAppeals
  | governance
  | qaPolicy
deriving DecidableEq

namespace RegistryId

abbrev Carrier : RegistryId → Type
  | openValidators => OpenValidatorRegistry
  | names => NameRegistry
  | sampleOffers => SampleOfferRegistry
  | sampleServe => SampleServeChallengeRegistry
  | slashAppeals => SlashAppealRegistry
  | governance => GovernanceRegistry
  | qaPolicy => CommittedQaPolicy

/-- In the order of their leaves. -/
def all : List RegistryId :=
  [openValidators, names, sampleOffers, sampleServe, slashAppeals, governance, qaPolicy]

theorem mem_all (id : RegistryId) : id ∈ all := by
  cases id <;> decide

def domain : RegistryId → Bytes
  | openValidators => OpenValidatorRegistry.DOMAIN
  | names => NameRegistry.DOMAIN
  | sampleOffers => SampleOfferRegistry.DOMAIN
  | sampleServe => SampleServeChallengeRegistry.DOMAIN
  | slashAppeals => SlashAppealRegistry.DOMAIN
  | governance => GovernanceRegistry.DOMAIN
  | qaPolicy => CommittedQaPolicy.DOMAIN

def serialize : (id : RegistryId) → id.Carrier → Bytes
  | openValidators => OpenValidatorRegistry.serialize
  | names => NameRegistry.serialize
  | sampleOffers => SampleOfferRegistry.serialize
  | sampleServe => SampleServeChallengeRegistry.serialize
  | slashAppeals => SlashAppealRegistry.serialize
  | governance => GovernanceRegistry.serialize
  | qaPolicy => CommittedQaPolicy.serialize

def isEmpty : (id : RegistryId) → id.Carrier → Bool
  | openValidators => OpenValidatorRegistry.isEmpty
  | names => NameRegistry.isEmpty
  | sampleOffers => SampleOfferRegistry.isEmpty
  | sampleServe => SampleServeChallengeRegistry.isEmpty
  | slashAppeals => SlashAppealRegistry.isEmpty
  | governance => GovernanceRegistry.isEmpty
  | qaPolicy => CommittedQaPolicy.isEmpty

variable [Crypto]

def smtKey (id : RegistryId) : BitVec 256 := Crypto.blake3 id.domain

def commitment (id : RegistryId) (registry : id.Carrier) : Hash :=
  Crypto.blake3 (id.domain ++ id.serialize registry)

end RegistryId

structure Contents where
  accounts : ExtTreeMap AccountId AccountState := ∅
  contractCode : ExtTreeMap AccountId Bytes := ∅
  contractStorage : ExtTreeMap (AccountId × BitVec 256) (BitVec 256) := ∅
  qaPending : ExtTreeMap Hash QaPendingRecord := ∅
  openValidators : OpenValidatorRegistry := {}
  names : NameRegistry := {}
  sampleOffers : SampleOfferRegistry := {}
  sampleServe : SampleServeChallengeRegistry := {}
  slashAppeals : SlashAppealRegistry := {}
  governance : GovernanceRegistry := {}
  qaPolicy : CommittedQaPolicy := {}
deriving DecidableEq

/-- The places that a write of the store changes. -/
inductive Slot where
  | account (id : AccountId)
  | code (id : AccountId)
  | storage (contract : AccountId) (key : BitVec 256)
  | qaPending (subject : Hash)
  | registry (id : RegistryId)
deriving DecidableEq

/-- An entry of a map may be absent. -/
abbrev Slot.Value : Slot → Type
  | .account _ => Option AccountState
  | .code _ => Option Bytes
  | .storage _ _ => Option (BitVec 256)
  | .qaPending _ => Option QaPendingRecord
  | .registry id => id.Carrier

namespace Contents

def registry (contents : Contents) : (id : RegistryId) → id.Carrier
  | .openValidators => contents.openValidators
  | .names => contents.names
  | .sampleOffers => contents.sampleOffers
  | .sampleServe => contents.sampleServe
  | .slashAppeals => contents.slashAppeals
  | .governance => contents.governance
  | .qaPolicy => contents.qaPolicy

def setRegistry (contents : Contents) : (id : RegistryId) → id.Carrier → Contents
  | .openValidators, registry => { contents with openValidators := registry }
  | .names, registry => { contents with names := registry }
  | .sampleOffers, registry => { contents with sampleOffers := registry }
  | .sampleServe, registry => { contents with sampleServe := registry }
  | .slashAppeals, registry => { contents with slashAppeals := registry }
  | .governance, registry => { contents with governance := registry }
  | .qaPolicy, registry => { contents with qaPolicy := registry }

def read (contents : Contents) : (slot : Slot) → slot.Value
  | .account id => contents.accounts[id]?
  | .code id => contents.contractCode[id]?
  | .storage contract key => contents.contractStorage[(contract, key)]?
  | .qaPending subject => contents.qaPending[subject]?
  | .registry id => contents.registry id

def write (contents : Contents) : (slot : Slot) → slot.Value → Contents
  | .account id, value => { contents with accounts := put contents.accounts id value }
  | .code id, value =>
    { contents with contractCode := put contents.contractCode id value }
  | .storage contract key, value =>
    { contents with
      contractStorage := put contents.contractStorage (contract, key) value }
  | .qaPending subject, value =>
    { contents with qaPending := put contents.qaPending subject value }
  | .registry id, value => contents.setRegistry id value

section

variable (contents : Contents) (slot : Slot)

theorem write_read : contents.write slot (contents.read slot) = contents := by
  cases slot with
  | registry id => cases id <;> rfl
  | _ => simp only [write, read, put_getElem?]

theorem write_write (first second : slot.Value) :
    (contents.write slot first).write slot second = contents.write slot second := by
  cases slot with
  | registry id => cases id <;> rfl
  | _ => simp only [write, put_put]

theorem setRegistry_comm {id other : RegistryId} (differ : id ≠ other) (first : id.Carrier)
    (second : other.Carrier) : (contents.setRegistry id first).setRegistry other second =
      (contents.setRegistry other second).setRegistry id first := by
  cases id <;> cases other <;> first | rfl | exact absurd rfl differ

theorem write_comm (other : Slot) (first : slot.Value) (second : other.Value)
    (differ : slot ≠ other) : (contents.write slot first).write other second =
      (contents.write other second).write slot first := by
  cases slot with
  | registry id =>
    cases other with
    | registry otherId => exact setRegistry_comm contents (differ <| congrArg Slot.registry ·) _ _
    | _ => cases id <;> rfl
  | account id =>
    cases other with
    | account otherId =>
      simp only [write]
      rw [put_comm _ (differ <| congrArg Slot.account ·)]
    | registry otherId => cases otherId <;> rfl
    | _ => rfl
  | code id =>
    cases other with
    | code otherId =>
      simp only [write]
      rw [put_comm _ (differ <| congrArg Slot.code ·)]
    | registry otherId => cases otherId <;> rfl
    | _ => rfl
  | storage contract key =>
    cases other with
    | storage otherContract otherKey =>
      have apart : (contract, key) ≠ (otherContract, otherKey) := by
        intro same
        obtain ⟨rfl, rfl⟩ := Prod.mk.inj same
        exact differ rfl
      simp only [write]
      rw [put_comm _ apart]
    | registry otherId => cases otherId <;> rfl
    | _ => rfl
  | qaPending subject =>
    cases other with
    | qaPending otherSubject =>
      simp only [write]
      rw [put_comm _ (differ <| congrArg Slot.qaPending ·)]
    | registry otherId => cases otherId <;> rfl
    | _ => rfl

theorem read_write_of_ne {slot other : Slot} (differ : slot ≠ other) (value : slot.Value) :
    (contents.write slot value).read other = contents.read other := by
  cases slot with
  | registry id =>
    cases other with
    | registry otherId =>
      cases id <;> cases otherId <;> first | rfl | exact absurd rfl differ
    | _ => cases id <;> rfl
  | account id =>
    cases other with
    | account otherId => simp_all [write, read]
    | _ => rfl
  | code id =>
    cases other with
    | code otherId => simp_all [write, read]
    | _ => rfl
  | storage contract key =>
    cases other with
    | storage otherContract otherKey => simp_all [write, read]
    | _ => rfl
  | qaPending subject =>
    cases other with
    | qaPending otherSubject => simp_all [write, read]
    | _ => rfl

end

theorem foldl_write_qaPending (subjects : List Hash)
    (value : Hash → Option QaPendingRecord) (contents : Contents) :
    subjects.foldl (fun contents subject => contents.write (.qaPending subject) (value subject))
        contents =
      { contents with
        qaPending := subjects.foldl (fun map subject => put map subject (value subject))
          contents.qaPending } := by
  induction subjects generalizing contents with
  | nil => rfl
  | cons subject rest ih => exact ih _

/-- The contents with the pending deploys replaced are reached by writing the slots of
the subjects that change. -/
theorem replaceQaPending_eq_foldl_write (contents : Contents)
    (pending : ExtTreeMap Hash QaPendingRecord) {subjects : List Hash}
    (covered : ∀ subject, subject ∉ subjects → contents.qaPending[subject]? = pending[subject]?) :
    { contents with qaPending := pending } =
      (subjects.map Slot.qaPending).foldl (fun current slot =>
        current.write slot (read { contents with qaPending := pending } slot)) contents := by
  rw [List.foldl_map]
  change _ = subjects.foldl (fun current subject =>
    current.write (.qaPending subject) pending[subject]?) contents
  rw [foldl_write_qaPending]
  congr 1
  apply ExtTreeMap.ext_getElem?
  intro subject
  rw [getElem?_foldl_put]
  split
  next => rfl
  next outside => exact (covered subject outside).symm

def slots : UndoLog.Slots Contents Slot Slot.Value where
  read := read
  write := write
  write_read := write_read
  write_write := write_write
  write_comm := write_comm

end Contents

end BoingNetwork
