import BoingNetwork.Node.Persistence
import BoingNetwork.State.RootRefinement

/-!
# Persistence bundle

The bundle carries accounts, code, storage, pending deploys, the open validators and the
names.  The five younger registries and the routing depths are not in it: a rebuilt store
starts without those registries and in the legacy layout.
-/

namespace BoingNetwork

structure PersistenceBundle extends PersistedState where
  qaPending : List (Hash × QaPendingRecord)
  openValidators : OpenValidatorRegistry
  names : NameRegistry

def RegistryId.IsBundled : RegistryId → Prop
  | .openValidators | .names => True
  | .sampleOffers | .sampleServe | .slashAppeals | .governance | .qaPolicy => False

def Contents.bundled (contents : Contents) : Contents where
  accounts := contents.accounts
  contractCode := contents.contractCode
  contractStorage := contents.contractStorage
  qaPending := contents.qaPending
  openValidators := contents.openValidators
  names := contents.names

theorem Contents.bundled_eq_self_iff (contents : Contents) : contents.bundled = contents ↔
      ∀ id : RegistryId, ¬ id.IsBundled → contents.registry id = registry {} id := by
  constructor
  · intro same id notBundled
    rw [← same]
    cases id <;> first | rfl | exact absurd trivial notBundled
  · intro default
    obtain ⟨accounts, contractCode, contractStorage, qaPending, openValidators, names,
      sampleOffers, sampleServe, slashAppeals, governance, qaPolicy⟩ := contents
    obtain rfl : sampleOffers = {} := default .sampleOffers id
    obtain rfl : sampleServe = {} := default .sampleServe id
    obtain rfl : slashAppeals = {} := default .slashAppeals id
    obtain rfl : governance = {} := default .governance id
    obtain rfl : qaPolicy = {} := default .qaPolicy id
    rfl

variable [Crypto]

namespace StateStore

def exportPersistenceBundle (store : StateStore) : PersistenceBundle where
  toPersistedState := .ofContents store.toContents
  qaPending := store.qaPending.toList
  openValidators := store.openValidators
  names := store.names

def loadPersistenceBundle (bundle : PersistenceBundle) : StateStore :=
  let store := loadFromPersistence bundle.toPersistedState
  let store := store.loadQaPending bundle.qaPending
  let store := store.openValidatorsMut fun _ => bundle.openValidators
  store.namesMut fun _ => bundle.names

/-- Everything else is as in a new store. -/
theorem loadPersistenceBundle_export (store : StateStore) :
    loadPersistenceBundle store.exportPersistenceBundle = store.toContents.bundled.load := by
  unfold loadPersistenceBundle
  rw [loadFromPersistence_eq]
  simp only [exportPersistenceBundle, PersistedState.ofContents,
    FiniteMap.ofList_of_perm (List.Perm.refl _)]
  change Contents.load { store.toContents.bundled with
    qaPending := Std.ExtTreeMap.ofList store.qaPending.toList } = _
  rw [FiniteMap.ofList_of_perm (List.Perm.refl _)]
  rfl

/-- A loaded store has nothing to restore and no caches. -/
theorem Tracked.load {store : StateStore} {owners : Set LeafOwner}
    (tracked : store.Tracked owners) : store.toContents.load.Tracked owners where
  owned := tracked.owned
  synced isSynced := absurd isSynced Bool.false_ne_true
  journal := List.forall_mem_nil _

/-- In the legacy layout a new store with the contents has the root. -/
theorem Tracked.stateRoot_load {store : StateStore} {owners : Set LeafOwner}
    (tracked : store.Tracked owners) (injective : Set.InjOn LeafOwner.key owners)
    (storage : store.storageTreeDeep = false) (account : store.accountTreeDeep = false) :
    store.toContents.load.stateRoot.1 = store.stateRoot.1 := by
  rw [tracked.covers.stateRoot_eq tracked.synced injective,
    tracked.load.covers.stateRoot_eq tracked.load.synced injective]
  obtain ⟨contents, tree, trees, storageFrom, storageDeep, accountFrom, accountDeep⟩ := store
  obtain rfl : storageDeep = false := storage
  obtain rfl : accountDeep = false := account
  rfl

end StateStore

namespace Session

variable {ops : List StoreOp}

/-- The new store has the root, in every run that keeps the keys of the leaves apart. -/
theorem stateRoot_load_of_legacy (apart : LeafKeysApart ops)
    (storage : (Run.run step (start {}) ops).store.storageTreeDeep = false)
    (account : (Run.run step (start {}) ops).store.accountTreeDeep = false) :
    (Run.run step (start {}) ops).store.toContents.load.stateRoot.1 =
      (Run.run step (start {}) ops).store.stateRoot.1 :=
  (run_tracked apart).stateRoot_load apart.injOn storage account

/-- After such a run the rebuilt store has the root and the contents exactly if the registries
outside of the bundle are those of a new store. -/
theorem bundle_roundTrip_iff (apart : LeafKeysApart ops)
    (storage : (Run.run step (start {}) ops).store.storageTreeDeep = false)
    (account : (Run.run step (start {}) ops).store.accountTreeDeep = false) :
    let store := (Run.run step (start {}) ops).store
    let rebuilt := StateStore.loadPersistenceBundle store.exportPersistenceBundle
    (rebuilt.stateRoot.1 = store.stateRoot.1 ∧ rebuilt.toContents = store.toContents) ↔
      ∀ id : RegistryId, ¬ id.IsBundled → store.registry id = Contents.registry {} id := by
  intro store rebuilt
  have isRebuilt : rebuilt = store.toContents.bundled.load := store.loadPersistenceBundle_export
  rw [isRebuilt, ← Contents.bundled_eq_self_iff]
  refine ⟨And.right, fun contents => ?_⟩
  rw [contents]
  exact ⟨(run_tracked apart).stateRoot_load apart.injOn storage account, rfl⟩

end Session

end BoingNetwork

namespace BoingNetwork.StateStore

open Checksum

/-- A committed QA policy is lost, and with it its leaf. -/
theorem bundle_loses_qaPolicy :
    let store : StateStore := { qaPolicy := { registryJson := some [1] } }
    (loadPersistenceBundle store.exportPersistenceBundle).stateRoot.1 ≠ store.stateRoot.1 ∧
      (loadPersistenceBundle store.exportPersistenceBundle).toContents ≠ store.toContents := by
  decide +kernel

theorem stateRoot_load_after_insert :
    let ops : List StoreOp := [.write (.insert 5 .default), .stateRoot]
    (Run.run Session.step (Session.start {}) ops).store.toContents.load.stateRoot.1 =
      (Run.run Session.step (Session.start {}) ops).store.stateRoot.1 :=
  Session.stateRoot_load_of_legacy (by decide +kernel) rfl rfl

theorem bundle_roundTrip_after_insert :
    let store := (Run.run Session.step (Session.start {})
      [.write (.insert 5 .default), .stateRoot]).store
    let rebuilt := loadPersistenceBundle store.exportPersistenceBundle
    rebuilt.stateRoot.1 = store.stateRoot.1 ∧ rebuilt.toContents = store.toContents := by
  refine (Session.bundle_roundTrip_iff (by decide +kernel) rfl rfl).mpr fun id _ => ?_
  cases id <;> rfl

end BoingNetwork.StateStore
