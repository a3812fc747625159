import BoingNetwork.Primitives.Checksum
import BoingNetwork.State.RootCaches
import BoingNetwork.State.Session

/-!
# The incremental state root

Every operation of the store keeps the caches in sync with the contents, over runs of
writes, checkpoints, reverts and roots.  So the incremental root is the root of the full
rebuild in every run that keeps the keys of the leaves apart; an account under the key of
a registry breaks it.
-/

namespace BoingNetwork

open Std

variable [Crypto] {Invariant : StateStore → Prop} {store : StateStore} {session : Session}

/-- Whether a slot holds something; a registry always does. -/
def Slot.holds : (slot : Slot) → slot.Value → Bool
  | .account _, value => value.isSome
  | .code _, value => value.isSome
  | .storage _ _, value => value.isSome
  | .qaPending _, value => value.isSome
  | .registry _, _ => true

/-- The owners of the leaves that a write may add. -/
def StoreWrite.owners : StoreWrite → List LeafOwner
  | .insert id _ => [.account id]
  | .setContractCode account _ => [.account account]
  | .mergeContractStorage contract _ _ => [.account contract]
  | .insertQaPending subject _ => [.qaPending subject]
  | .loadQaPending items => items.map fun item => .qaPending item.1
  | .getMut _ _ | .qaPendingMut _ _ | .removeQaPending _ | .registryMut _ _ | .redenominate _ => []

def StoreOp.owners : StoreOp → List LeafOwner
  | .write change => change.owners
  | _ => []

namespace StateStore

/-- What marked writes and changes of the journal keep, as long as everything that is stored
or may be restored belongs to one of the owners. -/
structure Maintained (Invariant : StateStore → Prop) (owners : Set LeafOwner) : Prop where
  owned : ∀ {store : StateStore}, Invariant store → ∀ slot : Slot,
    slot.holds (store.read slot) → slot.owner ∈ owners
  journal : ∀ {store : StateStore}, Invariant store → ∀ entry ∈ store.journal,
    entry.1.owner ∈ owners
  markAssign : ∀ {store : StateStore}, Invariant store → ∀ {slot : Slot}, slot.owner ∈ owners →
    ∀ value : slot.Value, Invariant ((store.mark slot).assign slot value)
  withJournal : ∀ {store : StateStore}, Invariant store → ∀ {journal : List (Sigma Slot.Value)},
    (∀ entry ∈ journal, entry.1.owner ∈ owners) → ∀ handles lastCpPos snapPos,
    Invariant { store with
      journal := journal, handles := handles, lastCpPos := lastCpPos, snapPos := snapPos }

variable {owners : Set LeafOwner}

namespace Maintained

variable (maintained : Maintained Invariant owners) (holds : Invariant store) {slot : Slot}

include maintained holds

theorem put (isOwner : slot.owner ∈ owners) (value : slot.Value) :
    Invariant (store.put slot value) := by
  have written := maintained.markAssign holds isOwner value
  rw [StateStore.put]
  by_cases alive : 0 < store.handles
  · rw [record_of_alive alive]
    refine maintained.withJournal written ?_ _ _ _
    exact List.forall_mem_cons.mpr ⟨isOwner, maintained.journal holds⟩
  · rw [record_of_idle alive]
    exact maintained.withJournal written (List.forall_mem_nil _) _ _ _

theorem record (isOwner : slot.owner ∈ owners) : Invariant (store.record slot) := by
  have written := maintained.put holds isOwner (store.read slot)
  rw [StateStore.put, assign, record_toContents, Contents.write_read] at written
  rwa [← record_toContents store slot] at written

theorem getMut (id : AccountId) (update : AccountState → AccountState) :
    Invariant (store.getMut id update) := by
  unfold StateStore.getMut
  split
  next found =>
    apply maintained.put holds
    apply maintained.owned holds (.account id)
    exact Option.isSome_of_eq_some found
  next => exact holds

theorem registryMut (id : RegistryId) (update : id.Carrier → id.Carrier) :
    Invariant (store.registryMut id update) := by
  have isOwner : (Slot.registry id).owner ∈ owners := maintained.owned holds (.registry id) rfl
  have written := maintained.markAssign holds isOwner (update (store.registry id))
  rw [StateStore.registryMut]
  by_cases alive : 0 < store.handles
  · rw [recordRegistry_of_alive alive]
    split
    · refine maintained.withJournal written ?_ _ _ _
      exact List.forall_mem_cons.mpr ⟨isOwner, maintained.journal holds⟩
    · exact written
  · rw [recordRegistry_of_idle alive]
    exact maintained.withJournal written (List.forall_mem_nil _) _ _ _

omit maintained in
theorem foldl {Item : Type} {step : StateStore → Item → StateStore} {items : List Item}
    (kept : ∀ store, Invariant store → ∀ item ∈ items, Invariant (step store item)) :
    Invariant (items.foldl step store) := by
  induction items generalizing store with
  | nil => exact holds
  | cons item rest ih =>
    apply ih
    · exact kept store holds item List.mem_cons_self
    · exact fun store holds other inRest => kept store holds other (List.mem_cons_of_mem _ inRest)

theorem revert (cp : StateCheckpoint) : Invariant (store.revert cp) := by
  have undone : Invariant ((UndoLog.since store.journal cp.pos).foldl undoEntry store) := by
    refine foldl holds fun _ undoing entry above => ?_
    have isOwner := maintained.journal holds entry (List.mem_of_mem_take above)
    exact maintained.markAssign undoing isOwner entry.2
  refine maintained.withJournal undone ?_ _ _ _
  exact fun entry kept => maintained.journal holds entry (List.mem_of_mem_drop kept)

theorem redenominate (factor : ℕ) : Invariant (store.redenominate factor) := by
  have scaled : Invariant (store.redenominateAccounts factor) :=
    foldl holds fun _ holds id _ => maintained.getMut holds id _
  rw [StateStore.redenominate]
  split
  · exact maintained.registryMut scaled ..
  · exact scaled

end Maintained

/-- What every operation of a store keeps. -/
structure Lasting (Invariant : StateStore → Prop) (owners : Set LeafOwner) : Prop
    extends Maintained Invariant owners where
  loadQaPending : ∀ {store : StateStore}, Invariant store →
    ∀ {items : List (Hash × QaPendingRecord)}, (∀ item ∈ items, .qaPending item.1 ∈ owners) →
      Invariant (store.loadQaPending items)
  withActivations : ∀ {store : StateStore}, Invariant store → ∀ storage account,
    Invariant { store with storageTreeV2From := storage, accountTreeV3From := account }
  atHeight : ∀ {store : StateStore}, Invariant store → ∀ height, Invariant (store.atHeight height)
  stateRoot : ∀ {store : StateStore}, Invariant store → Invariant store.stateRoot.2

theorem Lasting.applyWrite (lasting : Lasting Invariant owners) (holds : Invariant store)
    (write : StoreWrite) (areOwners : ∀ owner ∈ write.owners, owner ∈ owners) :
    Invariant (store.applyWrite write) := by
  cases write with
  | insert | setContractCode | mergeContractStorage | insertQaPending =>
    exact lasting.toMaintained.put holds (areOwners _ List.mem_cons_self) _
  | getMut id update => exact lasting.toMaintained.getMut holds id update
  | qaPendingMut subject | removeQaPending subject =>
    simp only [StateStore.applyWrite, StateStore.qaPendingMut, StateStore.removeQaPending]
    split
    next found =>
      apply lasting.toMaintained.put holds
      exact lasting.owned holds (.qaPending subject) (Option.isSome_of_eq_some found)
    next => exact holds
  | loadQaPending items =>
    apply lasting.loadQaPending holds
    intro item isItem
    exact areOwners _ (List.mem_map_of_mem isItem)
  | registryMut id update => exact lasting.toMaintained.registryMut holds id update
  | redenominate factor => exact lasting.toMaintained.redenominate holds factor

/-- The caches are in sync if they claim to be, and everything that is stored or may be
restored belongs to one of the owners. -/
structure Tracked (store : StateStore) (owners : Set LeafOwner) : Prop where
  owned : ∀ slot : Slot, slot.holds (store.read slot) → slot.owner ∈ owners
  synced : store.rootSynced → store.Synced owners
  journal : ∀ entry ∈ store.journal, entry.1.owner ∈ owners

theorem Tracked.covers (tracked : store.Tracked owners) : store.Covers owners := by
  intro owner hasLeaf
  cases owner with
  | account id =>
    have committed := (store.mem_committedIds id).mpr hasLeaf
    simp only [committedIds, List.mem_dedup, List.mem_append, ExtTreeMap.mem_keys,
      ExtTreeMap.mem_iff_isSome_getElem?] at committed
    rcases committed with (account | code) | tree
    · exact tracked.owned (.account id) account
    · exact tracked.owned (.code id) code
    · obtain ⟨key, isSlot⟩ := (store.buildStorageTrees_mirrors.1.isSome_iff id).mp tree
      rw [slotLeaf_buildStorageTrees, slotEntry, Option.isSome_map] at isSlot
      exact tracked.owned (.storage id key) isSlot
  | qaPending subject =>
    apply tracked.owned (.qaPending subject)
    rw [leafEntry, ← Option.isSome_iff_ne_none, Option.isSome_map] at hasLeaf
    exact hasLeaf
  | registry id => exact tracked.owned (.registry id) rfl

theorem dirty_mark (isSynced : store.rootSynced) (slot : Slot) (owner : LeafOwner) :
    (store.mark slot).Dirty owner ↔ slot.owner = owner ∨ store.Dirty owner := by
  cases slot <;> cases owner <;>
    simp [mark, markAccount, markSlot, markQa, isSynced, Dirty, Slot.owner]

theorem mem_dirtySlots_mark (isSynced : store.rootSynced) (slot : Slot)
    (place : AccountId × BitVec 256) : place ∈ (store.mark slot).dirtySlots ↔
      slot = .storage place.1 place.2 ∨ place ∈ store.dirtySlots := by
  cases slot <;> simp [mark, markAccount, markSlot, markQa, isSynced, Prod.ext_iff]

@[simp]
theorem mark_rootSynced (store : StateStore) (slot : Slot) :
    (store.mark slot).rootSynced = store.rootSynced := by
  obtain ⟨_, _, _, marked⟩ := store.mark_eq slot
  rw [marked]

theorem read_markAssign {slot other : Slot} (value : slot.Value) (differ : other ≠ slot) :
    ((store.mark slot).assign slot value).read other = store.read other := by
  rw [assign, mark_toContents]
  exact Contents.read_write_of_ne _ differ.symm value

theorem slots_markAssign (isSynced : store.rootSynced)
    (slots : store.MirrorsSlots (· ∈ store.dirtySlots) store.storageTrees) {slot : Slot}
    (value : slot.Value) :
    ((store.mark slot).assign slot value).MirrorsSlots (· ∈ (store.mark slot).dirtySlots)
      (store.mark slot).storageTrees := by
  obtain ⟨accounts, dirty, qa, marked⟩ := store.mark_eq slot
  have trees : (store.mark slot).storageTrees = store.storageTrees := by rw [marked]
  rw [trees]
  apply slots.change
  intro place _ notDirty
  rw [mem_dirtySlots_mark isSynced, not_or] at notDirty
  refine ⟨notDirty.2, congrArg (Option.map _) ?_⟩
  exact read_markAssign value (Ne.symm notDirty.1)

/-- A marked slot may be written. -/
theorem Tracked.markAssign (tracked : store.Tracked owners) {slot : Slot}
    (isOwner : slot.owner ∈ owners) (value : slot.Value) :
    ((store.mark slot).assign slot value).Tracked owners := by
  obtain ⟨accounts, slots, qa, marked⟩ := store.mark_eq slot
  constructor
  case owned =>
    intro other holds
    by_cases same : other = slot
    · rwa [same]
    · rw [read_markAssign value same] at holds
      exact tracked.owned other holds
  case synced =>
    intro isSynced
    have wasSynced : store.rootSynced := (store.mark_rootSynced slot).symm.trans isSynced
    have synced := tracked.synced wasSynced
    have dirty := dirty_mark wasSynced slot
    have dirtySlots := mem_dirtySlots_mark wasSynced slot
    constructor
    case depth =>
      rw [marked]
      exact synced.depth
    case wellFormed =>
      rw [marked]
      exact synced.wellFormed
    case slots => exact slots_markAssign wasSynced synced.slots value
    case leaves =>
      have tree : (store.mark slot).tree = store.tree := by rw [marked]
      change Mirrors _ _ _ (store.mark slot).Dirty fun key => (store.mark slot).tree.leaves[key]?
      rw [tree]
      apply synced.leaves.change
      intro owner _ notDirty
      rw [dirty, not_or] at notDirty
      refine ⟨notDirty.2, leafEntry_congr (by rw [marked]; rfl) ?_⟩
      intro other ownsOther
      apply read_markAssign
      rintro rfl
      exact notDirty.1 ownsOther
    case marked =>
      intro place isDirty
      apply (dirty (.account place.1)).mpr
      rcases (dirtySlots place).mp isDirty with rfl | wasDirty
      · exact .inl rfl
      · exact .inr (synced.marked place wasDirty)
    case owned =>
      intro owner isDirty
      rcases (dirty owner).mp isDirty with rfl | wasDirty
      · exact isOwner
      · exact synced.owned owner wasDirty
  case journal =>
    rw [marked]
    exact tracked.journal

/-- Only the contents, the caches and the journal matter. -/
theorem Tracked.withJournal (tracked : store.Tracked owners) {journal : List (Sigma Slot.Value)}
    (isOwned : ∀ entry ∈ journal, entry.1.owner ∈ owners) (handles lastCpPos : ℕ)
    (snapPos : RegistryId → Option ℕ) : Tracked { store with
      journal := journal, handles := handles, lastCpPos := lastCpPos, snapPos := snapPos }
      owners where
  owned := tracked.owned
  synced isSynced :=
    let synced := tracked.synced isSynced
    { depth := synced.depth
      wellFormed := synced.wellFormed
      slots := synced.slots
      leaves := synced.leaves
      marked := synced.marked
      owned := synced.owned }
  journal := isOwned

theorem Tracked.withActivations (tracked : store.Tracked owners) (storage account : Option ℕ) :
    Tracked { store with storageTreeV2From := storage, accountTreeV3From := account } owners where
  owned := tracked.owned
  synced isSynced :=
    let synced := tracked.synced isSynced
    { depth := synced.depth
      wellFormed := synced.wellFormed
      slots := synced.slots
      leaves := synced.leaves
      marked := synced.marked
      owned := synced.owned }
  journal := tracked.journal

theorem tracked_maintained (owners : Set LeafOwner) : Maintained (Tracked · owners) owners where
  owned := Tracked.owned
  journal := Tracked.journal
  markAssign := Tracked.markAssign
  withJournal := Tracked.withJournal

theorem Tracked.loadQaPending (tracked : store.Tracked owners)
    {items : List (Hash × QaPendingRecord)}
    (areOwners : ∀ item ∈ items, .qaPending item.1 ∈ owners) :
    (store.loadQaPending items).Tracked owners := by
  constructor
  case owned =>
    intro slot holds
    rw [loadQaPending_toContents] at holds
    cases slot with
    | qaPending subject =>
      have isSome : (ExtTreeMap.ofList items)[subject]?.isSome := holds
      obtain ⟨item, isItem, rfl⟩ : ∃ item ∈ items, item.1 = subject := by
        simpa using isSome
      exact areOwners item isItem
    | account id => exact tracked.owned (.account id) holds
    | code id => exact tracked.owned (.code id) holds
    | storage contract key => exact tracked.owned (.storage contract key) holds
    | registry id => exact tracked.owned (.registry id) rfl
  case synced =>
    intro isSynced
    exact absurd isSynced Bool.false_ne_true
  case journal =>
    by_cases alive : 0 < store.handles
    · have recorded : ((loadedSlots store items).foldl StateStore.record store).Tracked owners := by
        refine @Maintained.foldl _ (Tracked · owners) _ tracked _ _ _
          fun _ recording slot isLoaded => ?_
        apply (tracked_maintained owners).record recording
        obtain ⟨subject, isSubject, rfl⟩ := List.mem_map.mp isLoaded
        rcases List.mem_append.mp isSubject with isOld | isNew
        · apply tracked.owned (.qaPending subject)
          rw [ExtTreeMap.mem_keys, ExtTreeMap.mem_iff_isSome_getElem?] at isOld
          exact isOld
        · obtain ⟨item, isItem, rfl⟩ := List.mem_map.mp isNew
          exact areOwners item isItem
      rw [loadQaPending_of_alive alive]
      exact recorded.journal
    · rw [loadQaPending_of_idle alive]
      exact List.forall_mem_nil _

/-- Computing the root brings the caches in sync. -/
theorem Tracked.stateRoot (tracked : store.Tracked owners)
    (apart : Set.InjOn LeafOwner.key owners) : store.stateRoot.2.Tracked owners := by
  have registries (id : RegistryId) : .registry id ∈ owners := tracked.owned (.registry id) rfl
  obtain ⟨refreshing, leaves⟩ :
      store.Refreshing (if store.rootSynced then store.refresh else store.buildFull) ∧
        store.MirrorsLeaves owners (fun _ => False)
          (if store.rootSynced then store.refresh else store.buildFull).1 := by
    split
    next isSynced => exact (tracked.synced isSynced).refresh apart
    next => exact tracked.covers.buildFull apart
  exact {
    owned := tracked.owned
    synced := fun _ => {
      depth := refreshing.depth
      wellFormed := refreshing.wellFormed
      slots := refreshing.slots.weaken fun _ _ isFalse => isFalse.elim
      leaves := leaves.weaken fun _ _ isFalse => isFalse.elim
      marked := by
        intro place isDirty
        exact absurd isDirty ExtTreeSet.not_mem_empty
      owned := by
        intro owner isDirty
        cases owner with
        | account id => exact absurd isDirty ExtTreeSet.not_mem_empty
        | qaPending subject => exact absurd isDirty ExtTreeSet.not_mem_empty
        | registry id => exact registries id }
    journal := tracked.journal }

/-- A change of the routing depth makes the next root a full one. -/
theorem atHeight_eq_self {height : ℕ} (isSynced : (store.atHeight height).rootSynced) :
    store.atHeight height = store := by
  have unchanged : (store.rootSynced ∧
      store.storageTreeV2From.any (· ≤ height) = store.storageTreeDeep) ∧
      store.accountTreeV3From.any (· ≤ height) = store.accountTreeDeep := by
    simpa [StateStore.atHeight] using isSynced
  rw [StateStore.atHeight, unchanged.1.2, unchanged.2]
  simp

theorem Tracked.atHeight (tracked : store.Tracked owners) (height : ℕ) :
    (store.atHeight height).Tracked owners where
  owned := tracked.owned
  synced isSynced := by
    have same := atHeight_eq_self isSynced
    rw [same] at isSynced ⊢
    exact tracked.synced isSynced
  journal := tracked.journal

theorem tracked_lasting (apart : Set.InjOn LeafOwner.key owners) :
    Lasting (Tracked · owners) owners where
  toMaintained := tracked_maintained owners
  loadQaPending := Tracked.loadQaPending
  withActivations := Tracked.withActivations
  atHeight := Tracked.atHeight
  stateRoot tracked := tracked.stateRoot apart

end StateStore

/-- The owners of all leaves that a run may write. -/
def touchedOwners (ops : List StoreOp) : List LeafOwner :=
  RegistryId.all.map LeafOwner.registry ++ ops.flatMap StoreOp.owners

def LeafKeysApart (ops : List StoreOp) : Prop :=
  ∀ first ∈ touchedOwners ops, ∀ second ∈ touchedOwners ops, first.key = second.key → first = second

instance (ops : List StoreOp) : Decidable (LeafKeysApart ops) :=
  inferInstanceAs (Decidable (∀ first ∈ _, ∀ second ∈ _, _ → _))

theorem LeafKeysApart.injOn {ops : List StoreOp} (apart : LeafKeysApart ops) :
    Set.InjOn LeafOwner.key {owner | owner ∈ touchedOwners ops} :=
  fun first isFirst second isSecond => apart first isFirst second isSecond

theorem StateStore.tracked_empty {owners : Set LeafOwner}
    (registries : ∀ id, .registry id ∈ owners) : Tracked {} owners where
  owned slot holds := by
    cases slot with
    | registry id => exact registries id
    | _ => simp [Slot.holds, Contents.read] at holds
  synced isSynced := absurd isSynced Bool.false_ne_true
  journal := List.forall_mem_nil _

namespace Session

variable {owners : Set LeafOwner}

theorem step_lasting (lasting : StateStore.Lasting Invariant owners)
    (holds : Invariant session.store) (op : StoreOp)
    (areOwners : ∀ owner ∈ op.owners, owner ∈ owners) : Invariant (session.step op).store := by
  have kept (handles lastCpPos : ℕ) : Invariant
      { session.store with handles := handles, lastCpPos := lastCpPos } :=
    lasting.withJournal holds (lasting.journal holds) handles lastCpPos session.store.snapPos
  cases op with
  | write write => exact lasting.applyWrite holds write areOwners
  | checkpoint =>
    change Invariant session.store.checkpoint.2
    rw [StateStore.checkpoint, StateStore.journaling]
    split
    · exact kept ..
    · exact lasting.withJournal holds (List.forall_mem_nil _) _ _ _
  | cloneCheckpoint index | drop index | dropStale =>
    rw [step]
    split
    · exact kept ..
    · exact holds
  | revert index =>
    rw [step]
    split
    · exact lasting.toMaintained.revert holds _
    · exact holds
  | snapshot => exact lasting.withJournal holds (List.forall_mem_nil _) _ _ _
  | stateRoot => exact lasting.stateRoot holds
  | stateRootAtHeight height => exact lasting.stateRoot (lasting.atHeight holds height)
  | setStorageTreeV2Activation activation => exact lasting.withActivations holds activation _
  | setAccountTreeV3Activation activation => exact lasting.withActivations holds _ activation

theorem step_tracked (tracked : session.store.Tracked owners)
    (apart : Set.InjOn LeafOwner.key owners) (op : StoreOp)
    (areOwners : ∀ owner ∈ op.owners, owner ∈ owners) : (session.step op).store.Tracked owners := by
  exact step_lasting (StateStore.tracked_lasting apart) tracked op areOwners

theorem run_tracked {ops : List StoreOp} (apart : LeafKeysApart ops) :
    (Run.run step (start {}) ops).store.Tracked {owner | owner ∈ touchedOwners ops} := by
  have registries (id : RegistryId) : .registry id ∈ {owner | owner ∈ touchedOwners ops} :=
    List.mem_append_left _ (List.mem_map_of_mem id.mem_all)
  have preserved : ∀ (session : Session) (op : StoreOp),
      session.store.Tracked {owner | owner ∈ touchedOwners ops} →
        (∀ owner ∈ op.owners, owner ∈ touchedOwners ops) →
          (session.step op).store.Tracked {owner | owner ∈ touchedOwners ops} :=
    fun _ op tracked areOwners => step_tracked tracked apart.injOn op areOwners
  apply Run.invariant preserved
  · exact (StateStore.tracked_empty registries).withJournal (List.forall_mem_nil _) _ _ _
  · apply Run.allowed_of_forall
    intro op isOp _ owner isOwner
    exact List.mem_append_right _ (List.mem_flatMap.mpr ⟨op, isOp, isOwner⟩)

/-- In every run that keeps the keys of accounts, pending deploys and registries apart,
the incremental root is the root of the full rebuild, at every height. -/
theorem stateRoot_eq_fullRebuild_of_apart (ops : List StoreOp) (apart : LeafKeysApart ops) :
    (Run.run step (start {}) ops).store.stateRoot.1 =
        (Run.run step (start {}) ops).store.stateRootFullRebuild ∧
      ∀ height, ((Run.run step (start {}) ops).store.stateRootAtHeight height).1 =
        ((Run.run step (start {}) ops).store.atHeight height).stateRootFullRebuild := by
  have tracked := run_tracked apart
  refine ⟨tracked.covers.stateRoot_eq tracked.synced apart.injOn, ?_⟩
  intro height
  have switched := tracked.atHeight height
  exact switched.covers.stateRoot_eq switched.synced apart.injOn

end Session

end BoingNetwork

namespace BoingNetwork.Session

open Checksum

/-- An account is inserted at the key of the empty governance registry: the second root
deletes its leaf together with the registry's. -/
theorem stateRoot_ne_fullRebuild_of_reservedId :
    let ops : List StoreOp :=
      [.write (.insert RegistryId.governance.smtKey .default), .stateRoot]
    (Run.run step (start {}) ops).store.stateRoot.1 ≠
      (Run.run step (start {}) ops).store.stateRootFullRebuild := by
  decide +kernel

theorem stateRoot_eq_fullRebuild_after_revert :
    let ops : List StoreOp :=
      [.write (.insert 5 .default), .write (.mergeContractStorage 7 1 2), .stateRoot,
        .checkpoint, .write (.insert 6 .default), .stateRoot, .revert 0]
    LeafKeysApart ops ∧ (Run.run step (start {}) ops).store.stateRoot.1 =
        (Run.run step (start {}) ops).store.stateRootFullRebuild :=
  ⟨by decide +kernel, (stateRoot_eq_fullRebuild_of_apart _ (by decide +kernel)).1⟩

end BoingNetwork.Session
