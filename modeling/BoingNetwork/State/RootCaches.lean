import BoingNetwork.Library.Mirror
import BoingNetwork.State.StateRoot

/-!
# The caches of the state root

Accounts, pending deploys and registries own the leaves of the state tree.  While the
caches mirror the leaves of all owners that are not marked since the last root, and the
keys of the owners are apart, refreshing the marked ones gives the leaves of the full
build.
-/

namespace BoingNetwork

open Std

variable [Crypto] {store : StateStore} (contract : AccountId) (tree : SparseMerkleTree)
  {stale : AccountId × BitVec 256 → Prop} {trees : Trees}

/-! ## Storage trees -/

namespace StateStore

variable {depth : ℕ} {trees other : ExtTreeMap AccountId SparseMerkleTree}

def slotLeaf (trees : ExtTreeMap AccountId SparseMerkleTree) (slot : AccountId × BitVec 256) :
    Option Hash :=
  trees[slot.1]?.bind fun tree => tree.leaves[slot.2]?

def WellFormed (depth : ℕ) (trees : ExtTreeMap AccountId SparseMerkleTree) : Prop :=
  ∀ (contract : AccountId) (tree : SparseMerkleTree), trees[contract]? = some tree →
    tree.maxDepth = depth ∧ tree.isEmpty = false

theorem slotLeaf_insert (id : AccountId) (key : BitVec 256) :
    slotLeaf (trees.insert contract tree) (id, key) =
      if contract = id then tree.leaves[key]? else slotLeaf trees (id, key) := by
  unfold slotLeaf
  grind

theorem slotLeaf_erase (id : AccountId) (key : BitVec 256) :
    slotLeaf (trees.erase contract) (id, key) =
      if contract = id then none else slotLeaf trees (id, key) := by
  unfold slotLeaf
  grind

theorem wellFormed_empty : WellFormed depth ∅ := by
  intro contract tree found
  simp at found

section

variable (wellFormed : WellFormed depth trees)

include wellFormed

theorem WellFormed.insert {tree : SparseMerkleTree} (atDepth : tree.maxDepth = depth)
    (notEmpty : tree.isEmpty = false) : WellFormed depth (trees.insert contract tree) := by
  intro id found isFound
  rw [ExtTreeMap.getElem?_insert] at isFound
  split at isFound
  · cases isFound
    exact ⟨atDepth, notEmpty⟩
  · exact wellFormed id found isFound

theorem WellFormed.erase : WellFormed depth (trees.erase contract) := by
  intro id found isFound
  rw [ExtTreeMap.getElem?_erase] at isFound
  split at isFound
  · cases isFound
  · exact wellFormed id found isFound

theorem WellFormed.isSome_iff (id : AccountId) :
    trees[id]?.isSome ↔ ∃ key, (slotLeaf trees (id, key)).isSome := by
  cases found : trees[id]? with
  | none => simp [slotLeaf, found]
  | some tree =>
    have notEmpty : tree.leaves.isEmpty = false := (wellFormed id tree found).2
    obtain ⟨key, inLeaves⟩ : ∃ key, key ∈ tree.leaves := by
      by_contra none_
      refine ExtTreeMap.isEmpty_eq_false_iff.mp notEmpty (ExtTreeMap.ext_getElem? ?_)
      simpa using none_
    simp only [slotLeaf, found, Option.isSome_some, Option.bind_some, true_iff]
    exact ⟨key, by simpa using inLeaves⟩

theorem storageRoot_congr (otherWellFormed : WellFormed depth other) {id : AccountId}
    (same : ∀ key, slotLeaf trees (id, key) = slotLeaf other (id, key)) :
    (storageRoot trees id).1 = (storageRoot other id).1 := by
  have present : trees[id]?.isSome ↔ other[id]?.isSome := by
    simp only [wellFormed.isSome_iff, otherWellFormed.isSome_iff, same]
  unfold slotLeaf at same
  unfold storageRoot
  cases found : trees[id]? with
  | none =>
    cases otherFound : other[id]? with
    | none => rfl
    | some otherTree => simp [found, otherFound] at present
  | some tree =>
    cases otherFound : other[id]? with
    | none => simp [found, otherFound] at present
    | some otherTree =>
      have leaves : tree.leaves = otherTree.leaves := by
        apply ExtTreeMap.ext_getElem?
        intro key
        simpa [found, otherFound] using same key
      have depths := (wellFormed id tree found).1.trans
        (otherWellFormed id otherTree otherFound).1.symm
      exact congrArg some (SparseMerkleTree.root_congr leaves depths)

end

/-- Caching node hashes keeps the slots. -/
theorem slotLeaf_storageRoot (id : AccountId) :
    slotLeaf (storageRoot trees id).2 = slotLeaf trees := by
  funext slot
  unfold storageRoot
  split
  next tree found =>
    rw [slotLeaf_insert, SparseMerkleTree.root_leaves]
    split
    next same =>
      rw [slotLeaf, ← same, found]
      rfl
    next => rfl
  next => rfl

theorem WellFormed.storageRoot (wellFormed : WellFormed depth trees) (id : AccountId) :
    WellFormed depth (StateStore.storageRoot trees id).2 := by
  unfold StateStore.storageRoot
  split
  next tree found =>
    obtain ⟨atDepth, notEmpty⟩ := wellFormed id tree found
    exact wellFormed.insert id atDepth notEmpty
  next => exact wellFormed

theorem slotLeaf_insertSlot (key value : BitVec 256) :
    slotLeaf (insertSlot depth trees contract key value) =
      Function.update (slotLeaf trees) (contract, key)
        (some (SparseMerkleTree.hashStorageValue value)) := by
  funext slot
  obtain ⟨id, place⟩ := slot
  rw [insertSlot, slotLeaf_insert, SparseMerkleTree.insertStorageSlot_leaves,
    ExtTreeMap.getElem?_insert, Function.update_apply, slotLeaf]
  cases found : trees[contract]? <;> grind [SparseMerkleTree.withMaxDepth_leaves]

theorem WellFormed.insertSlot (wellFormed : WellFormed depth trees) (contract : AccountId)
    (key value : BitVec 256) :
    WellFormed depth (StateStore.insertSlot depth trees contract key value) := by
  apply wellFormed.insert
  · rw [SparseMerkleTree.insertStorageSlot_maxDepth]
    cases found : trees[contract]? with
    | none => rfl
    | some tree => exact (wellFormed contract tree found).1
  · simp [SparseMerkleTree.isEmpty]

theorem slotLeaf_deleteSlot (key : BitVec 256) : slotLeaf (deleteSlot trees contract key) =
      Function.update (slotLeaf trees) (contract, key) none := by
  funext slot
  obtain ⟨id, place⟩ := slot
  unfold deleteSlot
  split
  next absent =>
    rw [Function.update_apply, slotLeaf]
    grind
  next tree found =>
    have erased : (tree.deleteRaw key).leaves = tree.leaves.erase key :=
      SparseMerkleTree.deleteRaw_leaves ..
    dsimp only
    split
    next isEmpty =>
      have gone : (tree.leaves.erase key)[place]? = none := by
        rw [← erased, ExtTreeMap.isEmpty_iff.mp isEmpty]
        simp
      rw [slotLeaf_erase, Function.update_apply, slotLeaf]
      grind
    next =>
      rw [slotLeaf_insert, erased, ExtTreeMap.getElem?_erase, Function.update_apply, slotLeaf]
      grind

theorem WellFormed.deleteSlot (wellFormed : WellFormed depth trees) (contract : AccountId)
    (key : BitVec 256) : WellFormed depth (StateStore.deleteSlot trees contract key) := by
  unfold StateStore.deleteSlot
  split
  next => exact wellFormed
  next tree found =>
    dsimp only
    split
    next => exact wellFormed.erase contract
    next notEmpty =>
      exact wellFormed.insert contract
        ((SparseMerkleTree.deleteRaw_maxDepth ..).trans (wellFormed contract tree found).1)
        (by simpa using notEmpty)

def slotEntry (store : StateStore) (slot : AccountId × BitVec 256) : Option Hash :=
  store.contractStorage[slot]?.map SparseMerkleTree.hashStorageValue

theorem slotLeaf_refreshSlot (store : StateStore) (slot : AccountId × BitVec 256) :
    slotLeaf (store.refreshSlot trees slot) =
      Function.update (slotLeaf trees) slot (store.slotEntry slot) := by
  unfold refreshSlot slotEntry
  cases store.contractStorage[slot]? with
  | none => exact slotLeaf_deleteSlot ..
  | some value => exact slotLeaf_insertSlot ..

theorem WellFormed.refreshSlot (wellFormed : WellFormed store.storageDepth trees)
    (slot : AccountId × BitVec 256) :
    WellFormed store.storageDepth (store.refreshSlot trees slot) := by
  unfold StateStore.refreshSlot
  split
  · exact WellFormed.insertSlot wellFormed _ _ _
  · exact WellFormed.deleteSlot wellFormed _ _

abbrev MirrorsSlots (store : StateStore) (stale : AccountId × BitVec 256 → Prop)
    (trees : ExtTreeMap AccountId SparseMerkleTree) : Prop :=
  Mirrors id Set.univ store.slotEntry stale (slotLeaf trees)

theorem MirrorsSlots.foldl_refreshSlot (wellFormed : WellFormed store.storageDepth trees)
    (mirrors : store.MirrorsSlots stale trees) (slots : List (AccountId × BitVec 256)) :
    WellFormed store.storageDepth (slots.foldl store.refreshSlot trees) ∧
      store.MirrorsSlots (fun slot => stale slot ∧ slot ∉ slots)
        (slots.foldl store.refreshSlot trees) := by
  refine (Mirrors.foldl slotLeaf (WellFormed store.storageDepth) store.refreshSlot id slots ?_
    wellFormed mirrors).imp_right fun refreshed => refreshed.weaken ?_
  case refine_2 =>
    rintro slot - ⟨isStale, others⟩
    exact ⟨isStale, fun inSlots => others slot inSlots rfl⟩
  intro trees slot _ rest _ wellFormed mirrors
  refine ⟨wellFormed.refreshSlot slot, ?_⟩
  rw [slotLeaf_refreshSlot]
  exact mirrors.refresh (Set.injOn_id _) (Set.mem_univ slot)

theorem buildStorageTrees_mirrors (store : StateStore) :
    WellFormed store.storageDepth store.buildStorageTrees ∧
      store.MirrorsSlots (fun _ => False) store.buildStorageTrees := by
  have start : store.MirrorsSlots (fun slot => store.slotEntry slot ≠ none) ∅ := by
    have none_ : slotLeaf ∅ = fun _ => none := by
      funext slot
      simp [slotLeaf]
    exact Mirrors.empty
  refine (Mirrors.foldl slotLeaf (WellFormed store.storageDepth) _ Prod.fst _ ?_ wellFormed_empty
    start).imp_right fun built => built.weaken ?_
  case refine_1 =>
    rintro trees ⟨slot, value⟩ inStorage rest - wellFormed mirrors
    rw [ExtTreeMap.mem_toList_iff_getElem?_eq_some] at inStorage
    have entry : some (SparseMerkleTree.hashStorageValue value) = store.slotEntry slot := by
      rw [slotEntry, inStorage, Option.map_some]
    refine ⟨WellFormed.insertSlot wellFormed _ _ _, ?_⟩
    rw [slotLeaf_insertSlot, entry]
    exact mirrors.refresh (Set.injOn_id _) (Set.mem_univ slot)
  case refine_2 =>
    rintro slot - ⟨hasEntry, unwritten⟩
    apply hasEntry
    cases found : store.contractStorage[slot]? with
    | none => rw [slotEntry, found, Option.map_none]
    | some value =>
      have inStorage : (slot, value) ∈ store.contractStorage.toList :=
        ExtTreeMap.mem_toList_iff_getElem?_eq_some.mpr found
      exact absurd rfl (unwritten (slot, value) inStorage)

theorem slotLeaf_buildStorageTrees (store : StateStore) (slot : AccountId × BitVec 256) :
    slotLeaf store.buildStorageTrees slot = store.slotEntry slot :=
  store.buildStorageTrees_mirrors.2.fresh slot (Set.mem_univ _) not_false

theorem storageRoot_eq_of_mirrors (wellFormed : WellFormed store.storageDepth trees)
    (mirrors : store.MirrorsSlots stale trees) (id : AccountId) (fresh : ∀ key, ¬ stale (id, key)) :
    (storageRoot trees id).1 = (storageRoot store.buildStorageTrees id).1 := by
  apply storageRoot_congr wellFormed store.buildStorageTrees_mirrors.1
  intro key
  rw [slotLeaf_buildStorageTrees]
  exact mirrors.fresh (id, key) (Set.mem_univ _) (fresh key)

end StateStore

/-! ## Leaves of the state tree -/

/-- What a leaf of the state tree is about. -/
inductive LeafOwner where
  | account (id : AccountId)
  | qaPending (subject : Hash)
  | registry (id : RegistryId)
deriving DecidableEq

def LeafOwner.key : LeafOwner → BitVec 256
  | .account id => id
  | .qaPending subject => QaPendingRecord.smtKey subject
  | .registry id => id.smtKey

def Slot.owner : Slot → LeafOwner
  | .account id | .code id => .account id
  | .storage contract _ => .account contract
  | .qaPending subject => .qaPending subject
  | .registry id => .registry id

namespace StateStore

def accountEntry (store : StateStore) (trees : ExtTreeMap AccountId SparseMerkleTree)
    (id : AccountId) : Option Hash :=
  if store.accounts.contains id ∨ store.contractCode.contains id ∨ (storageRoot trees id).1.isSome
  then some (store.accountLeaf id ((storageRoot trees id).1.getD Hash.ZERO))
  else none

def leafEntry (store : StateStore) : LeafOwner → Option Hash
  | .account id => store.accountEntry store.buildStorageTrees id
  | .qaPending subject => store.qaPending[subject]?.map QaPendingRecord.commitmentHash
  | .registry id => store.registryLeaf id

theorem leafEntry_congr {other : StateStore} (deep : other.storageTreeDeep = store.storageTreeDeep)
    {owner : LeafOwner}
    (same : ∀ slot : Slot, slot.owner = owner → other.read slot = store.read slot) :
    other.leafEntry owner = store.leafEntry owner := by
  cases owner with
  | account id =>
    have account : other.accounts[id]? = store.accounts[id]? := same (.account id) rfl
    have code : other.contractCode[id]? = store.contractCode[id]? := same (.code id) rfl
    have depth : other.storageDepth = store.storageDepth := by
      rw [storageDepth, storageDepth, deep]
    have root : (storageRoot other.buildStorageTrees id).1 =
        (storageRoot store.buildStorageTrees id).1 := by
      have wellFormed := other.buildStorageTrees_mirrors.1
      rw [depth] at wellFormed
      apply storageRoot_congr wellFormed store.buildStorageTrees_mirrors.1
      intro key
      have slot : other.contractStorage[(id, key)]? = store.contractStorage[(id, key)]? :=
        same (.storage id key) rfl
      rw [slotLeaf_buildStorageTrees, slotLeaf_buildStorageTrees, slotEntry, slotEntry, slot]
    simp only [leafEntry, accountEntry, accountLeaf, codeHashOf, root, account, code,
      ExtTreeMap.contains_eq_isSome_getElem?]
  | qaPending subject =>
    have record : other.qaPending[subject]? = store.qaPending[subject]? :=
      same (.qaPending subject) rfl
    rw [leafEntry, leafEntry, record]
  | registry id =>
    have registry : other.registry id = store.registry id := same (.registry id) rfl
    rw [leafEntry, leafEntry, registryLeaf, registryLeaf, registry]

abbrev MirrorsLeaves (store : StateStore) (owners : Set LeafOwner) (stale : LeafOwner → Prop)
    (tree : SparseMerkleTree) : Prop :=
  Mirrors LeafOwner.key owners store.leafEntry stale fun key => tree.leaves[key]?

theorem leaves_refreshLeaf (key : BitVec 256) (leaf : Option Hash) :
    (fun place => (refreshLeaf tree key leaf).leaves[place]?) =
      Function.update (fun place => tree.leaves[place]?) key leaf := by
  funext place
  cases leaf with
  | none =>
    rw [refreshLeaf, SparseMerkleTree.deleteRaw_leaves, ExtTreeMap.getElem?_erase]
    grind
  | some hash =>
    rw [refreshLeaf, SparseMerkleTree.insertLeafHash_leaves, ExtTreeMap.getElem?_insert]
    grind

@[simp]
theorem refreshLeaf_maxDepth (key : BitVec 256) (leaf : Option Hash) :
    (refreshLeaf tree key leaf).maxDepth = tree.maxDepth := by
  cases leaf
  · exact SparseMerkleTree.deleteRaw_maxDepth ..
  · exact SparseMerkleTree.insertLeafHash_maxDepth ..

structure Refreshing (store : StateStore) (trees : Trees) : Prop where
  depth : trees.1.maxDepth = store.accountDepth
  wellFormed : WellFormed store.storageDepth trees.2
  slots : store.MirrorsSlots (fun _ => False) trees.2

theorem refreshAccount_eq (store : StateStore) (trees : Trees) (id : AccountId) :
    store.refreshAccount trees id =
      (refreshLeaf trees.1 id (store.accountEntry trees.2 id), (storageRoot trees.2 id).2) := by
  unfold refreshAccount accountEntry
  dsimp only
  split <;> rfl

theorem insertAccountLeaf_eq {id : AccountId} (committed : store.accountEntry trees.2 id ≠ none) :
    store.insertAccountLeaf trees id = store.refreshAccount trees id := by
  rw [refreshAccount_eq]
  unfold accountEntry at committed ⊢
  split
  next => rfl
  next absent => exact absurd (if_neg absent) committed

section Refresh

variable {owners : Set LeafOwner} {stale : LeafOwner → Prop}

theorem Refreshing.accountEntry (refreshing : store.Refreshing trees) (id : AccountId) :
    store.accountEntry trees.2 id = store.leafEntry (.account id) := by
  have root := storageRoot_eq_of_mirrors refreshing.wellFormed refreshing.slots id
    fun _ => not_false
  simp only [leafEntry, StateStore.accountEntry, root]

theorem Refreshing.refreshAccount (refreshing : store.Refreshing trees)
    (apart : Set.InjOn LeafOwner.key owners) {id : AccountId} (isOwner : .account id ∈ owners)
    (mirrors : store.MirrorsLeaves owners stale trees.1) :
    store.Refreshing (store.refreshAccount trees id) ∧
      store.MirrorsLeaves owners (fun owner => stale owner ∧ owner ≠ .account id)
        (store.refreshAccount trees id).1 := by
  rw [refreshAccount_eq, refreshing.accountEntry]
  constructor
  · exact {
      depth := (refreshLeaf_maxDepth ..).trans refreshing.depth
      wellFormed := refreshing.wellFormed.storageRoot id
      slots := by
        rw [MirrorsSlots, slotLeaf_storageRoot]
        exact refreshing.slots }
  · rw [MirrorsLeaves, leaves_refreshLeaf]
    exact mirrors.refresh apart isOwner

theorem MirrorsLeaves.foldl {Item : Type} (step : SparseMerkleTree → Item → SparseMerkleTree)
    (ownerOf : Item → LeafOwner) (items : List Item) (apart : Set.InjOn LeafOwner.key owners)
    (areOwners : ∀ item ∈ items, ownerOf item ∈ owners)
    (refreshes : ∀ tree, ∀ item ∈ items, step tree item =
      refreshLeaf tree (ownerOf item).key (store.leafEntry (ownerOf item)))
    {tree : SparseMerkleTree} (depth : tree.maxDepth = store.accountDepth)
    (mirrors : store.MirrorsLeaves owners stale tree) :
    (items.foldl step tree).maxDepth = store.accountDepth ∧
      store.MirrorsLeaves owners (fun owner => stale owner ∧ ∀ item ∈ items, owner ≠ ownerOf item)
        (items.foldl step tree) := by
  refine Mirrors.foldl (fun tree key => tree.leaves[key]?)
    (fun tree => tree.maxDepth = store.accountDepth) step ownerOf items ?_ depth mirrors
  intro tree item inItems rest _ depth mirrors
  rw [refreshes tree item inItems, leaves_refreshLeaf, refreshLeaf_maxDepth]
  exact ⟨depth, mirrors.refresh apart (areOwners item inItems)⟩

def Covers (store : StateStore) (owners : Set LeafOwner) : Prop :=
  ∀ owner, store.leafEntry owner ≠ none → owner ∈ owners

/-- Owners whose leaf may be out of date; registries always are. -/
def Dirty (store : StateStore) : LeafOwner → Prop
  | .account id => id ∈ store.dirtyAccounts
  | .qaPending subject => subject ∈ store.dirtyQa
  | .registry _ => True

/-- The caches mirror the contents up to the marks. -/
structure Synced (store : StateStore) (owners : Set LeafOwner) : Prop where
  depth : store.tree.maxDepth = store.accountDepth
  wellFormed : WellFormed store.storageDepth store.storageTrees
  slots : store.MirrorsSlots (· ∈ store.dirtySlots) store.storageTrees
  leaves : store.MirrorsLeaves owners store.Dirty store.tree
  marked : ∀ slot ∈ store.dirtySlots, slot.1 ∈ store.dirtyAccounts
  owned : ∀ owner, store.Dirty owner → owner ∈ owners

theorem Synced.refresh (synced : store.Synced owners) (apart : Set.InjOn LeafOwner.key owners) :
    store.Refreshing store.refresh ∧
      store.MirrorsLeaves owners (fun _ => False) store.refresh.1 := by
  obtain ⟨wellFormed, slots⟩ := MirrorsSlots.foldl_refreshSlot synced.wellFormed synced.slots
    store.dirtySlots.toList
  have start : store.Refreshing
      (store.tree, store.dirtySlots.toList.foldl store.refreshSlot store.storageTrees) := {
    depth := synced.depth
    wellFormed := wellFormed
    slots := slots.weaken (by simp) }
  obtain ⟨refreshing, accounts⟩ := Mirrors.foldl
    (fun trees key => trees.1.leaves[key]?) store.Refreshing store.refreshAccount LeafOwner.account
    store.dirtyAccounts.toList (fun trees id isDirty rest _ refreshing mirrors =>
      refreshing.refreshAccount apart
        (synced.owned (.account id) (ExtTreeSet.mem_toList.mp isDirty)) mirrors) start synced.leaves
  obtain ⟨qaDepth, qa⟩ := MirrorsLeaves.foldl store.refreshQa LeafOwner.qaPending
    store.dirtyQa.toList apart
    (fun subject isDirty =>
      synced.owned (.qaPending subject) (ExtTreeSet.mem_toList.mp isDirty))
    (fun _ _ _ => rfl) refreshing.depth accounts
  obtain ⟨depth, leaves⟩ := MirrorsLeaves.foldl _ LeafOwner.registry RegistryId.all apart
    (fun id _ => synced.owned (.registry id) trivial) (fun _ _ _ => rfl) qaDepth qa
  refine ⟨⟨depth, refreshing.wellFormed, refreshing.slots⟩, leaves.weaken ?_⟩
  rintro owner - ⟨⟨⟨isDirty, notAccount⟩, notQa⟩, notRegistry⟩
  cases owner with
  | account id => exact notAccount id (ExtTreeSet.mem_toList.mpr isDirty) rfl
  | qaPending subject => exact notQa subject (ExtTreeSet.mem_toList.mpr isDirty) rfl
  | registry id => exact notRegistry id id.mem_all rfl

theorem buildFull_eq (store : StateStore) : store.buildFull =
      let trees := (store.committedIds store.buildStorageTrees).foldl store.insertAccountLeaf
        (.withMaxDepth store.accountDepth, store.buildStorageTrees)
      ((RegistryId.all.filter fun id => (store.registryLeaf id).isSome).foldl
        (fun tree id => refreshLeaf tree id.smtKey (store.registryLeaf id))
        (store.qaPending.toList.foldl (fun tree entry =>
          tree.insertLeafHash (QaPendingRecord.smtKey entry.1) entry.2.commitmentHash) trees.1),
        trees.2) := by
  unfold buildFull
  dsimp only
  rw [List.foldl_filter]
  congr 2
  funext tree id
  cases store.registryLeaf id <;> rfl

theorem mem_committedIds (store : StateStore) (id : AccountId) :
    id ∈ store.committedIds store.buildStorageTrees ↔ store.leafEntry (.account id) ≠ none := by
  have root : (storageRoot store.buildStorageTrees id).1.isSome =
      store.buildStorageTrees.contains id := by
    rw [storageRoot, ExtTreeMap.contains_eq_isSome_getElem?]
    cases store.buildStorageTrees[id]? <;> rfl
  simp only [committedIds, leafEntry, accountEntry, root, List.mem_dedup, List.mem_append,
    ExtTreeMap.mem_keys, ExtTreeMap.contains_iff_mem, or_assoc, ne_eq,
    ite_eq_right_iff, reduceCtorEq, imp_false, not_not]

theorem Covers.buildFull (covers : store.Covers owners) (apart : Set.InjOn LeafOwner.key owners) :
    store.Refreshing store.buildFull ∧
      store.MirrorsLeaves owners (fun _ => False) store.buildFull.1 := by
  obtain ⟨wellFormed, slots⟩ := store.buildStorageTrees_mirrors
  have start : store.Refreshing (.withMaxDepth store.accountDepth, store.buildStorageTrees) :=
    ⟨rfl, wellFormed, slots⟩
  have empty : store.MirrorsLeaves owners (fun owner => store.leafEntry owner ≠ none)
      (.withMaxDepth store.accountDepth) := by
    have none_ : (fun key : BitVec 256 =>
        (SparseMerkleTree.withMaxDepth store.accountDepth).leaves[key]?) = fun _ => none := by
      funext key
      simp
    exact Mirrors.empty
  obtain ⟨refreshing, accounts⟩ := Mirrors.foldl
    (fun trees key => trees.1.leaves[key]?) store.Refreshing store.insertAccountLeaf
    LeafOwner.account (store.committedIds store.buildStorageTrees)
    (fun trees id committed rest _ refreshing mirrors => by
      have hasLeaf := (store.mem_committedIds id).mp committed
      rw [insertAccountLeaf_eq (by rwa [refreshing.accountEntry])]
      exact refreshing.refreshAccount apart (covers _ hasLeaf) mirrors) start empty
  have qaEntry : ∀ entry ∈ store.qaPending.toList,
      store.leafEntry (.qaPending entry.1) = some entry.2.commitmentHash := by
    intro entry isEntry
    rw [leafEntry, ExtTreeMap.mem_toList_iff_getElem?_eq_some.mp isEntry, Option.map_some]
  obtain ⟨qaDepth, qa⟩ := MirrorsLeaves.foldl
    (fun tree entry =>
      tree.insertLeafHash (QaPendingRecord.smtKey entry.1) entry.2.commitmentHash)
    (fun entry => .qaPending entry.1) store.qaPending.toList apart
    (fun entry isEntry => covers _ (by simp [qaEntry entry isEntry]))
    (fun tree entry isEntry => by
      rw [qaEntry entry isEntry]
      rfl)
    refreshing.depth accounts
  obtain ⟨depth, leaves⟩ := MirrorsLeaves.foldl _ LeafOwner.registry
    (RegistryId.all.filter fun id => (store.registryLeaf id).isSome) apart
    (fun id hasLeaf =>
      covers (.registry id) (Option.isSome_iff_ne_none.mp (List.mem_filter.mp hasLeaf).2))
    (fun _ _ _ => rfl) qaDepth qa
  rw [buildFull_eq]
  refine ⟨⟨depth, refreshing.wellFormed, refreshing.slots⟩, leaves.weaken ?_⟩
  rintro owner - ⟨⟨⟨hasLeaf, notAccount⟩, notQa⟩, notRegistry⟩
  cases owner with
  | account id => exact notAccount id ((store.mem_committedIds id).mpr hasLeaf) rfl
  | qaPending subject =>
    obtain ⟨record, found⟩ := Option.ne_none_iff_exists'.mp (mt Option.map_eq_none_iff.mpr hasLeaf)
    exact notQa (subject, record) (ExtTreeMap.mem_toList_iff_getElem?_eq_some.mpr found) rfl
  | registry id =>
    refine notRegistry id (List.mem_filter.mpr ⟨id.mem_all, ?_⟩) rfl
    exact Option.isSome_iff_ne_none.mpr hasLeaf

/-- Trees without stale leaves have one root. -/
theorem MirrorsLeaves.referenceRoot_eq {first second : SparseMerkleTree}
    (depths : first.maxDepth = second.maxDepth)
    (firstLeaves : store.MirrorsLeaves owners (fun _ => False) first)
    (secondLeaves : store.MirrorsLeaves owners (fun _ => False) second) :
    first.referenceRoot = second.referenceRoot := by
  have leaves : first.leaves = second.leaves := by
    apply ExtTreeMap.ext_getElem?
    exact congrFun (firstLeaves.unique secondLeaves fun _ _ => not_false)
  rw [SparseMerkleTree.referenceRoot, SparseMerkleTree.referenceRoot, leaves, depths]

/-- Inserting the leaves of accounts with storage again changes nothing. -/
theorem Covers.stateRootFullRebuild (covers : store.Covers owners)
    (apart : Set.InjOn LeafOwner.key owners) :
    store.stateRootFullRebuild = store.buildFull.1.referenceRoot := by
  obtain ⟨refreshing, leaves⟩ := covers.buildFull apart
  have entries : ∀ entry ∈ store.buildFull.2.toList, store.leafEntry (.account entry.1) =
      some (store.accountLeaf entry.1 entry.2.referenceRoot) := by
    intro entry isEntry
    have found := ExtTreeMap.mem_toList_iff_getElem?_eq_some.mp isEntry
    have root : (storageRoot store.buildFull.2 entry.1).1 = some entry.2.referenceRoot := by
      rw [← SparseMerkleTree.root_eq_referenceRoot, storageRoot, found]
    rw [← refreshing.accountEntry, accountEntry, root]
    simp
  obtain ⟨depth, again⟩ := MirrorsLeaves.foldl
    (fun tree entry =>
      tree.insertLeafHash entry.1 (store.accountLeaf entry.1 entry.2.referenceRoot))
    (fun entry => .account entry.1) store.buildFull.2.toList apart
    (fun entry isEntry => covers _ (by simp [entries entry isEntry]))
    (fun tree entry isEntry => by
      rw [entries entry isEntry]
      rfl)
    refreshing.depth leaves
  exact MirrorsLeaves.referenceRoot_eq (depth.trans refreshing.depth.symm)
    (again.weaken fun _ _ isStale => isStale.1) leaves

theorem Covers.stateRoot_eq (covers : store.Covers owners)
    (synced : store.rootSynced → store.Synced owners) (apart : Set.InjOn LeafOwner.key owners) :
    store.stateRoot.1 = store.stateRootFullRebuild := by
  obtain ⟨built, builtLeaves⟩ := covers.buildFull apart
  rw [covers.stateRootFullRebuild apart]
  change (if store.rootSynced then store.refresh else store.buildFull).1.root.1 = _
  rw [SparseMerkleTree.root_eq_referenceRoot]
  split
  next isSynced =>
    obtain ⟨refreshed, leaves⟩ := (synced isSynced).refresh apart
    exact leaves.referenceRoot_eq (refreshed.depth.trans built.depth.symm) builtLeaves
  next => rfl

end Refresh

end StateStore

end BoingNetwork
