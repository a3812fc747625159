import BoingNetwork.Library.Run
import BoingNetwork.State.StateRoot

/-!
# The undo journal of the store

The journal and the noted positions of registry snapshots lead back from the current
contents to those of every live checkpoint.  Every write of the store keeps that true,
so a revert restores the contents of its checkpoint.
-/

namespace BoingNetwork

variable [Crypto] {store : StateStore} {points : List (ℕ × Contents)} {id : RegistryId}
  {slot : Slot}

namespace StateStore

open Std UndoLog

theorem mark_eq (store : StateStore) (slot : Slot) : ∃ accounts slots qa, store.mark slot =
      { store with dirtyAccounts := accounts, dirtySlots := slots, dirtyQa := qa } := by
  cases slot with
  | account id =>
    simp only [mark, markAccount]
    split <;> exact ⟨_, _, _, rfl⟩
  | code id =>
    simp only [mark, markAccount]
    split <;> exact ⟨_, _, _, rfl⟩
  | storage contract key =>
    simp only [mark, markSlot]
    split <;> exact ⟨_, _, _, rfl⟩
  | qaPending subject =>
    simp only [mark, markQa]
    split <;> exact ⟨_, _, _, rfl⟩
  | registry id => exact ⟨_, _, _, rfl⟩

/-- The journal leads back to the saved contents of every checkpoint, and the noted
positions of registry snapshots are right. -/
structure Journaled (store : StateStore) (points : List (ℕ × Contents)) : Prop where
  consistent :
    Contents.slots.Consistent store.journal store.lastCpPos store.toContents points
  snapshots : ∀ id position, store.snapPos id = some position →
    ∃ entry, store.journal.reverse[position]? = some entry ∧ entry.1 = .registry id
  handled : points.length ≤ store.handles

namespace Journaled

theorem congr {other : StateStore} (journaled : store.Journaled points)
    (contents : other.toContents = store.toContents) (journal : other.journal = store.journal)
    (lastCpPos : other.lastCpPos = store.lastCpPos) (snapPos : other.snapPos = store.snapPos)
    (handles : other.handles = store.handles) : other.Journaled points where
  consistent := by
    rw [contents, journal, lastCpPos]
    exact journaled.consistent
  snapshots := by
    rw [journal, snapPos]
    exact journaled.snapshots
  handled := by
    rw [handles]
    exact journaled.handled

theorem dropped (none_ : points = []) (empty : store.journal = []) (bottom : store.lastCpPos = 0)
    (unnoted : ∀ id, store.snapPos id = none) : store.Journaled points := by
  subst none_
  constructor
  case consistent =>
    rw [empty, bottom]
    exact Slots.Consistent.start _
  case snapshots =>
    intro id position noted
    rw [unnoted id] at noted
    cases noted
  case handled => exact Nat.zero_le _

theorem points_eq_nil (journaled : store.Journaled points) (idle : ¬ 0 < store.handles) :
    points = [] :=
  List.eq_nil_of_length_eq_zero (Nat.le_zero.mp (journaled.handled.trans (Nat.not_lt.mp idle)))

/-- Noted positions stay right when the journal grows. -/
theorem snapshots_cons (journaled : store.Journaled points) (entry : Sigma Slot.Value)
    {position : ℕ} (noted : store.snapPos id = some position) :
    ∃ found, (entry :: store.journal).reverse[position]? = some found ∧ found.1 = .registry id := by
  obtain ⟨found, atPosition, isRegistry⟩ := journaled.snapshots id position noted
  refine ⟨found, ?_, isRegistry⟩
  have inRange := (List.getElem?_eq_some_iff.mp atPosition).1
  rw [List.reverse_cons, List.getElem?_append_left inRange, atPosition]

end Journaled

@[simp]
theorem mark_toContents (store : StateStore) (slot : Slot) :
    (store.mark slot).toContents = store.toContents := by
  obtain ⟨_, _, _, marked⟩ := store.mark_eq slot
  rw [marked]

theorem record_of_alive (alive : 0 < store.handles) (slot : Slot) : store.record slot =
      { store.mark slot with journal := ⟨slot, store.read slot⟩ :: store.journal } := by
  obtain ⟨_, _, _, marked⟩ := store.mark_eq slot
  rw [record, marked, journaling, if_pos alive]

theorem record_of_idle (idle : ¬ 0 < store.handles) (slot : Slot) : store.record slot =
      { store.mark slot with journal := [], lastCpPos := 0, snapPos := fun _ => none } := by
  obtain ⟨_, _, _, marked⟩ := store.mark_eq slot
  rw [record, marked, journaling, if_neg idle]

@[simp]
theorem record_toContents (store : StateStore) (slot : Slot) :
    (store.record slot).toContents = store.toContents := by
  by_cases alive : 0 < store.handles
  · rw [record_of_alive alive, ← mark_toContents store slot]
  · rw [record_of_idle alive, ← mark_toContents store slot]

@[simp]
theorem record_handles (store : StateStore) (slot : Slot) :
    (store.record slot).handles = store.handles := by
  obtain ⟨_, _, _, marked⟩ := store.mark_eq slot
  by_cases alive : 0 < store.handles
  · rw [record_of_alive alive, marked]
  · rw [record_of_idle alive, marked]

@[simp]
theorem put_toContents (store : StateStore) (slot : Slot) (value : slot.Value) :
    (store.put slot value).toContents = store.toContents.write slot value := by
  rw [put, assign, record_toContents]

namespace Journaled

theorem record (journaled : store.Journaled points) (slot : Slot) :
    (store.record slot).Journaled points := by
  obtain ⟨_, _, _, marked⟩ := store.mark_eq slot
  by_cases alive : 0 < store.handles
  · rw [record_of_alive alive, marked]
    constructor
    case consistent => exact journaled.consistent.log_current slot
    case snapshots =>
      intro id position noted
      exact journaled.snapshots_cons _ noted
    case handled => exact journaled.handled
  · rw [record_of_idle alive]
    exact dropped (journaled.points_eq_nil alive) rfl rfl fun _ => rfl

theorem put (journaled : store.Journaled points) (slot : Slot) (value : slot.Value) :
    (store.put slot value).Journaled points := by
  obtain ⟨_, _, _, marked⟩ := store.mark_eq slot
  rw [StateStore.put]
  by_cases alive : 0 < store.handles
  · rw [record_of_alive alive, marked]
    constructor
    case consistent => exact journaled.consistent.record slot value
    case snapshots =>
      intro id position noted
      exact journaled.snapshots_cons _ noted
    case handled => exact journaled.handled
  · rw [record_of_idle alive]
    exact dropped (journaled.points_eq_nil alive) rfl rfl fun _ => rfl

end Journaled

theorem recordRegistry_of_alive (alive : 0 < store.handles) (id : RegistryId) :
    store.recordRegistry id =
      if store.snapshotNeeded (store.snapPos id) then
        { store with
          snapPos := Function.update store.snapPos id (some store.journal.length)
          journal := ⟨.registry id, store.registry id⟩ :: store.journal }
      else store := by
  rw [recordRegistry, journaling, if_pos alive]

theorem recordRegistry_of_idle (idle : ¬ 0 < store.handles) (id : RegistryId) :
    store.recordRegistry id =
      { store with journal := [], lastCpPos := 0, snapPos := fun _ => none } := by
  rw [recordRegistry, journaling, if_neg idle]

@[simp]
theorem recordRegistry_toContents (store : StateStore) (id : RegistryId) :
    (store.recordRegistry id).toContents = store.toContents := by
  by_cases alive : 0 < store.handles
  · rw [recordRegistry_of_alive alive]
    split <;> rfl
  · rw [recordRegistry_of_idle alive]

@[simp]
theorem registryMut_toContents (store : StateStore) (id : RegistryId)
    (update : id.Carrier → id.Carrier) : (store.registryMut id update).toContents =
      store.toContents.setRegistry id (update (store.registry id)) := by
  rw [registryMut, assign, recordRegistry_toContents]
  rfl

@[simp]
theorem checkpoint_toContents (store : StateStore) :
    store.checkpoint.2.toContents = store.toContents := by
  rw [checkpoint, journaling]
  split <;> rfl

@[simp]
theorem checkpoint_handles (store : StateStore) :
    store.checkpoint.2.handles = store.handles + 1 := by
  rw [checkpoint, journaling]
  split <;> rfl

namespace Journaled

/-- A noted snapshot that is not below the last checkpoint is in the journal above it. -/
theorem logged_of_not_needed (journaled : store.Journaled points)
    (notNeeded : store.snapshotNeeded (store.snapPos id) = false) :
    ∃ entry ∈ since store.journal store.lastCpPos, entry.1 = .registry id := by
  cases noted : store.snapPos id with
  | none => simp [snapshotNeeded, noted] at notNeeded
  | some position =>
    have bounds : store.lastCpPos ≤ position ∧ position < store.journal.length := by
      simpa [snapshotNeeded, noted] using notNeeded
    obtain ⟨entry, atPosition, isRegistry⟩ := journaled.snapshots id position noted
    refine ⟨entry, ?_, isRegistry⟩
    rw [List.getElem?_reverse bounds.2] at atPosition
    refine List.mem_iff_getElem?.mpr ⟨store.journal.length - 1 - position, ?_⟩
    rw [since, List.getElem?_take, if_pos (by omega), atPosition]

theorem registryMut (journaled : store.Journaled points) (id : RegistryId)
    (update : id.Carrier → id.Carrier) : (store.registryMut id update).Journaled points := by
  rw [StateStore.registryMut]
  by_cases alive : 0 < store.handles
  · rw [recordRegistry_of_alive alive]
    split
    next =>
      constructor
      case consistent => exact journaled.consistent.record (.registry id) _
      case snapshots =>
        intro other position noted
        by_cases same : other = id
        · subst same
          have isTop : store.journal.length = position := by
            simpa [assign] using noted
          subst isTop
          exact ⟨⟨.registry other, store.registry other⟩, by simp [assign], rfl⟩
        · have before : store.snapPos other = some position := by
            simpa [assign, Function.update, same] using noted
          exact journaled.snapshots_cons _ before
      case handled => exact journaled.handled
    next notNeeded =>
      have logged := journaled.logged_of_not_needed (by simpa using notNeeded)
      exact {
        consistent := journaled.consistent.overwrite logged _
        snapshots := journaled.snapshots
        handled := journaled.handled }
  · rw [recordRegistry_of_idle alive]
    exact dropped (journaled.points_eq_nil alive) rfl rfl fun _ => rfl

theorem checkpoint (journaled : store.Journaled points) :
    store.checkpoint.2.Journaled ((store.checkpoint.1.pos, store.toContents) :: points) := by
  by_cases alive : 0 < store.handles
  · have handled := journaled.handled
    rw [StateStore.checkpoint, journaling, if_pos alive]
    exact {
      consistent := journaled.consistent.save
      snapshots := journaled.snapshots
      handled := Nat.succ_le_succ handled }
  · rw [StateStore.checkpoint, journaling, if_neg alive, journaled.points_eq_nil alive]
    exact {
      consistent := (Slots.Consistent.start store.toContents).save
      snapshots := fun _ _ noted => nomatch noted
      handled := Nat.le_add_left _ _ }

end Journaled

/-- Undoing entries writes the logged values back and leaves the journal alone. -/
theorem foldl_undoEntry (store : StateStore) (entries : List (Sigma Slot.Value)) :
    ∃ accounts slots qa, entries.foldl undoEntry store =
      { store with
        toContents := Contents.slots.undo store.toContents entries
        dirtyAccounts := accounts, dirtySlots := slots, dirtyQa := qa } := by
  induction entries generalizing store with
  | nil => exact ⟨_, _, _, rfl⟩
  | cons entry rest ih =>
    obtain ⟨_, _, _, marked⟩ := store.mark_eq entry.1
    obtain ⟨accounts, slots, qa, undone⟩ := ih (store.undoEntry entry)
    refine ⟨accounts, slots, qa, ?_⟩
    rw [List.foldl_cons, undone, undoEntry, marked]
    rfl

namespace Journaled

variable {newer older : List (ℕ × Contents)}

theorem revert (cp : StateCheckpoint) {saved : Contents}
    (journaled : store.Journaled (newer ++ (cp.pos, saved) :: older)) :
    (store.revert cp).toContents = saved ∧ (store.revert cp).Journaled older := by
  obtain ⟨restored, consistent⟩ := journaled.consistent.rollback rfl
  obtain ⟨_, _, _, undone⟩ := foldl_undoEntry store (since store.journal cp.pos)
  have contents : (store.revert cp).toContents = saved := by
    rw [StateStore.revert, undone]
    exact restored
  refine ⟨contents, ?_⟩
  constructor
  case consistent =>
    rw [contents]
    exact consistent
  case snapshots =>
    intro id position noted
    have kept : store.snapPos id = some position ∧ position < cp.pos := by
      simpa [StateStore.revert, Option.filter_eq_some_iff] using noted
    obtain ⟨entry, atPosition, isRegistry⟩ := journaled.snapshots id position kept.1
    refine ⟨entry, ?_, isRegistry⟩
    have inLog := (List.getElem?_eq_some_iff.mp atPosition).1
    rw [List.length_reverse] at inLog
    change (store.journal.drop (store.journal.length - cp.pos)).reverse[position]? = some entry
    rw [List.reverse_drop, List.getElem?_take, if_pos (by omega), atPosition]
  case handled =>
    have total := journaled.handled
    rw [List.length_append, List.length_cons] at total
    change older.length ≤ store.handles - 1
    omega

end Journaled

theorem Journaled.forget {kept : List (ℕ × Contents)} {handles : ℕ}
    (journaled : store.Journaled points) (sub : kept.Sublist points)
    (handled : kept.length ≤ handles) : Journaled { store with handles := handles } kept where
  consistent := journaled.consistent.forget sub
  snapshots := journaled.snapshots
  handled := handled

theorem Journaled.duplicate {newer older : List (ℕ × Contents)} {point : ℕ × Contents}
    (journaled : store.Journaled (newer ++ point :: older)) :
    Journaled { store with handles := store.handles + 1 } (newer ++ point :: point :: older) where
  consistent := journaled.consistent.duplicate rfl
  snapshots := journaled.snapshots
  handled := by
    have handled := journaled.handled
    simp only [List.length_append, List.length_cons] at handled ⊢
    omega

/-- A step from `store` to `next` that every live checkpoint can undo. -/
structure Undoable (store next : StateStore) : Prop where
  journaled : ∀ points, store.Journaled points → next.Journaled points
  handles : next.handles = store.handles

namespace Undoable

variable {next last : StateStore}

theorem refl (store : StateStore) : store.Undoable store := ⟨fun _ journaled => journaled, rfl⟩

theorem trans (first : store.Undoable next) (second : next.Undoable last) : store.Undoable last :=
  ⟨fun points journaled => second.journaled points (first.journaled points journaled),
    second.handles.trans first.handles⟩

theorem foldl {Item : Type*} {step : StateStore → Item → StateStore}
    (undoable : ∀ store item, Undoable store (step store item)) (items : List Item)
    (store : StateStore) : store.Undoable (items.foldl step store) := by
  induction items generalizing store with
  | nil => exact refl store
  | cons item rest ih => exact (undoable store item).trans (ih _)

variable (store)

theorem record (slot : Slot) : store.Undoable (store.record slot) :=
  ⟨fun _ journaled => journaled.record slot, record_handles store slot⟩

theorem put (slot : Slot) (value : slot.Value) :
    store.Undoable (store.put slot value) :=
  ⟨fun _ journaled => journaled.put slot value, record_handles store slot⟩

theorem registryMut (id : RegistryId) (update : id.Carrier → id.Carrier) :
    store.Undoable (store.registryMut id update) := by
  refine ⟨fun _ journaled => journaled.registryMut id update, ?_⟩
  change (store.recordRegistry id).handles = store.handles
  by_cases alive : 0 < store.handles
  · rw [recordRegistry_of_alive alive]
    split <;> rfl
  · rw [recordRegistry_of_idle alive]

theorem getMut (id : AccountId) (update : AccountState → AccountState) :
    store.Undoable (store.getMut id update) := by
  unfold StateStore.getMut
  split
  · exact put ..
  · exact refl store

theorem qaPendingMut (subject : Hash)
    (update : QaPendingRecord → QaPendingRecord) :
    store.Undoable (store.qaPendingMut subject update) := by
  unfold StateStore.qaPendingMut
  split
  · exact put ..
  · exact refl store

theorem removeQaPending (subject : Hash) :
    store.Undoable (store.removeQaPending subject) := by
  unfold StateStore.removeQaPending
  split
  · exact put ..
  · exact refl store

theorem redenominate (factor : ℕ) :
    store.Undoable (store.redenominate factor) := by
  have scaled : store.Undoable (store.redenominateAccounts factor) :=
    foldl (fun store id => getMut store id _) store.accounts.keys store
  rw [StateStore.redenominate]
  split
  · exact scaled.trans (registryMut ..)
  · exact scaled

end Undoable

/-! ## Replacing the pending deploys -/

def LoggedAbove (store : StateStore) (slot : Slot) : Prop :=
  ∃ entry ∈ since store.journal store.lastCpPos, entry.1 = slot

theorem LoggedAbove.record (alive : 0 < store.handles)
    (floor_le : store.lastCpPos ≤ store.journal.length) (other : Slot)
    (logged : slot = other ∨ store.LoggedAbove slot) : (store.record other).LoggedAbove slot := by
  obtain ⟨_, _, _, marked⟩ := store.mark_eq other
  rw [LoggedAbove, record_of_alive alive, marked, since_cons floor_le]
  rcases logged with rfl | ⟨entry, inJournal, isSlot⟩
  · exact ⟨_, List.mem_cons_self, rfl⟩
  · exact ⟨entry, List.mem_cons_of_mem _ inJournal, isSlot⟩

theorem LoggedAbove.foldl_record {slots : List Slot} (alive : 0 < store.handles)
    (journaled : store.Journaled points) (logged : slot ∈ slots ∨ store.LoggedAbove slot) :
    (slots.foldl StateStore.record store).LoggedAbove slot := by
  induction slots generalizing store with
  | nil => simpa using logged
  | cons head rest ih =>
    have recorded : (slot = head ∨ store.LoggedAbove slot) → _ :=
      record alive journaled.consistent.floor_le head
    apply ih
    · rwa [record_handles]
    · exact journaled.record head
    · grind

@[simp]
theorem foldl_record_toContents (slots : List Slot) (store : StateStore) :
    (slots.foldl record store).toContents = store.toContents := by
  induction slots generalizing store with
  | nil => rfl
  | cons slot rest ih => rw [List.foldl_cons, ih, record_toContents]

/-- The slots that replacing the pending deploys may change. -/
def loadedSlots (store : StateStore) (items : List (Hash × QaPendingRecord)) : List Slot :=
  (store.qaPending.keys ++ items.map Prod.fst).map Slot.qaPending

theorem qaPending_eq_of_not_loaded (store : StateStore) (items : List (Hash × QaPendingRecord))
    (subject : Hash) (outside : subject ∉ store.qaPending.keys ++ items.map Prod.fst) :
    store.qaPending[subject]? = (ExtTreeMap.ofList items)[subject]? := by
  rw [List.mem_append, not_or, ExtTreeMap.mem_keys] at outside
  have absent : (items.map Prod.fst).contains subject = false := by
    simpa using outside.2
  rw [ExtTreeMap.getElem?_eq_none outside.1,
    ExtTreeMap.getElem?_ofList_of_contains_eq_false absent]

theorem loadQaPending_of_alive (alive : 0 < store.handles) (items : List (Hash × QaPendingRecord)) :
    store.loadQaPending items =
      { (loadedSlots store items).foldl record store with
        qaPending := ExtTreeMap.ofList items
        rootSynced := false } := by
  rw [loadQaPending, journaling, if_pos alive, loadedSlots, List.foldl_map]

theorem loadQaPending_of_idle (idle : ¬ 0 < store.handles) (items : List (Hash × QaPendingRecord)) :
    store.loadQaPending items =
      { store with
        journal := [], lastCpPos := 0, snapPos := fun _ => none
        qaPending := ExtTreeMap.ofList items
        rootSynced := false } := by
  rw [loadQaPending, journaling, if_neg idle]

@[simp]
theorem loadQaPending_toContents (store : StateStore) (items : List (Hash × QaPendingRecord)) :
    (store.loadQaPending items).toContents =
      { store.toContents with qaPending := ExtTreeMap.ofList items } := by
  by_cases alive : 0 < store.handles
  · rw [loadQaPending_of_alive alive]
    simp only [foldl_record_toContents]
  · rw [loadQaPending_of_idle alive]

theorem Journaled.loadQaPending (journaled : store.Journaled points)
    (items : List (Hash × QaPendingRecord)) : (store.loadQaPending items).Journaled points := by
  by_cases alive : 0 < store.handles
  · -- every slot that the replacement changes was recorded before it
    have recorded := (Undoable.foldl Undoable.record (loadedSlots store items) store).journaled
      points journaled
    have contents : (store.loadQaPending items).toContents = _ :=
      (loadQaPending_toContents store items).trans
        (Contents.replaceQaPending_eq_foldl_write _ _ (qaPending_eq_of_not_loaded store items))
    have replaced := recorded.consistent.overwrite_all (loadedSlots store items)
      (fun slot changed => LoggedAbove.foldl_record alive journaled (.inl changed))
      (Contents.read { store.toContents with qaPending := ExtTreeMap.ofList items })
    rw [foldl_record_toContents] at replaced
    rw [loadQaPending_of_alive alive] at contents ⊢
    exact {
      consistent := by
        rw [contents]
        exact replaced
      snapshots := recorded.snapshots
      handled := recorded.handled }
  · rw [loadQaPending_of_idle alive]
    exact dropped (journaled.points_eq_nil alive) rfl rfl fun _ => rfl

theorem Undoable.loadQaPending (store : StateStore) (items : List (Hash × QaPendingRecord)) :
    store.Undoable (store.loadQaPending items) := by
  refine ⟨fun _ journaled => journaled.loadQaPending items, ?_⟩
  by_cases alive : 0 < store.handles
  · rw [loadQaPending_of_alive alive]
    exact (Undoable.foldl Undoable.record (loadedSlots store items) store).handles
  · rw [loadQaPending_of_idle alive]

end StateStore

end BoingNetwork
