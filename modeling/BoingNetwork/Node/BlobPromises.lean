import BoingNetwork.Node.BlobOperations
import BoingNetwork.Primitives.Checksum
import Mathlib.Order.WithBot

/-!
# How long a blob is promised

A record promises its blob up to a height, or without end.  Publishing bytes that the
sidecar already holds replaces the record, and the renewal of a blob that was promised
without end sets a horizon, so both can lower the promise.  While neither happens, a blob
stays with its record and its bytes for as long as any earlier record promised it.
-/

namespace BoingNetwork

def BlobMetaRecord.promise (record : BlobMetaRecord) : WithTop ℕ :=
  match record.expiryHeight with
  | some expiry => .some expiry
  | none => ⊤

variable {record : BlobMetaRecord} {id : BlobId}

theorem BlobMetaRecord.isExpired_eq_false {tipHeight : ℕ} (due : .some tipHeight ≤ record.promise) :
    record.isExpired tipHeight = false := by
  rw [isExpired]
  rw [promise] at due
  cases expiry : record.expiryHeight with
  | none => rfl
  | some last =>
    rw [expiry] at due
    simpa using WithTop.coe_le_coe.mp due

namespace MediaBlobStore

variable [Crypto] {store : MediaBlobStore} {blocks : List Block}

/-- A publication of bytes that are held promises at least as much, and no renewal is about
a blob that is promised without end. -/
def KeepsPromise (store : MediaBlobStore) (height : ℕ) (tx : Transaction) : Prop :=
  match tx.payload with
  | .putBlob retention contentType data =>
    ∀ record ∈ store.getMeta (blobIdOf data),
      record.promise ≤ (publishedRecord tx retention contentType data height).promise
  | .renewMediaBlobPin blobId size _ =>
    ∀ record ∈ store.getMeta blobId, record.size = size → record.promise ≠ ⊤
  | _ => True

def KeepsPromises (store : MediaBlobStore) : BlobEvent → Prop
  | .ingest height tx => store.KeepsPromise height tx
  | _ => True

/-- Every record has a successor that promises at least as much. -/
def PromisesMore (store next : MediaBlobStore) : Prop :=
  ∀ id, ∀ record ∈ store.getMeta id, ∃ later ∈ next.getMeta id, record.promise ≤ later.promise

omit [Crypto] in
theorem promise_renewed {height extendBlocks : ℕ} {txId : Hash}
    (bounded : ∀ expiry ∈ record.expiryHeight, expiry ≤ MachineInt.maxValue 64)
    (finite : record.promise ≠ ⊤) : record.promise ≤ BlobMetaRecord.promise { record with
      pinUntilHeight := some (renewedPin record height extendBlocks), txId := txId } := by
  rw [BlobMetaRecord.promise] at finite ⊢
  cases expiry : record.expiryHeight with
  | none => rw [expiry] at finite; exact absurd rfl finite
  | some last =>
    have small := bounded last expiry
    refine WithTop.coe_le_coe.mpr (le_min ?_ small)
    rw [expiry, Option.getD_some]
    omega

theorem promisesMore_iff (sound : store.Sound) (height : ℕ) (tx : Transaction) :
    store.PromisesMore (store.applyTx height tx) ↔ store.KeepsPromise height tx := by
  have applied := applied_applyTx store height tx
  simp only [PromisesMore, getMeta, applied.index, metaAfter, KeepsPromise]
  cases payload : tx.payload with
  | putBlob retention contentType data =>
    simp only [blobIdHex_inj]
    constructor
    · intro more record held
      obtain ⟨later, isLater, least⟩ := more (blobIdOf data) record held
      rw [if_pos rfl] at isLater
      cases isLater
      exact least
    · intro keeps id record held
      split
      next same =>
        subst same
        exact ⟨_, rfl, keeps record held⟩
      next => exact ⟨record, held, le_rfl⟩
  | renewMediaBlobPin blobId size extendBlocks =>
    simp only [blobIdHex_inj]
    constructor
    · intro more record held sized endless
      obtain ⟨later, isLater, least⟩ := more blobId record held
      rw [if_pos rfl, Option.mem_def.mp held, Option.map_some, if_pos sized] at isLater
      cases isLater
      rw [endless, top_le_iff] at least
      exact WithTop.coe_ne_top least
    · intro keeps id record held
      split
      next same =>
        subst same
        rw [Option.mem_def.mp held, Option.map_some]
        refine ⟨_, rfl, ?_⟩
        split
        next sized =>
          exact promise_renewed (sound.bounded held) (keeps record held sized)
        next => exact le_rfl
      next => exact ⟨record, held, le_rfl⟩
  | _ => exact ⟨fun _ => trivial, fun _ id record held => ⟨record, held, le_rfl⟩⟩

/-! ## Histories -/

theorem kept_step (sound : store.Sound) {event : BlobEvent} (keeps : store.KeepsPromises event)
    (held : record ∈ store.getMeta id)
    (due : ∀ tipHeight, event = .prune tipHeight → .some tipHeight ≤ record.promise) :
    ∃ later ∈ (store.step event).getMeta id, record.promise ≤ later.promise ∧
      (store.step event).getBytes id = store.getBytes id := by
  have stored : (store.data[blobIdHex id]?).isSome := sound.stored held
  cases event with
  | ingest height tx =>
    obtain ⟨later, isLater, least⟩ := (promisesMore_iff sound height tx).mpr keeps id record held
    refine ⟨later, isLater, least, ?_⟩
    refine ((applied_applyTx store height tx).data _).trans ?_
    rw [bytesAfter]
    split
    next =>
      split
      next => exact Option.or_of_isSome stored
      next => rfl
    next => rfl
  | gossip blobId data =>
    rcases gossip_eq store blobId data with same | ⟨missing, filled⟩
    · exact ⟨record, by rwa [same], le_rfl, by rw [same]⟩
    · have other : blobIdHex id ≠ blobIdHex blobId := by
        intro same
        rw [same, missing] at stored
        cases stored
      rw [filled]
      exact ⟨record, held, le_rfl, by rw [getBytes, FiniteMap.getElem?_insert, if_neg other]; rfl⟩
  | prune tipHeight =>
    have fresh := BlobMetaRecord.isExpired_eq_false (due tipHeight rfl)
    have found : store.index[blobIdHex id]? = some record := held
    have pruned := sound.pruned tipHeight
    refine ⟨record, (pruned.index _).trans ?_, le_rfl, (pruned.data _).trans ?_⟩
    · rw [found, Option.filter_eq_some_iff, fresh]
      exact ⟨rfl, rfl⟩
    · rw [found, Option.any_some, fresh]
      rfl

theorem kept_run (sound : store.Sound) {events : List BlobEvent}
    (keeps : Run.Allowed step KeepsPromises store events) (held : record ∈ store.getMeta id)
    (due : ∀ tipHeight, .prune tipHeight ∈ events → .some tipHeight ≤ record.promise) :
    ∃ later ∈ (Run.run step store events).getMeta id, record.promise ≤ later.promise ∧
      (Run.run step store events).getBytes id = store.getBytes id := by
  induction events generalizing store record with
  | nil => exact ⟨record, held, le_rfl, rfl⟩
  | cons event events ih =>
    obtain ⟨later, isLater, least, bytes⟩ := kept_step sound keeps.1 held
      fun tipHeight isPrune => due tipHeight (isPrune ▸ List.mem_cons_self)
    obtain ⟨last, isLast, more, sameBytes⟩ := ih (sound.step event) keeps.2
      isLater fun tipHeight member => (due tipHeight (List.mem_cons_of_mem _ member)).trans least
    exact ⟨last, isLast, least.trans more, sameBytes.trans bytes⟩

theorem prune_mem_chainEvents {tipHeight : ℕ}
    (member : .prune tipHeight ∈ store.chainEvents blocks) :
    ∃ block ∈ blocks, block.header.height = tipHeight := by
  induction blocks generalizing store with
  | nil => cases member
  | cons block blocks ih =>
    rw [chainEvents, blockEvents, List.mem_append, List.mem_append] at member
    rcases member with (ingested | pruned) | later
    · obtain ⟨tx, -, differs⟩ := List.mem_map.mp ingested
      cases differs
    · split at pruned
      next =>
        cases List.mem_singleton.mp pruned
        exact ⟨block, List.mem_cons_self, rfl⟩
      next => cases pruned
    · obtain ⟨other, inRest, same⟩ := ih later
      exact ⟨other, List.mem_cons_of_mem _ inRest, same⟩

def NeverLowered (blocks : List Block) : Prop :=
  ∀ before height tx after, chainEvents {} blocks = before ++ .ingest height tx :: after →
    (Run.run step {} before).PromisesMore (Run.run step {} (before ++ [.ingest height tx]))

/-- What any earlier record promised beyond the heights of the chain is there, with the
bytes it had then. -/
def Retained (blocks : List Block) : Prop :=
  ∀ before after, chainEvents {} blocks = before ++ after →
    ∀ id, ∀ record ∈ (Run.run step {} before).getMeta id,
      (∀ block ∈ blocks, .some block.header.height ≤ record.promise) →
        ∃ later ∈ (Run.run commit {} blocks).getMeta id, record.promise ≤ later.promise ∧
          ((Run.run commit {} blocks).getBytes id).isSome ∧
          (Run.run commit {} blocks).getBytes id = (Run.run step {} before).getBytes id

theorem neverLowered_iff (blocks : List Block) :
    NeverLowered blocks ↔ Run.Allowed step KeepsPromises {} (chainEvents {} blocks) := by
  have lowers (before : List BlobEvent) (height : ℕ) (tx : Transaction) :
      (Run.run step {} before).PromisesMore (Run.run step {} (before ++ [.ingest height tx])) ↔
        (Run.run step {} before).KeepsPromise height tx := by
    rw [Run.run_append]
    exact promisesMore_iff (sound_run before) height tx
  rw [Run.allowed_iff]
  constructor
  · intro never before event after split
    cases event with
    | ingest height tx => exact (lowers before height tx).mp (never before height tx after split)
    | gossip => trivial
    | prune => trivial
  · intro keeps before height tx after split
    exact (lowers before height tx).mpr (keeps before (.ingest height tx) after split)

theorem retained_of_keeps (keeps : Run.Allowed step KeepsPromises {} (chainEvents {} blocks)) :
    Retained blocks := by
  intro before after split id record held due
  rw [split] at keeps
  obtain ⟨later, isLater, least, bytes⟩ := kept_run (sound_run before) keeps.append_right held (by
    intro tipHeight member
    obtain ⟨block, inBlocks, rfl⟩ := @prune_mem_chainEvents _ {} blocks tipHeight
      (split ▸ List.mem_append_right before member)
    exact due block inBlocks)
  rw [run_commit, split, Run.run_append]
  have stored : ((Run.run step {} before).getBytes id).isSome := (sound_run before).stored held
  exact ⟨later, isLater, least, bytes ▸ stored, bytes⟩

/-- The promises of a chain of blocks are kept exactly when no publication and no renewal in
it lowers one. -/
theorem promises_kept_iff (blocks : List Block) :
    NeverLowered blocks ∧ Retained blocks ↔
      Run.Allowed step KeepsPromises {} (chainEvents {} blocks) :=
  ⟨fun kept => (neverLowered_iff blocks).mp kept.1,
    fun keeps => ⟨(neverLowered_iff blocks).mpr keeps, retained_of_keeps keeps⟩⟩

end MediaBlobStore

section Lowered

open Checksum

/-- Another account publishes bytes that were promised up to height 101 for one block. -/
def republishedBlocks : List Block :=
  [blobBlock 1 [blobTx 1 (.putBlob (.prunable 100) "" [7])],
    blobBlock 2 [blobTx 2 (.putBlob (.prunable 1) "" [7])], blobBlock 4 []]

/-- Another account renews a blob that was promised without end by one block. -/
def endlessBlocks : List Block :=
  [blobBlock 1 [blobTx 1 (.putBlob .forever "" [7])],
    blobBlock 2 [blobTx 2 (.renewMediaBlobPin (blobIdOf [7]) 1 1)], blobBlock 4 []]

open MediaBlobStore in
theorem promises_lowered :
    ((Run.run commit {} (republishedBlocks.take 1)).getMeta (blobIdOf [7])).map
        BlobMetaRecord.promise = some (.some 101) ∧
      (Run.run commit {} republishedBlocks).getMeta (blobIdOf [7]) = none ∧
      (Run.run commit {} republishedBlocks).getBytes (blobIdOf [7]) = none ∧
      ((Run.run commit {} (endlessBlocks.take 1)).getMeta (blobIdOf [7])).map
        BlobMetaRecord.promise = some ⊤ ∧
      (Run.run commit {} endlessBlocks).getMeta (blobIdOf [7]) = none ∧
      (Run.run commit {} endlessBlocks).getBytes (blobIdOf [7]) = none := by
  decide +kernel

end Lowered

end BoingNetwork
