import BoingNetwork.Node.MediaBlobStore

/-!
# What the blob sidecar's operations change

`Applied` says, entry by entry, what one transaction does to the index, the data files and
the download lists; a transaction that is refused does nothing.  Pruning removes exactly
the expired entries.  A committed block is a list of such events.
-/

namespace BoingNetwork

open MachineInt

variable {grantee : AccountId} {acl : BlobDownloadAcl}

namespace BlobDownloadAcl

/-- A grant that changes nothing was made before. -/
theorem eq_of_grant_unchanged {next : BlobDownloadAcl}
    (granted : acl.grant grantee = .ok (false, next)) : next = acl ∧ acl.contains grantee := by
  unfold grant at granted
  split at granted
  next member =>
    cases granted
    exact ⟨rfl, member⟩
  next => split at granted <;> cases granted

theorem revoke_unchanged (unchanged : (acl.revoke grantee).1 = false) :
    (acl.revoke grantee).2 = acl := by
  unfold revoke at unchanged ⊢
  dsimp only at unchanged ⊢
  split at unchanged
  next => cases unchanged
  next full =>
    have kept : acl.grantees.filter (· != grantee) = acl.grantees :=
      List.filter_sublist.eq_of_length_le (not_lt.mp full)
    rw [if_neg full, kept]

/-- The epoch counts at least the last revocation. -/
theorem epoch_ne_zero_of_revoke (changed : (acl.revoke grantee).1 = true) :
    (acl.revoke grantee).2.epoch ≠ 0 := by
  unfold revoke at changed ⊢
  dsimp only at changed ⊢
  split at changed
  next shrunk =>
    rw [if_pos shrunk]
    simp [saturatingAdd, maxValue]
  next => cases changed

end BlobDownloadAcl

variable (store : MediaBlobStore) (height : ℕ) (entries : List (String × BlobMetaRecord))
  (tx : Transaction)

namespace MediaBlobStore

section Operations

variable [Crypto]

omit [Crypto] in
/-- The store after an operation; a refused one changes nothing. -/
def after {Value : Type} (store : MediaBlobStore) :
    Except MediaBlobStoreError (Value × MediaBlobStore) → MediaBlobStore
  | .ok (_, next) => next
  | .error _ => store

def applyTx (store : MediaBlobStore) (height : ℕ) (tx : Transaction) : MediaBlobStore :=
  store.after (store.ingestTx height tx)

def metaAfter (key : String) (height : ℕ) (tx : Transaction) (current : Option BlobMetaRecord) :
    Option BlobMetaRecord :=
  match tx.payload with
  | .putBlob retention contentType data =>
    if key = blobIdHex (blobIdOf data) then
      some (publishedRecord tx retention contentType data height)
    else current
  | .renewMediaBlobPin blobId size extendBlocks =>
    if key = blobIdHex blobId then current.map fun record =>
      if record.size = size then
        { record with
          pinUntilHeight := some (renewedPin record height extendBlocks), txId := tx.id }
      else record
    else current
  | _ => current

def bytesAfter (key : String) (tx : Transaction) (current : Option Bytes) : Option Bytes :=
  match tx.payload with
  | .putBlob _ _ data => if key = blobIdHex (blobIdOf data) then current.or (some data) else current
  | _ => current

def accessAfter (key : String) (tx : Transaction) (record : Option BlobMetaRecord)
    (current : Option BlobDownloadAcl) : Option BlobDownloadAcl :=
  match tx.payload with
  | .grantBlobDownload blobId grantee =>
    if key = blobIdHex blobId ∧ record.any (fun record =>
        record.publisher = tx.sender ∧ grantee ≠ record.publisher) then
      match (current.getD {}).grant grantee with
      | .ok (_, acl) => some acl
      | .error _ => current
    else current
  | .revokeBlobDownload blobId grantee =>
    if key = blobIdHex blobId ∧ record.any (fun record => record.publisher = tx.sender) then
      current.map fun acl => (acl.revoke grantee).2
    else current
  | _ => current

/-- The entries that a transaction leaves, and the index files in step with the maps. -/
structure Applied (store : MediaBlobStore) (height : ℕ) (tx : Transaction)
    (next : MediaBlobStore) : Prop where
  index : ∀ key : String, next.index[key]? = metaAfter key height tx store.index[key]?
  data : ∀ key : String, next.data[key]? = bytesAfter key tx store.data[key]?
  access : ∀ key : String,
    next.access[key]? = accessAfter key tx store.index[key]? store.access[key]?
  indexFile : next.indexFile = some next.index ∨
    next.indexFile = store.indexFile ∧ next.index = store.index
  accessFile : next.accessFile = some next.access ∨
    next.accessFile = store.accessFile ∧ next.access = store.access

/-- Nothing but the offer book changes, and the transaction asks for nothing else. -/
theorem Applied.of_same {store next : MediaBlobStore} {height : ℕ} {tx : Transaction}
    (index : next.index = store.index) (data : next.data = store.data)
    (access : next.access = store.access) (indexFile : next.indexFile = store.indexFile)
    (accessFile : next.accessFile = store.accessFile)
    (sameIndex : ∀ key : String, metaAfter key height tx store.index[key]? = store.index[key]?)
    (sameData : ∀ key : String, bytesAfter key tx store.data[key]? = store.data[key]?)
    (sameAccess : ∀ key : String,
      accessAfter key tx store.index[key]? store.access[key]? = store.access[key]?) :
    store.Applied height tx next where
  index key := by rw [index, sameIndex]
  data key := by rw [data, sameData]
  access key := by rw [access, sameAccess]
  indexFile := .inr ⟨indexFile, index⟩
  accessFile := .inr ⟨accessFile, access⟩

theorem applied_put {tx : Transaction} {retention : BlobRetention} {contentType : String}
    {data : Bytes} (payload : tx.payload = .putBlob retention contentType data) :
    store.Applied height tx (store.applyTx height tx) := by
  unfold applyTx ingestTx
  rw [payload]
  simp only [put, publishedRecord, ne_eq, not_true_eq_false, if_false, bind, Except.bind, pure,
    Except.pure, after]
  refine ⟨?_, ?_, ?_, .inl rfl, .inr ⟨rfl, rfl⟩⟩
  · intro key
    simp only [metaAfter, payload, persistIndex, FiniteMap.getElem?_insert, publishedRecord]
  · intro key
    simp only [bytesAfter, payload, persistIndex, Std.ExtTreeMap.contains_eq_isSome_getElem?]
    split
    next present =>
      split
      next same =>
        subst same
        rw [Option.or_of_isSome present]
      next => rfl
    next absent =>
      rw [FiniteMap.getElem?_insert]
      split
      next same =>
        subst same
        rw [Option.not_isSome_iff_eq_none.mp absent, Option.none_or]
      next => rfl
  · intro key
    simp only [accessAfter, payload, persistIndex]

theorem applied_renew {tx : Transaction} {blobId : BlobId} {size extendBlocks : ℕ}
    (payload : tx.payload = .renewMediaBlobPin blobId size extendBlocks) :
    store.Applied height tx (store.applyTx height tx) := by
  have sameData : ∀ key : String, bytesAfter key tx store.data[key]? = store.data[key]? := by
    simp [bytesAfter, payload]
  have sameAccess : ∀ key : String,
      accessAfter key tx store.index[key]? store.access[key]? = store.access[key]? := by
    simp [accessAfter, payload]
  have ran : store.applyTx height tx =
      store.after (store.renewPin blobId size height extendBlocks tx.id) := by
    unfold applyTx ingestTx
    rw [payload]
    dsimp only
    cases store.renewPin blobId size height extendBlocks tx.id <;> rfl
  rw [ran, renewPin]
  split
  next absent =>
    refine .of_same rfl rfl rfl rfl rfl ?_ sameData sameAccess
    intro key
    simp only [metaAfter, payload]
    split
    next same => rw [same, show store.index[blobIdHex blobId]? = none from absent, Option.map_none]
    next => rfl
  next record found =>
    split
    next sized =>
      refine .of_same rfl rfl rfl rfl rfl ?_ sameData sameAccess
      intro key
      simp only [metaAfter, payload]
      split
      next same =>
        rw [same, show store.index[blobIdHex blobId]? = some record from found, Option.map_some,
          if_neg sized]
      next => rfl
    next sized =>
      refine ⟨?_, fun key => (sameData key).symm, fun key => (sameAccess key).symm, .inl rfl,
        .inr ⟨rfl, rfl⟩⟩
      intro key
      simp only [metaAfter, payload]
      refine (FiniteMap.getElem?_insert _ _ _ _).trans ?_
      split
      next same =>
        rw [same, show store.index[blobIdHex blobId]? = some record from found, Option.map_some,
          if_pos (not_not.mp sized)]
      next => rfl

section Access

variable {store : MediaBlobStore} {height : ℕ} {tx : Transaction} {blobId : BlobId}

def SetsAccess (payload : TransactionPayload)
    (blobId : BlobId) : Prop :=
  ∃ grantee, payload = .grantBlobDownload blobId grantee ∨
    payload = .revokeBlobDownload blobId grantee

theorem Applied.of_access (about : SetsAccess tx.payload blobId) {entry : Option BlobDownloadAcl}
    (here : accessAfter (blobIdHex blobId) tx store.index[blobIdHex blobId]?
      store.access[blobIdHex blobId]? = entry) {changed : Bool}
    (unchanged : changed = false → store.access[blobIdHex blobId]? = entry) :
    store.Applied height tx
      (let next := { store with access := FiniteMap.put store.access (blobIdHex blobId) entry }
      if changed then next.persistAccess else next) := by
  have access : ∀ key : String, (FiniteMap.put store.access (blobIdHex blobId) entry)[key]? =
      accessAfter key tx store.index[key]? store.access[key]? := by
    intro key
    rw [FiniteMap.getElem?_put]
    split
    next same => rw [← same, here]
    next differs =>
      have other : key ≠ blobIdHex blobId := fun same => differs same.symm
      obtain ⟨grantee, payload | payload⟩ := about <;> simp [accessAfter, payload, other]
  have index : ∀ key : String, store.index[key]? = metaAfter key height tx store.index[key]? := by
    obtain ⟨grantee, payload | payload⟩ := about <;> simp [metaAfter, payload]
  have data : ∀ key : String, store.data[key]? = bytesAfter key tx store.data[key]? := by
    obtain ⟨grantee, payload | payload⟩ := about <;> simp [bytesAfter, payload]
  cases changed with
  | true => exact ⟨index, data, access, .inr ⟨rfl, rfl⟩, .inl rfl⟩
  | false =>
    refine ⟨index, data, access, .inr ⟨rfl, rfl⟩, .inr ⟨rfl, ?_⟩⟩
    have same := FiniteMap.put_getElem? store.access (blobIdHex blobId)
    rwa [unchanged rfl] at same

theorem Applied.of_sameAccess (about : SetsAccess tx.payload blobId)
    (same : accessAfter (blobIdHex blobId) tx store.index[blobIdHex blobId]?
      store.access[blobIdHex blobId]? = store.access[blobIdHex blobId]?) :
    store.Applied height tx store := by
  have applied : store.Applied height tx _ :=
    @Applied.of_access _ store height tx blobId about _ same false fun _ => rfl
  rwa [FiniteMap.put_getElem?] at applied

theorem applied_grant (payload : tx.payload = .grantBlobDownload blobId grantee) :
    store.Applied height tx (store.applyTx height tx) := by
  have about : SetsAccess tx.payload blobId := ⟨grantee, .inl payload⟩
  have ran : store.applyTx height tx =
      store.after (store.grantDownload blobId tx.sender grantee) := by
    unfold applyTx ingestTx
    rw [payload]
    dsimp only
    cases store.grantDownload blobId tx.sender grantee <;> rfl
  rw [ran, grantDownload]
  split
  next absent =>
    refine .of_sameAccess about ?_
    simp [accessAfter, payload, show store.index[blobIdHex blobId]? = none from absent]
  next record found =>
    have recorded : store.index[blobIdHex blobId]? = some record := found
    split
    next notPublisher =>
      exact .of_sameAccess about (by simp [accessAfter, payload, recorded, notPublisher])
    next isPublisher =>
      split
      next toItself =>
        exact .of_sameAccess about (by simp [accessAfter, payload, recorded, toItself])
      next toOther =>
        have mayGrant : (some record).any (fun record =>
            record.publisher = tx.sender ∧ grantee ≠ record.publisher) :=
          decide_eq_true ⟨not_not.mp isPublisher, toOther⟩
        split
        next error failed =>
          rw [getAccess] at failed
          exact .of_sameAccess about (by simp [accessAfter, payload, failed])
        next changed acl granted =>
          rw [getAccess] at granted
          refine @Applied.of_access _ store height tx blobId about (some acl) ?_ changed ?_
          · simp only [accessAfter, payload, recorded]
            rw [if_pos ⟨trivial, mayGrant⟩, granted]
          · rintro rfl
            obtain ⟨rfl, member⟩ := BlobDownloadAcl.eq_of_grant_unchanged granted
            cases current : store.access[blobIdHex blobId]? with
            | none => simp [current, BlobDownloadAcl.contains] at member
            | some acl => rfl

theorem applied_revoke (payload : tx.payload = .revokeBlobDownload blobId grantee) :
    store.Applied height tx (store.applyTx height tx) := by
  have about : SetsAccess tx.payload blobId := ⟨grantee, .inr payload⟩
  have ran : store.applyTx height tx =
      store.after (store.revokeDownload blobId tx.sender grantee) := by
    unfold applyTx ingestTx
    rw [payload]
    dsimp only
    cases store.revokeDownload blobId tx.sender grantee <;> rfl
  rw [ran, revokeDownload]
  split
  next absent =>
    refine .of_sameAccess about ?_
    simp [accessAfter, payload, show store.index[blobIdHex blobId]? = none from absent]
  next record found =>
    have recorded : store.index[blobIdHex blobId]? = some record := found
    split
    next notPublisher =>
      exact .of_sameAccess about (by simp [accessAfter, payload, recorded, notPublisher])
    next isPublisher =>
      split
      next absent => exact .of_sameAccess about (by simp [accessAfter, payload, absent])
      next acl current =>
        -- The epoch is raised with every revocation, so the entry is never dropped.
        have stays : ¬((acl.revoke grantee).1 = true ∧ (acl.revoke grantee).2.grantees = [] ∧
            (acl.revoke grantee).2.epoch = 0) :=
          fun dropped => BlobDownloadAcl.epoch_ne_zero_of_revoke dropped.1 dropped.2.2
        dsimp only
        rw [if_neg stays]
        refine Applied.of_access about ?_ ?_
        · simp [accessAfter, payload, recorded, current, not_not.mp isPublisher]
        · intro unchanged
          rw [BlobDownloadAcl.revoke_unchanged unchanged, current]

end Access

theorem applied_applyTx : store.Applied height tx (store.applyTx height tx) := by
  cases payload : tx.payload with
  | putBlob retention contentType data => exact applied_put store height payload
  | renewMediaBlobPin blobId size extendBlocks => exact applied_renew store height payload
  | grantBlobDownload blobId grantee => exact applied_grant payload
  | revokeBlobDownload blobId grantee => exact applied_revoke payload
  | registerBlobSampleOffer blobId chunkIndex chunkCount askFee expiresAtHeight =>
    have ran : ∃ market, store.applyTx height tx =
        { store with onchainSampleMarket := market } := by
      unfold applyTx ingestTx upsertOnchainSampleOffer
      rw [payload]
      dsimp only
      split
      next => exact ⟨_, rfl⟩
      next =>
        split
        next => exact ⟨_, rfl⟩
        next => exact ⟨_, rfl⟩
    obtain ⟨market, ran⟩ := ran
    rw [ran]
    refine .of_same rfl rfl rfl rfl rfl ?_ ?_ ?_ <;>
      simp [metaAfter, bytesAfter, accessAfter, payload]
  | settleBlobSampleMatch blobId chunkIndex chunkCount provider =>
    have ran : ∃ market, store.applyTx height tx =
        { store with onchainSampleMarket := market } := by
      unfold applyTx ingestTx removeOnSettle
      rw [payload]
      dsimp only
      split
      next => exact ⟨_, rfl⟩
      next => exact ⟨_, rfl⟩
    obtain ⟨market, ran⟩ := ran
    rw [ran]
    refine .of_same rfl rfl rfl rfl rfl ?_ ?_ ?_ <;>
      simp [metaAfter, bytesAfter, accessAfter, payload]
  | _ =>
    have ran : store.applyTx height tx = store := by
      unfold applyTx ingestTx
      rw [payload]
      rfl
    rw [ran]
    refine .of_same rfl rfl rfl rfl rfl ?_ ?_ ?_ <;>
      simp [metaAfter, bytesAfter, accessAfter, payload]

end Operations

/-! ## Pruning -/

theorem removed (store : MediaBlobStore) (key : String) : (entries.foldl remove store).index[key]? =
        (if key ∈ entries.map Prod.fst then none else store.index[key]?) ∧
      (entries.foldl remove store).access[key]? =
        (if key ∈ entries.map Prod.fst then none else store.access[key]?) ∧
      (entries.foldl remove store).data[key]? =
        (if key ∈ entries.map (blobIdHex ·.2.blobId) then none else store.data[key]?) := by
  induction entries generalizing store with
  | nil => simp
  | cons entry entries ih =>
    obtain ⟨index, access, data⟩ := ih (store.remove entry)
    rw [List.foldl_cons, index, access, data]
    simp only [remove, FiniteMap.getElem?_erase, List.map_cons, List.mem_cons]
    grind

theorem accessFile_removed (store : MediaBlobStore) :
    (entries.foldl remove store).accessFile = store.accessFile := by
  induction entries generalizing store with
  | nil => rfl
  | cons entry entries ih => exact ih (store.remove entry)

/-- Every record stands under its own blob's key, has its bytes and a 64-bit horizon. -/
structure Sound (store : MediaBlobStore) : Prop where
  keyed : ∀ {key : String} {record}, store.index[key]? = some record →
    blobIdHex record.blobId = key
  stored : ∀ {key : String} {record}, store.index[key]? = some record →
    (store.data[key]?).isSome
  bounded : ∀ {key : String} {record}, store.index[key]? = some record →
    ∀ expiry ∈ record.expiryHeight, expiry ≤ maxValue 64

theorem Sound.of_records {store : MediaBlobStore}
    (records : ∀ {key : String} {record}, store.index[key]? = some record →
      blobIdHex record.blobId = key ∧ (store.data[key]?).isSome ∧
        ∀ expiry ∈ record.expiryHeight, expiry ≤ maxValue 64) : store.Sound :=
  ⟨fun found => (records found).1, fun found => (records found).2.1,
    fun found => (records found).2.2⟩

/-- The expired entries are gone, and the index files are in step with the maps. -/
structure Pruned (store : MediaBlobStore) (tipHeight : ℕ) (next : MediaBlobStore) : Prop where
  index : ∀ key : String,
    next.index[key]? = store.index[key]?.filter fun record => !record.isExpired tipHeight
  data : ∀ key : String, next.data[key]? =
    if store.index[key]?.any (·.isExpired tipHeight) then none else store.data[key]?
  access : ∀ key : String, next.access[key]? =
    if store.index[key]?.any (·.isExpired tipHeight) then none else store.access[key]?
  indexFile : next.indexFile = some next.index ∨
    next.indexFile = store.indexFile ∧ next.index = store.index
  accessFile : next.accessFile = some next.access ∨
    next.accessFile = store.accessFile ∧ next.access = store.access

variable {store : MediaBlobStore} {tipHeight : ℕ}

theorem mem_expired {key : String} : key ∈ (store.expired tipHeight).map Prod.fst ↔
      store.index[key]?.any (·.isExpired tipHeight) := by
  simp only [expired, List.mem_map, List.mem_filter, Std.ExtTreeMap.mem_toList_iff_getElem?_eq_some,
    Prod.exists, exists_and_right, exists_eq_right]
  cases store.index[key]? <;> simp

theorem Sound.map_blobId_expired (sound : store.Sound) :
    (store.expired tipHeight).map (blobIdHex ·.2.blobId) =
      (store.expired tipHeight).map Prod.fst := by
  apply List.map_congr_left
  intro entry member
  have member := List.mem_of_mem_filter member
  exact sound.keyed (Std.ExtTreeMap.mem_toList_iff_getElem?_eq_some.mp member)

theorem Sound.pruned (sound : store.Sound) (tipHeight : ℕ) :
    store.Pruned tipHeight (store.pruneExpired tipHeight) := by
  set pruned := (store.expired tipHeight).foldl remove store with isPruned
  have entries := removed (store.expired tipHeight) store
  rw [← isPruned, sound.map_blobId_expired] at entries
  simp only [mem_expired] at entries
  have index : ∀ key : String,
      pruned.index[key]? = store.index[key]?.filter fun record => !record.isExpired tipHeight := by
    intro key
    rw [(entries key).1]
    cases store.index[key]? with
    | none => rfl
    | some record => cases expired : record.isExpired tipHeight <;> simp [expired, Option.filter]
  have sameIndex : store.expired tipHeight = [] → pruned.index = store.index := by
    intro none_
    rw [isPruned, none_, List.foldl_nil]
  have sameAccess : ((store.expired tipHeight).any fun entry => store.access.contains entry.1) =
      false → pruned.access = store.access := by
    intro none_
    apply Std.ExtTreeMap.ext_getElem?
    intro key
    rw [(entries key).2.1]
    split
    next isExpired =>
      obtain ⟨entry, member, rfl⟩ := List.mem_map.mp (mem_expired.mpr isExpired)
      have absent := List.any_eq_false.mp none_ entry member
      rw [Std.ExtTreeMap.contains_eq_isSome_getElem?] at absent
      exact (Option.not_isSome_iff_eq_none.mp absent).symm
    next => rfl
  have files : (store.pruneExpired tipHeight).index = pruned.index ∧
      (store.pruneExpired tipHeight).data = pruned.data ∧
      (store.pruneExpired tipHeight).access = pruned.access := by
    unfold pruneExpired
    dsimp only
    split <;> split <;> exact ⟨rfl, rfl, rfl⟩
  obtain ⟨isIndex, isData, isAccess⟩ := files
  refine ⟨?_, ?_, ?_, ?_, ?_⟩
  · rw [isIndex]; exact index
  · rw [isData]; exact fun key => (entries key).2.2
  · rw [isAccess]; exact fun key => (entries key).2.1
  · rw [isIndex]
    unfold pruneExpired
    dsimp only
    cases empty : (store.expired tipHeight).isEmpty with
    | true =>
      refine .inr ⟨?_, sameIndex (List.isEmpty_iff.mp empty)⟩
      rw [List.isEmpty_iff.mp empty]
      rfl
    | false => split <;> exact .inl rfl
  · rw [isAccess]
    have written : (store.pruneExpired tipHeight).accessFile =
        if (store.expired tipHeight).any fun entry => store.access.contains entry.1 then
          some pruned.access else pruned.accessFile := by
      unfold pruneExpired
      dsimp only
      split <;> split <;> simp_all [persistIndex, persistAccess]
    rw [written]
    split
    next => exact .inl rfl
    next unlisted =>
      exact .inr ⟨accessFile_removed _ store, sameAccess (Bool.not_eq_true _ ▸ unlisted)⟩

/-! ## Histories -/

end MediaBlobStore

/-- What can happen to the sidecar. -/
inductive BlobEvent where
  | ingest (height : ℕ) (tx : Transaction)
  | gossip (id : BlobId) (data : Bytes)
  | prune (tipHeight : ℕ)

namespace MediaBlobStore

section Histories

variable [Crypto]

def step (store : MediaBlobStore) : BlobEvent → MediaBlobStore
  | .ingest height tx => store.applyTx height tx
  | .gossip id data => store.after (store.putGossipBytesIfKnown id data)
  | .prune tipHeight => store.pruneExpired tipHeight

theorem gossip_eq (id : BlobId) (data : Bytes) : store.step (.gossip id data) = store ∨
      store.data[blobIdHex id]? = none ∧ store.step (.gossip id data) =
          { store with data := store.data.insert (blobIdHex id) data } := by
  simp only [step, putGossipBytesIfKnown]
  split
  next => exact .inl rfl
  next =>
    split
    next => exact .inl rfl
    next =>
      split
      next => exact .inl rfl
      next =>
        split
        next => exact .inl rfl
        next absent => exact .inr ⟨Option.not_isSome_iff_eq_none.mp absent, rfl⟩

theorem expiryHeight_publishedRecord_le (retention : BlobRetention) (contentType : String)
    (data : Bytes) (height : ℕ) :
    ∀ expiry ∈ (publishedRecord tx retention contentType data height).expiryHeight,
      expiry ≤ maxValue 64 := by
  intro expiry promised
  cases retention with
  | prunable ttlBlocks =>
    cases promised
    exact min_le_right _ _
  | forever => cases promised

theorem Sound.applyTx {store : MediaBlobStore} (sound : store.Sound) (height : ℕ)
    (tx : Transaction) : (store.applyTx height tx).Sound := by
  have applied := applied_applyTx store height tx
  apply Sound.of_records
  intro key record found
  rw [applied.index, metaAfter] at found
  rw [applied.data, bytesAfter]
  split at found
  next retention contentType data payload =>
    simp only [payload]
    split at found
    next same =>
      cases found
      refine ⟨same.symm, ?_, expiryHeight_publishedRecord_le tx retention contentType data height⟩
      simp [same]
    next differs =>
      rw [if_neg differs]
      exact ⟨sound.keyed found, sound.stored found, sound.bounded found⟩
  next blobId size extendBlocks payload =>
    simp only [payload]
    split at found
    next =>
      obtain ⟨previous, recorded, rfl⟩ := Option.map_eq_some_iff.mp found
      have keyed := sound.keyed recorded
      have bounded := sound.bounded recorded
      split
      next =>
        refine ⟨keyed, sound.stored recorded, ?_⟩
        rintro expiry ⟨⟩
        exact min_le_right _ _
      next => exact ⟨keyed, sound.stored recorded, bounded⟩
    next => exact ⟨sound.keyed found, sound.stored found, sound.bounded found⟩
  next notPut _ =>
    refine ⟨sound.keyed found, ?_, sound.bounded found⟩
    split
    next payload => exact absurd payload (notPut _ _ _)
    next => exact sound.stored found

theorem Sound.step {store : MediaBlobStore} (sound : store.Sound) (event : BlobEvent) :
    (store.step event).Sound := by
  cases event with
  | ingest height tx => exact sound.applyTx height tx
  | gossip id data =>
    rcases gossip_eq store id data with same | ⟨-, filled⟩
    · rwa [same]
    · rw [filled]
      refine ⟨sound.keyed, fun found => ?_, sound.bounded⟩
      simp only [FiniteMap.getElem?_insert]
      split
      next => rfl
      next => exact sound.stored found
  | prune tipHeight =>
    have pruned := sound.pruned tipHeight
    apply Sound.of_records
    intro key record found
    rw [MediaBlobStore.step, pruned.index, Option.filter_eq_some_iff] at found
    obtain ⟨recorded, fresh⟩ := found
    refine ⟨sound.keyed recorded, ?_, sound.bounded recorded⟩
    rw [MediaBlobStore.step, pruned.data, recorded]
    simpa [Bool.not_eq_true' _ ▸ fresh] using sound.stored recorded

omit [Crypto] in
theorem sound_empty : ({} : MediaBlobStore).Sound :=
  .of_records fun found => by simp at found

theorem sound_run (events : List BlobEvent) : (Run.run step {} events).Sound :=
  @Run.invariant_of_forall _ _ step {} Sound (fun _ event sound => Sound.step sound event)
    sound_empty events

/-- The transactions of a block that are ingested before one is refused. -/
def ingested (height : ℕ) : MediaBlobStore → List Transaction → List Transaction
  | _, [] => []
  | store, tx :: txs =>
    match store.ingestTx height tx with
    | .error _ => []
    | .ok (_, stored) => tx :: ingested height stored txs

/-- The refused transaction and those after it. -/
def skipped (height : ℕ) : MediaBlobStore → List Transaction → List Transaction
  | _, [] => []
  | store, tx :: txs =>
    match store.ingestTx height tx with
    | .error _ => tx :: txs
    | .ok (_, stored) => skipped height stored txs

section

variable (height : ℕ) (store : MediaBlobStore) (txs : List Transaction)

theorem ingested_append_skipped : ingested height store txs ++ skipped height store txs = txs := by
  induction txs generalizing store with
  | nil => rfl
  | cons tx txs ih =>
    rw [ingested, skipped]
    cases store.ingestTx height tx with
    | error error => rfl
    | ok result => exact congrArg (tx :: ·) (ih result.2)

theorem allowed_ingested :
    Run.Allowed (·.applyTx height ·) (fun store tx => (store.ingestTx height tx).isOk) store
      (ingested height store txs) := by
  induction txs generalizing store with
  | nil => trivial
  | cons tx txs ih =>
    rw [ingested]
    cases ran : store.ingestTx height tx with
    | error error => trivial
    | ok result =>
      have applied : store.applyTx height tx = result.2 := by rw [applyTx, ran]; rfl
      refine ⟨congrArg Except.isOk ran, ?_⟩
      dsimp only
      rw [applied]
      exact ih result.2

theorem ingestBlockTxs_fst : (ingestBlockTxs height store txs).1 =
      Run.run (·.applyTx height ·) store (ingested height store txs) := by
  induction txs generalizing store with
  | nil => rfl
  | cons tx txs ih =>
    rw [ingestBlockTxs, ingested]
    cases ran : store.ingestTx height tx with
    | error error => rfl
    | ok result =>
      have applied : store.applyTx height tx = result.2 := by rw [applyTx, ran]; rfl
      rw [Run.run_cons, applied]
      exact ih result.2

theorem ingestBlockTxs_isOk :
    (ingestBlockTxs height store txs).2.isOk ↔ ingested height store txs = txs := by
  induction txs generalizing store with
  | nil => simp [ingestBlockTxs, ingested, Except.isOk, Except.toBool]
  | cons tx txs ih =>
    rw [ingestBlockTxs, ingested]
    cases ran : store.ingestTx height tx with
    | error error => simp [Except.isOk, Except.toBool]
    | ok result =>
      rw [List.cons.injEq, eq_self_iff_true, true_and, ← ih result.2]
      cases rest : (ingestBlockTxs height result.2 txs).2 <;>
        simp [rest, Except.map, Except.isOk, Except.toBool]

end

def blockEvents (store : MediaBlobStore) (block : Block) : List BlobEvent :=
  (ingested block.header.height store block.transactions).map (.ingest block.header.height) ++
    if (ingestBlockTxs block.header.height store block.transactions).2.isOk then
      [.prune block.header.height]
    else []

theorem run_ingest (txs : List Transaction) (store : MediaBlobStore) :
    Run.run step store (txs.map (.ingest height)) = Run.run (·.applyTx height ·) store txs := by
  rw [Run.run, List.foldl_map]
  rfl

theorem commit_eq_run (block : Block) :
    store.commit block = Run.run step store (store.blockEvents block) := by
  rw [blockEvents, Run.run_append, run_ingest, ← ingestBlockTxs_fst, commit]
  split
  next ran => simp [ran, Except.isOk, Except.toBool, step]
  next ran => simp [ran, Except.isOk, Except.toBool]

def chainEvents : MediaBlobStore → List Block → List BlobEvent
  | _, [] => []
  | store, block :: blocks => store.blockEvents block ++ chainEvents (store.commit block) blocks

theorem run_commit (blocks : List Block) :
    Run.run commit store blocks = Run.run step store (store.chainEvents blocks) := by
  induction blocks generalizing store with
  | nil => rfl
  | cons block blocks ih =>
    rw [chainEvents, Run.run_cons, Run.run_append, ← commit_eq_run, ih]

end Histories

end MediaBlobStore

/-! ## Blocks of blob transactions -/

def blobTx (sender : AccountId) (payload : TransactionPayload) : Transaction :=
  ⟨0, sender, payload, ⟨[], []⟩⟩

def blobBlock (height : ℕ) (transactions : List Transaction) : Block :=
  ⟨⟨0, height, 0, 0, 0, 0, 0, none⟩, transactions, [], []⟩

end BoingNetwork
