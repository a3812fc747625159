import BoingNetwork.Node.BlobOperations
import BoingNetwork.Primitives.Checksum
import BoingNetwork.Primitives.TransactionCodec

/-!
# Reopening the blob sidecar

The index files hold the two maps in bincode, entry by entry in an arbitrary order.  An
absent pin is skipped when a record is written, and read as a field like the others, so a
record without a pin leaves the reader one byte short: it meets the length of the next key
or the end of the file where it expects an option, and the index is reset to empty.
-/

namespace BoingNetwork

open Bincode BlobMetaRecord Codec MachineInt Std

/-! ## The files -/

/-- The fields before the pin. -/
def BlobMetaRecord.serializeFields (record : BlobMetaRecord) : Bytes :=
  bytes32 record.blobId ++ leBytes 4 record.size ++ string record.contentType ++
    record.retention.serialize ++ bytes32 record.publisher ++ leBytes 8 record.includedHeight ++
    bytes32 record.txId

/-- `bincode::serialize` of a record: nothing is written for an absent pin. -/
def BlobMetaRecord.serialize (record : BlobMetaRecord) : Bytes :=
  record.serializeFields ++
    match record.pinUntilHeight with
    | none => []
    | some pin => option (leBytes 8) (some pin)

/-- The reader of the fields before the pin. -/
def BlobMetaRecord.fieldsCodec :
    Codec UInt8 (BlobId × ℕ × String × BlobRetention × AccountId × ℕ × Hash) :=
  pair wordCodec (pair (uintCodec 4) (pair stringCodec (pair BlobRetention.codec
    (pair wordCodec (pair (uintCodec 8) wordCodec)))))

def BlobMetaRecord.fields (record : BlobMetaRecord) :
    BlobId × ℕ × String × BlobRetention × AccountId × ℕ × Hash :=
  (record.blobId, record.size, record.contentType, record.retention, record.publisher,
    record.includedHeight, record.txId)

variable (record : BlobMetaRecord) {key : String} {bytes : Bytes}

theorem BlobMetaRecord.fieldsCodec_encode :
    fieldsCodec.encode record.fields = record.serializeFields := by
  simp only [serializeFields, List.append_assoc]
  rfl

/-- The reader of a record, which expects an option where the pin stands. -/
def BlobMetaRecord.codec : Codec UInt8 BlobMetaRecord :=
  ((pair fieldsCodec (optionCodec (uintCodec 8))).congr
    { toFun := fun ((blobId, size, contentType, retention, publisher, includedHeight, txId), pin) =>
        ⟨blobId, size, contentType, retention, publisher, includedHeight, txId, pin⟩
      invFun := fun record => (record.fields, record.pinUntilHeight)
      left_inv := fun _ => rfl
      right_inv := fun _ => rfl }).withEncode
    (fun record => record.serializeFields ++ option (leBytes 8) record.pinUntilHeight)
    fun record => by rw [← fieldsCodec_encode]; rfl

@[simp]
theorem BlobMetaRecord.codec_encode : codec.encode record =
      record.serializeFields ++ option (leBytes 8) record.pinUntilHeight := rfl

theorem BlobMetaRecord.codec_valid : codec.Valid record ↔
      (record.size < 2 ^ 32 ∧ TextFits record.contentType ∧ record.retention.Fits ∧
        record.includedHeight < 2 ^ 64) ∧ ∀ pin ∈ record.pinUntilHeight, pin < 2 ^ 64 := by
  simp [codec, Codec.congr, Codec.withEncode, fieldsCodec, fields]

def BlobDownloadAcl.codec : Codec UInt8 BlobDownloadAcl :=
  (pair (vecCodec wordCodec) (uintCodec 8)).congr
    { toFun := fun (grantees, epoch) => ⟨grantees, epoch⟩
      invFun := fun acl => (acl.grantees, acl.epoch)
      left_inv := fun _ => rfl
      right_inv := fun _ => rfl }

/-- The bytes are a map's `HashMap` encoding, whose order is arbitrary. -/
def Encodes {Value : Type} (write : Value → Bytes) (entries : ExtTreeMap String Value)
    (bytes : Bytes) : Prop :=
  ∃ order : List (String × Value), order.Perm entries.toList ∧
    bytes = vec (fun entry => string entry.1 ++ write entry.2) order

/-- A file is read into a map; a file that does not decode gives the empty map. -/
def readMap {Value : Type} (codec : Codec UInt8 Value) : Option Bytes → ExtTreeMap String Value
  | none => ∅
  | some bytes =>
    match (vecCodec (pair stringCodec codec)).decode bytes with
    | some (entries, _) => .ofList entries
    | none => ∅

namespace MediaBlobStore

structure Files (store : MediaBlobStore) where
  index : Option Bytes
  access : Option Bytes
  index_encodes : Option.Rel (Encodes serialize) store.indexFile index
  access_encodes : Option.Rel (Encodes BlobDownloadAcl.codec.encode) store.accessFile access

def sortedFiles (store : MediaBlobStore) : store.Files where
  index := store.indexFile.map fun entries =>
    vec (fun entry => string entry.1 ++ entry.2.serialize) entries.toList
  access := store.accessFile.map fun entries =>
    vec (fun entry => string entry.1 ++ BlobDownloadAcl.codec.encode entry.2) entries.toList
  index_encodes := by
    cases store.indexFile with
    | none => exact .none
    | some entries => exact .some ⟨entries.toList, .refl _, rfl⟩
  access_encodes := by
    cases store.accessFile with
    | none => exact .none
    | some entries => exact .some ⟨entries.toList, .refl _, rfl⟩

/-- The store that is opened from the files; the data files and the offer book, which has
a file of its own, are as they were. -/
def reopen (store : MediaBlobStore) (files : store.Files) : MediaBlobStore :=
  { store with
    index := readMap codec files.index
    access := readMap BlobDownloadAcl.codec files.access }

def SameBlobs (store other : MediaBlobStore) : Prop :=
  (∀ id, other.getMeta id = store.getMeta id) ∧
    ∀ id account, other.mayDownload id account = store.mayDownload id account

end MediaBlobStore

/-! ## Reading what was written -/

section Reading

variable {Value : Type} {codec : Codec UInt8 Value} {entries : ExtTreeMap String Value}

theorem readMap_of_encodes (encodes : Encodes codec.encode entries bytes)
    (small : entries.size < 2 ^ 64)
    (valid : ∀ {key : String} {value}, entries[key]? = some value →
      TextFits key ∧ codec.Valid value) : readMap codec (some bytes) = entries := by
  obtain ⟨order, isOrder, rfl⟩ := encodes
  have fits : (vecCodec (pair stringCodec codec)).Valid order := by
    refine (vecCodec_valid _ order).mpr ⟨?_, fun entry member => ?_⟩
    · rwa [isOrder.length_eq, ExtTreeMap.length_toList]
    · exact valid (ExtTreeMap.mem_toList_iff_getElem?_eq_some.mp (isOrder.mem_iff.mp member))
  have read := (vecCodec (pair stringCodec codec)).decode_append fits []
  rw [List.append_nil] at read
  have read : (vecCodec (pair stringCodec codec)).decode
      (vec (fun entry => string entry.1 ++ codec.encode entry.2) order) = some (order, []) := read
  rw [readMap, read]
  exact FiniteMap.ofList_of_perm isOrder

end Reading

theorem BlobMetaRecord.serialize_of_pinned {record : BlobMetaRecord}
    (pinned : record.pinUntilHeight.isSome) :
    record.serialize = codec.encode record := by
  obtain ⟨pin, isPin⟩ := Option.isSome_iff_exists.mp pinned
  rw [codec_encode, serialize, isPin]

/-- No key of 64 characters starts like an option. -/
theorem option_ne_string {value : Option ℕ} {rest more : Bytes} (length : (utf8 key).length = 64) :
    option (leBytes 8) value ++ rest ≠ string key ++ more := by
  intro same
  have first : (string key ++ more).head? = some 64 := by
    rw [string, byteVec, length]
    rfl
  rw [← same] at first
  cases value <;> simp [option] at first

/-- Reading a record without a pin fails in front of a key of 64 characters and at the end. -/
theorem BlobMetaRecord.misaligned {record : BlobMetaRecord}
    (valid : TextFits key ∧ codec.Valid record)
    (unpinned : record.pinUntilHeight = none) {others : List (String × BlobMetaRecord)}
    (keys : ∀ other ∈ others, (utf8 other.1).length = 64) {other : String × BlobMetaRecord}
    (otherValid : (pair stringCodec codec).Valid other) (rest : Bytes) :
    (pair stringCodec codec).encode other ++ rest ≠
      (string key ++ record.serialize) ++
        others.flatMap fun entry => string entry.1 ++ entry.2.serialize := by
  intro same
  rw [pair_encode, stringCodec_encode, codec_encode, serialize, unpinned] at same
  simp only [List.append_assoc, List.nil_append] at same
  obtain ⟨-, sameRecord⟩ := stringCodec.append_inj otherValid.1 valid.1 same
  rw [← fieldsCodec_encode, ← fieldsCodec_encode] at sameRecord
  obtain ⟨-, sameRest⟩ := fieldsCodec.append_inj otherValid.2.1 valid.2.1 sameRecord
  cases others with
  | nil => cases pin : other.2.pinUntilHeight <;> simp [pin, option] at sameRest
  | cons next others =>
    rw [List.flatMap_cons, List.append_assoc] at sameRest
    exact option_ne_string (keys next List.mem_cons_self) sameRest

theorem decode_records {order : List (String × BlobMetaRecord)} (small : order.length < 2 ^ 64)
    (valid : ∀ entry ∈ order, (utf8 entry.1).length = 64 ∧ codec.Valid entry.2)
    {result : List (String × BlobMetaRecord) × Bytes} :
    (vecCodec (pair stringCodec codec)).decode
        (vec (fun entry => string entry.1 ++ entry.2.serialize) order) = some result ↔
      (∀ entry ∈ order, entry.2.pinUntilHeight.isSome) ∧ result = (order, []) := by
  have fits : ∀ entry ∈ order, TextFits entry.1 ∧ codec.Valid entry.2 := by
    intro entry member
    refine ⟨?_, (valid entry member).2⟩
    rw [TextFits, (valid entry member).1]
    norm_num
  have counted : (uintCodec 8).decode
      (vec (fun entry => string entry.1 ++ entry.2.serialize) order) =
        some (order.length, order.flatMap fun entry => string entry.1 ++ entry.2.serialize) :=
    (uintCodec 8).decode_append small _
  have read : (vecCodec (pair stringCodec codec)).decode
      (vec (fun entry => string entry.1 ++ entry.2.serialize) order) =
      (pair stringCodec codec).decodeMany order.length
        (order.flatMap fun entry => string entry.1 ++ entry.2.serialize) := by
    change ((uintCodec 8).decode _ >>= _) = _
    rw [counted]
    rfl
  rw [read]
  refine (pair stringCodec codec).decodeMany_of_misaligned fits ?_ ?_
  · intro entry _ pinned
    rw [serialize_of_pinned pinned]
    rfl
  · intro entry member unpinned others subset other rest otherValid
    exact misaligned (fits entry member) (Option.not_isSome_iff_eq_none.mp unpinned)
      (fun next isNext => (valid next (subset isNext)).1) otherValid rest

def Pinned (index : ExtTreeMap String BlobMetaRecord) : Prop :=
  ∀ (key : String) (record : BlobMetaRecord), index[key]? = some record →
    record.pinUntilHeight.isSome

/-- The index file reads back if every record has a pin, and as an empty index otherwise. -/
theorem readMap_index {index : ExtTreeMap String BlobMetaRecord}
    (encodes : Encodes serialize index bytes) (small : index.size < 2 ^ 64)
    (valid : ∀ {key : String} {record}, index[key]? = some record →
      (utf8 key).length = 64 ∧ codec.Valid record) :
    Pinned index ∧ readMap codec (some bytes) = index ∨
      ¬Pinned index ∧ readMap codec (some bytes) = ∅ := by
  obtain ⟨order, isOrder, rfl⟩ := encodes
  have isEntry : ∀ {key : String} {record}, (key, record) ∈ order ↔ index[key]? = some record :=
    isOrder.mem_iff.trans ExtTreeMap.mem_toList_iff_getElem?_eq_some
  have decoded := fun result => @decode_records order
    (by rwa [isOrder.length_eq, ExtTreeMap.length_toList])
    (fun entry member => valid (isEntry.mp member)) result
  by_cases pinned : Pinned index
  · have read := (decoded (order, [])).mpr
      ⟨fun entry member => pinned entry.1 entry.2 (isEntry.mp member), rfl⟩
    refine .inl ⟨pinned, ?_⟩
    rw [readMap, read]
    exact FiniteMap.ofList_of_perm isOrder
  · refine .inr ⟨pinned, ?_⟩
    rw [readMap]
    split
    next read =>
      exact absurd (fun key record found => ((decoded _).mp read).1 (key, record)
        (isEntry.mpr found)) pinned
    next => rfl

namespace MediaBlobStore

/-! ## Stores in step with their files -/

/-- The files hold the maps, whose numbers and lengths have the width of their types. -/
structure Persisted (store : MediaBlobStore) : Prop where
  index : store.indexFile.getD ∅ = store.index
  access : store.accessFile.getD ∅ = store.access
  records : ∀ {key : String} {record}, store.index[key]? = some record →
    (utf8 key).length = 64 ∧ codec.Valid record
  lists : ∀ {key : String} {acl}, store.access[key]? = some acl →
    (utf8 key).length = 64 ∧ BlobDownloadAcl.codec.Valid acl

theorem length_utf8_blobIdHex (id : BlobId) : (utf8 (blobIdHex id)).length = 64 := by
  rw [blobIdHex, length_utf8_hexEncode, length_bytes32]

end MediaBlobStore

/-- The numbers of an event have the width of their types. -/
def BlobEvent.Fits : BlobEvent → Prop
  | .ingest height tx => height < 2 ^ 64 ∧ tx.Fits
  | _ => True

namespace BlobDownloadAcl

theorem codec_valid (acl : BlobDownloadAcl) :
    BlobDownloadAcl.codec.Valid acl ↔ acl.grantees.length < 2 ^ 64 ∧ acl.epoch < 2 ^ 64 := by
  simp [BlobDownloadAcl.codec, Codec.congr]

theorem valid_grant {acl next : BlobDownloadAcl} {grantee : AccountId} {changed : Bool}
    (valid : BlobDownloadAcl.codec.Valid acl) (granted : acl.grant grantee = .ok (changed, next)) :
    BlobDownloadAcl.codec.Valid next := by
  unfold grant at granted
  split at granted
  next =>
    cases granted
    exact valid
  next =>
    split at granted
    next => cases granted
    next room =>
      cases granted
      rw [codec_valid] at valid ⊢
      rw [PHASE34_MAX_BLOB_DOWNLOAD_GRANTEES] at room
      refine ⟨?_, valid.2⟩
      rw [List.length_append, List.length_singleton]
      omega

theorem valid_revoke {acl : BlobDownloadAcl} (valid : BlobDownloadAcl.codec.Valid acl)
    (grantee : AccountId) : BlobDownloadAcl.codec.Valid (acl.revoke grantee).2 := by
  rw [codec_valid] at valid ⊢
  have shorter := (List.length_filter_le (· != grantee) acl.grantees).trans_lt valid.1
  unfold revoke
  dsimp only
  split
  next => exact ⟨shorter, by simp [saturatingAdd, maxValue]⟩
  next => exact ⟨shorter, valid.2⟩

end BlobDownloadAcl

variable {store : MediaBlobStore} {tx : Transaction} {height : ℕ}

namespace MediaBlobStore

section Runs

variable [Crypto]

theorem valid_publishedRecord (fits : height < 2 ^ 64 ∧ tx.Fits) {retention : BlobRetention}
    {contentType : String} {data : Bytes}
    (payload : tx.payload = .putBlob retention contentType data) :
    codec.Valid (publishedRecord tx retention contentType data height) := by
  obtain ⟨heightFits, -, payloadFits, -⟩ := fits
  rw [payload] at payloadFits
  rw [codec_valid]
  exact ⟨⟨Nat.mod_lt _ (by norm_num), payloadFits.2.1, payloadFits.1, heightFits⟩, nofun⟩

theorem Persisted.applyTx (persisted : store.Persisted) (fits : height < 2 ^ 64 ∧ tx.Fits) :
    (store.applyTx height tx).Persisted := by
  have applied := applied_applyTx store height tx
  refine ⟨?_, ?_, ?_, ?_⟩
  · rcases applied.indexFile with written | ⟨sameFile, same⟩
    · rw [written, Option.getD_some]
    · rw [sameFile, same, persisted.index]
  · rcases applied.accessFile with written | ⟨sameFile, same⟩
    · rw [written, Option.getD_some]
    · rw [sameFile, same, persisted.access]
  · intro key record found
    rw [applied.index, metaAfter] at found
    split at found
    next retention contentType data payload =>
      split at found
      next same =>
        cases found
        exact ⟨same ▸ length_utf8_blobIdHex _, valid_publishedRecord fits payload⟩
      next => exact persisted.records found
    next =>
      split at found
      next =>
        obtain ⟨previous, recorded, rfl⟩ := Option.map_eq_some_iff.mp found
        obtain ⟨length, valid⟩ := persisted.records recorded
        refine ⟨length, ?_⟩
        split
        next =>
          refine ⟨valid.1, ?_⟩
          rintro pin ⟨⟩
          exact (min_le_right _ _).trans_lt (by norm_num [maxValue])
        next => exact valid
      next => exact persisted.records found
    next => exact persisted.records found
  · intro key acl found
    rw [applied.access, accessAfter] at found
    split at found
    next =>
      split at found
      next permitted =>
        split at found
        next granted =>
          cases found
          refine ⟨permitted.1 ▸ length_utf8_blobIdHex _, BlobDownloadAcl.valid_grant ?_ granted⟩
          cases current : store.access[key]? with
          | none => simp [BlobDownloadAcl.codec_valid]
          | some acl => exact (persisted.lists current).2
        next => exact persisted.lists found
      next => exact persisted.lists found
    next =>
      split at found
      next =>
        obtain ⟨previous, listed, rfl⟩ := Option.map_eq_some_iff.mp found
        obtain ⟨length, valid⟩ := persisted.lists listed
        exact ⟨length, BlobDownloadAcl.valid_revoke valid _⟩
      next => exact persisted.lists found
    next => exact persisted.lists found

omit [Crypto] in
theorem Persisted.pruneExpired (persisted : store.Persisted) (sound : store.Sound) (tipHeight : ℕ) :
    (store.pruneExpired tipHeight).Persisted := by
  have pruned := sound.pruned tipHeight
  refine ⟨?_, ?_, ?_, ?_⟩
  · rcases pruned.indexFile with written | ⟨sameFile, same⟩
    · rw [written, Option.getD_some]
    · rw [sameFile, same, persisted.index]
  · rcases pruned.accessFile with written | ⟨sameFile, same⟩
    · rw [written, Option.getD_some]
    · rw [sameFile, same, persisted.access]
  · intro key record found
    rw [pruned.index, Option.filter_eq_some_iff] at found
    exact persisted.records found.1
  · intro key acl found
    rw [pruned.access] at found
    split at found
    next => cases found
    next => exact persisted.lists found

theorem Persisted.step (persisted : store.Persisted) (sound : store.Sound) {event : BlobEvent}
    (fits : event.Fits) : (store.step event).Persisted := by
  cases event with
  | ingest height tx => exact persisted.applyTx fits
  | gossip id data =>
    rcases gossip_eq store id data with same | ⟨-, filled⟩
    · rwa [same]
    · rw [filled]
      exact ⟨persisted.index, persisted.access, persisted.records, persisted.lists⟩
  | prune tipHeight => exact persisted.pruneExpired sound tipHeight

theorem persisted_run {events : List BlobEvent} (fits : ∀ event ∈ events, event.Fits) :
    (Run.run step {} events).Persisted := by
  have empty : ({} : MediaBlobStore).Persisted := by
    refine ⟨rfl, rfl, ?_, ?_⟩ <;> intro key value found <;> simp at found
  have both := @Run.invariant _ _ step (fun _ event => event.Fits) {} events
    (fun store => store.Sound ∧ store.Persisted)
    (fun store event both fits => ⟨both.1.step event, both.2.step both.1 fits⟩)
    ⟨sound_empty, empty⟩ (Run.allowed_of_forall (fun event member _ => fits event member) _)
  exact both.2

end Runs

/-! ## Reopening -/

theorem Persisted.reopen_access (persisted : store.Persisted) (small : store.access.size < 2 ^ 64)
    (files : store.Files) : (store.reopen files).access = store.access := by
  have current := persisted.access
  have encodes := files.access_encodes
  change readMap BlobDownloadAcl.codec files.access = store.access
  generalize files.access = written at *
  generalize store.accessFile = saved at *
  cases encodes with
  | none => exact current
  | some encodes =>
    subst current
    refine readMap_of_encodes encodes small fun found => ?_
    obtain ⟨length, valid⟩ := persisted.lists found
    exact ⟨by rw [TextFits, length]; norm_num, valid⟩

theorem Persisted.reopen_index (persisted : store.Persisted) (small : store.index.size < 2 ^ 64)
    (files : store.Files) : Pinned store.index ∧ (store.reopen files).index = store.index ∨
      ¬Pinned store.index ∧ (store.reopen files).index = ∅ := by
  have current := persisted.index
  have encodes := files.index_encodes
  change _ ∧ readMap codec files.index = store.index ∨
    _ ∧ readMap codec files.index = ∅
  generalize files.index = written at *
  generalize store.indexFile = saved at *
  cases encodes with
  | none =>
    refine .inl ⟨?_, current⟩
    rw [← current]
    intro key record found
    simp at found
  | some encodes =>
    subst current
    exact readMap_index encodes small persisted.records

/-- A reopened store has the same records and download permissions exactly when every
record has a pin. -/
theorem sameBlobs_reopen_iff [Crypto] {events : List BlobEvent}
    (fits : ∀ event ∈ events, event.Fits)
    (small : (Run.run step {} events).index.size < 2 ^ 64 ∧
      (Run.run step {} events).access.size < 2 ^ 64)
    (files : (Run.run step {} events).Files) :
    (Run.run step {} events).SameBlobs ((Run.run step {} events).reopen files) ↔
      ∀ id, ∀ record ∈ (Run.run step {} events).getMeta id, record.pinUntilHeight.isSome := by
  have sound := sound_run events
  have persisted := persisted_run fits
  generalize Run.run step {} events = store at *
  have sameAccess := persisted.reopen_access small.2 files
  rcases persisted.reopen_index small.1 files with ⟨pinned, sameIndex⟩ | ⟨unpinned, empty⟩
  · refine iff_of_true ⟨fun id => ?_, fun id account => ?_⟩ fun id record held =>
      pinned (blobIdHex id) record held
    · rw [getMeta, sameIndex, getMeta]
    · rw [mayDownload, mayDownload, getMeta, getMeta, getAccess, getAccess, sameIndex, sameAccess]
  · rw [Pinned] at unpinned
    push Not at unpinned
    obtain ⟨key, record, found, absent⟩ := unpinned
    have held : store.getMeta record.blobId = some record := by
      rw [getMeta, sound.keyed found, found]
    refine iff_of_false (fun same => ?_) fun pinned => absent (pinned record.blobId record held)
    have lost := same.1 record.blobId
    rw [held, getMeta, empty] at lost
    simp at lost

end MediaBlobStore

section Sample

open Checksum

open MediaBlobStore

def renewedEvents : List BlobEvent :=
  [.ingest 1 (blobTx 1 (.putBlob .forever "" [7])),
    .ingest 1 (blobTx 1 (.grantBlobDownload (blobIdOf [7]) 3)),
    .ingest 2 (blobTx 1 (.renewMediaBlobPin (blobIdOf [7]) 1 10))]

theorem renewedEvents_reopened :
    (∀ event ∈ renewedEvents, event.Fits) ∧
      ((Run.run step {} renewedEvents).SameBlobs
          ((Run.run step {} renewedEvents).reopen (sortedFiles _)) ↔
        ∀ id, ∀ record ∈ (Run.run step {} renewedEvents).getMeta id,
          record.pinUntilHeight.isSome) ∧
      ((Run.run step {} renewedEvents).getMeta (blobIdOf [7])).map (·.pinUntilHeight) =
        some (some 12) := by
  have fits : ∀ event ∈ renewedEvents, event.Fits := by
    simp [renewedEvents, BlobEvent.Fits, blobTx, Transaction.Fits, TransactionPayload.Fits,
      BlobRetention.Fits, TextFits, utf8]
  have small : (Run.run step {} renewedEvents).index.size < 2 ^ 64 ∧
      (Run.run step {} renewedEvents).access.size < 2 ^ 64 := by decide +kernel
  exact ⟨fits, sameBlobs_reopen_iff fits small (sortedFiles _), by decide +kernel⟩

/-- A blob without a renewal is lost, with the permissions of its publisher. -/
theorem published_blob_lost :
    let store := Run.run step {} [.ingest 1 (blobTx 1 (.putBlob .forever "" [7]))]
    (store.getMeta (blobIdOf [7])).isSome ∧ store.mayDownload (blobIdOf [7]) 1 ∧
      (store.reopen store.sortedFiles).getMeta (blobIdOf [7]) = none ∧
      ¬(store.reopen store.sortedFiles).mayDownload (blobIdOf [7]) 1 := by
  decide +kernel

end Sample

end BoingNetwork
