import BoingNetwork.Node.BlobOperations
import BoingNetwork.Primitives.Checksum
import Mathlib.Data.Finset.Insert

/-!
# Who may download a blob

The rights of a blob are the account that published it first and the accounts this
publisher granted and did not revoke.  They follow the transactions of the committed
blocks while the blob is retained.  The sidecar agrees with them unless another account
publishes the same bytes, which makes it the publisher, or a refused transaction stops the
ingestion of a block before a grant or a revocation of a publisher.
-/

namespace BoingNetwork

variable {grantee : AccountId}

namespace BlobDownloadAcl

variable {acl next : BlobDownloadAcl}

theorem contains_grant {changed : Bool} (granted : acl.grant grantee = .ok (changed, next))
    (account : AccountId) : next.contains account ↔ account = grantee ∨ acl.contains account := by
  unfold grant at granted
  split at granted
  next member =>
    cases granted
    constructor
    · exact .inr
    · rintro (rfl | listed)
      · exact member
      · exact listed
  next =>
    split at granted
    next => cases granted
    next =>
      cases granted
      simp only [contains, List.any_append, List.any_cons, List.any_nil, Bool.or_false,
        Bool.or_eq_true, beq_iff_eq]
      rw [or_comm, @eq_comm _ grantee]

theorem contains_revoke (acl : BlobDownloadAcl) (grantee account : AccountId) :
    (acl.revoke grantee).2.contains account ↔ account ≠ grantee ∧ acl.contains account := by
  have kept : (acl.revoke grantee).2.grantees = acl.grantees.filter (· != grantee) := by
    unfold revoke
    dsimp only
    split <;> rfl
  simp [contains, kept, and_comm]

end BlobDownloadAcl

structure DownloadRights where
  publisher : AccountId
  granted : Finset AccountId

namespace DownloadRights

def after (id : BlobId) (rights : DownloadRights) (tx : Transaction) : DownloadRights :=
  if tx.sender = rights.publisher then
    match tx.payload with
    | .grantBlobDownload blobId grantee =>
      if blobId = id then { rights with granted := insert grantee rights.granted } else rights
    | .revokeBlobDownload blobId grantee =>
      if blobId = id then { rights with granted := rights.granted.erase grantee } else rights
    | _ => rights
  else rights

@[simp]
theorem publisher_after (id : BlobId) (rights : DownloadRights) (tx : Transaction) :
    (rights.after id tx).publisher = rights.publisher := by
  unfold after
  split
  next => split <;> (try split) <;> rfl
  next => rfl

def allows (rights : DownloadRights) (account : AccountId) : Prop :=
  account = rights.publisher ∨ account ∈ rights.granted

end DownloadRights

section Rights

variable [Crypto]

def rightsAfterTx (id : BlobId) (rights : Option DownloadRights) (tx : Transaction) :
    Option DownloadRights :=
  match rights with
  | some rights => some (rights.after id tx)
  | none =>
    match tx.payload with
    | .putBlob _ _ data => if blobIdOf data = id then some ⟨tx.sender, ∅⟩ else none
    | _ => none

def rightsAfterBlock (id : BlobId) (rights : Option DownloadRights) (committed : MediaBlobStore)
    (block : Block) : Option DownloadRights :=
  if (committed.getMeta id).isSome then
    Run.run (rightsAfterTx id) rights block.transactions
  else none

def rightsAfter (id : BlobId) : MediaBlobStore → Option DownloadRights → List Block →
    Option DownloadRights
  | _, rights, [] => rights
  | store, rights, block :: blocks =>
    rightsAfter id (store.commit block)
      (rightsAfterBlock id rights (store.commit block) block) blocks

end Rights

namespace MediaBlobStore

def mayGrant (store : MediaBlobStore) (id : BlobId) (account : AccountId) : Bool :=
  (store.getMeta id).any (·.publisher == account)

def Agrees (store : MediaBlobStore) (id : BlobId) : Option DownloadRights → Prop
  | none => store.getMeta id = none ∧ store.access[blobIdHex id]? = none
  | some rights => ∃ record ∈ store.getMeta id, record.publisher = rights.publisher ∧
      ∀ account ≠ rights.publisher,
        (store.getAccess id).contains account ↔ account ∈ rights.granted

variable {store : MediaBlobStore} {id : BlobId} {rights : Option DownloadRights}

theorem Agrees.mayDownload_iff (agrees : store.Agrees id rights) (account : AccountId) :
    store.mayDownload id account ↔ ∃ right ∈ rights, right.allows account := by
  cases rights with
  | none => simp [mayDownload, agrees.1]
  | some right =>
    obtain ⟨record, held, publisher, listed⟩ := agrees
    simp only [mayDownload, Option.mem_def.mp held, publisher, Option.mem_some_iff,
      exists_eq_left', DownloadRights.allows, Bool.or_eq_true, beq_iff_eq]
    by_cases own : account = right.publisher
    · simp [own]
    · rw [listed account own]
      simp [own, eq_comm]

theorem Agrees.mayGrant_iff (agrees : store.Agrees id rights) (account : AccountId) :
    store.mayGrant id account ↔ ∃ right ∈ rights, account = right.publisher := by
  cases rights with
  | none => simp [mayGrant, agrees.1]
  | some right =>
    obtain ⟨record, held, publisher, listed⟩ := agrees
    simp only [mayGrant, Option.mem_def.mp held, Option.any_some, publisher, beq_iff_eq,
      Option.mem_some_iff, exists_eq_left']
    exact eq_comm

/-! ## One transaction -/

variable [Crypto] {height : ℕ} {record : BlobMetaRecord} {txs : List Transaction}

/-- Bytes that the sidecar holds are published again by their publisher only. -/
def OwnRepublication (store : MediaBlobStore) (tx : Transaction) : Prop :=
  match tx.payload with
  | .putBlob _ _ data => ∀ record ∈ store.getMeta (blobIdOf data), record.publisher = tx.sender
  | _ => True

/-- A blob without rights has no record and no list. -/
theorem agrees_applyTx_none {tx : Transaction} (agrees : store.Agrees id none) :
    (store.applyTx height tx).Agrees id (rightsAfterTx id none tx) := by
  obtain ⟨absent, unlisted⟩ := agrees
  have absent : store.index[blobIdHex id]? = none := absent
  have applied := applied_applyTx store height tx
  have index := applied.index (blobIdHex id)
  have access := applied.access (blobIdHex id)
  rw [absent, metaAfter] at index
  rw [absent, unlisted, accessAfter] at access
  rw [rightsAfterTx]
  cases payload : tx.payload with
  | putBlob retention contentType data =>
    simp only [payload, blobIdHex_inj] at index access ⊢
    rw [if_congr eq_comm rfl rfl] at index
    split at index
    next same =>
      rw [if_pos same]
      refine ⟨_, index, rfl, fun account _ => ?_⟩
      simp [getAccess, access, BlobDownloadAcl.contains]
    next differs =>
      rw [if_neg differs]
      exact ⟨index, access⟩
  | _ => simp_all [Agrees, getMeta]

theorem publisher_applyTx {tx : Transaction} (held : record ∈ store.getMeta id)
    (own : store.OwnRepublication tx) (height : ℕ) :
    ∃ later ∈ (store.applyTx height tx).getMeta id, later.publisher = record.publisher := by
  have index := (applied_applyTx store height tx).index (blobIdHex id)
  rw [show store.index[blobIdHex id]? = some record from held, metaAfter] at index
  split at index
  next retention contentType data payload =>
    rw [OwnRepublication, payload] at own
    split at index
    next isBlob =>
      have isBlob := blobIdHex_inj.mp isBlob
      exact ⟨_, index, (own record (isBlob ▸ held)).symm⟩
    next => exact ⟨record, index, rfl⟩
  next =>
    split at index
    next =>
      refine ⟨_, index, ?_⟩
      dsimp only
      split <;> rfl
    next => exact ⟨record, index, rfl⟩
  next => exact ⟨record, index, rfl⟩

theorem grant_of_ingestTx {tx : Transaction} (payload : tx.payload = .grantBlobDownload id grantee)
    (ran : (store.ingestTx height tx).isOk) (held : record ∈ store.getMeta id)
    (own : record.publisher = tx.sender) (toOther : grantee ≠ record.publisher) :
    ∃ changed acl, (store.getAccess id).grant grantee = .ok (changed, acl) := by
  unfold ingestTx at ran
  rw [payload] at ran
  dsimp only at ran
  rw [grantDownload, Option.mem_def.mp held] at ran
  dsimp only at ran
  rw [if_neg (not_not.mpr own), if_neg toOther] at ran
  cases granted : (store.getAccess id).grant grantee with
  | ok result => exact ⟨result.1, result.2, rfl⟩
  | error error =>
    rw [granted] at ran
    cases ran

theorem contains_applyTx {tx : Transaction} {right : DownloadRights}
    (agrees : store.Agrees id (some right)) (ran : (store.ingestTx height tx).isOk)
    {account : AccountId} (other : account ≠ right.publisher) :
    ((store.applyTx height tx).getAccess id).contains account ↔
      account ∈ (right.after id tx).granted := by
  obtain ⟨record, held, publisher, listed⟩ := agrees
  have listed := listed account other
  have access := (applied_applyTx store height tx).access (blobIdHex id)
  rw [show store.index[blobIdHex id]? = some record from held, accessAfter] at access
  by_cases own : tx.sender = right.publisher
  · rw [DownloadRights.after, if_pos own]
    cases payload : tx.payload with
    | grantBlobDownload blobId grantee =>
      simp only [payload, blobIdHex_inj, Option.any_some, @eq_comm _ id] at access ⊢
      by_cases isBlob : blobId = id
      · subst isBlob
        by_cases toItself : grantee = record.publisher
        · simp only [toItself, ne_eq, not_true_eq_false, and_false, decide_false,
            Bool.false_eq_true, if_false] at access
          rw [getAccess, access, if_pos rfl, Finset.mem_insert, toItself, publisher]
          simpa [other, getAccess] using listed
        · have isOwn : record.publisher = tx.sender := publisher.trans own.symm
          obtain ⟨changed, acl, granted⟩ := grant_of_ingestTx payload ran held isOwn toItself
          rw [getAccess] at granted
          rw [if_pos ⟨rfl, decide_eq_true ⟨isOwn, toItself⟩⟩, granted] at access
          rw [getAccess, access, if_pos rfl, Finset.mem_insert, Option.getD_some,
            BlobDownloadAcl.contains_grant granted, ← listed]
          rfl
      · simp only [isBlob, false_and, if_false] at access ⊢
        rwa [getAccess, access]
    | revokeBlobDownload blobId grantee =>
      simp only [payload, blobIdHex_inj, Option.any_some, @eq_comm _ id] at access ⊢
      by_cases isBlob : blobId = id
      · subst isBlob
        rw [if_pos ⟨rfl, decide_eq_true (publisher.trans own.symm)⟩] at access
        rw [if_pos rfl, Finset.mem_erase, ← listed, getAccess, access, getAccess]
        cases store.access[blobIdHex blobId]? with
        | none => simp [BlobDownloadAcl.contains]
        | some acl => exact BlobDownloadAcl.contains_revoke acl grantee account
      · simp only [isBlob, false_and, if_false] at access ⊢
        rwa [getAccess, access]
    | _ =>
      simp only [payload] at access
      rwa [getAccess, access]
  · have notOwn : record.publisher ≠ tx.sender := fun same => own (same.symm.trans publisher)
    rw [DownloadRights.after, if_neg own, ← listed]
    rw [getAccess, access, getAccess]
    split <;> simp [notOwn]

theorem agrees_applyTx {tx : Transaction} (agrees : store.Agrees id rights)
    (own : store.OwnRepublication tx) (ran : (store.ingestTx height tx).isOk) :
    (store.applyTx height tx).Agrees id (rightsAfterTx id rights tx) := by
  cases rights with
  | none => exact agrees_applyTx_none agrees
  | some right =>
    have listed := fun account => @contains_applyTx _ _ _ height tx right agrees ran account
    obtain ⟨record, held, publisher, -⟩ := agrees
    obtain ⟨later, isLater, same⟩ := publisher_applyTx held own height
    refine ⟨later, isLater, ?_, ?_⟩
    · rw [same, publisher, DownloadRights.publisher_after]
    · intro account other
      rw [DownloadRights.publisher_after] at other
      exact listed account other

/-! ## Blocks -/

def SetsOwnAccess (store : MediaBlobStore) (tx : Transaction) : Prop :=
  match tx.payload with
  | .grantBlobDownload blobId _ | .revokeBlobDownload blobId _ => store.mayGrant blobId tx.sender
  | _ => False

/-- No account takes over the publication of another one, and no grant or revocation of a
publisher stands behind a refused transaction. -/
def KeepsRights (store : MediaBlobStore) (block : Block) : Prop :=
  let height := block.header.height
  Run.Allowed (·.applyTx height ·) OwnRepublication store
      (ingested height store block.transactions) ∧
    ∀ tx ∈ skipped height store block.transactions,
      ¬(ingestBlockTxs height store block.transactions).1.SetsOwnAccess tx

omit [Crypto] in
/-- Pruning ends the rights to a blob together with its record. -/
theorem agrees_pruneExpired (sound : store.Sound) (agrees : store.Agrees id rights)
    (tipHeight : ℕ) : (store.pruneExpired tipHeight).Agrees id
      (if ((store.pruneExpired tipHeight).getMeta id).isSome then rights else none) := by
  have pruned := sound.pruned tipHeight
  have index := pruned.index (blobIdHex id)
  have access := pruned.access (blobIdHex id)
  cases rights with
  | none =>
    have absent : store.index[blobIdHex id]? = none := agrees.1
    rw [absent] at index access
    rw [ite_self]
    exact ⟨index, access.trans agrees.2⟩
  | some right =>
    obtain ⟨record, held, publisher, listed⟩ := agrees
    have held : store.index[blobIdHex id]? = some record := held
    rw [held] at index access
    cases expired : record.isExpired tipHeight with
    | true =>
      have gone : (store.pruneExpired tipHeight).getMeta id = none := by
        refine index.trans ?_
        simp [Option.filter, expired]
      rw [gone]
      exact ⟨gone, access.trans (by simp [expired])⟩
    | false =>
      have kept : (store.pruneExpired tipHeight).getMeta id = some record := by
        refine index.trans ?_
        simp [Option.filter, expired]
      rw [kept, if_pos Option.isSome_some]
      refine ⟨record, kept, publisher, fun account other => ?_⟩
      rw [getAccess, access, ← listed account other, getAccess]
      simp [expired]

theorem rightsAfterTx_of_not_setsOwnAccess {tx : Transaction} {right : DownloadRights}
    (agrees : store.Agrees id (some right)) (foreign : ¬store.SetsOwnAccess tx) :
    rightsAfterTx id (some right) tx = some right := by
  obtain ⟨record, held, publisher, -⟩ := agrees
  have mayGrant : store.mayGrant id right.publisher := by
    simp [MediaBlobStore.mayGrant, Option.mem_def.mp held, publisher]
  rw [SetsOwnAccess] at foreign
  rw [rightsAfterTx, DownloadRights.after]
  split
  next own =>
    split
    next blobId grantee payload =>
      simp only [payload, own] at foreign
      rw [if_neg]
      rintro rfl
      exact foreign mayGrant
    next blobId grantee payload =>
      simp only [payload, own] at foreign
      rw [if_neg]
      rintro rfl
      exact foreign mayGrant
    next => rfl
  next => rfl

theorem run_rightsAfterTx_of_foreign {right : DownloadRights}
    (agrees : store.Agrees id (some right)) (foreign : ∀ tx ∈ txs, ¬store.SetsOwnAccess tx) :
    Run.run (rightsAfterTx id) (some right) txs = some right := by
  induction txs with
  | nil => rfl
  | cons tx txs ih =>
    rw [Run.run_cons, rightsAfterTx_of_not_setsOwnAccess agrees (foreign tx List.mem_cons_self)]
    exact ih fun other member => foreign other (List.mem_cons_of_mem _ member)

theorem agrees_run (agrees : store.Agrees id rights)
    (own : Run.Allowed (·.applyTx height ·) OwnRepublication store txs)
    (ran : Run.Allowed (·.applyTx height ·) (fun store tx => (store.ingestTx height tx).isOk)
      store txs) :
    (Run.run (·.applyTx height ·) store txs).Agrees id (Run.run (rightsAfterTx id) rights txs) := by
  induction txs generalizing store rights with
  | nil => exact agrees
  | cons tx txs ih =>
    exact ih (agrees_applyTx agrees own.1 ran.1) own.2 ran.2

theorem agrees_commit (sound : store.Sound) (agrees : store.Agrees id rights) {block : Block}
    (keeps : store.KeepsRights block) :
    (store.commit block).Agrees id (rightsAfterBlock id rights (store.commit block) block) := by
  obtain ⟨own, foreign⟩ := keeps
  set height := block.header.height
  have split := ingested_append_skipped height store block.transactions
  have stored := agrees_run agrees own (allowed_ingested height store block.transactions)
  have soundStored : (ingestBlockTxs height store block.transactions).1.Sound := by
    rw [ingestBlockTxs_fst]
    exact @Run.invariant_of_forall _ _ (·.applyTx height ·) store Sound
      (fun _ tx sound => sound.applyTx height tx) sound _
  rw [← ingestBlockTxs_fst] at stored
  have complete := ingestBlockTxs_isOk height store block.transactions
  rw [rightsAfterBlock, commit]
  generalize ingestBlockTxs height store block.transactions = ran at *
  obtain ⟨next, result⟩ := ran
  cases result with
  | ok changes =>
    dsimp only
    rw [complete.mp rfl] at stored
    exact agrees_pruneExpired soundStored stored height
  | error error =>
    dsimp only
    rw [← split, Run.run_append]
    generalize Run.run (rightsAfterTx id) rights (ingested height store block.transactions) =
      reached at *
    cases reached with
    | none =>
      rw [stored.1]
      exact stored
    | some right =>
      rw [run_rightsAfterTx_of_foreign stored foreign]
      have retained : (next.getMeta id).isSome := by
        obtain ⟨record, held, -⟩ := stored
        exact Option.isSome_of_mem held
      rwa [if_pos retained]

/-! ## Chains of blocks -/

theorem agrees_run_commit (sound : store.Sound) (agrees : store.Agrees id rights)
    {blocks : List Block} (keeps : Run.Allowed commit KeepsRights store blocks) :
    (Run.run commit store blocks).Agrees id (rightsAfter id store rights blocks) := by
  induction blocks generalizing store rights with
  | nil => exact agrees
  | cons block blocks ih =>
    have soundNext : (store.commit block).Sound := by
      rw [commit_eq_run]
      exact @Run.invariant_of_forall _ _ step store Sound (fun _ event sound => sound.step event)
        sound _
    exact ih soundNext (agrees_commit sound agrees keeps.1) keeps.2

/-- The downloads and the right to grant follow the first publisher's transactions. -/
theorem download_rights_followed {blocks : List Block}
    (keeps : Run.Allowed commit KeepsRights {} blocks) (id : BlobId) (account : AccountId) :
    ((Run.run commit {} blocks).mayDownload id account ↔
        ∃ right ∈ rightsAfter id {} none blocks, right.allows account) ∧
      ((Run.run commit {} blocks).mayGrant id account ↔
        ∃ right ∈ rightsAfter id {} none blocks, account = right.publisher) := by
  have empty : ({} : MediaBlobStore).Agrees id none := ⟨by simp [getMeta], by simp⟩
  have agrees := agrees_run_commit sound_empty empty keeps
  exact ⟨agrees.mayDownload_iff account, agrees.mayGrant_iff account⟩

instance (store : MediaBlobStore) (tx : Transaction) : Decidable (store.OwnRepublication tx) := by
  unfold OwnRepublication
  split <;> infer_instance

instance (store : MediaBlobStore) (tx : Transaction) : Decidable (store.SetsOwnAccess tx) := by
  unfold SetsOwnAccess
  split <;> infer_instance

instance (store : MediaBlobStore) (block : Block) : Decidable (store.KeepsRights block) :=
  inferInstanceAs (Decidable (_ ∧ _))

end MediaBlobStore

section Sample

open Checksum

open MediaBlobStore

/-- Account 1 publishes, grants account 3 and 4, revokes 3 and publishes again. -/
def grantedBlocks : List Block :=
  [blobBlock 1 [blobTx 1 (.putBlob .forever "" [7]),
      blobTx 1 (.grantBlobDownload (blobIdOf [7]) 3)],
    blobBlock 2 [blobTx 1 (.grantBlobDownload (blobIdOf [7]) 4),
      blobTx 1 (.revokeBlobDownload (blobIdOf [7]) 3), blobTx 1 (.putBlob .forever "" [7]),
      blobTx 2 (.grantBlobDownload (blobIdOf [7]) 2)]]

theorem grantedBlocks_followed :
    Run.Allowed commit KeepsRights {} grantedBlocks ∧
      ((Run.run commit {} grantedBlocks).mayDownload (blobIdOf [7]) 4 ↔
        ∃ right ∈ rightsAfter (blobIdOf [7]) {} none grantedBlocks, right.allows 4) ∧
      (Run.run commit {} grantedBlocks).mayDownload (blobIdOf [7]) 4 ∧
      ¬(Run.run commit {} grantedBlocks).mayDownload (blobIdOf [7]) 3 := by
  have keeps : Run.Allowed commit KeepsRights {} grantedBlocks := by decide +kernel
  exact ⟨keeps, (download_rights_followed keeps (blobIdOf [7]) 4).1, by decide +kernel,
    by decide +kernel⟩

/-- Account 2 publishes the bytes of account 1 once more. -/
def takenOverBlocks : List Block :=
  [blobBlock 1 [blobTx 1 (.putBlob .forever "" [7])],
    blobBlock 2 [blobTx 2 (.putBlob .forever "" [7])]]

/-- A grant of account 2, which is refused, stands before the revocation of account 1. -/
def unrevokedBlocks : List Block :=
  [blobBlock 1 [blobTx 1 (.putBlob .forever "" [7]),
      blobTx 1 (.grantBlobDownload (blobIdOf [7]) 3)],
    blobBlock 2 [blobTx 2 (.grantBlobDownload (blobIdOf [7]) 2),
      blobTx 1 (.revokeBlobDownload (blobIdOf [7]) 3)]]

theorem download_rights_taken_over :
    (rightsAfter (blobIdOf [7]) {} none takenOverBlocks).map (·.publisher) = some 1 ∧
      (rightsAfter (blobIdOf [7]) {} none takenOverBlocks).map (·.granted) = some ∅ ∧
      (Run.run commit {} takenOverBlocks).mayDownload (blobIdOf [7]) 2 ∧
      (Run.run commit {} takenOverBlocks).mayGrant (blobIdOf [7]) 2 ∧
      ¬(Run.run commit {} takenOverBlocks).mayDownload (blobIdOf [7]) 1 ∧
      ¬(Run.run commit {} takenOverBlocks).mayGrant (blobIdOf [7]) 1 ∧
      (rightsAfter (blobIdOf [7]) {} none unrevokedBlocks).map (·.granted) = some ∅ ∧
      (Run.run commit {} unrevokedBlocks).mayDownload (blobIdOf [7]) 3 := by
  decide +kernel

end Sample

end BoingNetwork
