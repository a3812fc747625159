import BoingNetwork.Node.BlobOperations
import BoingNetwork.Node.ChainRuns

/-!
# The blob sidecar and execution

The sidecar reads the raw transactions of a committed block again and knows nothing of
their receipts.  It follows execution as long as what it reads was executed
successfully, and a transaction that it refuses keeps no later one, and no pruning, from
taking place.
-/

namespace BoingNetwork

structure ExecutedBlock where
  block : Block
  receipts : List ExecutionReceipt
  aligned : receipts.length = block.transactions.length

namespace ExecutedBlock

def height (executed : ExecutedBlock) : ℕ := executed.block.header.height

def outcomes (executed : ExecutedBlock) : List (Transaction × ExecutionReceipt) :=
  executed.block.transactions.zip executed.receipts

theorem map_fst_outcomes (executed : ExecutedBlock) :
    executed.outcomes.map Prod.fst = executed.block.transactions :=
  List.map_fst_zip executed.aligned.ge

end ExecutedBlock

def successful (outcomes : List (Transaction × ExecutionReceipt)) : List Transaction :=
  (outcomes.filter (·.2.success)).map Prod.fst

namespace MediaBlobStore

variable [Crypto] {store : MediaBlobStore} {executed : ExecutedBlock} {height : ℕ}
  {tx : Transaction}

/-- What the sidecar should hold after a block: the successful transactions in order, and
nothing that has expired. -/
def follow (store : MediaBlobStore) (executed : ExecutedBlock) : MediaBlobStore :=
  (Run.run (·.applyTx executed.height ·) store (successful executed.outcomes)).pruneExpired
    executed.height

/-- The payloads that the sidecar reads. -/
def ofSidecar : TransactionPayload → Bool
  | .putBlob .. | .renewMediaBlobPin .. | .registerBlobSampleOffer .. | .settleBlobSampleMatch ..
  | .grantBlobDownload .. | .revokeBlobDownload .. => true
  | _ => false

/-- The sidecar's own checks: the size of a renewed blob, a valid offer for which there is
room, a download list changed by the publisher, a free place on the list. -/
def Admits (store : MediaBlobStore) (tx : Transaction) : Prop :=
  match tx.payload with
  | .renewMediaBlobPin id size _ => ∀ record ∈ store.getMeta id, record.size = size
  | .registerBlobSampleOffer id chunkIndex chunkCount _ _ =>
    (validatePayBlobSample chunkIndex chunkCount).isOk ∧
      (store.onchainSampleMarket.contains (sampleOfferMarketKey id chunkIndex tx.sender) ∨
        store.onchainSampleMarket.size < PHASE6_MAX_SAMPLE_OFFERS)
  | .grantBlobDownload id grantee => ∃ record ∈ store.getMeta id, record.publisher = tx.sender ∧
    (grantee = record.publisher ∨ (store.getAccess id).contains grantee ∨
      (store.getAccess id).grantees.length < PHASE34_MAX_BLOB_DOWNLOAD_GRANTEES)
  | .revokeBlobDownload id _ => ∃ record ∈ store.getMeta id, record.publisher = tx.sender
  | _ => True

omit [Crypto] in
theorem isOk_bind_pure {Value Result : Type} (result : Except MediaBlobStoreError Value)
    (next : Value → Result) : (result >>= fun value => pure (next value)).isOk = result.isOk := by
  cases result <;> rfl

/-- Nothing else is refused: the id of a published blob is that of its data. -/
theorem ingestTx_isOk (store : MediaBlobStore) (height : ℕ) (tx : Transaction) :
    (store.ingestTx height tx).isOk ↔ store.Admits tx := by
  unfold ingestTx Admits
  cases tx.payload <;> dsimp only
  case putBlob =>
    rw [isOk_bind_pure, put, publishedRecord, if_neg (not_not_intro rfl)]
    exact iff_of_true rfl trivial
  case renewMediaBlobPin id size _ =>
    rw [isOk_bind_pure, renewPin]
    cases store.getMeta id with
    | none => simp [Except.isOk, Except.toBool]
    | some record => by_cases same : record.size = size <;> simp [same, Except.isOk, Except.toBool]
  case registerBlobSampleOffer id chunkIndex chunkCount _ _ =>
    rw [isOk_bind_pure, upsertOnchainSampleOffer]
    cases validatePayBlobSample chunkIndex chunkCount with
    | error error => simp [Except.isOk, Except.toBool]
    | ok =>
      dsimp only
      cases store.onchainSampleMarket.contains (sampleOfferMarketKey id chunkIndex tx.sender) <;>
        split_ifs <;> simp_all [Except.isOk, Except.toBool]
  case grantBlobDownload id _ =>
    rw [isOk_bind_pure, grantDownload, BlobDownloadAcl.grant]
    cases store.getMeta id with
    | none => simp [Except.isOk, Except.toBool]
    | some record => dsimp only; split_ifs <;> simp_all [Except.isOk, Except.toBool]
  case revokeBlobDownload id _ =>
    rw [isOk_bind_pure, revokeDownload]
    cases store.getMeta id with
    | none => simp [Except.isOk, Except.toBool]
    | some record =>
      by_cases own : record.publisher = tx.sender <;> cases store.access[blobIdHex id]? <;>
        simp [own, Except.isOk, Except.toBool]
  all_goals exact iff_of_true rfl trivial

instance (store : MediaBlobStore) : DecidablePred store.Admits :=
  fun tx => decidable_of_iff _ (ingestTx_isOk store 0 tx)

/-- Every transaction that the sidecar reads and admits was executed successfully.  Behind
one that it does not admit there is none that was, and nothing has expired by then. -/
def Orderly (height : ℕ) : MediaBlobStore → List (Transaction × ExecutionReceipt) → Prop
  | _, [] => True
  | store, (tx, receipt) :: outcomes =>
    if store.Admits tx then
      (ofSidecar tx.payload → receipt.success) ∧ Orderly height (store.applyTx height tx) outcomes
    else
      (∀ outcome ∈ outcomes, ofSidecar outcome.1.payload → ¬outcome.2.success) ∧
        store.expired height = []

instance decidableOrderly (height : ℕ) : ∀ (store : MediaBlobStore)
    (outcomes : List (Transaction × ExecutionReceipt)), Decidable (Orderly height store outcomes)
  | _, [] => isTrue trivial
  | store, (tx, _) :: outcomes =>
    have := decidableOrderly height (store.applyTx height tx) outcomes
    inferInstanceAs (Decidable (if store.Admits tx then _ ∧ _ else _ ∧ _))

theorem ingestTx_of_other (other : ofSidecar tx.payload = false) :
    store.ingestTx height tx = .ok (0, store) := by
  unfold ingestTx
  split <;> simp_all [ofSidecar]

/-- What is refused, or not for the sidecar, changes nothing. -/
theorem applyTx_eq_self (none_ : store.Admits tx → ofSidecar tx.payload = false) :
    store.applyTx height tx = store := by
  have admitted := ingestTx_isOk store height tx
  cases ran : store.ingestTx height tx with
  | error error => rw [applyTx, ran, after]
  | ok result =>
    rw [ran] at admitted
    rw [applyTx, ingestTx_of_other (none_ (admitted.mp rfl)), after]

omit [Crypto] in
theorem pruneExpired_eq_self (none_ : store.expired height = []) :
    store.pruneExpired height = store := by
  simp [pruneExpired, none_]

theorem run_successful_cons (outcome : Transaction × ExecutionReceipt)
    (outcomes : List (Transaction × ExecutionReceipt))
    (effective : store.Admits outcome.1 → ofSidecar outcome.1.payload → outcome.2.success) :
    Run.run (·.applyTx height ·) store (successful (outcome :: outcomes)) =
      Run.run (·.applyTx height ·) (store.applyTx height outcome.1) (successful outcomes) := by
  cases success : outcome.2.success with
  | true => simp [successful, success]
  | false =>
    have same : store.applyTx height outcome.1 = store := applyTx_eq_self fun admitted => by
      simpa [success] using effective admitted
    simp [successful, success, same]

theorem run_successful_eq_self {outcomes : List (Transaction × ExecutionReceipt)}
    (failed : ∀ outcome ∈ outcomes, ofSidecar outcome.1.payload → ¬outcome.2.success) :
    Run.run (·.applyTx height ·) store (successful outcomes) = store := by
  refine @Run.invariant _ _ _ (fun _ tx => ofSidecar tx.payload = false) store _ (· = store)
    (fun state tx same other => ?_) rfl (Run.allowed_of_forall (fun tx member _ => ?_) store)
  · rw [same]
    exact applyTx_eq_self fun _ => other
  · obtain ⟨outcome, isSuccess, rfl⟩ := List.mem_map.mp member
    have := List.mem_filter.mp isSuccess
    simpa [this.2] using failed outcome this.1

/-- Ingesting an orderly block gives what its successful transactions give; if one is
refused, there is nothing to prune either. -/
theorem ingestBlockTxs_of_orderly {outcomes : List (Transaction × ExecutionReceipt)}
    (orderly : Orderly height store outcomes) :
    (ingestBlockTxs height store (outcomes.map Prod.fst)).1 =
        Run.run (·.applyTx height ·) store (successful outcomes) ∧
      ((ingestBlockTxs height store (outcomes.map Prod.fst)).2.isOk ∨
        (ingestBlockTxs height store (outcomes.map Prod.fst)).1.expired height = []) := by
  induction outcomes generalizing store with
  | nil => exact ⟨rfl, .inl rfl⟩
  | cons outcome outcomes ih =>
    have admitted := ingestTx_isOk store height outcome.1
    rw [Orderly] at orderly
    rw [List.map_cons, ingestBlockTxs]
    cases ran : store.ingestTx height outcome.1 with
    | error error =>
      have refused : ¬store.Admits outcome.1 := by
        simp [← admitted, ran, Except.isOk, Except.toBool]
      rw [if_neg refused] at orderly
      rw [run_successful_cons _ _ (absurd · refused), applyTx_eq_self (absurd · refused),
        run_successful_eq_self orderly.1]
      exact ⟨rfl, .inr orderly.2⟩
    | ok result =>
      have applied : store.applyTx height outcome.1 = result.2 := by rw [applyTx, ran, after]
      rw [if_pos (admitted.mp (congrArg Except.isOk ran)), applied] at orderly
      rw [run_successful_cons _ _ fun _ => orderly.1, applied]
      obtain ⟨stored, complete⟩ := ih orderly.2
      refine ⟨stored, complete.imp_left fun isOk => ?_⟩
      cases rest : (ingestBlockTxs height result.2 (outcomes.map Prod.fst)).2 <;>
        simp_all [Except.map, Except.isOk, Except.toBool]

theorem commit_eq_follow (orderly : Orderly executed.height store executed.outcomes) :
    store.commit executed.block = store.follow executed := by
  obtain ⟨stored, complete⟩ := ingestBlockTxs_of_orderly orderly
  rw [executed.map_fst_outcomes] at stored complete
  rw [follow, ← stored, commit]
  split
  next finish _ ran => rw [ExecutedBlock.height, ran]
  next finish error ran =>
    rw [ExecutedBlock.height, ran] at complete ⊢
    exact (pruneExpired_eq_self (complete.resolve_left (by simp [Except.isOk, Except.toBool]))).symm

/-- In a chain of orderly blocks the sidecar holds what the successful transactions make
of it. -/
theorem follows_execution {blocks : List ExecutedBlock}
    (orderly : Run.Allowed follow
      (fun store executed => Orderly executed.height store executed.outcomes) {} blocks) :
    Run.run commit {} (blocks.map ExecutedBlock.block) = Run.run follow {} blocks := by
  rw [Run.run, List.foldl_map]
  change Run.run (fun (store : MediaBlobStore) executed => store.commit executed.block) {}
    blocks = _
  generalize ({} : MediaBlobStore) = store at orderly ⊢
  induction blocks generalizing store with
  | nil => rfl
  | cons executed blocks ih =>
    rw [Run.run_cons, Run.run_cons, commit_eq_follow orderly.1]
    exact ih _ orderly.2

end MediaBlobStore

section Sample

open Checksum

open MediaBlobStore

/-- Two accounts that can pay fees. -/
def fundedStore : StateStore :=
  let funded := { AccountState.default with balance := 10 ^ 21 }
  { accounts := .insert (.insert ∅ 1 funded) 2 funded }

def blobExecutor : BlockExecutor := { vm := { Vm.new with mediaBlobsFrom := some 0 } }

def receiptsOf (txs : List Transaction) : List ExecutionReceipt :=
  match (blobExecutor.transition ⟨1, 5, txs, 9, []⟩).run (fundedStore.pinned [9]) with
  | .ok receipts _ => receipts
  | .error _ _ => []

/-- A publication with the wrong nonce fails. -/
def failedPublication : List Transaction := [⟨5, 1, .putBlob .forever "" [7], ⟨[], []⟩⟩]

def grantThenPublication : List Transaction :=
  [blobTx 1 (.grantBlobDownload 0 2), blobTx 2 (.putBlob .forever "" [7])]

theorem sidecar_ignores_execution :
    (receiptsOf failedPublication).map (·.success) = [false] ∧
      (({} : MediaBlobStore).commit (blobBlock 1 failedPublication)).getMeta (blobIdOf [7]) ≠ none ∧
      (receiptsOf grantThenPublication).map (·.success) = [true, true] ∧
      (({} : MediaBlobStore).commit (blobBlock 1 grantThenPublication)).getMeta (blobIdOf [7]) =
        none := by
  decide +kernel

/-- A publication and a grant that execute, and a transfer with a wrong nonce. -/
def orderlyTxs : List Transaction :=
  [blobTx 1 (.putBlob .forever "" [7]), ⟨1, 1, .grantBlobDownload (blobIdOf [7]) 2, ⟨[], []⟩⟩,
    ⟨5, 2, .transfer 1 1, ⟨[], []⟩⟩]

def orderlyBlock : ExecutedBlock :=
  ⟨blobBlock 1 orderlyTxs, receiptsOf orderlyTxs, by decide +kernel⟩

theorem orderlyBlock_followed :
    (receiptsOf orderlyTxs).map (·.success) = [true, true, false] ∧
      Run.run commit {} ([orderlyBlock].map ExecutedBlock.block) =
        Run.run follow {} [orderlyBlock] ∧
      (Run.run follow {} [orderlyBlock]).mayDownload (blobIdOf [7]) 2 :=
  ⟨by decide +kernel, follows_execution (by decide +kernel), by decide +kernel⟩

end Sample

end BoingNetwork
