import BoingNetwork.Library.Result
import BoingNetwork.Library.Run
import BoingNetwork.Primitives.Basic
import Mathlib.Data.List.Sort
import Mathlib.Data.Prod.Lex

/-!
# Owners of non-fungible tokens

The indexer of the SDK fetches the `Transfer` logs of a contract in chunks of blocks, sorts
them in the order of the chain and keeps one row for each token.  A row is replaced by a log
of a later block, but within one block the order of the transaction ids decides and not the
order of the transactions.  So the owner is right exactly when both orders end with the same
receiver.
-/

namespace BoingNetwork.Sdk

/-- A log as `boing_getLogs` returns it; its position is the block, the transaction and the log
within the transaction. -/
structure RpcLogEntry where
  blockHeight : ℕ
  txIndex : ℕ
  txId : Hash
  logIndex : ℕ
  address : Option AccountId
  topics : List (BitVec 256)
deriving DecidableEq

structure RpcError where
  code : ℤ
  message : String
deriving DecidableEq

/-! ## The node -/

def GET_LOGS_MAX_BLOCK_RANGE : ℕ := 128

def GET_LOGS_MAX_RESULTS : ℕ := 2048

structure GetLogsFilter where
  fromBlock : ℕ
  toBlock : ℕ
  address : AccountId
  topics : List (BitVec 256)

def logMatchesTopicFilter (entry : RpcLogEntry) (wanted : List (BitVec 256)) : Bool :=
  entry.topics.take wanted.length == wanted

/-- The log comes from the contract and has the topics that are asked for. -/
def GetLogsFilter.admits (filter : GetLogsFilter) (entry : RpcLogEntry) : Bool :=
  entry.address == some filter.address && logMatchesTopicFilter entry filter.topics

/-- A receipt with the topics of its logs. -/
structure LogReceipt where
  blockHeight : ℕ
  txIndex : ℕ
  txId : Hash
  logs : List (List (BitVec 256))

/-- What the handler reads of a node: the ids of the transactions of each block with the accounts
that emit their logs, and the receipts by id. -/
structure LogNode where
  blocks : List (List (Hash × Option AccountId))
  receipts : Hash → Option LogReceipt

/-- The logs of the receipts that are found for the transactions of a block. -/
def LogNode.logsAt (node : LogNode) (height : ℕ) : List RpcLogEntry :=
  (node.blocks[height]?.getD []).flatMap fun tx => (node.receipts tx.1).elim [] fun receipt =>
    receipt.logs.mapIdx fun logIndex topics =>
      ⟨receipt.blockHeight, receipt.txIndex, receipt.txId, logIndex, tx.2, topics⟩

/-- The handler of `boing_getLogs`. -/
def getLogs (node : LogNode) (filter : GetLogsFilter) : Except RpcError (List RpcLogEntry) :=
  let heights := List.range' filter.fromBlock (filter.toBlock - filter.fromBlock + 1)
  let found := heights.flatMap fun height => (node.logsAt height).filter filter.admits
  if filter.toBlock < filter.fromBlock then
    throw ⟨-32602, "toBlock must be >= fromBlock"⟩
  else if GET_LOGS_MAX_BLOCK_RANGE < filter.toBlock - filter.fromBlock + 1 then
    throw ⟨-32602, "block range too large (max 128 inclusive blocks)"⟩
  else if GET_LOGS_MAX_RESULTS < found.length then
    throw ⟨-32603, "log result limit exceeded (max 2048); narrow filters or block range"⟩
  else return found

/-! ## Logs in chunks -/

def DEFAULT_GET_LOGS_MAX_BLOCK_SPAN : ℕ := 128

inductive SdkError where
  | range (message : String)
  | rpc (error : RpcError)
deriving DecidableEq

def planFrom (toBlock maxSpan : ℕ) : ℕ → ℕ → List (ℕ × ℕ)
  | 0, _ => []
  | fuel + 1, start =>
    if start ≤ toBlock then
      (start, min (start + maxSpan - 1) toBlock) ::
        planFrom toBlock maxSpan fuel (min (start + maxSpan - 1) toBlock + 1)
    else []

def planLogBlockChunks (fromBlock toBlock maxSpan : ℕ) : Except SdkError (List (ℕ × ℕ)) :=
  if maxSpan < 1 then throw (.range "maxSpan must be >= 1")
  else return planFrom toBlock maxSpan (toBlock + 1 - fromBlock) fromBlock

/-- The results are in the order of the items, whatever runs at the same time. -/
def mapWithConcurrencyLimit {Item Result : Type} (items : List Item) (limit : ℕ)
    (call : Item → Except SdkError Result) : Except SdkError (List Result) :=
  if limit < 1 then throw (.range "limit must be >= 1") else items.mapM call

def compareLogEntries (left right : RpcLogEntry) : ℤ :=
  if left.blockHeight ≠ right.blockHeight then (left.blockHeight : ℤ) - right.blockHeight
  else if left.txIndex ≠ right.txIndex then (left.txIndex : ℤ) - right.txIndex
  else (left.logIndex : ℤ) - right.logIndex

/-- `boing_getLogs` over a range in chunks, merged in the order of the chain. -/
def getLogsChunked (node : LogNode) (filter : GetLogsFilter)
    (maxConcurrent maxBlockSpan : ℕ) : Except SdkError (List RpcLogEntry) := do
  let chunks ← planLogBlockChunks filter.fromBlock filter.toBlock maxBlockSpan
  let parts ← mapWithConcurrencyLimit chunks maxConcurrent fun chunk =>
    (getLogs node { filter with fromBlock := chunk.1, toBlock := chunk.2 }).mapError .rpc
  return parts.flatten.insertionSort fun left right => compareLogEntries left right ≤ 0

/-! ## Transfers -/

def ERC721_TRANSFER_TOPIC0 : BitVec 256 :=
  0xddf252ad1be2c89b69c2b068fc378daa952ba7f163c4a11628f55a4df523b3ef

def topicAddressToAccount (topic : BitVec 256) : AccountId := topic &&& (1 <<< 160 - 1)

structure Erc721TransferParsed where
  sender : AccountId
  receiver : AccountId
  tokenId : ℕ
  blockHeight : ℕ
  txId : Hash
  logIndex : ℕ
deriving DecidableEq

def tryParseErc721TransferRpcLog (entry : RpcLogEntry) : Option Erc721TransferParsed :=
  match entry.topics with
  | [signature, sender, receiver, tokenId] =>
    if signature = ERC721_TRANSFER_TOPIC0 then
      some ⟨topicAddressToAccount sender, topicAddressToAccount receiver, tokenId.toNat,
        entry.blockHeight, entry.txId, entry.logIndex⟩
    else none
  | _ => none

/-! ## Rows -/

structure NftOwnerRow where
  contract : AccountId
  tokenId : ℕ
  owner : AccountId
  lastBlockHeight : ℕ
  txId : Hash
  logIndex : ℕ
deriving DecidableEq

/-- `localeCompare` on hexadecimal ids of one length. -/
def localeCompare (left right : Hash) : ℤ :=
  if left.toNat < right.toNat then -1 else if left = right then 0 else 1

def Replaces (transfer : Erc721TransferParsed) (row : NftOwnerRow) : Prop :=
  row.lastBlockHeight < transfer.blockHeight ∨
    (transfer.blockHeight = row.lastBlockHeight ∧ 0 < localeCompare transfer.txId row.txId) ∨
    (transfer.blockHeight = row.lastBlockHeight ∧ transfer.txId = row.txId ∧
      row.logIndex < transfer.logIndex)

instance (transfer : Erc721TransferParsed) (row : NftOwnerRow) :
    Decidable (Replaces transfer row) :=
  inferInstanceAs (Decidable (_ ∨ _))

def Erc721TransferParsed.row (contract : AccountId) (transfer : Erc721TransferParsed) :
    NftOwnerRow :=
  ⟨contract, transfer.tokenId, transfer.receiver, transfer.blockHeight, transfer.txId,
    transfer.logIndex⟩

def record (contract : AccountId) (rows : List NftOwnerRow) (transfer : Erc721TransferParsed) :
    List NftOwnerRow :=
  match rows.find? (·.tokenId = transfer.tokenId) with
  | none => rows ++ [transfer.row contract]
  | some previous =>
    if Replaces transfer previous then
      rows.map fun row => if row.tokenId = transfer.tokenId then transfer.row contract else row
    else rows

def compareRows (left right : NftOwnerRow) : ℤ :=
  if left.lastBlockHeight ≠ right.lastBlockHeight then
    (left.lastBlockHeight : ℤ) - right.lastBlockHeight
  else if localeCompare left.txId right.txId ≠ 0 then localeCompare left.txId right.txId
  else (left.logIndex : ℤ) - right.logIndex

/-- The first and the last block that are asked for; block numbers are already whole. -/
def requestedRange (fromBlock toBlock : ℤ) : ℕ × ℕ :=
  let first := (max 0 fromBlock).toNat
  (first, max first toBlock.toNat)

def collectNftOwnersFromErc721Transfers (node : LogNode) (contract : AccountId)
    (fromBlock toBlock : ℤ) (maxConcurrent : ℕ) : Except SdkError (List NftOwnerRow) := do
  let (first, last) := requestedRange fromBlock toBlock
  let logs ← getLogsChunked node ⟨first, last, contract, [ERC721_TRANSFER_TOPIC0]⟩
    maxConcurrent DEFAULT_GET_LOGS_MAX_BLOCK_SPAN
  let parsed := logs.filterMap tryParseErc721TransferRpcLog
  let latest := parsed.foldl (record contract) []
  return latest.insertionSort fun left right => compareRows left right ≤ 0

/-! ## What is fetched -/

variable {entry : RpcLogEntry} {node : LogNode} {maxConcurrent : ℕ}

section Fetched

variable {filter : GetLogsFilter} {rows : List RpcLogEntry} {maxSpan : ℕ}

/-- The chunks cover the range. -/
theorem exists_mem_planFrom {toBlock height fuel start : ℕ} (positive : 0 < maxSpan)
    (enough : toBlock + 1 - start ≤ fuel) :
    (∃ chunk ∈ planFrom toBlock maxSpan fuel start, chunk.1 ≤ height ∧ height ≤ chunk.2) ↔
      start ≤ height ∧ height ≤ toBlock := by
  induction fuel generalizing start with
  | zero =>
    simp only [planFrom, List.not_mem_nil, false_and, exists_false, false_iff]
    omega
  | succ fuel ih =>
    rw [planFrom]
    split
    next =>
      rw [List.exists_mem_cons_iff, ih (by omega)]
      omega
    next =>
      simp only [List.not_mem_nil, false_and, exists_false, false_iff]
      omega

theorem mem_of_getLogs (found : getLogs node filter = .ok rows) :
    entry ∈ rows ↔ filter.admits entry ∧ ∃ height, entry ∈ node.logsAt height ∧
      filter.fromBlock ≤ height ∧ height ≤ filter.toBlock := by
  unfold getLogs at found
  dsimp only at found
  split at found
  next => cases found
  next ordered =>
    split at found
    next => cases found
    next =>
      split at found
      next => cases found
      next =>
        have inRange : ∀ height, filter.fromBlock ≤ height ∧ height < filter.fromBlock +
            (filter.toBlock - filter.fromBlock + 1) ↔
            filter.fromBlock ≤ height ∧ height ≤ filter.toBlock := by omega
        cases found
        simp only [List.mem_flatMap, List.mem_range'_1, List.mem_filter, inRange]
        tauto

theorem mem_of_getLogsChunked
    (found : getLogsChunked node filter maxConcurrent maxSpan = .ok rows) :
    entry ∈ rows ↔ filter.admits entry ∧ ∃ height, entry ∈ node.logsAt height ∧
      filter.fromBlock ≤ height ∧ height ≤ filter.toBlock := by
  obtain ⟨chunks, isPlan, continued⟩ := Except.bind_eq_ok.mp found
  obtain ⟨parts, isParts, isRows⟩ := Except.bind_eq_ok.mp continued
  cases isRows
  unfold planLogBlockChunks at isPlan
  unfold mapWithConcurrencyLimit at isParts
  split at isPlan
  next => cases isPlan
  next wide =>
    cases isPlan
    split at isParts
    next => cases isParts
    next =>
      have covered := fun height => @exists_mem_planFrom maxSpan filter.toBlock height
        (filter.toBlock + 1 - filter.fromBlock) filter.fromBlock (by omega) le_rfl
      simp only [List.mem_insertionSort, List.mem_flatten, Except.mem_of_mapM isParts,
        Except.mapError_eq_ok, ← covered]
      constructor
      · rintro ⟨part, ⟨chunk, isChunk, fetched⟩, member⟩
        obtain ⟨admitted, height, isLog, inside⟩ := (mem_of_getLogs fetched).mp member
        exact ⟨admitted, height, isLog, chunk, isChunk, inside⟩
      · rintro ⟨admitted, height, isLog, chunk, isChunk, inside⟩
        obtain ⟨part, fetched⟩ := Except.exists_of_mapM isParts isChunk
        rw [Except.mapError_eq_ok] at fetched
        exact ⟨part, ⟨chunk, isChunk, fetched⟩,
          (mem_of_getLogs fetched).mpr ⟨admitted, height, isLog, inside⟩⟩

end Fetched

/-! ## Rows are the greatest by id -/

/-- The order in which rows replace each other. -/
def Erc721TransferParsed.rank (transfer : Erc721TransferParsed) : ℕ ×ₗ ℕ ×ₗ ℕ :=
  toLex (transfer.blockHeight, toLex (transfer.txId.toNat, transfer.logIndex))

variable {transfer earlier : Erc721TransferParsed} {contract : AccountId} {rows : List NftOwnerRow}

theorem replaces_row {other : Erc721TransferParsed} :
    Replaces transfer (other.row contract) ↔ other.rank < transfer.rank := by
  have isLarger : 0 < localeCompare transfer.txId other.txId ↔
      other.txId.toNat < transfer.txId.toNat := by
    unfold localeCompare
    split
    next => omega
    next =>
      split
      next equal =>
        rw [equal]
        exact iff_of_false (lt_irrefl 0) (lt_irrefl _)
      next differ =>
        have apart : transfer.txId.toNat ≠ other.txId.toNat := fun same =>
          differ (BitVec.eq_of_toNat_eq same)
        omega
  simp only [Replaces, isLarger, Erc721TransferParsed.row, Erc721TransferParsed.rank,
    Prod.Lex.toLex_lt_toLex, ← BitVec.toNat_inj]
  omega

/-- No transfer of the token in the list ranks higher. -/
def IsTop (transfers : List Erc721TransferParsed) (transfer : Erc721TransferParsed) : Prop :=
  transfer ∈ transfers ∧
    ∀ other ∈ transfers, other.tokenId = transfer.tokenId → other.rank ≤ transfer.rank

structure Shown (contract : AccountId) (transfers : List Erc721TransferParsed)
    (rows : List NftOwnerRow) : Prop where
  nodup : (rows.map (·.tokenId)).Nodup
  highest : ∀ row ∈ rows, ∃ transfer, row = transfer.row contract ∧ IsTop transfers transfer
  complete : ∀ transfer ∈ transfers, ∃ row ∈ rows, row.tokenId = transfer.tokenId

section Rows

variable {past : List Erc721TransferParsed}

theorem IsTop.append (top : IsTop past earlier)
    (below : transfer.tokenId = earlier.tokenId → transfer.rank ≤ earlier.rank) :
    IsTop (past ++ [transfer]) earlier :=
  ⟨List.mem_append_left _ top.1,
    List.forall_mem_append.mpr ⟨top.2, List.forall_mem_singleton.mpr below⟩⟩

theorem IsTop.last
    (above : ∀ other ∈ past, other.tokenId = transfer.tokenId → other.rank ≤ transfer.rank) :
    IsTop (past ++ [transfer]) transfer :=
  ⟨List.mem_append_right _ List.mem_cons_self,
    List.forall_mem_append.mpr ⟨above, List.forall_mem_singleton.mpr fun _ => le_rfl⟩⟩

section

variable (shown : Shown contract past rows)

include shown

theorem Shown.append (isNew : ∀ row ∈ rows, row.tokenId ≠ transfer.tokenId) :
    Shown contract (past ++ [transfer]) (rows ++ [transfer.row contract]) where
  nodup := by
    rw [List.map_append, List.map_singleton]
    refine List.nodup_append'.mpr ⟨shown.nodup, List.nodup_singleton _, ?_⟩
    rw [List.disjoint_singleton, List.mem_map]
    rintro ⟨row, isRow, sameToken⟩
    exact isNew row isRow sameToken
  highest := by
    refine List.forall_mem_append.mpr ⟨fun row isOld => ?_, List.forall_mem_singleton.mpr
      ⟨transfer, rfl, .last fun other otherPast sameToken => ?_⟩⟩
    · obtain ⟨kept, isRow, top⟩ := shown.highest row isOld
      exact ⟨kept, isRow, top.append fun sameToken =>
        absurd (isRow ▸ sameToken.symm) (isNew row isOld)⟩
    · obtain ⟨shownRow, isShown, isToken⟩ := shown.complete other otherPast
      exact absurd (isToken.trans sameToken) (isNew shownRow isShown)
  complete := by
    refine List.forall_mem_append.mpr ⟨fun other otherPast => ?_,
      List.forall_mem_singleton.mpr ⟨_, List.mem_append_right _ List.mem_cons_self, rfl⟩⟩
    obtain ⟨row, isRow, isToken⟩ := shown.complete other otherPast
    exact ⟨row, List.mem_append_left _ isRow, isToken⟩

theorem Shown.complete_append (isShown : ∃ row ∈ rows, row.tokenId = transfer.tokenId) :
    ∀ other ∈ past ++ [transfer], ∃ row ∈ rows, row.tokenId = other.tokenId :=
  List.forall_mem_append.mpr ⟨shown.complete, List.forall_mem_singleton.mpr isShown⟩

theorem Shown.replace
    (isEarlier : ∀ other ∈ past, other.tokenId = transfer.tokenId → other.rank ≤ earlier.rank)
    (higher : earlier.rank < transfer.rank)
    (isShown : ∃ row ∈ rows, row.tokenId = transfer.tokenId) :
    Shown contract (past ++ [transfer]) (rows.map fun row =>
      if row.tokenId = transfer.tokenId then transfer.row contract else row) := by
  have sameTokens : (rows.map fun row =>
      if row.tokenId = transfer.tokenId then transfer.row contract else row).map (·.tokenId) =
        rows.map (·.tokenId) := by
    rw [List.map_map]
    refine List.map_congr_left fun row _ => ?_
    rw [Function.comp_apply]
    split
    next same => exact same.symm
    next => rfl
  refine ⟨sameTokens ▸ shown.nodup, fun row member => ?_, fun other isOther => ?_⟩
  · obtain ⟨old, isOld, rfl⟩ := List.mem_map.mp member
    split
    next =>
      exact ⟨transfer, rfl, .last fun other otherPast sameToken =>
        (isEarlier other otherPast sameToken).trans higher.le⟩
    next differs =>
      obtain ⟨kept, isRow, top⟩ := shown.highest old isOld
      exact ⟨kept, isRow, top.append fun sameToken => absurd (isRow ▸ sameToken.symm) differs⟩
  · rw [← List.mem_map, sameTokens, List.mem_map]
    exact shown.complete_append isShown other isOther

theorem Shown.keep (isEarlier : earlier ∈ past) (isToken : earlier.tokenId = transfer.tokenId)
    (lower : transfer.rank ≤ earlier.rank) : Shown contract (past ++ [transfer]) rows where
  nodup := shown.nodup
  highest row member := by
    obtain ⟨kept, isRow, top⟩ := shown.highest row member
    exact ⟨kept, isRow, top.append fun sameToken =>
      lower.trans (top.2 earlier isEarlier (isToken.trans sameToken))⟩
  complete := shown.complete_append (isToken ▸ shown.complete earlier isEarlier)

theorem Shown.record : Shown contract (past ++ [transfer]) (record contract rows transfer) := by
  unfold Sdk.record
  split
  next isNone =>
    refine shown.append fun row member => ?_
    simpa using List.find?_eq_none.mp isNone row member
  next previous isSome =>
    have isToken : previous.tokenId = transfer.tokenId := by simpa using List.find?_some isSome
    have isPrevious : previous ∈ rows := List.mem_of_find?_eq_some isSome
    obtain ⟨earlier, rfl, isPast, highest⟩ := shown.highest previous isPrevious
    split
    next replaces =>
      exact shown.replace (fun other otherPast sameToken => highest other otherPast
        (sameToken.trans isToken.symm)) (replaces_row.mp replaces) ⟨_, isPrevious, isToken⟩
    next keeps =>
      exact shown.keep isPast isToken (not_lt.mp fun higher => keeps (replaces_row.mpr higher))

end

theorem shown_foldl (transfers : List Erc721TransferParsed) :
    Shown contract transfers (transfers.foldl (record contract) []) :=
  @Run.history_invariant _ _ (Sdk.record contract) [] (Shown contract)
    ⟨List.nodup_nil, nofun, nofun⟩ (fun _ _ _ shown => shown.record) transfers

end Rows

/-! ## The snapshot -/

section Snapshot

variable {fromBlock toBlock : ℤ}

/-- The place of a log in the chain. -/
def RpcLogEntry.position (entry : RpcLogEntry) : ℕ ×ₗ ℕ ×ₗ ℕ :=
  toLex (entry.blockHeight, toLex (entry.txIndex, entry.logIndex))

/-- The receipts that are found for the transactions of a block are of that block, with one log for
each id and log index. -/
structure Committed (node : LogNode) : Prop where
  height : ∀ height < node.blocks.length, ∀ entry ∈ node.logsAt height, entry.blockHeight = height
  entry : ∀ height < node.blocks.length, ∀ left ∈ node.logsAt height,
    ∀ right ∈ node.logsAt height, left.txId = right.txId → left.logIndex = right.logIndex →
      left = right

/-- The log is a transfer that the contract emitted in the requested range. -/
structure IsTransfer (node : LogNode) (contract : AccountId) (fromBlock toBlock : ℤ)
    (entry : RpcLogEntry) (transfer : Erc721TransferParsed) : Prop where
  member : entry ∈ node.logsAt entry.blockHeight
  address : entry.address = some contract
  first : (requestedRange fromBlock toBlock).1 ≤ entry.blockHeight
  last : entry.blockHeight ≤ (requestedRange fromBlock toBlock).2
  parsed : tryParseErc721TransferRpcLog entry = some transfer

/-- The last transfer of its token in the order of the chain. -/
def IsLast (node : LogNode) (contract : AccountId) (fromBlock toBlock : ℤ)
    (entry : RpcLogEntry) (transfer : Erc721TransferParsed) : Prop :=
  IsTransfer node contract fromBlock toBlock entry transfer ∧
    ∀ other later, IsTransfer node contract fromBlock toBlock other later →
      later.tokenId = transfer.tokenId → other.position ≤ entry.position

def IsHighest (node : LogNode) (contract : AccountId) (fromBlock toBlock : ℤ)
    (transfer : Erc721TransferParsed) : Prop :=
  (∃ entry, IsTransfer node contract fromBlock toBlock entry transfer) ∧
    ∀ other later, IsTransfer node contract fromBlock toBlock other later →
      later.tokenId = transfer.tokenId → later.rank ≤ transfer.rank

/-- Every token has one row, which names the receiver of its last transfer. -/
structure OwnersReported (node : LogNode) (contract : AccountId) (fromBlock toBlock : ℤ)
    (rows : List NftOwnerRow) : Prop where
  nodup : (rows.map (·.tokenId)).Nodup
  complete : ∀ token, token ∈ rows.map (·.tokenId) ↔
    ∃ entry transfer, IsTransfer node contract fromBlock toBlock entry transfer ∧
      transfer.tokenId = token
  owner : ∀ row ∈ rows, ∀ entry transfer,
    IsLast node contract fromBlock toBlock entry transfer → transfer.tokenId = row.tokenId →
      row.owner = transfer.receiver

theorem admits_of_parsed {first last : ℕ}
    (parsed : tryParseErc721TransferRpcLog entry = some transfer) :
    GetLogsFilter.admits ⟨first, last, contract, [ERC721_TRANSFER_TOPIC0]⟩ entry = true ↔
      entry.address = some contract := by
  unfold tryParseErc721TransferRpcLog at parsed
  split at parsed
  next isTopics =>
    split at parsed
    next isSignature => simp [GetLogsFilter.admits, logMatchesTopicFilter, isTopics, isSignature]
    next => cases parsed
  next => cases parsed

theorem height_lt {height : ℕ} (member : entry ∈ node.logsAt height) :
    height < node.blocks.length := by
  by_contra above
  simp [LogNode.logsAt, List.getElem?_eq_none (not_lt.mp above)] at member

theorem exists_shown (isCommitted : Committed node)
    (collected : collectNftOwnersFromErc721Transfers node contract fromBlock toBlock
      maxConcurrent = .ok rows) :
    ∃ transfers, Shown contract transfers rows ∧ ∀ transfer, transfer ∈ transfers ↔
      ∃ entry, IsTransfer node contract fromBlock toBlock entry transfer := by
  obtain ⟨logs, isLogs, isRows⟩ := Except.bind_eq_ok.mp collected
  cases isRows
  refine ⟨logs.filterMap tryParseErc721TransferRpcLog, ?_, fun transfer => ?_⟩
  · have shown := @shown_foldl contract (logs.filterMap tryParseErc721TransferRpcLog)
    have sorted := List.perm_insertionSort (fun left right => compareRows left right ≤ 0)
      ((logs.filterMap tryParseErc721TransferRpcLog).foldl (record contract) [])
    refine ⟨(sorted.map _).nodup_iff.mpr shown.nodup, fun row member => ?_, fun other member => ?_⟩
    · exact shown.highest row (sorted.mem_iff.mp member)
    · obtain ⟨row, isRow, isToken⟩ := shown.complete other member
      exact ⟨row, sorted.mem_iff.mpr isRow, isToken⟩
  · rw [List.mem_filterMap]
    refine exists_congr fun entry => ⟨fun ⟨member, parsed⟩ => ?_, fun isTransfer => ?_⟩
    · obtain ⟨admitted, height, isLog, inside⟩ := (mem_of_getLogsChunked isLogs).mp member
      obtain rfl := isCommitted.height height (height_lt isLog) entry isLog
      exact ⟨isLog, (admits_of_parsed parsed).mp admitted, inside.1, inside.2, parsed⟩
    · exact ⟨(mem_of_getLogsChunked isLogs).mpr ⟨(admits_of_parsed isTransfer.parsed).mpr
        isTransfer.address, _, isTransfer.member, isTransfer.first, isTransfer.last⟩,
        isTransfer.parsed⟩

theorem rank_of_parsed (parsed : tryParseErc721TransferRpcLog entry = some transfer) :
    transfer.rank = toLex (entry.blockHeight, toLex (entry.txId.toNat, entry.logIndex)) := by
  unfold tryParseErc721TransferRpcLog at parsed
  split at parsed
  next =>
    split at parsed
    next =>
      cases parsed
      rfl
    next => cases parsed
  next => cases parsed

theorem eq_of_rank_eq (isCommitted : Committed node) {other : RpcLogEntry}
    {second : Erc721TransferParsed}
    (isTransfer : IsTransfer node contract fromBlock toBlock entry transfer)
    (isOther : IsTransfer node contract fromBlock toBlock other second)
    (same : transfer.rank = second.rank) : transfer = second := by
  rw [rank_of_parsed isTransfer.parsed, rank_of_parsed isOther.parsed] at same
  simp only [EmbeddingLike.apply_eq_iff_eq, Prod.mk.injEq] at same
  obtain ⟨sameBlock, sameId, sameLog⟩ := same
  have isEntry : entry = other := isCommitted.entry _ (height_lt isTransfer.member) entry
    isTransfer.member other (sameBlock ▸ isOther.member) (BitVec.eq_of_toNat_eq sameId) sameLog
  have parsed := isTransfer.parsed
  rw [isEntry, isOther.parsed] at parsed
  exact (Option.some.inj parsed).symm

/-- The owners are right exactly when, for each token, the transfer with the highest id in the
last block has the same receiver as the last transfer of the chain. -/
theorem owners_reported_iff (isCommitted : Committed node)
    (collected : collectNftOwnersFromErc721Transfers node contract fromBlock toBlock
      maxConcurrent = .ok rows) :
    OwnersReported node contract fromBlock toBlock rows ↔
      ∀ entry last highest, IsLast node contract fromBlock toBlock entry last →
        IsHighest node contract fromBlock toBlock highest →
          highest.tokenId = last.tokenId → highest.receiver = last.receiver := by
  obtain ⟨transfers, shown, isTransfers⟩ := exists_shown isCommitted collected
  have shownHighest : ∀ row ∈ rows, ∃ highest, row = highest.row contract ∧
      IsHighest node contract fromBlock toBlock highest := by
    intro row isRow
    obtain ⟨highest, isShown, isMember, above⟩ := shown.highest row isRow
    exact ⟨highest, isShown, (isTransfers highest).mp isMember, fun other later isTransfer =>
      above later ((isTransfers later).mpr ⟨other, isTransfer⟩)⟩
  constructor
  · intro reported entry last highest isLast isHighest sameToken
    obtain ⟨other, isTransfer⟩ := isHighest.1
    obtain ⟨row, isRow, isToken⟩ := shown.complete highest ((isTransfers highest).mpr isHighest.1)
    obtain ⟨chosen, rfl, isChosen⟩ := shownHighest row isRow
    obtain ⟨chosenEntry, chosenTransfer⟩ := isChosen.1
    have sameRank : chosen.rank = highest.rank :=
      le_antisymm (isHighest.2 _ _ chosenTransfer isToken)
        (isChosen.2 _ _ isTransfer isToken.symm)
    have isSame := eq_of_rank_eq isCommitted chosenTransfer isTransfer sameRank
    subst isSame
    exact reported.owner _ isRow entry last isLast sameToken.symm
  · intro agree
    refine ⟨shown.nodup, fun token => ?_, fun row isRow entry last isLast isToken => ?_⟩
    · rw [List.mem_map]
      constructor
      · rintro ⟨row, isRow, rfl⟩
        obtain ⟨chosen, rfl, ⟨entry, isTransfer⟩, -⟩ := shownHighest row isRow
        exact ⟨entry, chosen, isTransfer, rfl⟩
      · rintro ⟨entry, transfer, isTransfer, rfl⟩
        exact shown.complete transfer ((isTransfers transfer).mpr ⟨entry, isTransfer⟩)
    · obtain ⟨chosen, rfl, isChosen⟩ := shownHighest row isRow
      exact agree entry last chosen isLast isChosen isToken.symm

end Snapshot

/-- Two transfers of token 5 in block 1, with their ids and receivers. -/
def sampleNode (first second : Hash × AccountId) : LogNode where
  blocks := [[], [(first.1, some 2), (second.1, some 2)]]
  receipts id :=
    if id = first.1 then some ⟨1, 0, first.1, [[ERC721_TRANSFER_TOPIC0, 0, first.2, 5]]⟩
    else if id = second.1 then some ⟨1, 1, second.1, [[ERC721_TRANSFER_TOPIC0, 0, second.2, 5]]⟩
    else none

/-- The log of the second of the transfers. -/
def secondLog (second : Hash × AccountId) : RpcLogEntry :=
  ⟨1, 1, second.1, 0, some 2, [ERC721_TRANSFER_TOPIC0, 0, second.2, 5]⟩

def secondTransfer (second : Hash × AccountId) : Erc721TransferParsed :=
  ⟨0, second.2, 5, 1, second.1, 0⟩

/-- Two transfers in one block, the first of which has the higher id: its receiver stays. -/
theorem earlier_receiver_reported :
    Committed (sampleNode (9, 7) (3, 8)) ∧
      collectNftOwnersFromErc721Transfers (sampleNode (9, 7) (3, 8)) 2 0 10 1 =
        .ok [⟨2, 5, 7, 1, 9, 0⟩] ∧
      ¬OwnersReported (sampleNode (9, 7) (3, 8)) 2 0 10 [⟨2, 5, 7, 1, 9, 0⟩] := by
  refine ⟨by constructor <;> decide, by decide, fun reported => ?_⟩
  have isTransfer : IsTransfer (sampleNode (9, 7) (3, 8)) 2 0 10 (secondLog (3, 8))
      (secondTransfer (3, 8)) := by constructor <;> decide
  have after : ∀ height < 2, ∀ other ∈ (sampleNode (9, 7) (3, 8)).logsAt height,
      other.position ≤ (secondLog (3, 8)).position := by decide
  have isOwner := reported.owner ⟨2, 5, 7, 1, 9, 0⟩ (by simp) _ _
    ⟨isTransfer, fun other _ isOther _ => after _ (height_lt isOther.member) _ isOther.member⟩ rfl
  exact absurd isOwner (by decide)

/-- Two transfers in one block in the order of their ids. -/
theorem owners_reported_ordered :
    Committed (sampleNode (3, 7) (9, 8)) ∧
      collectNftOwnersFromErc721Transfers (sampleNode (3, 7) (9, 8)) 2 0 10 1 =
        .ok [⟨2, 5, 8, 1, 9, 0⟩] ∧
      OwnersReported (sampleNode (3, 7) (9, 8)) 2 0 10 [⟨2, 5, 8, 1, 9, 0⟩] := by
  have isCommitted : Committed (sampleNode (3, 7) (9, 8)) := by constructor <;> decide
  have collected : collectNftOwnersFromErc721Transfers (sampleNode (3, 7) (9, 8)) 2 0 10 1 =
      .ok [⟨2, 5, 8, 1, 9, 0⟩] := by decide
  refine ⟨isCommitted, collected, (owners_reported_iff isCommitted collected).mpr ?_⟩
  have isSecond : IsTransfer (sampleNode (3, 7) (9, 8)) 2 0 10 (secondLog (9, 8))
      (secondTransfer (9, 8)) := by constructor <;> decide
  have receivers : ∀ height < 2, ∀ entry ∈ (sampleNode (3, 7) (9, 8)).logsAt height,
      ∀ transfer ∈ tryParseErc721TransferRpcLog entry, transfer.tokenId = 5 ∧
        ((secondLog (9, 8)).position ≤ entry.position → transfer.receiver = 8) ∧
        ((secondTransfer (9, 8)).rank ≤ transfer.rank → transfer.receiver = 8) := by decide
  intro entry last highest isLast isHighest _
  obtain ⟨⟨other, isOther⟩, above⟩ := isHighest
  obtain ⟨isToken, -, isReceiver⟩ :=
    receivers _ (height_lt isOther.member) other isOther.member highest isOther.parsed
  obtain ⟨lastToken, lastReceiver, -⟩ :=
    receivers _ (height_lt isLast.1.member) entry isLast.1.member last isLast.1.parsed
  rw [isReceiver (above _ _ isSecond isToken.symm),
    lastReceiver (isLast.2 _ _ isSecond lastToken.symm)]

end BoingNetwork.Sdk
