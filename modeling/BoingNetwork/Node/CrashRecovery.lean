import BoingNetwork.Node.Persistence

/-!
# Crashes between two file writes

A commit is persisted by a sequence of file writes, of which a crash keeps an initial
part.  The chain metadata is the third write: from there on the restarted node follows
the new block, while its state is read from files of which some are still those of the
previous commit.  The state is that of the tip before the metadata is written, and again once
the files that are still to be written are there.
-/

namespace BoingNetwork

open FiniteMap Std

variable [Crypto] {height index : ℕ} {heights : List ℕ} {bytes : Bytes} {genesis : Block}
  {commit : Commit}

/-! ## Linked chains -/

/-- The chain that grows from another one by the given blocks. -/
def ChainState.extendAll (chain : ChainState) (blocks : List Block) : ChainState :=
  blocks.foldl ChainState.extend chain

/-- Each block is a child of the one before it. -/
def ChainState.Linked : ChainState → List Block → Prop
  | _, [] => True
  | chain, block :: blocks => chain.Chains block ∧ (chain.extend block).Linked blocks

namespace ChainState

instance (chain : ChainState) (block : Block) : Decidable (chain.Chains block) :=
  inferInstanceAs (Decidable (_ ∧ _))

variable {chain : ChainState} {blocks : List Block}

theorem height_extendAll (linked : chain.Linked blocks) :
    (chain.extendAll blocks).height = chain.height + blocks.length := by
  induction blocks generalizing chain with
  | nil => rfl
  | cons block blocks ih =>
    have height : (chain.extend block).height = chain.height + 1 := linked.1.2
    rw [extendAll, List.foldl_cons, List.length_cons]
    exact (ih linked.2).trans (by omega)

theorem linked_append {more : List Block} : chain.Linked (blocks ++ more) ↔
      chain.Linked blocks ∧ (chain.extendAll blocks).Linked more := by
  induction blocks generalizing chain with
  | nil => simp [Linked, extendAll]
  | cons block blocks ih =>
    rw [List.cons_append, Linked, Linked, ih, and_assoc]
    rfl

end ChainState

/-! ## Loading the chain -/

def Block.ReadsBack (block : Block) : Prop :=
  block.serialize.length ≤ MAX_PERSIST_BLOCK_FILE_BYTES ∧
    Block.fromBincode block.serialize = some block

namespace PersistenceConfig

variable {config : PersistenceConfig} {dir : DataDir} {chain : ChainState}

omit [Crypto] in
theorem loadBlock_of_readsBack {block : Block} (file : dir.blocks[height]? = some block.serialize)
    (readsBack : block.ReadsBack) : config.loadBlock dir height = .ok (some block) := by
  simp only [loadBlock, file, readLimited_eq_ok readsBack.1, Except.ok_bind, readsBack.2]

theorem loadBlocks_eq_extendAll {blocks : List Block} (linked : chain.Linked blocks)
    (files : ∀ index block, blocks[index]? = some block →
      dir.blocks[chain.height + 1 + index]? = some block.serialize)
    (readsBack : ∀ block ∈ blocks, block.ReadsBack) :
    config.loadBlocks dir chain (List.range' (chain.height + 1) blocks.length) =
      .ok (chain.extendAll blocks) := by
  induction blocks generalizing chain with
  | nil => rfl
  | cons block blocks ih =>
    obtain ⟨first, others⟩ := List.forall_mem_cons.mp readsBack
    have height : (chain.extend block).height = chain.height + 1 := linked.1.2
    have later := ih linked.2 (fun index other isOther => by
      have := files (index + 1) other isOther
      rwa [height, show chain.height + 1 + 1 + index = chain.height + 1 + (index + 1) by omega])
      others
    rw [List.length_cons, List.range'_succ, loadBlocks,
      loadBlock_of_readsBack (files 0 block rfl) first, Except.ok_bind]
    dsimp only
    rw [ChainState.append_of_chains linked.1, ← height]
    exact later

omit [Crypto] in
theorem exists_foldlM_loadReceipts (fit : ∀ height ∈ heights, ∀ file ∈ dir.receipts[height]?,
      file.size ≤ MAX_PERSIST_SMALL_FILE_BYTES) (receipts : ExtTreeMap Hash ExecutionReceipt) :
    ∃ result, heights.foldlM (config.loadReceipts dir) receipts = .ok result := by
  induction heights generalizing receipts with
  | nil => exact ⟨receipts, rfl⟩
  | cons height heights ih =>
    obtain ⟨first, others⟩ := List.forall_mem_cons.mp fit
    obtain ⟨list, loaded⟩ : ∃ list, config.loadReceiptsForHeight dir height = .ok list := by
      unfold loadReceiptsForHeight
      cases found : dir.receipts[height]? with
      | none => exact ⟨[], rfl⟩
      | some file => exact ⟨file.value, readLimited_eq_ok (first file found)⟩
    rw [List.foldlM_cons, loadReceipts, loaded]
    exact ih others _

end PersistenceConfig

/-! ## The data directory after a crash -/

namespace DataDir

def writeAll (dir : DataDir) (writes : List FileWrite) : DataDir := writes.foldl write dir

def committed (genesis : Block) (commits : List Commit) : DataDir :=
  commits.foldl (fun dir commit => dir.writeAll commit.persistBlockAndState)
    (saveGenesisIfMissing {} genesis)

def crashed (genesis : Block) (commits : List Commit) (last : Commit) (kept : ℕ) : DataDir :=
  (committed genesis commits).writeAll (last.persistBlockAndState.take kept)

structure Covers (dir : DataDir) (genesis : Block) (commits : List Commit) : Prop where
  genesisFile : dir.blocks[0]? = some genesis.serialize
  genesisReceipts : dir.receipts[0]? = none
  blockFiles : ∀ index commit, commits[index]? = some commit →
    dir.blocks[index + 1]? = some commit.block.serialize
  receiptFiles : ∀ index commit, commits[index]? = some commit →
    dir.receipts[index + 1]? = some (receiptsFile commit.receipts)
  chainMeta : dir.chainMeta =
    commits.getLast?.map fun commit => (commit.block.header.height, commit.block.hash)

theorem covers_empty (genesis : Block) : Covers (saveGenesisIfMissing {} genesis) genesis [] where
  genesisFile := by
    rw [saveGenesisIfMissing, ExtTreeMap.getElem?_insertIfNew]
    simp
  genesisReceipts := by simp [saveGenesisIfMissing]
  blockFiles := by simp
  receiptFiles := by simp
  chainMeta := rfl

variable {dir : DataDir} {commits : List Commit} {next : Commit}

section

variable (covers : dir.Covers genesis commits)
  (isNext : next.block.header.height = commits.length + 1)

include covers isNext

/-- The first write of the next block adds a file that the metadata does not cover. -/
theorem Covers.write_block : (dir.write (.block next.block)).Covers genesis commits := by
  have others : ∀ height, height ≤ commits.length →
      (dir.write (.block next.block)).blocks[height]? = dir.blocks[height]? := by
    intro height below
    rw [write, ExtTreeMap.getElem?_insert, if_neg]
    simp only [LawfulEqCmp.compare_eq_iff_eq]
    omega
  refine ⟨(others 0 (Nat.zero_le _)).trans covers.genesisFile, covers.genesisReceipts, ?_,
    covers.receiptFiles, covers.chainMeta⟩
  intro index commit found
  have inside := (List.getElem?_eq_some_iff.mp found).1
  rw [others (index + 1) inside, covers.blockFiles index commit found]

theorem Covers.write_receipts :
    (dir.write (.receipts next.block.header.height next.receipts)).Covers genesis commits := by
  have others : ∀ height, height ≤ commits.length →
      (dir.write (.receipts next.block.header.height next.receipts)).receipts[height]? =
        dir.receipts[height]? := by
    intro height below
    rw [write, ExtTreeMap.getElem?_insert, if_neg]
    simp only [LawfulEqCmp.compare_eq_iff_eq]
    omega
  refine ⟨covers.genesisFile, (others 0 (Nat.zero_le _)).trans covers.genesisReceipts,
    covers.blockFiles, ?_, covers.chainMeta⟩
  intro index commit found
  have inside := (List.getElem?_eq_some_iff.mp found).1
  rw [others (index + 1) inside, covers.receiptFiles index commit found]

end

omit [Crypto] in
theorem getElem?_snoc (found : (commits ++ [next])[index]? = some commit) :
    commits[index]? = some commit ∨ index = commits.length ∧ commit = next := by
  rcases Nat.lt_trichotomy index commits.length with inside | rfl | outside
  · exact .inl (by rwa [List.getElem?_append_left inside] at found)
  · simp_all
  · have := (List.getElem?_eq_some_iff.mp found).1
    rw [List.length_append, List.length_singleton] at this
    omega

theorem Covers.write_chainMeta (covers : dir.Covers genesis commits)
    (isNext : next.block.header.height = commits.length + 1) :
    (dir.writeAll (next.persistBlockAndState.take 3)).Covers genesis (commits ++ [next]) := by
  have files := (covers.write_block isNext).write_receipts isNext
  refine ⟨files.genesisFile, files.genesisReceipts, ?_, ?_, by simp; rfl⟩
  · intro index commit found
    obtain earlier | ⟨rfl, rfl⟩ := getElem?_snoc found
    · exact files.blockFiles index commit earlier
    · change (dir.blocks.insert commit.block.header.height _)[_]? = _
      rw [← isNext, ExtTreeMap.getElem?_insert_self]
  · intro index commit found
    obtain earlier | ⟨rfl, rfl⟩ := getElem?_snoc found
    · exact files.receiptFiles index commit earlier
    · change (dir.receipts.insert commit.block.header.height _)[_]? = _
      rw [← isNext, ExtTreeMap.getElem?_insert_self]

omit [Crypto] in
theorem writeAll_state (dir : DataDir) (contents : Contents) (files : List StateFile) :
    dir.writeAll (files.map (.state contents)) =
      { dir with
        state := fun file => if file ∈ files then file.saved contents else dir.state file } := by
  induction files generalizing dir with
  | nil => simp [writeAll]
  | cons first files ih =>
    refine (ih _).trans ?_
    simp only [write]
    congr 1
    funext file
    by_cases same : file = first
    · subst same
      simp
    · simp [same]

theorem take_persistBlockAndState (commit : Commit) (count : ℕ) :
    commit.persistBlockAndState.take (count + 3) =
      commit.persistBlockAndState.take 3 ++
        (StateFile.all.take count).map (.state commit.contents) := by
  simp [Commit.persistBlockAndState, List.map_take]

/-- The state files after the crash: the first ones are new. -/
def filesAt (commits : List Commit) (last : Commit) (kept : ℕ) : StateFiles := fun file =>
  if file ∈ StateFile.all.take (kept - 3) then file.saved last.contents
  else commits.getLast?.bind fun previous => file.saved previous.contents

/-- The commits up to the tip that the metadata names. -/
def followed (commits : List Commit) (last : Commit) (kept : ℕ) : List Commit :=
  if kept < 3 then commits else commits ++ [last]

omit [Crypto] in
/-- Before the metadata is written, and once nothing new is still to be written, the files are
those of the tip. -/
theorem filesAt_eq_saved {last tip : Commit} {kept : ℕ}
    (isTip : (followed commits last kept).getLast? = some tip)
    (point : kept < 3 ∨ ∀ file ∈ StateFile.all.drop (kept - 3), file.saved last.contents =
      commits.getLast?.bind fun previous => file.saved previous.contents) :
    filesAt commits last kept = fun file => file.saved tip.contents := by
  funext file
  unfold followed at isTip
  unfold filesAt
  split at isTip
  next early =>
    rw [Nat.sub_eq_zero_of_le early.le, List.take_zero, if_neg (List.not_mem_nil), isTip]
    rfl
  next late =>
    rw [List.getLast?_concat, Option.some.injEq] at isTip
    split
    next => rw [isTip]
    next missing =>
      have member := file.mem_all
      rw [← List.take_append_drop (kept - 3) StateFile.all, List.mem_append] at member
      rw [← isTip]
      exact (point.resolve_left late file (member.resolve_left missing)).symm

theorem Covers.persist (covers : dir.Covers genesis commits)
    (isNext : next.block.header.height = commits.length + 1) :
    (dir.writeAll next.persistBlockAndState).Covers genesis (commits ++ [next]) ∧
      (dir.writeAll next.persistBlockAndState).state = fun file => file.saved next.contents := by
  have tip := covers.write_chainMeta isNext
  have all : next.persistBlockAndState =
      next.persistBlockAndState.take 3 ++ StateFile.all.map (.state next.contents) := rfl
  rw [all, writeAll, List.foldl_append]
  change ((dir.writeAll _).writeAll _).Covers _ _ ∧ ((dir.writeAll _).writeAll _).state = _
  rw [writeAll_state]
  refine ⟨⟨tip.genesisFile, tip.genesisReceipts, tip.blockFiles, tip.receiptFiles,
    tip.chainMeta⟩, ?_⟩
  funext file
  exact if_pos file.mem_all

theorem committed_append (genesis : Block) (commits : List Commit) (next : Commit) :
    committed genesis (commits ++ [next]) =
      (committed genesis commits).writeAll next.persistBlockAndState := by
  simp only [committed, List.foldl_append, List.foldl_cons, List.foldl_nil]

theorem committed_spec (linked : (ChainState.fromGenesis genesis).Linked (commits.map (·.block))) :
    (committed genesis commits).Covers genesis commits ∧ (committed genesis commits).state =
        fun file => commits.getLast?.bind fun previous => file.saved previous.contents := by
  induction commits using List.reverseRecOn with
  | nil => exact ⟨covers_empty genesis, rfl⟩
  | append_singleton commits next ih =>
    rw [List.map_append, ChainState.linked_append] at linked
    have isNext : next.block.header.height = commits.length + 1 := by
      have := linked.2.1.2
      rw [ChainState.height_extendAll linked.1, List.length_map] at this
      exact this.trans (congrArg (· + 1) (Nat.zero_add _))
    rw [committed_append, List.getLast?_concat]
    exact (ih linked.1).1.persist isNext

theorem crashed_spec {last : Commit} (kept : ℕ)
    (linked : (ChainState.fromGenesis genesis).Linked ((commits ++ [last]).map (·.block))) :
    (crashed genesis commits last kept).Covers genesis (followed commits last kept) ∧
      (crashed genesis commits last kept).state = filesAt commits last kept := by
  rw [List.map_append, ChainState.linked_append] at linked
  obtain ⟨covers, state⟩ := committed_spec linked.1
  have isNext : last.block.header.height = commits.length + 1 := by
    have := linked.2.1.2
    rw [ChainState.height_extendAll linked.1, List.length_map] at this
    exact this.trans (congrArg (· + 1) (Nat.zero_add _))
  rcases kept with - | - | - | count
  · exact ⟨covers, state⟩
  · exact ⟨covers.write_block isNext, state⟩
  · exact ⟨(covers.write_block isNext).write_receipts isNext, state⟩
  · have tip := covers.write_chainMeta isNext
    rw [crashed, take_persistBlockAndState, writeAll, List.foldl_append]
    change ((writeAll _ _).writeAll _).Covers _ _ ∧ ((writeAll _ _).writeAll _).state = _
    rw [writeAll_state]
    refine ⟨⟨tip.genesisFile, tip.genesisReceipts, tip.blockFiles, tip.receiptFiles,
      tip.chainMeta⟩, ?_⟩
    funext file
    exact congrArg (if file ∈ StateFile.all.take count then _ else ·) (congrFun state file)

end DataDir

/-! ## Recovery -/

theorem StateStore.buildFull_congr {first second : StateStore}
    (accounts : first.accounts = second.accounts)
    (contractCode : first.contractCode = second.contractCode)
    (contractStorage : first.contractStorage = second.contractStorage)
    (qaPending : first.qaPending = second.qaPending)
    (registries : ∀ id, first.registryLeaf id = second.registryLeaf id)
    (storageDepth : first.storageDepth = second.storageDepth)
    (accountDepth : first.accountDepth = second.accountDepth) :
    first.buildFull = second.buildFull := by
  have leaves : first.accountLeaf = second.accountLeaf := by
    funext id storageRoot
    simp only [accountLeaf, codeHashOf, accounts, contractCode]
  have insert : first.insertAccountLeaf = second.insertAccountLeaf := by
    funext trees id
    simp only [insertAccountLeaf, leaves]
  simp only [buildFull, buildStorageTrees, committedIds, accounts, contractCode, contractStorage,
    qaPending, registries, storageDepth, accountDepth, insert]

/-- What the encoding leaves out is not committed. -/
theorem registryLeaf_saved (contents : Contents) (id : RegistryId) :
    (StateFiles.contents (fun file => file.saved contents) (.ofContents contents)).load.registryLeaf
      id = contents.load.registryLeaf id := by
  let files : StateFiles := fun file => file.saved contents
  have read : (StateFiles.contents (fun file => file.saved contents)
      (.ofContents contents)).load.registry id = files.registry id (Contents.registry {} id) := by
    cases id <;> rfl
  have new : id.isEmpty (Contents.registry {} id) = true := by
    cases id <;> rfl
  have kept : ∀ registry : id.Carrier,
      id.isEmpty (files.restored id (id.stored registry)) = id.isEmpty registry ∧
        id.commitment (files.restored id (id.stored registry)) = id.commitment registry := by
    cases id <;> exact fun _ => ⟨rfl, rfl⟩
  rw [StateStore.registryLeaf, read, StateFiles.registry]
  by_cases isEmpty : id.isEmpty (contents.registry id)
  · have missing : files (.registry id) = none := if_pos isEmpty
    rw [missing]
    exact (if_pos new).trans (if_pos isEmpty).symm
  · have found : files (.registry id) = some ⟨id.stored (contents.registry id), _⟩ :=
      if_neg isEmpty
    rw [found]
    dsimp only
    rw [(kept _).1, (kept _).2]
    rfl

/-- What is read back from the files of some contents has their leaves. -/
theorem PersistenceConfig.rootAt_recoveredContents (config : PersistenceConfig)
    {contents : Contents} (fits : ∀ file ∈ StateFile.qaPending.saved contents,
      file.size ≤ MAX_PERSIST_SMALL_FILE_BYTES) (height : ℕ) :
    config.rootAt height (config.recoveredContents fun file => file.saved contents).load =
      config.rootAt height contents.load := by
  have pending : config.recoveredContents (fun file => file.saved contents) =
      { StateFiles.contents (fun file => file.saved contents) (.ofContents contents) with
        qaPending := ExtTreeMap.ofList contents.qaPending.toList } := if_pos (fits _ rfl)
  let atHeight (contents : Contents) : StateStore := StateStore.atHeight { contents.load with
    storageTreeV2From := config.storageTreeV2From
    accountTreeV3From := config.accountTreeV3From } height
  have same : (atHeight (config.recoveredContents fun file => file.saved contents)).buildFull =
      (atHeight contents).buildFull := by
    rw [pending]
    refine StateStore.buildFull_congr ?_ ?_ ?_ ?_ (fun id => ?_) rfl rfl
    · exact ofList_of_perm (List.Perm.refl _)
    · exact ofList_of_perm (List.Perm.refl _)
    · exact ofList_of_perm (List.Perm.refl _)
    · exact ofList_of_perm (List.Perm.refl _)
    · exact registryLeaf_saved contents id
  exact congrArg (fun trees : StateStore.Trees => trees.1.root.1) same

def Recovered.Consistent (config : PersistenceConfig) (node : Recovered) : Prop :=
  node.chain.blocksByHeight[node.chain.height]?.map (·.header.stateRoot) =
    some (config.rootAt node.chain.height node.state)

instance (config : PersistenceConfig) (node : Recovered) : Decidable (node.Consistent config) :=
  inferInstanceAs (Decidable (_ = _))

namespace PersistenceConfig

variable (config : PersistenceConfig)

def chainOf (commits : List Commit) : ChainState :=
  (ChainState.fromGenesis config.genesis).extendAll (commits.map (·.block))

def tipOf (commits : List Commit) : Block := (commits.getLast?.map (·.block)).getD config.genesis

/-- A restart gives the chain of the commits, and a state with the root of its tip. -/
def Recovers (dir : DataDir) (commits : List Commit) : Prop :=
  ∃ node, config.restart dir = .ok node ∧ node.chain = config.chainOf commits ∧
    node.Consistent config

structure Readable (commits : List Commit) (files : StateFiles) : Prop where
  blocks : ∀ block ∈ config.genesis :: commits.map (·.block), block.ReadsBack
  receipts : ∀ commit ∈ commits,
    firstRetainedHeight commits.length config.receiptRetention ≤ commit.block.header.height →
      (receiptsFile commit.receipts).size ≤ MAX_PERSIST_SMALL_FILE_BYTES
  state : config.StateFits files
  pending : ∀ file ∈ files .qaPending, file.size ≤ MAX_PERSIST_SMALL_FILE_BYTES

variable {config} {dir : DataDir} {commits : List Commit}

section

variable (linked : (ChainState.fromGenesis config.genesis).Linked (commits.map (·.block)))

include linked

theorem height_chainOf : (config.chainOf commits).height = commits.length := by
  rw [chainOf, ChainState.height_extendAll linked, List.length_map]
  exact Nat.zero_add _

theorem height_getElem (found : commits[index]? = some commit) :
    commit.block.header.height = index + 1 := by
  induction commits using List.reverseRecOn with
  | nil => simp at found
  | append_singleton commits next ih =>
    rw [List.map_append, ChainState.linked_append] at linked
    obtain earlier | ⟨rfl, rfl⟩ := DataDir.getElem?_snoc found
    · exact ih linked.1 earlier
    · exact linked.2.1.2.trans (congrArg (· + 1) (height_chainOf linked.1))

theorem tip_chainOf : (config.chainOf commits).blocksByHeight[(config.chainOf commits).height]? =
      some (config.tipOf commits) := by
  induction commits using List.reverseRecOn with
  | nil => simp [chainOf, tipOf, ChainState.extendAll, ChainState.fromGenesis]
  | append_singleton commits next ih =>
    simp [chainOf, tipOf, ChainState.extendAll, ChainState.extend]

end

section

variable (covers : dir.Covers config.genesis commits)
  (linked : (ChainState.fromGenesis config.genesis).Linked (commits.map (·.block)))

include covers linked

theorem chainMeta_of_covers (some_ : commits ≠ []) :
    ∃ hash, dir.chainMeta = some (commits.length, hash) := by
  obtain rfl | ⟨earlier, last, rfl⟩ := List.eq_nil_or_concat' commits
  · exact absurd rfl some_
  · have height := height_getElem linked (@List.getElem?_concat_length _ earlier last)
    refine ⟨last.block.hash, ?_⟩
    rw [covers.chainMeta, List.getLast?_concat, Option.map_some, height, List.length_append,
      List.length_singleton]

theorem loadChain_eq_chainOf (some_ : commits ≠ [])
    (readsBack : ∀ block ∈ config.genesis :: commits.map (·.block), block.ReadsBack) :
    config.loadChain dir = .ok (some (config.chainOf commits)) := by
  obtain ⟨hash, chainMeta⟩ := chainMeta_of_covers covers linked some_
  obtain ⟨genesis, others⟩ := List.forall_mem_cons.mp readsBack
  have files : ∀ index block, (commits.map (·.block))[index]? = some block →
      dir.blocks[(ChainState.fromGenesis config.genesis).height + 1 + index]? =
        some block.serialize := by
    intro index block found
    rw [List.getElem?_map, Option.map_eq_some_iff] at found
    obtain ⟨commit, found, rfl⟩ := found
    rw [show (ChainState.fromGenesis config.genesis).height + 1 + index = index + 1 from
      (congrArg (· + index) (Nat.zero_add 1)).trans (Nat.add_comm 1 index)]
    exact covers.blockFiles index commit found
  have loaded := @loadBlocks_eq_extendAll _ config _ _ _ linked files others
  rw [List.length_map] at loaded
  simp only [loadChain, chainMeta, loadBlock_of_readsBack covers.genesisFile genesis,
    Except.ok_bind]
  exact Except.bind_eq_ok.mpr ⟨_, loaded, rfl⟩

theorem receipts_fit {first : ℕ} (fit : ∀ commit ∈ commits, first ≤ commit.block.header.height →
      (receiptsFile commit.receipts).size ≤ MAX_PERSIST_SMALL_FILE_BYTES) :
    ∀ height ∈ List.range' first (commits.length + 1 - first), ∀ file ∈ dir.receipts[height]?,
      file.size ≤ MAX_PERSIST_SMALL_FILE_BYTES := by
  intro height inRange file found
  rw [List.mem_range'_1] at inRange
  cases height with
  | zero => rw [covers.genesisReceipts] at found; cases found
  | succ index =>
    have inside : index < commits.length := by omega
    have isCommit := List.getElem?_eq_getElem inside
    rw [covers.receiptFiles index _ isCommit] at found
    cases found
    refine fit _ (List.getElem_mem inside) ?_
    rw [height_getElem linked isCommit]
    exact inRange.1

end

theorem saveGenesisIfMissing_eq (covers : dir.Covers genesis commits) :
    dir.saveGenesisIfMissing genesis = dir := by
  have same : dir.blocks.insertIfNew 0 genesis.serialize = dir.blocks := by
    apply ExtTreeMap.ext_getElem?
    intro height
    rw [ExtTreeMap.getElem?_insertIfNew]
    split
    next missing =>
      have isZero : (0 : ℕ) = height := LawfulEqCmp.compare_eq_iff_eq.mp missing.1
      rw [← isZero, covers.genesisFile]
    next => rfl
  rw [DataDir.saveGenesisIfMissing, same]

section

variable (covers : dir.Covers config.genesis commits)
  (linked : (ChainState.fromGenesis config.genesis).Linked (commits.map (·.block)))

include covers linked

/-- A restart that can read the files gives the chain of the commits and the state of the files. -/
theorem restart_eq_ok (some_ : commits ≠ []) (readable : config.Readable commits dir.state) :
    ∃ node, config.restart dir = .ok node ∧ node.chain = config.chainOf commits ∧
      node.state = (config.recoveredContents dir.state).load := by
  obtain ⟨hash, chainMeta⟩ := chainMeta_of_covers covers linked some_
  have isChain := loadChain_eq_chainOf covers linked some_ readable.blocks
  have isState := config.loadState_eq_ok readable.state
  have retained := receipts_fit covers linked readable.receipts
  rw [← height_chainOf linked] at retained
  obtain ⟨receipts, loaded⟩ := @exists_foldlM_loadReceipts _ config dir retained ∅
  have stateOf : ((dir.state .accounts).map fun file =>
      (dir.state.contents file.value).load).getD config.genesisContents.load =
      Contents.load (((dir.state .accounts).map fun file =>
        dir.state.contents file.value).getD config.genesisContents) := by
    cases dir.state .accounts <;> rfl
  simp only [restart, saveGenesisIfMissing_eq covers, loadPersisted, chainMeta, isChain, isState,
    Except.ok_bind, Option.getD_some, loaded]
  refine ⟨_, rfl, rfl, ?_⟩
  rw [stateOf, Contents.loadPending_load]
  rfl

end

/-- A restart after a crash gives the chain up to the tip that the metadata names, and a state
with the root of that tip, if the loader accepts the files, the header of the tip has the root of
the state after it, and the crash came before the metadata, or the state files that were still to
be written are there already. -/
theorem crashed_recovers {last tip : Commit}
    (linked : (ChainState.fromGenesis config.genesis).Linked
      ((commits ++ [last]).map (·.block))) (kept : ℕ)
    (isTip : (DataDir.followed commits last kept).getLast? = some tip)
    (readable : config.Readable (DataDir.followed commits last kept)
      (DataDir.filesAt commits last kept))
    (rooted : config.rootAt tip.block.header.height tip.contents.load =
      tip.block.header.stateRoot)
    (point : kept < 3 ∨ ∀ file ∈ StateFile.all.drop (kept - 3), file.saved last.contents =
      commits.getLast?.bind fun previous => file.saved previous.contents) :
    config.Recovers (DataDir.crashed config.genesis commits last kept)
      (DataDir.followed commits last kept) := by
  obtain ⟨covers, state⟩ := DataDir.crashed_spec kept linked
  have files := DataDir.filesAt_eq_saved isTip point
  have followedLinked : (ChainState.fromGenesis config.genesis).Linked
      ((DataDir.followed commits last kept).map (·.block)) := by
    rw [List.map_append, ChainState.linked_append] at linked
    unfold DataDir.followed
    split
    next => exact linked.1
    next => rwa [List.map_append, ChainState.linked_append]
  have some_ : DataDir.followed commits last kept ≠ [] := by
    intro isNil
    rw [isNil] at isTip
    cases isTip
  rw [← state] at readable
  obtain ⟨node, restarted, isChain, isState⟩ := restart_eq_ok covers followedLinked some_ readable
  rw [state, files] at isState
  refine ⟨node, restarted, isChain, ?_⟩
  have fits := readable.pending
  rw [state, files] at fits
  have height : tip.block.header.height =
      (config.chainOf (DataDir.followed commits last kept)).height := by
    have positive := List.length_pos_iff.mpr some_
    rw [List.getLast?_eq_getElem?] at isTip
    rw [height_chainOf followedLinked, height_getElem followedLinked isTip]
    omega
  rw [Recovered.Consistent, isChain, tip_chainOf followedLinked, tipOf, isTip, isState, ← height,
    config.rootAt_recoveredContents fits, rooted]
  rfl

end PersistenceConfig

end BoingNetwork

namespace BoingNetwork.PersistenceConfig

open Checksum

def sampleConfig : PersistenceConfig where
  base := "data"
  maxStateFileBytes := 32 * 1024 * 1024 * 1024
  receiptRetention := 1_000_000
  storageTreeV2From := some 0
  accountTreeV3From := some 0
  localValidator := 1
  bincodeError _ := "io error"

def sampleContents : Contents :=
  { sampleConfig.genesisContents with
    accounts := sampleConfig.genesisContents.accounts.insert 2
      { AccountState.default with balance := 5 } }

/-- A first block with the root of the state after it. -/
def sampleCommit : Commit where
  block :=
    .empty ⟨sampleConfig.genesis.hash, 1, 10, 1, 0, 0,
      sampleConfig.rootAt 1 sampleContents.load, some 0⟩
  receipts := []
  contents := sampleContents

/-- The crash after the chain metadata: the restarted node follows the first block with
the state of the genesis. -/
theorem crashed_after_chainMeta :
    (ChainState.fromGenesis sampleConfig.genesis).Chains sampleCommit.block ∧
      sampleConfig.rootAt 1 sampleCommit.contents.load = sampleCommit.block.header.stateRoot ∧
      (sampleConfig.restart
          (DataDir.crashed sampleConfig.genesis [] sampleCommit 3)).toOption.map
        (fun node => (node.chain.height, node.chain.latestHash,
          decide (node.Consistent sampleConfig))) =
        some (1, sampleCommit.block.hash, false) := by
  decide +kernel

/-- After all writes the restarted node has the state of the first block. -/
theorem sampleCommit_recovers :
    (ChainState.fromGenesis sampleConfig.genesis).Chains sampleCommit.block ∧
      sampleConfig.Recovers (DataDir.crashed sampleConfig.genesis [] sampleCommit 13)
        [sampleCommit] := by
  have chains : (ChainState.fromGenesis sampleConfig.genesis).Chains sampleCommit.block := by
    decide +kernel
  refine ⟨chains, @crashed_recovers _ sampleConfig [] sampleCommit sampleCommit ⟨chains, trivial⟩ 13
    rfl ⟨?_, ?_, ?_, ?_⟩ (by decide +kernel)
    (.inr fun file isLater => absurd isLater List.not_mem_nil)⟩
  · change ∀ block ∈ [sampleConfig.genesis, sampleCommit.block], _ ∧ _
    decide +kernel
  · intro commit isCommit _
    have isSample : commit = sampleCommit := List.mem_singleton.mp isCommit
    rw [isSample]
    decide +kernel
  · rintro file found
    cases found
    refine ⟨by decide +kernel, ?_⟩
    intro id file found
    cases id <;> cases found
  · rintro file found
    cases found
    decide +kernel

end BoingNetwork.PersistenceConfig
