import BoingNetwork.Node.CrashRecovery

/-!
# The stake-derived validator set of a node

The set is taken from the state of the last epoch boundary and kept in a file of its own,
which is written after the block and the state.  A restart that does not find the file of the
last boundary takes the set from the state at the tip instead, and does not write the file.
So a node has the set of the chain exactly as long as every restart finds the file or a state
that gives the same set.
-/

namespace BoingNetwork

/-- The parameters of the stake-derived set.  The static list is that of the engine, which
requires a validator. -/
structure StakeValidatorSetConfig where
  topN : ℕ
  epochLen : ℕ
  minStake : ℕ
  activationHeight : ℕ
  bootstrap : List AccountId
  bootstrap_ne_nil : bootstrap ≠ []

namespace StakeValidatorSetConfig

variable (cfg : StakeValidatorSetConfig) (height : ℕ)

def isRefreshHeight : Prop :=
  0 < cfg.epochLen ∧ 0 < cfg.topN ∧ 0 < height ∧ cfg.activationHeight ≤ height ∧
    cfg.epochLen ∣ height

instance : Decidable (cfg.isRefreshHeight height) := inferInstanceAs (Decidable (_ ∧ _))

def lastRefreshHeight : Option ℕ :=
  if cfg.epochLen = 0 ∨ cfg.topN = 0 then none
  else
    let boundary := height - height % cfg.epochLen
    if 0 < boundary ∧ cfg.activationHeight ≤ boundary then some boundary else none

variable {cfg height}

theorem lastRefreshHeight_zero : cfg.lastRefreshHeight 0 = none := by
  simp [lastRefreshHeight]

theorem lastRefreshHeight_of_refresh (refresh : cfg.isRefreshHeight height) :
    cfg.lastRefreshHeight height = some height := by
  obtain ⟨epoch, top, positive, active, divides⟩ := refresh
  rw [lastRefreshHeight, if_neg (by omega), Nat.mod_eq_zero_of_dvd divides]
  exact if_pos ⟨positive, active⟩

theorem lastRefreshHeight_succ (noRefresh : ¬ cfg.isRefreshHeight (height + 1)) :
    cfg.lastRefreshHeight (height + 1) = cfg.lastRefreshHeight height := by
  unfold lastRefreshHeight
  by_cases off : cfg.epochLen = 0 ∨ cfg.topN = 0
  · rw [if_pos off, if_pos off]
  · rw [if_neg off, if_neg off]
    by_cases divides : cfg.epochLen ∣ height + 1
    · -- The boundary is not yet active, and neither is an earlier one.
      have inactive : height + 1 < cfg.activationHeight := by
        by_contra active
        exact noRefresh ⟨by omega, by omega, by omega, by omega, divides⟩
      rw [if_neg (by omega), if_neg (by omega)]
    · have same : height + 1 - (height + 1) % cfg.epochLen = height - height % cfg.epochLen := by
        have later := Nat.div_add_mod (height + 1) cfg.epochLen
        have earlier := Nat.div_add_mod height cfg.epochLen
        rw [Nat.succ_div_of_not_dvd divides] at later
        omega
      rw [same]

end StakeValidatorSetConfig

/-! ## The set of a state -/

/-- More stake first, then the smaller id. -/
def ranksBefore (left right : AccountId × AccountState) : Prop :=
  right.2.stake < left.2.stake ∨ right.2.stake = left.2.stake ∧ left.1 ≤ right.1

instance : DecidableRel ranksBefore := fun _ _ => inferInstanceAs (Decidable (_ ∨ _))

def Contents.topStakers (contents : Contents) : List (AccountId × AccountState) :=
  contents.accounts.toList.insertionSort ranksBefore

def eligibleStakeValidators (contents : Contents) (topN minStake : ℕ) : List AccountId :=
  let all := contents.topStakers.filter fun entry => minStake ≤ entry.2.stake ∧ 0 < entry.2.stake
  (((all.insertionSort ranksBefore).take topN).map Prod.fst).insertionSort (· ≤ ·)

def nextValidatorSet (contents : Contents) (cfg : StakeValidatorSetConfig) (minStake : ℕ)
    (current : List AccountId) : List AccountId :=
  match eligibleStakeValidators contents cfg.topN minStake with
  | [] => if cfg.bootstrap = [] then current else cfg.bootstrap
  | eligible => eligible

variable (contents : Contents) (cfg : StakeValidatorSetConfig) (minStake : ℕ)

theorem nextValidatorSet_eq (current other : List AccountId) :
    nextValidatorSet contents cfg minStake current =
      nextValidatorSet contents cfg minStake other := by
  unfold nextValidatorSet
  split
  next => rw [if_neg cfg.bootstrap_ne_nil, if_neg cfg.bootstrap_ne_nil]
  next => rfl

theorem nextValidatorSet_ne_nil (current : List AccountId) :
    nextValidatorSet contents cfg minStake current ≠ [] := by
  unfold nextValidatorSet
  split
  next =>
    rw [if_neg cfg.bootstrap_ne_nil]
    exact cfg.bootstrap_ne_nil
  next notEmpty => exact notEmpty

/-! ## A node and its files -/

structure StakeNodeConfig where
  loader : PersistenceConfig
  validatorSet : StakeValidatorSetConfig
  denominationAt : ℕ → Denomination

/-- A running node: its tip, the state there and the set it runs consensus with. -/
structure StakeNode where
  height : ℕ
  contents : Contents
  validators : List AccountId

structure StakeHost where
  dir : DataDir
  setFile : Option (ℕ × List AccountId)
  node : Option StakeNode

inductive StakeEvent where
  /-- The next block of the chain is committed by votes or imported by sync. -/
  | commit
  /-- The process dies after some of the writes of the next block, and starts again. -/
  | crash (kept : ℕ)
  | restart

namespace StakeNodeConfig

variable [Crypto] (config : StakeNodeConfig)

def nextSet (height : ℕ) (contents : Contents) (current : List AccountId) : List AccountId :=
  nextValidatorSet contents config.validatorSet
    ((config.denominationAt height).scale config.validatorSet.minStake) current

def maybeRefreshStakeValidators (height : ℕ) (contents : Contents) (current : List AccountId)
    (setFile : Option (ℕ × List AccountId)) : List AccountId × Option (ℕ × List AccountId) :=
  if config.validatorSet.isRefreshHeight height then
    (config.nextSet height contents current, some (height, config.nextSet height contents current))
  else (current, setFile)

/-- The set of a node that has just loaded its chain and state. -/
def restoreStakeValidatorSet (setFile : Option (ℕ × List AccountId)) (height : ℕ)
    (contents : Contents) : List AccountId :=
  match config.validatorSet.lastRefreshHeight height with
  | none => config.validatorSet.bootstrap
  | some boundary =>
    match setFile.filter fun saved => saved.1 = boundary ∧ saved.2 ≠ [] with
    | some saved => saved.2
    | none => config.nextSet height contents config.validatorSet.bootstrap

/-- The process starts on the files; if the loader refuses them, no node runs. -/
def start (dir : DataDir) (setFile : Option (ℕ × List AccountId)) : StakeHost where
  dir := dir.saveGenesisIfMissing config.loader.genesis
  setFile := setFile
  node := (config.loader.restart dir).toOption.map fun recovered =>
    { height := recovered.chain.height
      contents := recovered.state.toContents
      validators := config.restoreStakeValidatorSet setFile recovered.chain.height
        recovered.state.toContents }

variable (chain : List Commit)

def commitBlock (host : StakeHost) (node : StakeNode) (commit : Commit) (kept : ℕ) : StakeHost :=
  let writes := commit.persistBlockAndState
  let refreshed := config.maybeRefreshStakeValidators (node.height + 1) commit.contents
    node.validators host.setFile
  { dir := host.dir.writeAll (writes.take kept)
    setFile := if writes.length < kept then refreshed.2 else host.setFile
    node := some ⟨node.height + 1, commit.contents, refreshed.1⟩ }

def nextCommit (host : StakeHost) : Option (StakeNode × Commit) :=
  host.node.bind fun node => chain[node.height]?.map fun commit => (node, commit)

def step (host : StakeHost) : StakeEvent → StakeHost
  | .restart => config.start host.dir host.setFile
  | .commit =>
    match nextCommit chain host with
    | some (node, commit) =>
      config.commitBlock host node commit (commit.persistBlockAndState.length + 1)
    | none => host
  | .crash kept =>
    match nextCommit chain host with
    | some (node, commit) =>
      let crashed := config.commitBlock host node commit kept
      config.start crashed.dir crashed.setFile
    | none => host

/-! ## The set of the chain -/

/-- The state after the block of a height. -/
def contentsAt (height : ℕ) : Contents :=
  (chain[height - 1]?.map (·.contents)).getD config.loader.genesisContents

def setAt (height : ℕ) : List AccountId :=
  match config.validatorSet.lastRefreshHeight height with
  | none => config.validatorSet.bootstrap
  | some boundary =>
    config.nextSet boundary (config.contentsAt chain boundary) config.validatorSet.bootstrap

def FollowsChain (host : StakeHost) : Prop :=
  ∀ node ∈ host.node, node.validators = config.setAt chain node.height

/-- A start on the files finds the set of the last boundary in its file, or a state at the tip
that gives the same set. -/
def Restores (dir : DataDir) (setFile : Option (ℕ × List AccountId)) : Prop :=
  ∀ recovered, config.loader.restart dir = .ok recovered →
    ∀ boundary, config.validatorSet.lastRefreshHeight recovered.chain.height = some boundary →
      setFile.map Prod.fst = some boundary ∨
        config.nextSet recovered.chain.height recovered.state.toContents
          config.validatorSet.bootstrap = config.setAt chain recovered.chain.height

def RestoresAt (host : StakeHost) : StakeEvent → Prop
  | .commit => True
  | .restart => config.Restores chain host.dir host.setFile
  | .crash kept =>
    ∀ next ∈ nextCommit chain host,
      let crashed := config.commitBlock host next.1 next.2 kept
      config.Restores chain crashed.dir crashed.setFile

def SavesChain (setFile : Option (ℕ × List AccountId)) : Prop :=
  ∀ saved ∈ setFile, saved.2 = config.nextSet saved.1 (config.contentsAt chain saved.1)
    config.validatorSet.bootstrap

variable {config chain} {host : StakeHost}

theorem start_followsChain_iff {dir : DataDir} {setFile : Option (ℕ × List AccountId)}
    (saves : config.SavesChain chain setFile) :
    config.FollowsChain chain (config.start dir setFile) ↔ config.Restores chain dir setFile := by
  unfold FollowsChain Restores start
  cases config.loader.restart dir with
  | error => simp [Except.toOption]
  | ok recovered =>
    simp only [Except.toOption, Option.map_some, Option.mem_some_iff, forall_eq', Except.ok.injEq]
    unfold restoreStakeValidatorSet
    cases isLast : config.validatorSet.lastRefreshHeight recovered.chain.height with
    | none => simp [setAt, isLast]
    | some boundary =>
      have isSet : config.setAt chain recovered.chain.height = config.nextSet boundary
          (config.contentsAt chain boundary) config.validatorSet.bootstrap := by
        rw [setAt, isLast]
      simp only [Option.some.injEq, forall_eq']
      rw [isSet]
      cases setFile with
      | none => simp
      | some saved =>
        have isSaved := saves saved rfl
        by_cases same : saved.1 = boundary
        · have notEmpty : saved.2 ≠ [] := by
            rw [isSaved]
            exact nextValidatorSet_ne_nil _ _ _ _
          have isKept : (some saved).filter (fun saved => saved.1 = boundary ∧ saved.2 ≠ []) =
              some saved := by
            simp [Option.filter, same, notEmpty]
          rw [isKept]
          rw [same] at isSaved
          exact iff_of_true isSaved (.inl (congrArg some same))
        · simp [Option.filter, same]

theorem commitBlock_spec {node : StakeNode} {commit : Commit} (kept : ℕ)
    (saves : config.SavesChain chain host.setFile) (isNext : chain[node.height]? = some commit) :
    config.SavesChain chain (config.commitBlock host node commit kept).setFile ∧
      (node.validators = config.setAt chain node.height →
        config.FollowsChain chain (config.commitBlock host node commit kept)) := by
  have isContents : config.contentsAt chain (node.height + 1) = commit.contents := by
    rw [contentsAt, Nat.add_sub_cancel, isNext]
    rfl
  by_cases refresh : config.validatorSet.isRefreshHeight (node.height + 1)
  · have isNextSet : config.nextSet (node.height + 1) commit.contents node.validators =
        config.nextSet (node.height + 1) (config.contentsAt chain (node.height + 1))
          config.validatorSet.bootstrap := by
      rw [isContents]
      exact nextValidatorSet_eq ..
    simp only [commitBlock, maybeRefreshStakeValidators, if_pos refresh]
    constructor
    · split
      next =>
        intro saved isSaved
        cases isSaved
        exact isNextSet
      next => exact saves
    · intro follows other isOther
      cases isOther
      rw [setAt, StakeValidatorSetConfig.lastRefreshHeight_of_refresh refresh]
      exact isNextSet
  · simp only [commitBlock, maybeRefreshStakeValidators, if_neg refresh, ite_self]
    refine ⟨saves, fun follows other isOther => ?_⟩
    cases isOther
    rw [setAt, StakeValidatorSetConfig.lastRefreshHeight_succ refresh]
    exact follows

theorem step_followsChain_iff (saves : config.SavesChain chain host.setFile)
    (follows : config.FollowsChain chain host) (event : StakeEvent) :
    config.SavesChain chain (config.step chain host event).setFile ∧
      (config.FollowsChain chain (config.step chain host event) ↔
        config.RestoresAt chain host event) := by
  cases isNext : nextCommit chain host with
  | none =>
    cases event with
    | restart => exact ⟨saves, start_followsChain_iff saves⟩
    | commit | crash => simp [step, RestoresAt, isNext, saves, follows]
  | some pair =>
    obtain ⟨node, isNode, found⟩ := Option.bind_eq_some_iff.mp isNext
    obtain ⟨commit, isCommit, rfl⟩ := Option.map_eq_some_iff.mp found
    cases event with
    | restart => exact ⟨saves, start_followsChain_iff saves⟩
    | commit =>
      simp only [step, RestoresAt, isNext]
      obtain ⟨savesNext, followsNext⟩ := commitBlock_spec
        (commit.persistBlockAndState.length + 1) saves isCommit
      exact ⟨savesNext, iff_of_true (followsNext (follows node isNode)) trivial⟩
    | crash kept =>
      have savesNext := (commitBlock_spec kept saves isCommit).1
      simp only [step, RestoresAt, isNext, Option.mem_some_iff, forall_eq']
      exact ⟨savesNext, start_followsChain_iff savesNext⟩

/-- A node uses the set of the chain in every state it passes through exactly if every start
of its process restores the set. -/
theorem followsChain_always_iff (config : StakeNodeConfig) (chain : List Commit)
    (events : List StakeEvent) :
    (∀ before after, events = before ++ after →
        config.FollowsChain chain (Run.run (config.step chain) (config.start {} none) before)) ↔
      Run.Allowed (config.step chain) (config.RestoresAt chain) (config.start {} none) events := by
  have saves : config.SavesChain chain (config.start {} none).setFile := nofun
  have follows : config.FollowsChain chain (config.start {} none) := by
    refine (start_followsChain_iff (nofun : config.SavesChain chain none)).mpr ?_
    intro recovered restarted boundary isLast
    cases restarted
    cases StakeValidatorSetConfig.lastRefreshHeight_zero.symm.trans isLast
  generalize config.start {} none = host at saves follows
  induction events generalizing host with
  | nil =>
    refine iff_of_true (fun before after split => ?_) trivial
    rw [(List.append_eq_nil_iff.mp split.symm).1]
    exact follows
  | cons event events ih =>
    obtain ⟨savesNext, followsNext⟩ := step_followsChain_iff saves follows event
    constructor
    · intro always
      have followsStep := always [event] events rfl
      refine ⟨followsNext.mp followsStep,
        (ih _ savesNext followsStep).mp fun before after split => ?_⟩
      exact always (event :: before) after (by rw [split, List.cons_append])
    · rintro ⟨restores, later⟩ before after split
      cases before with
      | nil => exact follows
      | cons first before =>
        cases split
        exact (ih _ savesNext (followsNext.mpr restores)).mpr later before
          after rfl

end StakeNodeConfig

end BoingNetwork

namespace BoingNetwork.StakeNodeConfig

open Checksum

/-- A set of one validator, chosen after every second block. -/
def singleConfig : StakeNodeConfig where
  loader := PersistenceConfig.sampleConfig
  validatorSet := ⟨1, 2, 1, 0, [1], by simp⟩
  denominationAt _ := .wholeBoing

def stakedBy (account : AccountId) (stake : ℕ) : Contents :=
  { PersistenceConfig.sampleConfig.genesisContents with
    accounts := .insert ∅ account { AccountState.default with stake := stake } }

def blockAfter (parent : Block) (contents : Contents) : Commit where
  block :=
    .empty ⟨parent.hash, parent.header.height + 1, 10, 1, 0, 0,
      PersistenceConfig.sampleConfig.rootAt (parent.header.height + 1) contents.load, some 0⟩
  receipts := []
  contents := contents

/-- Account 7 has staked up to the boundary, and account 8 afterwards. -/
def changingChain : List Commit :=
  let first := blockAfter PersistenceConfig.sampleConfig.genesis (stakedBy 7 5)
  let second := blockAfter first.block (stakedBy 7 5)
  [first, second, blockAfter second.block (stakedBy 8 5)]

def setAfter (events : List StakeEvent) : Option (ℕ × List AccountId) :=
  (Run.run (singleConfig.step changingChain) (singleConfig.start {} none) events).node.map
    fun node => (node.height, node.validators)

/-- Two nodes at height 3 with different sets: one runs on, the other one crashes before the
file of the boundary is written and restarts once more after the next block. -/
theorem restarted_node_diverges :
    setAfter [.commit, .commit, .commit] = some (3, [7]) ∧
      setAfter [.commit, .crash 13, .commit, .restart] = some (3, [8]) := by
  decide +kernel

end BoingNetwork.StakeNodeConfig
