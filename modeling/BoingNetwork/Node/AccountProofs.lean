import BoingNetwork.Node.PersistenceBundle
import BoingNetwork.State.Atomic
import BoingNetwork.State.MerkleProof

/-!
# Account proofs

Proofs are served from a tree that is built anew, in the layout that the live state was
switched to last.  A proposal switches it to the layout of the next height, and the revert
at its end keeps that; a restart begins in the legacy layout.  The header of the tip commits
to the tree in the layout of its own height.
-/

namespace BoingNetwork

def StoreOp.KeepsLayout : StoreOp → Prop
  | .stateRootAtHeight _ | .setStorageTreeV2Activation _ | .setAccountTreeV3Activation _ => False
  | _ => True

/-- The execution of a block; every checkpoint that it takes is reverted or given up. -/
structure BlockWork where
  ops : List StoreOp
  keepsLayout : ∀ op ∈ ops, op.KeepsLayout
  balanced : ∀ savepoints, (Run.run Savepoints.step savepoints ops).saved = savepoints.saved

namespace TreeLayout

def atHeight (layout : TreeLayout) (height : ℕ) : TreeLayout :=
  { layout with
    storageTreeDeep := layout.storageTreeV2From.any (· ≤ height)
    accountTreeDeep := layout.accountTreeV3From.any (· ≤ height) }

/-- The layout of a store that was loaded. -/
def legacy (layout : TreeLayout) : TreeLayout :=
  { layout with storageTreeDeep := false, accountTreeDeep := false }

end TreeLayout

variable [Crypto] {ops : List StoreOp} {session : Session} {owners : Set LeafOwner} {height : ℕ}
  {root : Hash}

def StateStore.proveAccountReadonly (store : StateStore) (id : AccountId) : Option MerkleProof :=
  (store.buildFull.1.prove id).map Prod.fst

/-- The state after a block that waits for votes, with the state root of its header. -/
structure PendingState where
  stateRoot : Hash
  newState : StateStore

/-- The end of the execution of a block. -/
def StateStore.sealed (store : StateStore) (height : ℕ) : PendingState :=
  ⟨(store.stateRootAtHeight height).1, (store.stateRootAtHeight height).2⟩

def PendingState.copied (next : PendingState) : PendingState :=
  { next with newState := next.newState.snapshot }

structure ProofNode where
  state : StateStore
  height : ℕ
  stateRoot : Hash
  pending : Option PendingState := none

/-- A catch-up import is a received block that is committed at once. -/
inductive ProofEvent where
  | propose (work : BlockWork)
  | failProposal (work : BlockWork)
  | receive (work : BlockWork)
  | commit
  | abandon
  | restart

namespace ProofNode

/-- A session with the live state, of which no checkpoint is held between blocks. -/
def after (node : ProofNode) (ops : List StoreOp) : Session :=
  Run.run Session.step (Session.start node.state) ops

/-- The live state is executed in place and reverted. -/
def attempt (node : ProofNode) (ops : List StoreOp) : Session :=
  node.after (.checkpoint :: ops ++ [.revert 0])

/-- `load_persisted` and the activation heights of the operator. -/
def restart (node : ProofNode) : ProofNode where
  state := { node.state.toContents.load with
    storageTreeV2From := node.state.storageTreeV2From
    accountTreeV3From := node.state.accountTreeV3From }
  height := node.height
  stateRoot := node.stateRoot

def step (node : ProofNode) : ProofEvent → ProofNode
  | .propose work =>
    let next := node.height + 1
    { node with
      state := (node.attempt (work.ops ++ [.stateRootAtHeight next])).store
      pending := some ((node.after (.checkpoint :: work.ops)).store.sealed next).copied }
  | .failProposal work => { node with state := (node.attempt work.ops).store }
  | .receive work =>
    { node with pending := some ((node.after work.ops).store.sealed (node.height + 1)) }
  | .commit =>
    match node.pending with
    | some next => ⟨next.newState, node.height + 1, next.stateRoot, none⟩
    | none => node
  | .abandon => { node with pending := none }
  | .restart => node.restart

def genesis (contents : Contents) (storageFrom accountFrom : Option ℕ) : ProofNode where
  state := { contents.load with
    storageTreeV2From := storageFrom
    accountTreeV3From := accountFrom }
  height := 0
  stateRoot := Hash.ZERO

end ProofNode

def BlockWork.OwnedBy (work : BlockWork) (owners : Set LeafOwner) : Prop :=
  ∀ op ∈ work.ops, ∀ owner ∈ op.owners, owner ∈ owners

/-- The leaves belong to the owners, a proposal is in the layout of the tip, and so is a restart. -/
def ProofEvent.KeepsProofs (owners : Set LeafOwner) (node : ProofNode) : ProofEvent → Prop
  | .propose work => work.OwnedBy owners ∧
      (0 < node.height → node.state.layout.atHeight (node.height + 1) = node.state.layout)
  | .failProposal work | .receive work => work.OwnedBy owners
  | .restart => 0 < node.height → node.state.layout.legacy = node.state.layout
  | .commit | .abandon => True

section Layout

variable {left right store : StateStore}

namespace StateStore

theorem stateRootFullRebuild_congr (contents : left.toContents = right.toContents)
    (layout : left.layout = right.layout) :
    left.stateRootFullRebuild = right.stateRootFullRebuild := by
  obtain ⟨_, _, _, _, storageDeep, _, accountDeep⟩ := left
  obtain ⟨_, _, _, _, storageDeep', _, accountDeep'⟩ := right
  obtain rfl : storageDeep = storageDeep' := congrArg TreeLayout.storageTreeDeep layout
  obtain rfl : accountDeep = accountDeep' := congrArg TreeLayout.accountTreeDeep layout
  cases contents
  rfl

structure Current (store : StateStore) (owners : Set LeafOwner) (height : ℕ) (root : Hash) :
    Prop where
  tracked : store.Tracked owners
  layout : store.layout.atHeight height = store.layout
  root : store.stateRootFullRebuild = root

theorem Current.congr (current : left.Current owners height root)
    (contents : right.toContents = left.toContents) (layout : right.layout = left.layout)
    (tracked : right.Tracked owners) : right.Current owners height root where
  tracked := tracked
  layout := layout ▸ current.layout
  root := (stateRootFullRebuild_congr contents layout).trans current.root

theorem Tracked.sealed (tracked : store.Tracked owners) (apart : Set.InjOn LeafOwner.key owners)
    (height : ℕ) :
    (store.sealed height).newState.Current owners height (store.sealed height).stateRoot := by
  have switched := tracked.atHeight height
  refine ⟨switched.stateRoot apart, rfl, ?_⟩
  exact (switched.covers.stateRoot_eq switched.synced apart).symm

theorem Tracked.proveAccountReadonly (tracked : store.Tracked owners)
    (apart : Set.InjOn LeafOwner.key owners) {id : AccountId} (present : id ∈ store.accounts) :
    ∃ proof, store.proveAccountReadonly id = some proof ∧
      (store.accountTreeDeep ∨ store.buildFull.1.IsSmallest id →
        ∀ root, proof.verifyAgainst root ↔ store.stateRootFullRebuild = root) := by
  obtain ⟨refreshing, leaves⟩ := tracked.covers.buildFull apart
  obtain ⟨leaf, hasLeaf⟩ : ∃ leaf, store.leafEntry (.account id) = some leaf := by
    simp [leafEntry, accountEntry, present]
  have isOwner : .account id ∈ owners := tracked.covers _ (by simp [hasLeaf])
  have isLeaf : store.buildFull.1.leaves[id]? = some leaf :=
    (leaves.fresh (.account id) isOwner not_false).trans hasLeaf
  obtain ⟨proof, after, proved, verifies, -⟩ :=
    SparseMerkleTree.verifyAgainst_prove _ id leaf isLeaf
  refine ⟨proof, by rw [StateStore.proveAccountReadonly, proved, Option.map_some], ?_⟩
  intro single root
  have smallest : store.buildFull.1.IsSmallest id := by
    rcases single with deep | smallest
    · apply SparseMerkleTree.isSmallest_of_deep
      rw [refreshing.depth, accountDepth, deep, if_pos rfl]
    · exact smallest
  have live := verifies smallest
  rw [tracked.covers.stateRootFullRebuild apart, ← SparseMerkleTree.root_eq_referenceRoot]
  constructor
  · intro against
    rw [MerkleProof.verifyAgainst_iff] at live against
    exact live.2.symm.trans against.2
  · rintro rfl
    exact live

end StateStore

namespace Session

theorem settings_step {op : StoreOp} (keeps : op.KeepsLayout) :
    (session.step op).store.settings = session.store.settings := by
  cases op with
  | write write => exact session.store.applyWrite_settings write
  | checkpoint => exact session.store.checkpoint_settings
  | revert index =>
    rw [step]
    split
    next => exact session.store.revert_settings _
    next => rfl
  | cloneCheckpoint | drop | dropStale =>
    rw [step]
    split <;> rfl
  | snapshot | stateRoot => rfl
  | stateRootAtHeight | setStorageTreeV2Activation | setAccountTreeV3Activation =>
    exact keeps.elim

theorem settings_run (keeps : ∀ op ∈ ops, op.KeepsLayout) :
    (Run.run step session ops).store.settings = session.store.settings := by
  induction ops generalizing session with
  | nil => rfl
  | cons op ops ih =>
    obtain ⟨first, rest⟩ := List.forall_mem_cons.mp keeps
    exact (ih rest).trans (settings_step first)

theorem tracked_run (apart : Set.InjOn LeafOwner.key owners)
    (tracked : session.store.Tracked owners) (ops : List StoreOp)
    (owned : ∀ op ∈ ops, ∀ owner ∈ op.owners, owner ∈ owners) :
    (Run.run step session ops).store.Tracked owners := by
  induction ops generalizing session with
  | nil => exact tracked
  | cons op ops ih =>
    obtain ⟨first, rest⟩ := List.forall_mem_cons.mp owned
    exact ih (step_tracked tracked apart op first) rest

/-- What is done under a checkpoint is undone by the revert. -/
theorem contents_reverted
    (balanced : ∀ savepoints, (Run.run Savepoints.step savepoints ops).saved = savepoints.saved) :
    (Run.run step (start store) (.checkpoint :: ops ++ [.revert 0])).store.toContents =
      store.toContents := by
  obtain ⟨points, refines⟩ := refines_run store (.checkpoint :: ops ++ [.revert 0])
  rw [refines.contents, List.cons_append, Run.run_cons, Run.run_append]
  have saved := balanced (Savepoints.step ⟨store.toContents, []⟩ .checkpoint)
  simp only [Run.run_cons, Run.run_nil, Savepoints.step] at saved ⊢
  rw [saved]
  rfl

end Session

end Layout

namespace ProofNode

variable {node : ProofNode} {state : StateStore}

/-- The live state and the pending block belong to their headers. -/
structure Matches (owners : Set LeafOwner) (node : ProofNode) : Prop where
  tracked : node.state.Tracked owners
  tip : 0 < node.height → node.state.Current owners node.height node.stateRoot
  pending : ∀ next, node.pending = some next →
    next.newState.Current owners (node.height + 1) next.stateRoot

theorem tracked_start {store : StateStore} (tracked : store.Tracked owners) :
    (Session.start store).store.Tracked owners :=
  tracked.withJournal (List.forall_mem_nil _) _ _ _

theorem tracked_attempt (apart : Set.InjOn LeafOwner.key owners)
    (tracked : node.state.Tracked owners)
    (owned : ∀ op ∈ ops, ∀ owner ∈ op.owners, owner ∈ owners) :
    (node.attempt ops).store.Tracked owners := by
  apply Session.tracked_run apart (tracked_start tracked)
  simpa [StoreOp.owners, or_imp, forall_and] using owned

theorem layout_attempt (ops : List StoreOp) :
    (node.attempt ops).store.layout = (node.after (.checkpoint :: ops)).store.layout := by
  rw [attempt, after, Run.run_append]
  have keeps : (StoreOp.revert 0).KeepsLayout := trivial
  exact congrArg Prod.snd (Session.settings_step keeps)

theorem layout_after (work : BlockWork) :
    (node.after (.checkpoint :: work.ops)).store.layout = node.state.layout := by
  have keeps : ∀ op ∈ .checkpoint :: work.ops, op.KeepsLayout :=
    List.forall_mem_cons.mpr ⟨trivial, work.keepsLayout⟩
  exact congrArg Prod.snd (Session.settings_run keeps)

/-- A tip without a pending block. -/
theorem matches_of_current (tracked : state.Tracked owners)
    (current : 0 < height → state.Current owners height root) :
    (⟨state, height, root, none⟩ : ProofNode).Matches owners :=
  ⟨tracked, current, fun next isNext => absurd isNext (Option.not_mem_none next)⟩

theorem Matches.withState (matched : node.Matches owners) (tracked : state.Tracked owners)
    (contents : state.toContents = node.state.toContents)
    (layout : 0 < node.height → state.layout = node.state.layout) :
    ({ node with state := state } : ProofNode).Matches owners where
  tracked := tracked
  tip committed := (matched.tip committed).congr contents (layout committed) tracked
  pending := matched.pending

theorem Matches.withPending (matched : node.Matches owners) {next : PendingState}
    (current : next.newState.Current owners (node.height + 1) next.stateRoot) :
    ({ node with pending := some next } : ProofNode).Matches owners where
  tracked := matched.tracked
  tip := matched.tip
  pending := by
    rintro _ ⟨⟩
    exact current

theorem Matches.step (apart : Set.InjOn LeafOwner.key owners) (matched : node.Matches owners)
    {event : ProofEvent} (keeps : event.KeepsProofs owners node) :
    (node.step event).Matches owners := by
  have started := tracked_start matched.tracked
  cases event with
  | propose work =>
    have executed := Session.tracked_run apart started (.checkpoint :: work.ops)
      (List.forall_mem_cons.mpr ⟨fun _ isOwner => absurd isOwner List.not_mem_nil, keeps.1⟩)
    have current := executed.sealed apart (node.height + 1)
    refine Matches.withPending (matched.withState ?_ ?_ fun committed => ?_) ?_
    · apply tracked_attempt apart matched.tracked
      rw [List.forall_mem_append]
      exact ⟨keeps.1, List.forall_mem_singleton.mpr fun _ isOwner =>
        absurd isOwner List.not_mem_nil⟩
    · apply Session.contents_reverted
      simp [Run.run_append, Savepoints.step, work.balanced]
    · rw [layout_attempt, ← List.cons_append, after, Run.run_append]
      change (node.after (.checkpoint :: work.ops)).store.layout.atHeight _ = _
      rw [layout_after, keeps.2 committed]
    · exact current.congr rfl rfl (tracked_start current.tracked)
  | failProposal work =>
    refine matched.withState ?_ (Session.contents_reverted work.balanced) fun _ => ?_
    · exact tracked_attempt apart matched.tracked keeps
    · exact (layout_attempt work.ops).trans (layout_after work)
  | receive work =>
    exact matched.withPending ((Session.tracked_run apart started _ keeps).sealed apart _)
  | commit =>
    rw [ProofNode.step]
    split
    next next isNext =>
      have current := matched.pending next isNext
      exact matches_of_current current.tracked fun _ => current
    next => exact matched
  | abandon => exact matches_of_current matched.tracked matched.tip
  | restart =>
    have loaded := matched.tracked.load.withActivations node.state.storageTreeV2From
      node.state.accountTreeV3From
    refine matches_of_current loaded fun committed => ?_
    exact (matched.tip committed).congr rfl (keeps committed) loaded

/-- The proof of an account verifies against a root exactly if it is the root in the live
layout.  In every run that keeps the layout of the tip this is the root of the tip. -/
theorem accountProofs_match (apart : Set.InjOn LeafOwner.key owners) (contents : Contents)
    (owned : ∀ slot : Slot, slot.holds (contents.read slot) → slot.owner ∈ owners)
    (storageFrom accountFrom : Option ℕ) (events : List ProofEvent)
    (keeps : Run.Allowed step (fun node event => event.KeepsProofs owners node)
      (genesis contents storageFrom accountFrom) events) :
    (∀ store : StateStore, store.Tracked owners → ∀ id ∈ store.accounts, ∃ proof,
      store.proveAccountReadonly id = some proof ∧
        (store.accountTreeDeep ∨ store.buildFull.1.IsSmallest id →
          ∀ root, proof.verifyAgainst root ↔ store.stateRootFullRebuild = root)) ∧
    let node := Run.run step (genesis contents storageFrom accountFrom) events
    0 < node.height → ∀ id ∈ node.state.accounts, ∃ proof,
      node.state.proveAccountReadonly id = some proof ∧
        (node.state.accountTreeDeep ∨ node.state.buildFull.1.IsSmallest id →
          proof.verifyAgainst node.stateRoot) := by
  refine ⟨fun store tracked id present => tracked.proveAccountReadonly apart present, ?_⟩
  intro node committed id present
  have started : contents.load.Tracked owners :=
    ⟨owned, fun isSynced => absurd isSynced Bool.false_ne_true, List.forall_mem_nil _⟩
  have initial : (genesis contents storageFrom accountFrom).Matches owners :=
    matches_of_current (started.withActivations storageFrom accountFrom)
      fun positive => absurd positive (Nat.lt_irrefl 0)
  have matched : node.Matches owners :=
    Run.invariant (fun _ _ matched keeps => matched.step apart keeps) initial keeps
  obtain ⟨proof, served, verifies⟩ := matched.tracked.proveAccountReadonly apart present
  exact ⟨proof, served, fun single => (verifies single _).mpr (matched.tip committed).root⟩

end ProofNode

end BoingNetwork

namespace BoingNetwork.ProofNode

open Checksum

/-- Two slots of one contract, with the same first 64 bits. -/
def storeWork : BlockWork where
  ops := [.write (.insert 7 .default), .write (.mergeContractStorage 7 1 5),
    .write (.mergeContractStorage 7 2 6)]
  keepsLayout := by simp [StoreOp.KeepsLayout]
  balanced _ := rfl

def idleWork : BlockWork where
  ops := []
  keepsLayout := List.forall_mem_nil _
  balanced _ := rfl

/-- The storage tree is deep from the first block on, and legacy after the restart. -/
theorem proof_after_restart :
    let node := Run.run step (genesis {} (some 1) none) [.receive storeWork, .commit, .restart]
    (node.state.proveAccountReadonly 7).map
      (fun proof => (proof.verify, proof.verifyAgainst node.stateRoot)) = some (true, false) := by
  decide +kernel

theorem accountProofs_match_proposing :
    let node := Run.run step (genesis {} (some 1) (some 1))
      [.receive storeWork, .commit, .propose idleWork]
    ∃ proof, node.state.proveAccountReadonly 7 = some proof ∧
      proof.verifyAgainst node.stateRoot := by
  intro node
  have keys : LeafKeysApart storeWork.ops := by decide +kernel
  have apart : Set.InjOn LeafOwner.key {owner | owner ∈ touchedOwners storeWork.ops} :=
    fun first isFirst second isSecond => keys first isFirst second isSecond
  have registries : ∀ slot : Slot, slot.holds (Contents.read {} slot) →
      slot.owner ∈ {owner | owner ∈ touchedOwners storeWork.ops} :=
    (StateStore.tracked_empty fun id =>
      List.mem_append_left _ (List.mem_map_of_mem id.mem_all)).owned
  have owned : storeWork.OwnedBy {owner | owner ∈ touchedOwners storeWork.ops} :=
    fun op isOp owner isOwner =>
      List.mem_append_right _ (List.mem_flatMap.mpr ⟨op, isOp, isOwner⟩)
  obtain ⟨proof, served, verifies⟩ := (accountProofs_match apart {} registries (some 1) (some 1)
    [.receive storeWork, .commit, .propose idleWork]
    ⟨owned, trivial, ⟨List.forall_mem_nil _, fun _ => by decide +kernel⟩, trivial⟩).2
      (by decide +kernel) 7 (by decide +kernel)
  exact ⟨proof, served, verifies (.inl (by decide +kernel))⟩

end BoingNetwork.ProofNode
