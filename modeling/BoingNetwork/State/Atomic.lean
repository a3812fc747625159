import BoingNetwork.State.Conservation

/-!
# Commands of block execution

Block execution is a sequence of ledger commands, some of which run under a checkpoint: if
one of them fails, its writes are reverted.  The conduct of block execution is therefore
weaker than that of ledger commands: every step can be undone by the checkpoints that were
live before it, and only stores whose checkpoints can be reverted are compared.
-/

namespace BoingNetwork

section Atomic

variable [Crypto]

namespace StateStore

/-- The checkpoints that were taken of the store can be reverted. -/
def IsJournaled (store : StateStore) : Prop := ∃ points, store.Journaled points

theorem Undoable.isJournaled {store next : StateStore} (undoable : store.Undoable next)
    (journaled : store.IsJournaled) : next.IsJournaled := by
  obtain ⟨points, isJournaled⟩ := journaled
  exact ⟨points, undoable.journaled points isJournaled⟩

theorem isJournaled_snapshot (store : StateStore) : store.snapshot.IsJournaled :=
  ⟨[], (Session.Refines.start store).journaled⟩

/-- Gives up the innermost checkpoint. -/
def release (store : StateStore) : StateStore := { store with handles := store.handles - 1 }

section

variable (store : StateStore) (cp : StateCheckpoint)

theorem checkpoint_settings : store.checkpoint.2.settings = store.settings := by
  by_cases alive : 0 < store.handles
  · rw [checkpoint, journaling, if_pos alive]
    rfl
  · rw [checkpoint, journaling, if_neg alive]
    rfl

theorem checkpoint_config : store.checkpoint.2.config = store.config :=
  congrArg Prod.fst store.checkpoint_settings

theorem exactly_checkpoint : ledgerModel.exactly store.checkpoint.2 store :=
  ⟨store.checkpoint_toContents, store.checkpoint_config⟩

theorem revert_settings : (store.revert cp).settings = store.settings := by
  obtain ⟨_, _, _, undone⟩ := foldl_undoEntry store (UndoLog.since store.journal cp.pos)
  rw [revert, undone]
  rfl

theorem revert_config :
    (store.revert cp).config = store.config := congrArg Prod.fst (store.revert_settings cp)

end

theorem undoable_foldl_applyWrite (writes : List StoreWrite) (store : StateStore) :
    store.Undoable (writes.foldl applyWrite store) :=
  .foldl Undoable.applyWrite writes store

variable {store after : StateStore}

variable (undoable : store.checkpoint.2.Undoable after)

include undoable

/-- After steps under a checkpoint, the checkpoint can be given up. -/
theorem Undoable.release : store.Undoable after.release where
  journaled points journaled := by
    have under := undoable.journaled _ journaled.checkpoint
    have handled := under.handled
    rw [List.length_cons] at handled
    exact under.forget (List.sublist_cons_self ..) (by omega)
  handles := by
    change after.handles - 1 = store.handles
    rw [undoable.handles, checkpoint_handles]
    rfl

theorem Undoable.reverted {points : List (ℕ × Contents)} (journaled : store.Journaled points) :
    (after.revert store.checkpoint.1).toContents = store.toContents ∧
      (after.revert store.checkpoint.1).Journaled points := by
  have under : after.Journaled ([] ++ (store.checkpoint.1.pos, store.toContents) :: points) :=
    undoable.journaled _ journaled.checkpoint
  exact under.revert store.checkpoint.1

theorem Undoable.revert : store.Undoable (after.revert store.checkpoint.1) where
  journaled _ journaled := (undoable.reverted journaled).2
  handles := by
    change after.handles - 1 = store.handles
    rw [undoable.handles, checkpoint_handles]
    rfl

end StateStore

theorem same_of_exactly {sight : Sight} {left right left' right' : StateStore}
    (exactLeft : ledgerModel.exactly left' left) (exactRight : ledgerModel.exactly right' right)
    (same : ledgerModel.conduct.same sight left right) :
    ledgerModel.conduct.same sight left' right' :=
  match sight with
  | .exact => ⟨exactLeft.1.trans (same.1.trans exactRight.1.symm),
      exactLeft.2.trans (same.2.trans exactRight.2.symm)⟩
  | .seen => (ledgerModel.view_eq exactLeft).trans
      (same.trans (ledgerModel.view_eq exactRight).symm)

/-- Steps that the live checkpoints can undo. -/
def blockConduct : Conduct StateStore where
  always before after := before.Undoable after ∧ after.config = before.config
  refl store := ⟨.refl store, rfl⟩
  trans first second := ⟨first.1.trans second.1, second.2.trans first.2⟩
  same sight left right :=
    ledgerModel.conduct.same sight left right ∧ left.IsJournaled ∧ right.IsJournaled

theorem blockConduct_of_writes {before after : StateStore}
    (written : ledgerModel.conduct.always before after) : blockConduct.always before after := by
  obtain ⟨writes, rfl⟩ := written
  exact ⟨StateStore.undoable_foldl_applyWrite writes before,
    congrArg Prod.fst (StateStore.foldl_settings StateStore.applyWrite_settings writes before)⟩

theorem exactly_revert {store after : StateStore}
    (written : blockConduct.always store.checkpoint.2 after) (journaled : store.IsJournaled) :
    ledgerModel.exactly (after.revert store.checkpoint.1) store := by
  obtain ⟨points, isJournaled⟩ := journaled
  refine ⟨(written.1.reverted isJournaled).1, ?_⟩
  rw [after.revert_config, written.2, store.checkpoint_config]

variable {Error OtherError Value Next : Type}

/-- What a law says about two stores, of which the first can be reverted. -/
structure Lawfully (law : LedgerConfig → Value → Contents → Contents → Prop) (value : Value)
    (before after : StateStore) : Prop where
  journaled : after.IsJournaled
  config : after.config = before.config
  law : law before.config value before.toContents after.toContents

abbrev BlockCommand (Error Value : Type)
    (law : LedgerConfig → Value → Contents → Contents → Prop) : Type :=
  Command blockConduct Error Value fun value before after =>
    before.IsJournaled → Lawfully law value before after

namespace BlockCommand

variable {law firstLaw : LedgerConfig → Value → Contents → Contents → Prop}

def lift {done : Value → StateStore → StateStore → Prop}
    (command : Command ledgerModel.conduct Error Value done)
    (holds : ∀ {value before after}, done value before after →
      law before.config value before.toContents after.toContents) :
    BlockCommand Error Value law where
  run := command.run
  ensures before := (command.ensures before).mono (fun _ => blockConduct_of_writes)
    fun _ _ ended => by
      have always := blockConduct_of_writes ended.1
      exact ⟨always, fun journaled => ⟨always.1.isJournaled journaled, always.2, holds ended.2⟩⟩
  respects sight left right same := by
    obtain ⟨seen, leftJournaled, rightJournaled⟩ := same
    apply (command.respects sight left right seen).strengthen
    intro related
    exact ⟨related,
      (blockConduct_of_writes (command.always_state left)).1.isJournaled leftJournaled,
      (blockConduct_of_writes (command.always_state right)).1.isJournaled rightJournaled⟩

/-- One step after another. -/
def andThen {nextLaw : Value → LedgerConfig → Next → Contents → Contents → Prop}
    {bothLaw : LedgerConfig → Next → Contents → Contents → Prop}
    (first : BlockCommand Error Value firstLaw)
    (next : ∀ value, BlockCommand Error Next (nextLaw value))
    (compose : ∀ {config value result start middle finish}, firstLaw config value start middle →
      nextLaw value config result middle finish → bothLaw config result start finish) :
    BlockCommand Error Next bothLaw :=
  Command.andThen first next fun firstDone nextDone journaled => by
    have begun := firstDone journaled
    have ended := nextDone begun.journaled
    exact ⟨ended.journaled, ended.config.trans begun.config,
      compose begun.law (begun.config ▸ ended.law)⟩

def pure (value : Value)
    (holds : ∀ config contents, law config value contents contents) :
    BlockCommand Error Value law where
  run := Pure.pure value
  ensures before := ⟨blockConduct.refl before, fun journaled => ⟨journaled, rfl, holds _ _⟩⟩
  respects _ := .pure value

def select {chosenLaw : LedgerView → LedgerConfig → Value → Contents → Contents → Prop}
    (body : ∀ seen, BlockCommand Error Value (chosenLaw seen))
    (holds : ∀ {config value before after}, chosenLaw ⟨before.settled, config⟩ config value before
      after → law config value before after) :
    BlockCommand Error Value law :=
  (Command.select StateStore.view
    (fun {sight left right} (same : blockConduct.same sight left right) =>
      WriteModel.view_eq_of_same same.1) body).weaken fun _ done journaled => by
    have ended := done journaled
    exact ⟨ended.journaled, ended.config, holds ended.law⟩

def atomicallyRun (command : EStateM (Fault Error) StateStore Value) :
    EStateM (Fault OtherError) StateStore (Except Error Value) := fun store =>
  match command store.checkpoint.2 with
  | .ok value after => .ok (.ok value) after.release
  | .error (.error reason) after => .ok (.error reason) (after.revert store.checkpoint.1)
  | .error .panic after => .error .panic after.release

/-- The law of a command under a checkpoint. -/
def Atomic (law : LedgerConfig → Value → Contents → Contents → Prop) (config : LedgerConfig)
    (result : Except Error Value) (before after : Contents) : Prop :=
  match result with
  | .ok value => law config value before after
  | .error _ => after = before

def atomically {done : Value → StateStore → StateStore → Prop}
    (command : Command ledgerModel.conduct (Fault Error) Value done)
    (holds : ∀ {value before after}, done value before after →
      law before.config value before.toContents after.toContents) :
    BlockCommand (Fault OtherError) (Except Error Value) (Atomic law) where
  run := atomicallyRun command.run
  ensures before := by
    have written := blockConduct_of_writes (command.always_state before.checkpoint.2)
    unfold EStateM.Ends atomicallyRun
    cases ran : command.run before.checkpoint.2 with
    | ok value after =>
      rw [ran] at written
      have config : after.release.config = before.config :=
        written.2.trans before.checkpoint_config
      refine ⟨⟨written.1.release, config⟩, fun journaled => ?_⟩
      refine ⟨written.1.release.isJournaled journaled, config, ?_⟩
      have law := holds (command.done_of_run ran)
      rw [before.checkpoint_config, before.checkpoint_toContents] at law
      exact law
    | error fault after =>
      rw [ran] at written
      cases fault with
      | error reason =>
        have config : (after.revert before.checkpoint.1).config = before.config :=
          (after.revert_config _).trans (written.2.trans before.checkpoint_config)
        refine ⟨⟨written.1.revert, config⟩, fun journaled => ?_⟩
        refine ⟨written.1.revert.isJournaled journaled, config, ?_⟩
        obtain ⟨points, isJournaled⟩ := journaled
        exact (written.1.reverted isJournaled).1
      | panic => exact ⟨written.1.release, written.2.trans before.checkpoint_config⟩
  respects sight left right same := by
    obtain ⟨seen, leftJournaled, rightJournaled⟩ := same
    have started := same_of_exactly left.exactly_checkpoint right.exactly_checkpoint seen
    have alike := command.respects sight _ _ started
    have leftWritten := blockConduct_of_writes (command.always_state left.checkpoint.2)
    have rightWritten := blockConduct_of_writes (command.always_state right.checkpoint.2)
    unfold atomicallyRun
    cases leftRun : command.run left.checkpoint.2 <;>
      cases rightRun : command.run right.checkpoint.2 <;>
      rw [leftRun, rightRun] at alike <;>
      rw [leftRun] at leftWritten <;>
      rw [rightRun] at rightWritten
    case ok.ok =>
      obtain ⟨rfl, related⟩ := alike
      exact ⟨rfl, related, leftWritten.1.release.isJournaled leftJournaled,
        rightWritten.1.release.isJournaled rightJournaled⟩
    case ok.error => exact alike.elim
    case error.ok => exact alike.elim
    case error.error fault _ _ _ =>
      obtain ⟨rfl, related⟩ := alike
      cases fault with
      | error reason =>
        have restored := same_of_exactly (exactly_revert leftWritten leftJournaled)
          (exactly_revert rightWritten rightJournaled) seen
        exact ⟨rfl, restored, leftWritten.1.revert.isJournaled leftJournaled,
          rightWritten.1.revert.isJournaled rightJournaled⟩
      | panic =>
        exact ⟨rfl, related, leftWritten.1.release.isJournaled leftJournaled,
          rightWritten.1.release.isJournaled rightJournaled⟩

end BlockCommand

end Atomic

end BoingNetwork
