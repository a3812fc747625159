import BoingNetwork.State.Journal

/-!
# Sessions of the state store

A session is a store with the checkpoints that its users hold.  It refines the contents
with a stack of saved copies: a checkpoint saves the contents, a revert brings the saved
ones back and keeps the outer checkpoints, and dropping a checkpoint changes nothing.
-/

namespace BoingNetwork

inductive StoreWrite where
  | insert (id : AccountId) (state : AccountState)
  | getMut (id : AccountId) (update : AccountState → AccountState)
  | setContractCode (account : AccountId) (bytecode : Bytes)
  | mergeContractStorage (contract : AccountId) (key value : BitVec 256)
  | insertQaPending (subject : Hash) (record : QaPendingRecord)
  | qaPendingMut (subject : Hash) (update : QaPendingRecord → QaPendingRecord)
  | removeQaPending (subject : Hash)
  | loadQaPending (items : List (Hash × QaPendingRecord))
  | registryMut (id : RegistryId) (update : id.Carrier → id.Carrier)
  | redenominate (factor : ℕ)

/-- What users do with a store.  Checkpoints are numbered from the innermost live one;
`dropStale` gives up a checkpoint whose scope was reverted by an outer one. -/
inductive StoreOp where
  | write (write : StoreWrite)
  | checkpoint
  | cloneCheckpoint (index : ℕ)
  | revert (index : ℕ)
  | drop (index : ℕ)
  | dropStale
  | snapshot
  | stateRoot
  | stateRootAtHeight (height : ℕ)
  | setStorageTreeV2Activation (activation : Option ℕ)
  | setAccountTreeV3Activation (activation : Option ℕ)

def StoreWrite.effect (contents : Contents) : StoreWrite → Contents
  | .insert id state => contents.write (.account id) (some state)
  | .getMut id update => contents.write (.account id) (contents.accounts[id]?.map update)
  | .setContractCode account bytecode => contents.write (.code account) (some bytecode)
  | .mergeContractStorage contract key value => contents.write (.storage contract key) (some value)
  | .insertQaPending subject record => contents.write (.qaPending subject) (some record)
  | .qaPendingMut subject update =>
    contents.write (.qaPending subject) (contents.qaPending[subject]?.map update)
  | .removeQaPending subject => contents.write (.qaPending subject) none
  | .loadQaPending items => { contents with qaPending := Std.ExtTreeMap.ofList items }
  | .registryMut id update => contents.setRegistry id (update (contents.registry id))
  | .redenominate factor =>
    { contents with
      accounts := contents.accounts.map fun _ => AccountState.redenominated factor
      openValidators := contents.openValidators.redenominated factor }

/-- The contents with the saved copies of the live checkpoints, innermost first. -/
structure Savepoints where
  current : Contents
  saved : List Contents

/-- The purpose of the journal: a revert is a jump back to the saved copy. -/
def Savepoints.step (savepoints : Savepoints) : StoreOp → Savepoints
  | .write write => { savepoints with current := write.effect savepoints.current }
  | .checkpoint => { savepoints with saved := savepoints.current :: savepoints.saved }
  | .cloneCheckpoint index =>
    match savepoints.saved[index]? with
    | some contents => { savepoints with
        saved := savepoints.saved.take index ++ contents :: savepoints.saved.drop index }
    | none => savepoints
  | .revert index =>
    match savepoints.saved[index]? with
    | some contents => ⟨contents, savepoints.saved.drop (index + 1)⟩
    | none => savepoints
  | .drop index => { savepoints with saved := savepoints.saved.eraseIdx index }
  | .snapshot => { savepoints with saved := [] }
  | .dropStale | .stateRoot | .stateRootAtHeight _ | .setStorageTreeV2Activation _
  | .setAccountTreeV3Activation _ => savepoints

theorem OpenValidatorRegistry.redenominated_of_unbonded (factor : ℕ)
    {registry : OpenValidatorRegistry}
    (unbonded : ¬ registry.records.toList.any (0 < ·.2.bond)) :
    registry.redenominated factor = registry := by
  have zero : ∀ (key : AccountId) (record : ValidatorRecord),
      registry.records[key]? = some record → record.bond = 0 := by
    intro key record found
    rw [List.any_eq_true, not_exists] at unbonded
    have none_ := unbonded (key, record)
    simpa [found] using none_
  have same : (registry.redenominated factor).records = registry.records := by
    apply FiniteMap.map_eq_self
    intro key record found
    rw [zero key record found, MachineInt.saturatingMul, Nat.zero_mul, Nat.zero_min,
      ← zero key record found]
  calc
    registry.redenominated factor =
        { registry with records := (registry.redenominated factor).records } := rfl
    _ = registry := by rw [same]

variable [Crypto] (store : StateStore)

def StateStore.applyWrite (store : StateStore) : StoreWrite → StateStore
  | .insert id state => store.insert id state
  | .getMut id update => store.getMut id update
  | .setContractCode account bytecode => store.setContractCode account bytecode
  | .mergeContractStorage contract key value => store.mergeContractStorage contract key value
  | .insertQaPending subject record => store.insertQaPending subject record
  | .qaPendingMut subject update => store.qaPendingMut subject update
  | .removeQaPending subject => store.removeQaPending subject
  | .loadQaPending items => store.loadQaPending items
  | .registryMut id update => store.registryMut id update
  | .redenominate factor => store.redenominate factor

structure Session where
  store : StateStore
  live : List StateCheckpoint
  stale : ℕ

namespace Session

/-- A copy of a store; no checkpoint of it is held. -/
def start (store : StateStore) : Session := ⟨store.snapshot, [], 0⟩

def step (session : Session) : StoreOp → Session
  | .write write => { session with store := session.store.applyWrite write }
  | .checkpoint =>
    let (cp, store) := session.store.checkpoint
    { session with store := store, live := cp :: session.live }
  | .cloneCheckpoint index =>
    match session.live[index]? with
    | some cp => { session with
        store := { session.store with handles := session.store.handles + 1 }
        live := session.live.take index ++ cp :: session.live.drop index }
    | none => session
  | .revert index =>
    match session.live[index]? with
    | some cp => {
        store := session.store.revert cp
        live := session.live.drop (index + 1)
        stale := session.stale + index }
    | none => session
  | .drop index =>
    if index < session.live.length then
      { session with
        store := { session.store with handles := session.store.handles - 1 }
        live := session.live.eraseIdx index }
    else session
  | .dropStale =>
    if 0 < session.stale then
      { session with
        store := { session.store with handles := session.store.handles - 1 }
        stale := session.stale - 1 }
    else session
  | .snapshot => ⟨session.store.snapshot, [], 0⟩
  | .stateRoot => { session with store := session.store.stateRoot.2 }
  | .stateRootAtHeight height =>
    { session with store := (session.store.stateRootAtHeight height).2 }
  | .setStorageTreeV2Activation activation =>
    { session with store := { session.store with storageTreeV2From := activation } }
  | .setAccountTreeV3Activation activation =>
    { session with store := { session.store with accountTreeV3From := activation } }

end Session

namespace StateStore

variable (store : StateStore) (write : StoreWrite) (subject : Hash) (factor : ℕ)

theorem Undoable.applyWrite : store.Undoable (store.applyWrite write) := by
  cases write with
  | insert | setContractCode | mergeContractStorage | insertQaPending => exact put ..
  | getMut => exact getMut ..
  | qaPendingMut => exact qaPendingMut ..
  | removeQaPending => exact removeQaPending ..
  | loadQaPending => exact loadQaPending ..
  | registryMut => exact registryMut ..
  | redenominate => exact redenominate ..

theorem getMut_toContents (id : AccountId) (update : AccountState → AccountState) :
    (store.getMut id update).toContents =
      store.toContents.write (.account id) (store.accounts[id]?.map update) := by
  unfold getMut
  split
  next found => rw [put_toContents, found, Option.map_some]
  next absent =>
    rw [absent, Option.map_none, ← absent]
    exact (store.toContents.write_read (.account id)).symm

theorem qaPendingMut_toContents (update : QaPendingRecord → QaPendingRecord) :
    (store.qaPendingMut subject update).toContents =
      store.toContents.write (.qaPending subject) (store.qaPending[subject]?.map update) := by
  unfold qaPendingMut
  split
  next found => rw [put_toContents, found, Option.map_some]
  next absent =>
    rw [absent, Option.map_none, ← absent]
    exact (store.toContents.write_read (.qaPending subject)).symm

theorem removeQaPending_toContents : (store.removeQaPending subject).toContents =
      store.toContents.write (.qaPending subject) none := by
  unfold removeQaPending
  split
  next => rw [put_toContents]
  next absent =>
    rw [← absent]
    exact (store.toContents.write_read (.qaPending subject)).symm

theorem redenominateAccounts_toContents : (store.redenominateAccounts factor).toContents =
      { store.toContents with
        accounts := store.accounts.map fun _ => AccountState.redenominated factor } := by
  have scaled : ∀ (ids : List AccountId) (store : StateStore),
      (ids.foldl (fun store id => store.getMut id (AccountState.redenominated factor))
          store).toContents =
        { store.toContents with
          accounts := ids.foldl (fun map id =>
            FiniteMap.put map id (map[id]?.map (AccountState.redenominated factor)))
            store.accounts } := by
    intro ids
    induction ids with
    | nil =>
      intro store
      rfl
    | cons id rest ih =>
      intro store
      rw [List.foldl_cons, ih, getMut_toContents]
      rfl
  rw [redenominateAccounts, scaled, FiniteMap.foldl_put_map_keys]

theorem redenominate_toContents : (store.redenominate factor).toContents =
      (StoreWrite.redenominate factor).effect store.toContents := by
  have accounts := store.redenominateAccounts_toContents factor
  have registry : (store.redenominateAccounts factor).openValidators = store.openValidators := by
    rw [accounts]
  rw [redenominate]
  split
  next =>
    rw [openValidatorsMut, registryMut_toContents, accounts]
    rfl
  next unbonded =>
    rw [registry] at unbonded
    rw [accounts, StoreWrite.effect, OpenValidatorRegistry.redenominated_of_unbonded _ unbonded]

theorem applyWrite_toContents :
    (store.applyWrite write).toContents = write.effect store.toContents := by
  cases write with
  | insert | setContractCode | mergeContractStorage | insertQaPending =>
    exact put_toContents ..
  | getMut => exact getMut_toContents ..
  | qaPendingMut => exact qaPendingMut_toContents ..
  | removeQaPending => exact removeQaPending_toContents ..
  | loadQaPending => exact loadQaPending_toContents ..
  | registryMut => exact registryMut_toContents ..
  | redenominate => exact redenominate_toContents ..

end StateStore

/-- The session, its live checkpoints and the saved copies belong together. -/
structure Session.Refines (session : Session) (savepoints : Savepoints)
    (points : List (ℕ × Contents)) : Prop where
  journaled : session.store.Journaled points
  contents : session.store.toContents = savepoints.current
  live : session.live = points.map fun point => ⟨point.1⟩
  saved : savepoints.saved = points.map Prod.snd
  handles : session.store.handles = points.length + session.stale

namespace Session.Refines

variable {session : Session} {savepoints : Savepoints} {points : List (ℕ × Contents)}

theorem start : (Session.start store).Refines ⟨store.toContents, []⟩ [] where
  journaled := .dropped rfl rfl rfl fun _ => rfl
  contents := rfl
  live := rfl
  saved := rfl
  handles := rfl

variable (refines : session.Refines savepoints points) (index : ℕ)

include refines

/-- Steps of the store that leave the checkpoints alone. -/
theorem of_undoable {next : StateStore} (undoable : session.store.Undoable next)
    {contents : Contents} (reached : next.toContents = contents) :
    Session.Refines { session with store := next } { savepoints with current := contents }
      points where
  journaled := undoable.journaled points refines.journaled
  contents := reached
  live := refines.live
  saved := refines.saved
  handles := undoable.handles.trans refines.handles

theorem of_caches (next : StateStore) (contents : next.toContents = session.store.toContents)
    (journal : next.journal = session.store.journal)
    (lastCpPos : next.lastCpPos = session.store.lastCpPos)
    (snapPos : next.snapPos = session.store.snapPos)
    (handles : next.handles = session.store.handles) :
    Session.Refines { session with store := next } savepoints points :=
  refines.of_undoable
    ⟨fun _ journaled => journaled.congr contents journal lastCpPos snapPos handles, handles⟩
    (contents.trans refines.contents)

theorem checkpoint : (session.step .checkpoint).Refines (savepoints.step .checkpoint)
      ((session.store.checkpoint.1.pos, session.store.toContents) :: points) where
  journaled := refines.journaled.checkpoint
  contents := (session.store.checkpoint_toContents).trans refines.contents
  live := by
    rw [List.map_cons, ← refines.live]
    rfl
  saved := by
    rw [List.map_cons, ← refines.saved, refines.contents]
    rfl
  handles := by
    have handles := refines.handles
    change session.store.checkpoint.2.handles = points.length + 1 + session.stale
    rw [StateStore.checkpoint_handles]
    omega

theorem of_live {index : ℕ} {cp : StateCheckpoint} (isLive : session.live[index]? = some cp) :
    ∃ saved, savepoints.saved[index]? = some saved ∧
      points.drop index = (cp.pos, saved) :: points.drop (index + 1) := by
  rw [refines.live, List.getElem?_map, Option.map_eq_some_iff] at isLive
  obtain ⟨⟨position, saved⟩, isPoint, rfl⟩ := isLive
  refine ⟨saved, ?_, ?_⟩
  · rw [refines.saved, List.getElem?_map, isPoint, Option.map_some]
  · obtain ⟨inRange, isHere⟩ := List.getElem?_eq_some_iff.mp isPoint
    rw [← isHere, ← List.drop_eq_getElem_cons]

theorem none_of_not_live {index : ℕ} (notLive : session.live[index]? = none) :
    savepoints.saved[index]? = none := by
  rw [refines.live, List.getElem?_eq_none_iff, List.length_map] at notLive
  rw [refines.saved, List.getElem?_eq_none_iff, List.length_map]
  exact notLive

theorem cloneCheckpoint : ∃ after, (session.step (.cloneCheckpoint index)).Refines
      (savepoints.step (.cloneCheckpoint index)) after := by
  cases isLive : session.live[index]? with
  | none =>
    refine ⟨points, ?_⟩
    simp only [Session.step, Savepoints.step, isLive, refines.none_of_not_live isLive]
    exact refines
  | some cp =>
    obtain ⟨saved, isSaved, fromHere⟩ := refines.of_live isLive
    have journaled := refines.journaled
    have handles := refines.handles
    rw [← List.take_append_drop index points, fromHere] at journaled
    have duplicated := journaled.duplicate
    rw [← fromHere] at duplicated
    simp only [Session.step, Savepoints.step, isLive, isSaved]
    refine ⟨_, duplicated, refines.contents, ?_, ?_, ?_⟩
    · rw [refines.live, List.map_append, List.map_cons, List.map_take, List.map_drop]
    · rw [refines.saved, List.map_append, List.map_cons, List.map_take, List.map_drop]
    · change session.store.handles + 1 = _ + session.stale
      rw [List.length_append, List.length_cons, ← Nat.add_assoc, ← List.length_append,
        List.take_append_drop]
      omega

theorem revert :
    ∃ after, (session.step (.revert index)).Refines (savepoints.step (.revert index)) after := by
  cases isLive : session.live[index]? with
  | none =>
    refine ⟨points, ?_⟩
    simp only [Session.step, Savepoints.step, isLive, refines.none_of_not_live isLive]
    exact refines
  | some cp =>
    obtain ⟨saved, isSaved, fromHere⟩ := refines.of_live isLive
    have inRange := (List.getElem?_eq_some_iff.mp isLive).1
    have handles := refines.handles
    have journaled := refines.journaled
    rw [← List.take_append_drop index points, fromHere] at journaled
    obtain ⟨restored, older⟩ := journaled.revert cp
    simp only [Session.step, Savepoints.step, isLive, isSaved]
    refine ⟨points.drop (index + 1), older, restored, ?_, ?_, ?_⟩
    · rw [refines.live, List.map_drop]
    · rw [refines.saved, List.map_drop]
    · rw [refines.live, List.length_map] at inRange
      change session.store.handles - 1 = (points.drop (index + 1)).length + (session.stale + index)
      rw [List.length_drop]
      omega

theorem drop : (session.step (.drop index)).Refines (savepoints.step (.drop index))
      (points.eraseIdx index) := by
  have handles := refines.handles
  simp only [Session.step, Savepoints.step, refines.saved, refines.live, List.length_map]
  split
  next inRange =>
    have length := List.length_eraseIdx_of_lt inRange
    exact {
      journaled := refines.journaled.forget (List.eraseIdx_sublist points index) (by omega)
      contents := refines.contents
      live := List.eraseIdx_map _ _ _
      saved := List.eraseIdx_map _ _ _
      handles := by
        change session.store.handles - 1 = (points.eraseIdx index).length + session.stale
        omega }
  next outside =>
    rw [List.eraseIdx_of_length_le (by simpa using outside),
      List.eraseIdx_of_length_le (by simpa using outside), ← refines.saved]
    exact refines

theorem dropStale : (session.step .dropStale).Refines (savepoints.step .dropStale) points := by
  have handles := refines.handles
  simp only [Session.step, Savepoints.step]
  split
  next =>
    exact {
      journaled := refines.journaled.forget (List.Sublist.refl _) (by omega)
      contents := refines.contents
      live := refines.live
      saved := refines.saved
      handles := by
        change session.store.handles - 1 = points.length + (session.stale - 1)
        omega }
  next => exact refines

/-- Every operation keeps the session and the saved copies together. -/
theorem step (op : StoreOp) : ∃ after, (session.step op).Refines (savepoints.step op) after := by
  cases op with
  | write write =>
    refine ⟨points, refines.of_undoable (.applyWrite session.store write) ?_⟩
    rw [StateStore.applyWrite_toContents, refines.contents]
  | checkpoint => exact ⟨_, refines.checkpoint⟩
  | cloneCheckpoint index => exact refines.cloneCheckpoint index
  | revert index => exact refines.revert index
  | drop index => exact ⟨_, refines.drop index⟩
  | dropStale => exact ⟨_, refines.dropStale⟩
  | snapshot =>
    have started := start session.store
    rw [refines.contents] at started
    exact ⟨[], started⟩
  | stateRoot =>
    exact ⟨points, refines.of_caches session.store.stateRoot.2 rfl rfl rfl rfl rfl⟩
  | stateRootAtHeight height =>
    let next := (session.store.stateRootAtHeight height).2
    exact ⟨points, refines.of_caches next rfl rfl rfl rfl rfl⟩
  | setStorageTreeV2Activation activation =>
    let next := { session.store with storageTreeV2From := activation }
    exact ⟨points, refines.of_caches next rfl rfl rfl rfl rfl⟩
  | setAccountTreeV3Activation activation =>
    let next := { session.store with accountTreeV3From := activation }
    exact ⟨points, refines.of_caches next rfl rfl rfl rfl rfl⟩

end Session.Refines

namespace Session

theorem refines_run (ops : List StoreOp) : ∃ points, (Run.run step (start store) ops).Refines
      (Run.run Savepoints.step ⟨store.toContents, []⟩ ops) points := by
  have preserved : ∀ session savepoints op, (∃ points, Session.Refines session savepoints points) →
        ∃ points, (session.step op).Refines (savepoints.step op) points := by
    rintro session savepoints op ⟨points, refines⟩
    exact refines.step op
  exact Run.simulation preserved ⟨[], .start store⟩ ops

/-- After every run of writes, checkpoints and reverts the contents are those of the
stack of saved copies, and each live checkpoint reverts to its own copy. -/
theorem run_refines_savepoints (store : StateStore) (ops : List StoreOp) :
    (Run.run step (start store) ops).store.toContents =
        (Run.run Savepoints.step ⟨store.toContents, []⟩ ops).current ∧
      List.Forall₂ (fun cp saved =>
          ((Run.run step (start store) ops).store.revert cp).toContents = saved)
        (Run.run step (start store) ops).live
        (Run.run Savepoints.step ⟨store.toContents, []⟩ ops).saved := by
  obtain ⟨points, refines⟩ := refines_run store ops
  refine ⟨refines.contents, ?_⟩
  rw [refines.live, refines.saved, List.forall₂_map_left_iff, List.forall₂_map_right_iff,
    List.forall₂_same]
  rintro ⟨position, saved⟩ isPoint
  obtain ⟨newer, older, isPoints⟩ := List.append_of_mem isPoint
  have journaled := refines.journaled
  rw [isPoints] at journaled
  exact (journaled.revert ⟨position⟩).1

end Session

end BoingNetwork
