import BoingNetwork.Library.Effects
import BoingNetwork.Library.HashCollision
import BoingNetwork.Library.Run
import BoingNetwork.Primitives.Checksum
import BoingNetwork.Primitives.Codecs
import BoingNetwork.State.Names

/-!
# Ownership of names

A history of the registry lists the transactions that changed it, the latest first.  A name
that is active or in grace changes its owner only by a transaction of the owner, and a
registration uses up a commitment of its sender.  From an activation height on commitments are
stored under a hash of sender and commitment.  A commitment from before that height is stored
under its own bytes, which may be such a hash for another sender: histories without one keep
the commitments of different senders apart.
-/

namespace BoingNetwork

open EStateM FiniteMap

inductive NameOp where
  | commit (commitment : BitVec 256)
  | register (label : String) (salt : BitVec 256) (target : AccountId) (years : ℕ)
  | renew (label : String) (years : ℕ)
  | transfer (label : String) (newOwner : AccountId)
  | setTarget (label : String) (target : AccountId)
  | setPrimary (label : Option String)
  | release (label : String)
deriving DecidableEq

structure NameTx where
  height : ℕ
  sender : AccountId
  op : NameOp
deriving DecidableEq

/-- The parameters, and the height from which commitments are stored by sender. -/
structure NameRules where
  params : NameRegistryParams
  keyedFrom : Option ℕ

namespace NameRules

def keyed (rules : NameRules) (height : ℕ) : Bool := rules.keyedFrom.any (· ≤ height)

/-- Not too old to be used. -/
def young (rules : NameRules) (height : ℕ) (record : CommitRecord) : Bool :=
  height - record.height ≤ rules.params.commitMaxAge

end NameRules

section Ownership

variable [Crypto] (registry : NameRegistry) {commitment key otherCommitment : BitVec 256}
  {sender : AccountId} {record : CommitRecord} (rules : NameRules) {senderKeyed : Bool}
  {tx : NameTx} {params : NameRegistryParams} {label : String} {txs : List NameTx}
  (addr : AccountId) {made : NameEvent}

namespace NameTx

def perform (rules : NameRules) (tx : NameTx) : EStateM NameRegistryError NameRegistry Unit :=
  match tx.op with
  | .commit commitment => NameRegistry.commitKeyed rules.params tx.height tx.sender commitment
      (rules.keyed tx.height)
  | .register label salt target years => do
    let _ ← NameRegistry.registerKeyed rules.params tx.height tx.sender label salt target years
      (rules.keyed tx.height)
  | .renew label years => do
    let _ ← NameRegistry.renew rules.params tx.height tx.sender label years
  | .transfer label newOwner =>
    NameRegistry.transfer rules.params tx.height tx.sender label newOwner
  | .setTarget label target => NameRegistry.setTarget rules.params tx.height tx.sender label target
  | .setPrimary label => NameRegistry.setPrimary rules.params tx.height tx.sender label
  | .release label => NameRegistry.release rules.params tx.height tx.sender label

/-- The commitment that the transaction makes or reveals. -/
def commitment? (tx : NameTx) : Option (BitVec 256) :=
  match tx.op with
  | .commit commitment => some commitment
  | .register label salt _ _ => some (nameCommitment label tx.sender salt)
  | _ => none

/-- Where a commitment of the transaction is stored. -/
def storageKey (rules : NameRules) (tx : NameTx) (commitment : BitVec 256) : BitVec 256 :=
  if rules.keyed tx.height then NameRegistry.senderCommitKey tx.sender commitment else commitment

end NameTx

namespace NameRegistry

omit [Crypto] in
@[simp]
theorem names_clearReversePointingTo (label : String) :
    (registry.clearReversePointingTo addr label).names = registry.names := by
  rw [clearReversePointingTo]
  split <;> rfl

omit [Crypto] in
@[simp]
theorem commits_clearReversePointingTo (label : String) :
    (registry.clearReversePointingTo addr label).commits = registry.commits := by
  rw [clearReversePointingTo]
  split <;> rfl

omit [Crypto] in
@[simp]
theorem commits_evict (label : String) : (registry.evict label).commits = registry.commits := by
  rw [evict]
  split
  · rfl
  · simp

omit [Crypto] in
theorem getElem?_names_evict (label other : String) : (registry.evict label).names[other]? =
      if other = label then none else registry.names[other]? := by
  rw [evict]
  split
  next absent =>
    split
    next same => rw [same, absent]
    next => rfl
  next old found =>
    rw [names_clearReversePointingTo, names_clearReversePointingTo, getElem?_erase]

inductive Performs (rules : NameRules) (tx : NameTx) (before after : NameRegistry) : Prop
  | committed (commitment : BitVec 256) (isCommit : tx.op = .commit commitment)
      (fresh :
        before.commits[tx.storageKey rules commitment]?.filter (rules.young tx.height) = none)
      (names : after.names = before.names)
      (commits : ∀ key : BitVec 256, after.commits[key]? =
        if key = tx.storageKey rules commitment then some ⟨tx.sender, tx.height⟩
        else before.commits[key]?.filter (rules.young tx.height))
  | registered (label : String) (salt : BitVec 256) (target : AccountId) (years expiresAt : ℕ)
      (used : BitVec 256) (record : CommitRecord)
      (isRegister : tx.op = .register label salt target years)
      (found : before.findCommit tx.sender (nameCommitment label tx.sender salt)
        (rules.keyed tx.height) = some (used, record))
      (oldEnough : rules.params.commitMinAge ≤ tx.height - record.height)
      (youngEnough : rules.young tx.height record)
      (available : before.isAvailable label rules.params tx.height)
      (names : ∀ other : String, after.names[other]? =
        if other = label then some ⟨tx.sender, target, tx.height, expiresAt⟩
        else before.names[other]?)
      (commits : ∀ key : BitVec 256, after.commits[key]? =
        if key = used then none else before.commits[key]?.filter (rules.young tx.height))
  | edited (silent : tx.commitment? = none) (commits : after.commits = before.commits)
      (names : ∀ (label : String) (record : NameRecord), before.names[label]? = some record →
        (∃ later, after.names[label]? = some later ∧ later.owner = record.owner) ∨
          tx.sender = record.owner ∧
            ((∃ newOwner, tx.op = .transfer label newOwner) ∨ tx.op = .release label))

omit [Crypto] in
theorem owned_eq_ok {registry : NameRegistry} {height : ℕ} {allowGrace : Bool} {record : NameRecord}
    (owned : registry.owned params height sender label allowGrace = .ok record) :
    registry.names[label]? = some record ∧ record.owner = sender := by
  rw [NameRegistry.owned] at owned
  split at owned
  · cases owned
  next found isFound =>
    split at owned
    · cases owned
    · split at owned
      · cases owned
      · split at owned
        · cases owned
        next isOwner => exact Except.ok.inj owned ▸ ⟨isFound, not_not.mp isOwner⟩
    · split at owned
      · cases owned
      next isOwner => exact Except.ok.inj owned ▸ ⟨isFound, not_not.mp isOwner⟩

/-- An operation of the owner on one name. -/
theorem Performs.of_owned {before after : NameRegistry} {allowGrace : Bool} {record : NameRecord}
    (changed : Option NameRecord)
    (isOwned : before.owned rules.params tx.height tx.sender label allowGrace = .ok record)
    (kept : (∃ later, changed = some later ∧ later.owner = record.owner) ∨
      (∃ newOwner, tx.op = .transfer label newOwner) ∨ tx.op = .release label)
    (silent : tx.commitment? = none) (commits : after.commits = before.commits)
    (names : ∀ other : String, after.names[other]? =
      if other = label then changed else before.names[other]?) :
    Performs rules tx before after := by
  obtain ⟨found, isOwner⟩ := owned_eq_ok isOwned
  refine .edited silent commits fun other current isCurrent => ?_
  rw [names]
  split
  next isLabel =>
    obtain rfl := Option.some.inj (found.symm.trans (isLabel ▸ isCurrent))
    exact kept.imp_right fun given => ⟨isOwner.symm, isLabel ▸ given⟩
  next => exact .inl ⟨current, isCurrent, rfl⟩

omit [Crypto] in
theorem getElem?_pruneCommits (registry : NameRegistry) (height : ℕ) (key : BitVec 256) :
    (registry.pruneCommits rules.params height).commits[key]? =
      registry.commits[key]?.filter (rules.young height) := by
  rw [pruneCommits, Std.ExtTreeMap.getElem?_filter, Option.pfilter_eq_filter]
  rfl

theorem checkRegisterKeyed_eq_ok {registry : NameRegistry} {height years rent : ℕ}
    {salt used : BitVec 256}
    (checked : registry.checkRegisterKeyed params height sender label salt years senderKeyed =
      .ok (rent, used)) :
    ∃ record, registry.findCommit sender (nameCommitment label sender salt) senderKeyed =
        some (used, record) ∧ params.commitMinAge ≤ height - record.height ∧
      height - record.height ≤ params.commitMaxAge ∧ registry.isAvailable label params height := by
  rw [checkRegisterKeyed] at checked
  split at checked
  · cases checked
  · split at checked
    · cases checked
    · split at checked
      · cases checked
      next key record found =>
        dsimp only at checked
        split at checked
        · cases checked
        next oldEnough =>
          split at checked
          · cases checked
          next youngEnough =>
            split at checked
            · cases checked
            next available =>
              obtain ⟨-, rfl⟩ := Prod.mk.inj (Except.ok.inj checked)
              exact ⟨record, found, Nat.not_lt.mp oldEnough, Nat.not_lt.mp youngEnough,
                by simpa using available⟩

/-- A commitment is refused only if one is stored at its place. -/
theorem perform_ends (tx : NameTx) (before : NameRegistry) : (tx.perform rules).Ends before
      (fun _ => ∀ commitment, tx.op = .commit commitment →
        before.commits[tx.storageKey rules commitment]?.filter (rules.young tx.height) ≠ none)
      (fun _ after => Performs rules tx before after) := by
  obtain ⟨height, sender, op⟩ := tx
  cases op with
  | commit commitment =>
    have pruned := getElem?_pruneCommits rules before height
    simp only [NameTx.perform, commitKeyed, ends_bind, ends_modify, ends_get]
    have isKey : (if rules.keyed height then senderCommitKey sender commitment
        else commitment) =
      NameTx.storageKey rules ⟨height, sender, .commit commitment⟩ commitment := rfl
    rw [isKey]
    split
    next present =>
      rintro _ ⟨⟩
      rw [← pruned]
      rw [Std.ExtTreeMap.contains_eq_isSome_getElem?] at present
      exact Option.isSome_iff_ne_none.mp present
    next absent =>
      refine .committed commitment rfl ?_ rfl ?_
      · rw [← pruned]
        rwa [Std.ExtTreeMap.contains_eq_isSome_getElem?, Option.not_isSome_iff_eq_none] at absent
      · intro key
        rw [getElem?_insert, pruned]
  | register label salt target years =>
    simp only [NameTx.perform, registerKeyed, ends_bind, ends_get]
    split
    · rintro _ ⟨⟩
    next rent used checked =>
      obtain ⟨record, found, oldEnough, youngEnough, available⟩ := checkRegisterKeyed_eq_ok checked
      refine .registered label salt target years (MachineInt.saturatingAdd 64 height
        (MachineInt.saturatingMul 64 rules.params.blocksPerYear years)) used record rfl found
        oldEnough (decide_eq_true youngEnough) available ?_ ?_
      · intro other
        simp only [pruneCommits, getElem?_insert, getElem?_names_evict]
        split <;> rfl
      · intro key
        rw [getElem?_pruneCommits, commits_evict, getElem?_erase]
        split <;> rfl
  | renew label years =>
    simp only [NameTx.perform, renew, ends_bind, ends_get]
    split
    · rintro _ ⟨⟩
    · split
      · rintro _ ⟨⟩
      next record owned =>
        split
        · rintro _ ⟨⟩
        · exact .of_owned rules _ owned (.inl ⟨_, rfl, by rfl⟩) rfl rfl (getElem?_insert _ _ · _)
  | transfer label newOwner =>
    simp only [NameTx.perform, transfer, ends_bind, ends_get]
    split
    · rintro _ ⟨⟩
    next record owned =>
      refine .of_owned rules (some { record with owner := newOwner }) owned
        (.inr (.inl ⟨newOwner, rfl⟩)) rfl ?_ fun other => ?_
      · rw [commits_clearReversePointingTo]
      · rw [names_clearReversePointingTo, getElem?_insert]
  | setTarget label target =>
    simp only [NameTx.perform, setTarget, ends_bind, ends_get]
    split
    · rintro _ ⟨⟩
    next record owned =>
      have kept : ∃ later, some { record with target } = some later ∧ later.owner = record.owner :=
        ⟨_, rfl, rfl⟩
      split
      · refine .of_owned rules _ owned (.inl kept) rfl ?_ fun other => ?_
        · rw [commits_clearReversePointingTo]
        · rw [names_clearReversePointingTo, getElem?_insert]
      · exact .of_owned rules _ owned (.inl kept) rfl rfl (getElem?_insert _ _ · _)
  | setPrimary label =>
    simp only [NameTx.perform, setPrimary, ends_bind, ends_get]
    cases label with
    | none => exact .edited rfl rfl fun _ record found => .inl ⟨record, found, rfl⟩
    | some label =>
      dsimp only
      split
      · exact .edited rfl rfl fun _ record found => .inl ⟨record, found, rfl⟩
      · rintro _ ⟨⟩
  | release label =>
    simp only [NameTx.perform, release, ends_bind, ends_get]
    split
    · rintro _ ⟨⟩
    next record owned =>
      exact .of_owned rules none owned (.inr (.inr rfl)) rfl (commits_evict before label)
        (getElem?_names_evict before label)

section FindCommit

variable {registry : NameRegistry}

theorem findCommit_false_eq_some_iff :
    registry.findCommit sender commitment false = some (key, record) ↔
      key = commitment ∧ registry.commits[commitment]? = some record ∧ record.sender = sender := by
  simp only [findCommit, Bool.false_eq_true, if_false, Option.orElse_eq_orElse, Option.orElse_none,
    Option.map_eq_some_iff, Option.filter_eq_some_iff, Prod.mk.injEq, decide_eq_true_eq]
  constructor
  · rintro ⟨_, ⟨stored, isSender⟩, rfl, rfl⟩
    exact ⟨rfl, stored, isSender⟩
  · rintro ⟨rfl, stored, isSender⟩
    exact ⟨record, ⟨stored, isSender⟩, rfl, rfl⟩

theorem findCommit_true_of_some
    (stored : registry.commits[senderCommitKey sender commitment]? = some record) :
    registry.findCommit sender commitment true =
      some (senderCommitKey sender commitment, record) := by
  simp [findCommit, stored]

theorem findCommit_true_of_none
    (absent : registry.commits[senderCommitKey sender commitment]? = none) :
    registry.findCommit sender commitment true = registry.findCommit sender commitment false := by
  simp [findCommit, absent]

/-- What is found is stored under the hash for the sender, or the sender made it. -/
theorem findCommit_eq_some
    (found : registry.findCommit sender commitment senderKeyed = some (key, record)) :
    registry.commits[key]? = some record ∧
      (key = senderCommitKey sender commitment ∨ record.sender = sender) := by
  have raw : registry.findCommit sender commitment false = some (key, record) →
      registry.commits[key]? = some record ∧
        (key = senderCommitKey sender commitment ∨ record.sender = sender) := by
    intro isRaw
    obtain ⟨rfl, stored, isSender⟩ := findCommit_false_eq_some_iff.mp isRaw
    exact ⟨stored, .inr isSender⟩
  cases senderKeyed with
  | false => exact raw found
  | true =>
    cases stored : registry.commits[senderCommitKey sender commitment]? with
    | some other =>
      rw [findCommit_true_of_some stored] at found
      obtain ⟨rfl, rfl⟩ := Prod.mk.inj (Option.some.inj found)
      exact ⟨stored, .inl rfl⟩
    | none =>
      rw [findCommit_true_of_none stored] at found
      exact raw found

theorem findCommit_kept {after : NameRegistry}
    (found : registry.findCommit sender commitment true = some (key, record))
    (absent : registry.commits[senderCommitKey sender commitment]? = none →
      after.commits[senderCommitKey sender commitment]? = none)
    (kept : after.commits[key]? = some record) :
    after.findCommit sender commitment true = some (key, record) := by
  cases stored : registry.commits[senderCommitKey sender commitment]? with
  | some other =>
    rw [findCommit_true_of_some stored] at found
    obtain ⟨rfl, rfl⟩ := Prod.mk.inj (Option.some.inj found)
    exact findCommit_true_of_some kept
  | none =>
    rw [findCommit_true_of_none stored, findCommit_false_eq_some_iff] at found
    obtain ⟨rfl, -, isSender⟩ := found
    rw [findCommit_true_of_none (absent stored), findCommit_false_eq_some_iff]
    exact ⟨rfl, kept, isSender⟩

end FindCommit

end NameRegistry

/-! ## Histories -/

structure NameEvent where
  before : NameRegistry
  tx : NameTx
  done : Bool
  after : NameRegistry

namespace NameEvent

def storedKey? (rules : NameRules) (event : NameEvent) : Option (BitVec 256) :=
  match event.tx.op with
  | .commit commitment => if event.done then some (event.tx.storageKey rules commitment) else none
  | _ => none

/-- Where the commitment stood that the event uses. -/
def usedKey? (rules : NameRules) (event : NameEvent) : Option (BitVec 256) :=
  match event.tx.op with
  | .register label salt _ _ =>
    if event.done then
      (event.before.findCommit event.tx.sender (nameCommitment label event.tx.sender salt)
        (rules.keyed event.tx.height)).map Prod.fst
    else none
  | _ => none

omit [Crypto] in
/-- A name that is not free keeps its owner, unless the owner transfers or releases it. -/
def KeepsOwners (rules : NameRules) (event : NameEvent) : Prop :=
  ∀ (label : String) (record : NameRecord), event.before.names[label]? = some record →
    NameRegistry.statusOf record rules.params event.tx.height ≠ .expired →
      (∃ later, event.after.names[label]? = some later ∧ later.owner = record.owner) ∨
        event.tx.sender = record.owner ∧
          ((∃ newOwner, event.tx.op = .transfer label newOwner) ∨ event.tx.op = .release label)

/-- The last commitment that was stored at the key, and is not used since. -/
def Stands (rules : NameRules) (past : List NameEvent) (key : BitVec 256) (made : NameEvent) :
    Prop :=
  made.storedKey? rules = some key ∧ ∃ newer older, past = newer ++ made :: older ∧
    ∀ event ∈ newer, event.usedKey? rules ≠ some key

/-- A registration takes a free name and uses a commitment of its sender of the right age. -/
def Backed (rules : NameRules) (past : List NameEvent) (event : NameEvent) : Prop :=
  ∀ label salt target years, event.tx.op = .register label salt target years → event.done →
    event.before.isAvailable label rules.params event.tx.height ∧
      ∃ key made, event.usedKey? rules = some key ∧ Stands rules past key made ∧
        made.tx.sender = event.tx.sender ∧
        rules.params.commitMinAge ≤ event.tx.height - made.tx.height ∧
        event.tx.height - made.tx.height ≤ rules.params.commitMaxAge

/-- With commitments stored by sender, the event leaves those of other senders in place that are
not too old. -/
def LeavesOthers (rules : NameRules) (txs : List NameTx) (event : NameEvent) : Prop :=
  rules.keyed event.tx.height → ∀ other ∈ txs, ∀ commitment, other.commitment? = some commitment →
    other.sender ≠ event.tx.sender → ∀ key record,
      event.before.findCommit other.sender commitment true = some (key, record) →
      rules.young event.tx.height record →
        event.after.findCommit other.sender commitment true = some (key, record)

/-- With commitments stored by sender, one is refused only if the sender has made it already. -/
def BlockedBySelf (rules : NameRules) (event : NameEvent) : Prop :=
  rules.keyed event.tx.height → ∀ commitment, event.tx.op = .commit commitment →
    event.done = false → ∃ record,
      event.before.commits[NameRegistry.senderCommitKey event.tx.sender commitment]? =
        some record ∧ record.sender = event.tx.sender ∧ rules.young event.tx.height record

end NameEvent

structure NameHistory where
  events : List NameEvent
  registry : NameRegistry

namespace NameHistory

/-- A transaction that fails is reverted. -/
def step (rules : NameRules) (history : NameHistory) (tx : NameTx) : NameHistory :=
  match tx.perform rules history.registry with
  | .ok _ after => ⟨⟨history.registry, tx, true, after⟩ :: history.events, after⟩
  | .error _ _ =>
    ⟨⟨history.registry, tx, false, history.registry⟩ :: history.events, history.registry⟩

def ofTxs (rules : NameRules) (txs : List NameTx) : NameHistory :=
  Run.run (step rules) ⟨[], {}⟩ txs

theorem step_cases (history : NameHistory) (tx : NameTx) :
    ∃ event : NameEvent, event.before = history.registry ∧ event.tx = tx ∧
      history.step rules tx = ⟨event :: history.events, event.after⟩ ∧
      ((event.done = false ∧ event.after = event.before ∧ ∀ commitment, tx.op = .commit commitment →
            event.before.commits[tx.storageKey rules commitment]?.filter
              (rules.young tx.height) ≠ none) ∨
        event.done = true ∧ NameRegistry.Performs rules tx event.before event.after) := by
  have ends := NameRegistry.perform_ends rules tx history.registry
  rw [step]
  unfold Ends at ends
  cases ran : tx.perform rules history.registry with
  | ok value after =>
    rw [ran] at ends
    exact ⟨⟨_, tx, true, after⟩, rfl, rfl, rfl, .inr ⟨rfl, ends⟩⟩
  | error reason after =>
    rw [ran] at ends
    exact ⟨⟨_, tx, false, _⟩, rfl, rfl, rfl, .inl ⟨rfl, rfl, ends⟩⟩

end NameHistory

/-- What is hashed for the place of a commitment. -/
def commitKeyInput (sender : AccountId) (commitment : BitVec 256) : Bytes :=
  asciiBytes "BOING_NAME_COMMIT_V2" ++ bytes32 sender ++ bytes32 commitment

def NameTx.keyInput? (tx : NameTx) : Option Bytes :=
  tx.commitment?.map (commitKeyInput tx.sender)

/-- The places of commitments do not collide, and no commitment that is stored under its own
bytes stands where another sender's would. -/
structure NameTxsSeparated (rules : NameRules) (txs : List NameTx) : Prop where
  collisionFree : ¬ HashCollision Crypto.blake3 (txs.filterMap (·.keyInput?))
  ownBytes : ∀ tx ∈ txs, ∀ commitment, tx.op = .commit commitment →
    rules.keyed tx.height = false → ∀ other ∈ txs, ∀ revealed, other.commitment? = some revealed →
      commitment = NameRegistry.senderCommitKey other.sender revealed → tx.sender = other.sender

namespace NameTxsSeparated

variable {rules : NameRules}

omit [Crypto] in
theorem commitKeyInput_inj {other : AccountId}
    (same : commitKeyInput sender commitment = commitKeyInput other otherCommitment) :
    sender = other ∧ commitment = otherCommitment := by
  simp only [commitKeyInput, List.append_assoc] at same
  exact append_bytes32_inj _ _ _ _ (List.append_cancel_left same)

theorem sender_eq (separated : NameTxsSeparated rules txs) {other : NameTx} (isTx : tx ∈ txs)
    (isOther : other ∈ txs) (isCommitment : tx.commitment? = some commitment)
    (isOtherCommitment : other.commitment? = some otherCommitment)
    (same : NameRegistry.senderCommitKey tx.sender commitment =
      NameRegistry.senderCommitKey other.sender otherCommitment) : tx.sender = other.sender := by
  have isInput : ∀ {tx : NameTx} {commitment : BitVec 256}, tx ∈ txs →
      tx.commitment? = some commitment →
      commitKeyInput tx.sender commitment ∈ txs.filterMap (·.keyInput?) := by
    intro tx commitment isTx isCommitment
    exact List.mem_filterMap.mpr ⟨tx, isTx, by rw [NameTx.keyInput?, isCommitment, Option.map_some]⟩
  have sameInput := HashCollision.eq_of_not separated.collisionFree (isInput isTx isCommitment)
    (isInput isOther isOtherCommitment) same
  exact (commitKeyInput_inj sameInput).1

theorem sender_of_storedKey (separated : NameTxsSeparated rules txs) (isMade : made.tx ∈ txs)
    (isTx : tx ∈ txs) (isCommitment : tx.commitment? = some commitment)
    (stored : made.storedKey? rules = some (NameRegistry.senderCommitKey tx.sender commitment)) :
    made.tx.sender = tx.sender := by
  rw [NameEvent.storedKey?] at stored
  split at stored
  next raw isCommit =>
    split at stored
    · have isKey := Option.some.inj stored
      have isRaw : made.tx.commitment? = some raw := by rw [NameTx.commitment?, isCommit]
      rw [NameTx.storageKey] at isKey
      split at isKey
      · exact separated.sender_eq isMade isTx isRaw isCommitment isKey
      next legacy =>
        exact separated.ownBytes made.tx isMade raw isCommit (by simpa using legacy) tx isTx
          commitment isCommitment isKey
    · cases stored
  · cases stored

end NameTxsSeparated

namespace NameHistory

/-- What the transactions of a separated history keep. -/
structure Tracked (rules : NameRules) (txs : List NameTx) (history : NameHistory) : Prop where
  recorded : ∀ event ∈ history.events, event.tx ∈ txs
  stands : ∀ (key : BitVec 256) (record : CommitRecord),
    history.registry.commits[key]? = some record →
      ∃ made, NameEvent.Stands rules history.events key made ∧ made.tx.sender = record.sender ∧
        made.tx.height = record.height
  backed : Run.Follows (NameEvent.Backed rules) history.events
  owners : ∀ event ∈ history.events, event.KeepsOwners rules
  others : ∀ event ∈ history.events, event.LeavesOthers rules txs
  blocked : ∀ event ∈ history.events, event.BlockedBySelf rules

variable {rules : NameRules} {history : NameHistory} {event : NameEvent}

section

variable (tracked : history.Tracked rules txs) (separated : NameTxsSeparated rules txs)
  (isTx : tx ∈ txs) (isCommitment : tx.commitment? = some commitment)

include tracked separated isTx isCommitment

theorem Tracked.own
    (stored : history.registry.commits[NameRegistry.senderCommitKey tx.sender commitment]? =
      some record) : record.sender = tx.sender := by
  obtain ⟨made, ⟨isStored, newer, older, split, -⟩, isMaker, -⟩ := tracked.stands _ _ stored
  have isMade : made ∈ history.events := split ▸ List.mem_append_right _ List.mem_cons_self
  rw [← isMaker]
  exact separated.sender_of_storedKey (tracked.recorded made isMade) isTx isCommitment isStored

theorem Tracked.sender_of_findCommit
    (found : history.registry.findCommit tx.sender commitment senderKeyed = some (key, record)) :
    history.registry.commits[key]? = some record ∧ record.sender = tx.sender := by
  obtain ⟨stored, rfl | isSender⟩ := NameRegistry.findCommit_eq_some found
  · exact ⟨stored, tracked.own separated isTx isCommitment stored⟩
  · exact ⟨stored, isSender⟩

end

theorem keepsOwners_of_performs
    (performs : NameRegistry.Performs rules event.tx event.before event.after) :
    event.KeepsOwners rules := by
  intro label record found live
  have same : event.after.names[label]? = event.before.names[label]? →
      ∃ later, event.after.names[label]? = some later ∧ later.owner = record.owner :=
    fun unchanged => ⟨record, unchanged.trans found, rfl⟩
  cases performs with
  | committed commitment isCommit fresh names commits => exact .inl (same (by rw [names]))
  | registered taken salt target years expiresAt used made isRegister isFound oldEnough youngEnough
      available names commits =>
      left
      apply same
      rw [names, if_neg]
      rintro rfl
      rw [NameRegistry.isAvailable, found] at available
      exact live (by simpa using available)
  | edited _ _ names => exact names label record found

theorem usedKey?_eq_none (silent : event.tx.commitment? = none) : event.usedKey? rules = none := by
  rw [NameTx.commitment?] at silent
  rw [NameEvent.usedKey?]
  split at silent
  · cases silent
  · cases silent
  next noCommit noRegister =>
    split
    next isRegister => exact absurd isRegister (noRegister _ _ _ _)
    · rfl

theorem stands_cons {past : List NameEvent} (standing : NameEvent.Stands rules past key made)
    (unused : event.usedKey? rules ≠ some key) :
    NameEvent.Stands rules (event :: past) key made := by
  obtain ⟨isStored, newer, older, rfl, unusedSince⟩ := standing
  refine ⟨isStored, event :: newer, older, rfl, ?_⟩
  rw [List.forall_mem_cons]
  exact ⟨unused, unusedSince⟩

theorem Tracked.stands_step (tracked : history.Tracked rules txs)
    (isBefore : event.before = history.registry) (isDone : event.done = true)
    (performs : NameRegistry.Performs rules event.tx event.before event.after)
    (key : BitVec 256) (record : CommitRecord)
    (stored : event.after.commits[key]? = some record) :
    ∃ made, NameEvent.Stands rules (event :: history.events) key made ∧
      made.tx.sender = record.sender ∧ made.tx.height = record.height := by
  have earlier : event.before.commits[key]? = some record → event.usedKey? rules ≠ some key →
      ∃ made, NameEvent.Stands rules (event :: history.events) key made ∧
        made.tx.sender = record.sender ∧ made.tx.height = record.height := by
    intro was unused
    rw [isBefore] at was
    obtain ⟨made, standing, isMaker, isHeight⟩ := tracked.stands key record was
    exact ⟨made, stands_cons standing unused, isMaker, isHeight⟩
  cases performs with
  | committed commitment isCommit fresh names commits =>
    rw [commits] at stored
    split at stored
    next isKey =>
      obtain rfl := Option.some.inj stored
      refine ⟨event, ⟨?_, [], history.events, rfl, by simp⟩, rfl, rfl⟩
      simp [NameEvent.storedKey?, isCommit, isDone, isKey]
    next =>
      refine earlier (Option.filter_eq_some_iff.mp stored).1 ?_
      simp [NameEvent.usedKey?, isCommit]
  | registered label salt target years expiresAt used made isRegister found oldEnough youngEnough
      available names commits =>
      rw [commits] at stored
      split at stored
      · cases stored
      next differs =>
        refine earlier (Option.filter_eq_some_iff.mp stored).1 ?_
        simp only [NameEvent.usedKey?, isRegister, isDone, if_true, found, Option.map_some, ne_eq,
          Option.some.injEq]
        exact Ne.symm differs
  | edited silent commits => exact earlier (commits ▸ stored) (by simp [usedKey?_eq_none silent])

section

variable (tracked : history.Tracked rules txs) (separated : NameTxsSeparated rules txs)
  (isBefore : event.before = history.registry) (isTx : event.tx ∈ txs)

include tracked separated isBefore isTx

theorem Tracked.backed_step (isDone : event.done = true)
    (performs : NameRegistry.Performs rules event.tx event.before event.after) :
    event.Backed rules history.events := by
  intro label salt target years isRegister _
  cases performs with
  | registered _ _ _ _ expiresAt used record isRegistered found oldEnough youngEnough available =>
    rw [isRegister, NameOp.register.injEq] at isRegistered
    obtain ⟨rfl, rfl, rfl, rfl⟩ := isRegistered
    have isCommitment : event.tx.commitment? =
        some (nameCommitment label event.tx.sender salt) := by
      rw [NameTx.commitment?, isRegister]
    rw [isBefore] at found
    obtain ⟨stored, isSender⟩ := tracked.sender_of_findCommit separated isTx isCommitment found
    obtain ⟨made, standing, isMaker, isHeight⟩ := tracked.stands used record stored
    refine ⟨available, used, made, ?_, standing, isMaker.trans isSender, ?_, ?_⟩
    · simp only [NameEvent.usedKey?, isRegister, isDone, if_true, isBefore, found, Option.map_some]
    · rwa [isHeight]
    · rw [isHeight]
      exact of_decide_eq_true youngEnough
  | committed commitment isCommit => simp [isRegister] at isCommit
  | edited silent => simp [NameTx.commitment?, isRegister] at silent

theorem Tracked.others_step
    (performs : NameRegistry.Performs rules event.tx event.before event.after) :
    event.LeavesOthers rules txs := by
  intro isKeyed other isOther commitment isCommitment differs key record found young
  have foundBefore := found
  rw [isBefore] at foundBefore
  obtain ⟨stored, isSender⟩ :=
    tracked.sender_of_findCommit separated isOther isCommitment foundBefore
  rw [← isBefore] at stored
  have passes : event.before.commits[key]?.filter (rules.young event.tx.height) = some record :=
    Option.filter_eq_some_iff.mpr ⟨stored, young⟩
  refine NameRegistry.findCommit_kept found ?_ ?_
  · intro absent
    cases performs with
    | committed made isCommit fresh names commits =>
      have isMade : event.tx.commitment? = some made := by rw [NameTx.commitment?, isCommit]
      rw [commits, if_neg, absent, Option.filter_none]
      intro same
      rw [NameTx.storageKey, if_pos isKeyed] at same
      exact differs (separated.sender_eq isOther isTx isCommitment isMade same)
    | registered _ _ _ _ _ _ _ _ _ _ _ _ _ commits => simp [commits, absent]
    | edited _ commits => rw [commits, absent]
  · cases performs with
    | committed made isCommit fresh names commits =>
      rw [commits, if_neg, passes]
      rintro rfl
      rw [passes] at fresh
      cases fresh
    | registered label salt target years expiresAt used usedRecord isRegister isFound oldEnough
        youngEnough available names commits =>
        have isMade : event.tx.commitment? = some (nameCommitment label event.tx.sender salt) := by
          rw [NameTx.commitment?, isRegister]
        rw [isBefore] at isFound
        obtain ⟨usedStored, usedSender⟩ :=
          tracked.sender_of_findCommit separated isTx isMade isFound
        rw [commits, if_neg, passes]
        rintro rfl
        rw [isBefore, usedStored, Option.some.injEq] at stored
        exact differs (isSender.symm.trans (stored ▸ usedSender))
    | edited _ commits => rw [commits, stored]

theorem Tracked.blocked_step
    (refused : event.done = false → ∀ commitment, event.tx.op = .commit commitment →
      event.before.commits[event.tx.storageKey rules commitment]?.filter
        (rules.young event.tx.height) ≠ none) : event.BlockedBySelf rules := by
  intro isKeyed commitment isCommit notDone
  have present := refused notDone commitment isCommit
  obtain ⟨record, isRecord⟩ := Option.ne_none_iff_exists'.mp present
  obtain ⟨stored, young⟩ := Option.filter_eq_some_iff.mp isRecord
  rw [NameTx.storageKey, if_pos isKeyed] at stored
  refine ⟨record, stored, ?_, young⟩
  rw [isBefore] at stored
  exact tracked.own separated isTx (by rw [NameTx.commitment?, isCommit]) stored

end

theorem Tracked.step (tracked : history.Tracked rules txs) (separated : NameTxsSeparated rules txs)
    (isTx : tx ∈ txs) : (history.step rules tx).Tracked rules txs := by
  obtain ⟨event, isBefore, rfl, isStep, acts⟩ := history.step_cases rules tx
  rw [isStep]
  rcases acts with ⟨notDone, unchanged, refused⟩ | ⟨isDone, performs⟩
  · have noUse : ∀ key, event.usedKey? rules ≠ some key := by
      intro key
      rw [NameEvent.usedKey?]
      split <;> simp [notDone]
    constructor
    · exact List.forall_mem_cons.mpr ⟨isTx, tracked.recorded⟩
    · intro key record stored
      rw [unchanged, isBefore] at stored
      obtain ⟨made, standing, maker⟩ := tracked.stands key record stored
      exact ⟨made, stands_cons standing (noUse key), maker⟩
    · exact ⟨fun _ _ _ _ _ isDone => by simp [notDone] at isDone, tracked.backed⟩
    · refine List.forall_mem_cons.mpr ⟨?_, tracked.owners⟩
      intro label record found _
      exact .inl ⟨record, unchanged ▸ found, rfl⟩
    · refine List.forall_mem_cons.mpr ⟨?_, tracked.others⟩
      intro _ _ _ _ _ _ key record found _
      rw [unchanged, found]
    · exact List.forall_mem_cons.mpr ⟨tracked.blocked_step separated isBefore isTx
        fun _ => refused, tracked.blocked⟩
  · constructor
    · exact List.forall_mem_cons.mpr ⟨isTx, tracked.recorded⟩
    · exact tracked.stands_step isBefore isDone performs
    · exact ⟨tracked.backed_step separated isBefore isTx isDone performs, tracked.backed⟩
    · exact List.forall_mem_cons.mpr ⟨keepsOwners_of_performs performs, tracked.owners⟩
    · exact List.forall_mem_cons.mpr ⟨tracked.others_step separated isBefore isTx performs,
        tracked.others⟩
    · refine List.forall_mem_cons.mpr ⟨?_, tracked.blocked⟩
      intro _ _ _ notDone
      rw [isDone] at notDone
      cases notDone

theorem tracked_nil (rules : NameRules) (txs : List NameTx) : Tracked rules txs ⟨[], {}⟩ where
  recorded := by simp
  stands key record stored := by simp at stored
  backed := trivial
  owners := by simp
  others := by simp
  blocked := by simp

theorem tracked_ofTxs (separated : NameTxsSeparated rules txs) :
    (ofTxs rules txs).Tracked rules txs := by
  have guarded : Run.Allowed (step rules) (fun _ tx => tx ∈ txs) ⟨[], {}⟩ txs :=
    Run.allowed_of_forall (fun tx isTx _ => isTx) _
  exact Run.invariant (fun history tx tracked isTx => tracked.step separated isTx)
    (tracked_nil rules txs) guarded

end NameHistory

/-- In every separated history: names that are not free keep their owners, registrations take
free names and use up commitments of their senders, and commitments that are stored by sender
are neither removed early nor blocked by others. -/
theorem name_ownership_safe (rules : NameRules) (txs : List NameTx)
    (separated : NameTxsSeparated rules txs) :
    Run.Follows (NameEvent.Backed rules) (NameHistory.ofTxs rules txs).events ∧
      ∀ event ∈ (NameHistory.ofTxs rules txs).events,
        event.KeepsOwners rules ∧ event.LeavesOthers rules txs ∧ event.BlockedBySelf rules := by
  have tracked := NameHistory.tracked_ofTxs separated
  exact ⟨tracked.backed, fun event member =>
    ⟨tracked.owners event member, tracked.others event member, tracked.blocked event member⟩⟩

end Ownership

section Activation

open Checksum

/-- Commitments are stored by sender from height ten on. -/
def activationRules : NameRules := ⟨{}, some 10⟩

/-- The commitment of account 1 to a name, and the place where it is stored by sender. -/
def aliceCommitment : BitVec 256 := nameCommitment "alice" 1 5

def alicePlace : BitVec 256 := NameRegistry.senderCommitKey 1 aliceCommitment

/-- Account 2 commits to the place before the activation; account 1 commits and registers after
it. -/
def squattedTxs : List NameTx :=
  [⟨9, 2, .commit alicePlace⟩, ⟨10, 1, .commit aliceCommitment⟩, ⟨11, 1, .register "alice" 5 1 1⟩]

/-- The commitment of account 1 is refused because of account 2, and account 1 registers the name
with the commitment of account 2. -/
theorem squatted_commitment :
    ¬ HashCollision Crypto.blake3 (squattedTxs.filterMap (·.keyInput?)) ∧
      (NameHistory.ofTxs activationRules squattedTxs).events.map
        (fun event => (event.tx.sender, event.done)) = [(1, true), (1, false), (2, true)] ∧
      ¬ Run.Follows (NameEvent.Backed activationRules)
        (NameHistory.ofTxs activationRules squattedTxs).events ∧
      ¬ ∀ event ∈ (NameHistory.ofTxs activationRules squattedTxs).events,
        event.BlockedBySelf activationRules := by
  have places : (NameHistory.ofTxs activationRules squattedTxs).events.map (fun event =>
      (event.tx, event.done, event.before.commits[alicePlace]?.map (·.sender))) =
      [(⟨11, 1, .register "alice" 5 1 1⟩, true, some 2), (⟨10, 1, .commit aliceCommitment⟩, false,
        some 2), (⟨9, 2, .commit alicePlace⟩, true, none)] := by decide +kernel
  refine ⟨by decide +kernel, by decide +kernel, ?_⟩
  generalize (NameHistory.ofTxs activationRules squattedTxs).events = events at places ⊢
  obtain ⟨registered, refused, made, rfl⟩ :=
    List.length_eq_three.mp (by simpa using congrArg List.length places)
  simp only [List.map_cons, List.cons.injEq, Prod.mk.injEq, List.map_nil, and_true] at places
  obtain ⟨⟨isRegister, isDone, -⟩, ⟨isCommit, notDone, isPlace⟩, isMade, -⟩ := places
  constructor
  · rintro ⟨backed, -⟩
    obtain ⟨-, key, maker, -, ⟨isStored, newer, older, isSplit, -⟩, isSender, -⟩ :=
      backed "alice" 5 1 1 (by rw [isRegister]) isDone
    have member : maker ∈ [refused, made] := isSplit ▸ List.mem_append_right _ List.mem_cons_self
    simp only [List.mem_cons, List.not_mem_nil, or_false] at member
    rcases member with rfl | rfl
    · simp [NameEvent.storedKey?, isCommit, notDone] at isStored
    · simp [isMade, isRegister] at isSender
  · intro blocked
    obtain ⟨record, isRecord, isSender, -⟩ := blocked refused (by simp) (by rw [isCommit]; rfl)
      aliceCommitment (by rw [isCommit]) notDone
    rw [isCommit] at isRecord isSender
    change refused.before.commits[alicePlace]? = some record at isRecord
    rw [isRecord, Option.map_some, isSender] at isPlace
    simp at isPlace

/-- Account 1 commits after the activation and registers. -/
def plainTxs : List NameTx := [⟨10, 1, .commit aliceCommitment⟩, ⟨11, 1, .register "alice" 5 1 1⟩]

theorem plainTxs_separated : NameTxsSeparated activationRules plainTxs where
  collisionFree := by decide +kernel
  ownBytes tx isTx commitment isCommit legacy := by
    simp only [plainTxs, List.mem_cons, List.not_mem_nil, or_false] at isTx
    rcases isTx with rfl | rfl
    · simp [NameRules.keyed, activationRules] at legacy
    · simp at isCommit

theorem plainTxs_safe :
    (NameHistory.ofTxs activationRules plainTxs).events.map (·.done) = [true, true] ∧
      Run.Follows (NameEvent.Backed activationRules)
        (NameHistory.ofTxs activationRules plainTxs).events := by
  have safe := name_ownership_safe activationRules plainTxs plainTxs_separated
  have done : (NameHistory.ofTxs activationRules plainTxs).events.map (·.done) =
      [true, true] := by decide +kernel
  generalize (NameHistory.ofTxs activationRules plainTxs).events = events at safe done ⊢
  exact ⟨done, safe.1⟩

end Activation

end BoingNetwork
