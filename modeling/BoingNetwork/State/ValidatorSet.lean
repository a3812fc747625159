import BoingNetwork.Library.Effects
import BoingNetwork.Library.Run
import BoingNetwork.State.OpenValidators

/-!
# The active open validators

The records and the active list of the registry stay consistent over every history of
registrations, exits, unjailings and block hooks.  The list holds exactly the records that
are active or exiting, and only the hook of an epoch boundary changes it.
-/

namespace BoingNetwork

namespace OpenValidatorRegistry

open EStateM Std

/-- What happens to the registry: three kinds of transactions and the block hook. -/
inductive Op where
  | register (height : ℕ) (owner nodeId : AccountId) (capped : Bool)
  | deregister (height : ℕ) (owner nodeId : AccountId) (jailLocksBond : Bool)
  | unjail (height : ℕ) (owner nodeId : AccountId)
  | block (height : ℕ) (proposer : AccountId)

/-- The registry after an operation; one that fails changes nothing. -/
def step (params : OpenValidatorParams) (registry : OpenValidatorRegistry) :
    Op → OpenValidatorRegistry
  | .register height owner nodeId capped =>
    (registerWithCap params height owner nodeId capped registry).state
  | .deregister height owner nodeId jailLocksBond =>
    (deregisterAt owner nodeId height jailLocksBond registry).state
  | .unjail height owner nodeId => (unjail owner nodeId height registry).state
  | .block height proposer => onBlock params height proposer registry

def Op.IsBoundary (params : OpenValidatorParams) : Op → Prop
  | .block height _ => params.activationHeight ≤ height ∧ 0 < params.epochLen ∧
      params.epochLen ∣ height
  | _ => False

/-- In the set now, and perhaps leaving it at the next boundary. -/
def ValidatorStatus.InSet (status : ValidatorStatus) : Prop :=
  status = .active ∨ status = .exiting

structure Invariant (params : OpenValidatorParams) (registry : OpenValidatorRegistry) : Prop where
  sorted : registry.active.Pairwise (· < ·)
  bounded : registry.active.length ≤ params.maxOpenValidators
  exact_ : ∀ id, id ∈ registry.active ↔
    ∃ record, registry.records[id]? = some record ∧ ValidatorStatus.InSet record.status
  nodes : registry.records.keys.Nodup
  owners : ∀ (id other : AccountId) (record otherRecord : ValidatorRecord),
    registry.records[id]? = some record → registry.records[other]? = some otherRecord →
      record.owner = otherRecord.owner → id = other
  anchors : ∀ id ∈ params.anchors, id ∉ registry.records ∧ id ∉ registry.lastJail

variable {params : OpenValidatorParams} {registry next : OpenValidatorRegistry}
  {record : ValidatorRecord} {nodeId id : AccountId} {Value : Type}

theorem nodup_keys (map : ExtTreeMap AccountId Value) : map.keys.Nodup :=
  ExtTreeMap.nodup_keys

/-! ## Transactions -/

structure Changes (registry next : OpenValidatorRegistry) (nodeId : AccountId) : Prop where
  active : next.active = registry.active
  lastJail : next.lastJail = registry.lastJail
  others : ∀ id, id ≠ nodeId → next.records[id]? = registry.records[id]?

section

variable (invariant : registry.Invariant params) (height : ℕ)

include invariant

theorem Invariant.of_changes (nodeId : AccountId) (changes : registry.Changes next nodeId)
    (inSet : (∃ record, next.records[nodeId]? = some record ∧ ValidatorStatus.InSet record.status) ↔
      ∃ record, registry.records[nodeId]? = some record ∧ ValidatorStatus.InSet record.status)
    (owner : ∀ record, next.records[nodeId]? = some record →
      nodeId ∉ params.anchors ∧ ∀ id other, id ≠ nodeId → registry.records[id]? = some other →
        other.owner ≠ record.owner) : next.Invariant params where
  sorted := changes.active ▸ invariant.sorted
  bounded := changes.active ▸ invariant.bounded
  exact_ id := by
    rw [changes.active, invariant.exact_]
    by_cases same : id = nodeId
    · rw [same, inSet]
    · rw [changes.others id same]
  nodes := nodup_keys _
  owners id other record otherRecord found foundOther same := by
    by_cases isFirst : id = nodeId <;> by_cases isSecond : other = nodeId
    · rw [isFirst, isSecond]
    · rw [changes.others other isSecond] at foundOther
      exact absurd same.symm ((owner record (isFirst ▸ found)).2 other otherRecord isSecond
        foundOther)
    · rw [changes.others id isFirst] at found
      exact absurd same ((owner otherRecord (isSecond ▸ foundOther)).2 id record isFirst found)
    · rw [changes.others id isFirst] at found
      rw [changes.others other isSecond] at foundOther
      exact invariant.owners id other record otherRecord found foundOther same
  anchors id isAnchor := by
    refine ⟨?_, changes.lastJail ▸ (invariant.anchors id isAnchor).2⟩
    rw [ExtTreeMap.mem_iff_isSome_getElem?, Bool.not_eq_true, Option.isSome_eq_false_iff,
      Option.isNone_iff_eq_none]
    by_cases same : id = nodeId
    · cases found : next.records[id]? with
      | none => rfl
      | some record =>
        rw [same] at found
        exact absurd (same ▸ isAnchor) (owner record found).1
    · rw [changes.others id same]
      exact ExtTreeMap.getElem?_eq_none (invariant.anchors id isAnchor).1

theorem Invariant.owner_of_found {next : ValidatorRecord}
    (found : registry.records[nodeId]? = some record) (same : next.owner = record.owner) :
    nodeId ∉ params.anchors ∧ ∀ id other, id ≠ nodeId → registry.records[id]? = some other →
      other.owner ≠ next.owner := by
  constructor
  · intro isAnchor
    rw [ExtTreeMap.getElem?_eq_none (invariant.anchors nodeId isAnchor).1] at found
    cases found
  · intro id other isOther foundOther sameOwner
    exact isOther (invariant.owners id nodeId other record foundOther found
      (sameOwner.trans same))

theorem Invariant.register (owner nodeId : AccountId) (capped : Bool) :
    (registerWithCap params height owner nodeId capped).Ends registry (· = registry)
      fun _ next => next.Invariant params ∧ next.active = registry.active := by
  simp only [registerWithCap, ends_bind, ends_get]
  split
  next => rfl
  split
  next => rfl
  next notAnchor =>
    split
    next => rfl
    next isNew =>
      split
      next => rfl
      next ownerIsNew =>
        split
        next => rfl
        next =>
          refine ⟨invariant.of_changes nodeId ⟨rfl, rfl, ?_⟩ ?_ ?_, rfl⟩
          · intro id isOther
            rw [ExtTreeMap.getElem?_insert, if_neg]
            exact fun same => isOther (LawfulEqCmp.eq_of_compare same).symm
          · have absent : registry.records[nodeId]? = none :=
              ExtTreeMap.getElem?_eq_none (by simpa using isNew)
            simp [absent, ValidatorStatus.InSet]
          · intro record isRecord
            rw [ExtTreeMap.getElem?_insert_self, Option.some.injEq] at isRecord
            subst isRecord
            refine ⟨by simpa [OpenValidatorParams.isAnchor] using notAnchor, ?_⟩
            intro id other isOther found same
            apply ownerIsNew
            rw [List.any_eq_true]
            refine ⟨other, ?_, by simpa using same⟩
            rw [FiniteMap.mem_values]
            exact ⟨id, found⟩

theorem Invariant.replaced {next : ValidatorRecord}
    (found : registry.records[nodeId]? = some record) (owner : next.owner = record.owner)
    (inSet : ValidatorStatus.InSet next.status ↔ ValidatorStatus.InSet record.status) :
    ({ registry with records := registry.records.insert nodeId next } :
      OpenValidatorRegistry).Invariant params := by
  refine invariant.of_changes nodeId ⟨rfl, rfl, ?_⟩ ?_ ?_
  · intro id isOther
    rw [ExtTreeMap.getElem?_insert, if_neg]
    exact fun same => isOther (LawfulEqCmp.eq_of_compare same).symm
  · simp [found, inSet]
  · intro other isOther
    rw [ExtTreeMap.getElem?_insert_self, Option.some.injEq] at isOther
    exact invariant.owner_of_found found (isOther ▸ owner)

theorem Invariant.removed (found : registry.records[nodeId]? = some record)
    (outside : ¬ValidatorStatus.InSet record.status) :
    ({ registry with records := registry.records.erase nodeId } :
      OpenValidatorRegistry).Invariant params := by
  refine invariant.of_changes nodeId ⟨rfl, rfl, ?_⟩ ?_ ?_
  · intro id isOther
    rw [ExtTreeMap.getElem?_erase, if_neg]
    exact fun same => isOther (LawfulEqCmp.eq_of_compare same).symm
  · simp [found, outside]
  · intro other isOther
    simp at isOther

theorem Invariant.deregister (owner nodeId : AccountId) (jailLocksBond : Bool) :
    (deregisterAt owner nodeId height jailLocksBond).Ends registry (· = registry)
      fun _ next => next.Invariant params ∧ next.active = registry.active := by
  simp only [deregisterAt, ends_bind, ends_get]
  split
  next => rfl
  next record found =>
    split
    next => rfl
    next =>
      split
      next => rfl
      next isActive =>
        simp only [ends_bind, ends_set, ends_pure]
        refine ⟨invariant.replaced found rfl ?_, trivial⟩
        simp [isActive, ValidatorStatus.InSet]
      next isPending =>
        simp only [ends_bind, ends_set, ends_pure]
        refine ⟨invariant.removed found ?_, trivial⟩
        simp [isPending, ValidatorStatus.InSet]
      next isJailed =>
        split
        next => rfl
        next =>
          simp only [ends_bind, ends_set, ends_pure]
          refine ⟨invariant.removed found ?_, trivial⟩
          simp [isJailed, ValidatorStatus.InSet]

theorem Invariant.unjail (owner nodeId : AccountId) :
    (unjail owner nodeId height).Ends registry (· = registry)
      fun _ next => next.Invariant params ∧ next.active = registry.active := by
  simp only [OpenValidatorRegistry.unjail, ends_bind, ends_get]
  split
  next => rfl
  next record found =>
    split
    next => rfl
    next =>
      split
      next isJailed =>
        split
        next =>
          simp only [ends_set]
          refine ⟨invariant.replaced found rfl ?_, trivial⟩
          simp [isJailed, ValidatorStatus.InSet]
        next => rfl
      next => rfl

end

/-! ## The block hook -/

/-- Every record was there before, with the same owner. -/
def Derives (registry next : OpenValidatorRegistry) : Prop :=
  ∀ (id : AccountId) (record : ValidatorRecord), next.records[id]? = some record →
    ∃ old : ValidatorRecord, registry.records[id]? = some old ∧ record.owner = old.owner

theorem Derives.jail (derives : registry.Derives next) (height : ℕ) (id : AccountId) :
    registry.Derives (next.jail params height id) := by
  intro other record found
  simp only [OpenValidatorRegistry.jail] at found
  split at found
  next old foundOld =>
    split at found
    next =>
      rw [ExtTreeMap.getElem?_insert] at found
      split at found
      next same =>
        cases found
        rw [LawfulEqCmp.eq_of_compare same] at foundOld
        exact derives other old foundOld
      next => exact derives other record found
    next => exact derives other record found
  next => exact derives other record found

theorem Derives.foldl_jail (derives : registry.Derives next) (height : ℕ) (ids : List AccountId) :
    registry.Derives (ids.foldl (OpenValidatorRegistry.jail params height) next) := by
  induction ids generalizing next with
  | nil => exact derives
  | cons id ids ih => exact ih (derives.jail height id)

theorem mem_chosen (isChosen : id ∈ registry.chosen params) :
    ∃ record, registry.records[id]? = some record ∧ eligible record := by
  simp only [chosen, List.mem_map] at isChosen
  obtain ⟨⟨_, other⟩, taken, rfl⟩ := isChosen
  have sorted := List.mem_mergeSort.mp (List.mem_of_mem_take taken)
  obtain ⟨⟨key, record⟩, kept, same⟩ := List.mem_map.mp sorted
  obtain ⟨inMap, isEligible⟩ := List.mem_filter.mp kept
  cases same
  exact ⟨record, ExtTreeMap.mem_toList_iff_getElem?_eq_some.mp inMap, isEligible⟩

theorem nodup_chosen (params : OpenValidatorParams) (registry : OpenValidatorRegistry) :
    (registry.chosen params).Nodup := by
  have keys : ((registry.records.toList.filter (eligible ·.2)).map Prod.fst).Nodup :=
    (FiniteMap.nodup_map_fst_toList registry.records).sublist
      (List.filter_sublist.map Prod.fst)
  have ranked : (((registry.records.toList.filter (eligible ·.2)).map
      fun entry => (entry.2.registeredAt, entry.1)).map Prod.snd).Nodup := by
    rw [List.map_map]
    exact keys
  rw [chosen, List.map_take]
  exact ((List.mergeSort_perm _ _).map Prod.snd |>.nodup_iff.mpr ranked).take

theorem length_chosen_le (params : OpenValidatorParams) (registry : OpenValidatorRegistry) :
    (registry.chosen params).length ≤ params.maxOpenValidators := by
  rw [chosen, List.length_map, List.length_take]
  exact Nat.min_le_left _ _

def withoutExiting (registry : OpenValidatorRegistry) : OpenValidatorRegistry :=
  { registry with
    records := registry.records.filter fun _ record => record.status ≠ .exiting
    lastJail := registry.lastJail.filter fun id _ =>
      (registry.records.filter fun _ record => record.status ≠ .exiting).contains id }

theorem getElem?_withoutExiting : registry.withoutExiting.records[id]? = some record ↔
      registry.records[id]? = some record ∧ record.status ≠ .exiting := by
  simp only [withoutExiting, ExtTreeMap.getElem?_filter, Option.pfilter_eq_some_iff]
  simp

/-- The next set is activated, and the other eligible records wait. -/
def activate (params : OpenValidatorParams) (registry : OpenValidatorRegistry) :
    OpenValidatorRegistry :=
  { registry with
    records := registry.records.map fun id record =>
      if eligible record then
        { record with status := if (registry.chosen params).contains id then .active else .pending }
      else record
    active := (registry.chosen params).mergeSort (· ≤ ·) }

theorem epochTransition_eq (params : OpenValidatorParams) (height : ℕ)
    (registry : OpenValidatorRegistry) : epochTransition params height registry =
      activate params (((registry.active.filter fun id =>
        missesTooMany params (registry.stats id)).foldl
          (jail params height) registry).withoutExiting) := rfl

theorem Derives.withoutExiting (derives : registry.Derives next) :
    registry.Derives next.withoutExiting := by
  intro id record found
  exact derives id record (getElem?_withoutExiting.mp found).1

theorem Derives.activate (derives : registry.Derives next) :
    registry.Derives (next.activate params) := by
  intro id record found
  rw [OpenValidatorRegistry.activate, ExtTreeMap.getElem?_map, Option.map_eq_some_iff] at found
  obtain ⟨old, foundOld, rfl⟩ := found
  obtain ⟨older, foundOlder, owner⟩ := derives id old foundOld
  refine ⟨older, foundOlder, ?_⟩
  split <;> exact owner

theorem mem_activate_active
    (exited : ∀ (id : AccountId) (record : ValidatorRecord),
      registry.records[id]? = some record → record.status ≠ .exiting) :
    id ∈ (registry.activate params).active ↔ ∃ record,
      (registry.activate params).records[id]? = some record ∧
        ValidatorStatus.InSet record.status := by
  simp only [activate, List.mem_mergeSort, ExtTreeMap.getElem?_map, Option.map_eq_some_iff]
  constructor
  · intro isChosen
    obtain ⟨record, found, isEligible⟩ := mem_chosen isChosen
    refine ⟨_, ⟨record, found, rfl⟩, ?_⟩
    simp [isEligible, isChosen, ValidatorStatus.InSet]
  · rintro ⟨_, ⟨record, found, rfl⟩, inSet⟩
    have notExiting := exited id record found
    by_cases isEligible : eligible record
    · by_contra notChosen
      simp [isEligible, notChosen, ValidatorStatus.InSet] at inSet
    · rw [if_neg isEligible] at inSet
      rcases inSet with isActive | isExiting
      · exact absurd (by simp [eligible, isActive]) isEligible
      · exact absurd isExiting notExiting

theorem Invariant.epochTransition (invariant : registry.Invariant params) (height : ℕ) :
    (epochTransition params height registry).Invariant params := by
  rw [epochTransition_eq]
  generalize jailed : (registry.active.filter fun id =>
    missesTooMany params (registry.stats id)).foldl (jail params height) registry = next
  have derives : registry.Derives next := by
    rw [← jailed]
    exact Derives.foldl_jail (fun _ record found => ⟨record, found, rfl⟩) height _
  have gone : registry.Derives (next.withoutExiting.activate params) :=
    derives.withoutExiting.activate
  constructor
  case sorted =>
    have ordered : (next.withoutExiting.activate params).active.Pairwise
        fun first second => decide (first ≤ second) = true :=
      List.pairwise_mergeSort (by simpa using fun _ _ _ => BitVec.le_trans)
        (by simpa using BitVec.le_total) _
    have distinct : (next.withoutExiting.activate params).active.Nodup :=
      (List.mergeSort_perm _ _).nodup_iff.mpr (nodup_chosen params _)
    exact (ordered.and distinct).imp fun both =>
      BitVec.lt_of_le_ne (of_decide_eq_true both.1) both.2
  case bounded =>
    rw [activate, List.length_mergeSort]
    exact length_chosen_le params _
  case exact_ =>
    intro id
    exact mem_activate_active fun _ _ found => (getElem?_withoutExiting.mp found).2
  case nodes => exact nodup_keys _
  case owners =>
    intro id other record otherRecord found foundOther same
    obtain ⟨old, foundOld, owner⟩ := gone id record found
    obtain ⟨otherOld, foundOtherOld, otherOwner⟩ := gone other otherRecord foundOther
    exact invariant.owners id other old otherOld foundOld foundOtherOld
      (owner.symm.trans (same.trans otherOwner))
  case anchors =>
    intro id isAnchor
    have absent : registry.records[id]? = none :=
      ExtTreeMap.getElem?_eq_none (invariant.anchors id isAnchor).1
    have notFound : ∀ {later : OpenValidatorRegistry}, registry.Derives later →
        id ∉ later.records := by
      intro later laterDerives member
      rw [ExtTreeMap.mem_iff_isSome_getElem?, Option.isSome_iff_exists] at member
      obtain ⟨record, found⟩ := member
      obtain ⟨old, foundOld, -⟩ := laterDerives id record found
      rw [absent] at foundOld
      cases foundOld
    refine ⟨notFound gone, ?_⟩
    intro member
    simp only [activate, OpenValidatorRegistry.withoutExiting, ExtTreeMap.mem_filter] at member
    obtain ⟨_, kept⟩ := member
    rw [ExtTreeMap.getKey_eq] at kept
    exact notFound derives.withoutExiting (ExtTreeMap.contains_iff_mem.mp kept)

theorem recordLiveness_same (params : OpenValidatorParams) (height : ℕ) (proposer : AccountId)
    (registry : OpenValidatorRegistry) :
    ∃ liveness, registry.recordLiveness params height proposer =
      { registry with liveness := liveness } := by
  unfold recordLiveness
  split
  · exact ⟨_, rfl⟩
  · exact ⟨_, rfl⟩
  · exact ⟨_, rfl⟩

theorem Invariant.of_same (invariant : registry.Invariant params) (activatedAt : Option ℕ)
    (liveness : List LivenessEntry) :
    ({ registry with activatedAt := activatedAt, liveness := liveness } :
      OpenValidatorRegistry).Invariant params :=
  ⟨invariant.sorted, invariant.bounded, invariant.exact_, invariant.nodes, invariant.owners,
    invariant.anchors⟩

theorem Invariant.onBlock (invariant : registry.Invariant params) (height : ℕ)
    (proposer : AccountId) : (onBlock params height proposer registry).Invariant params := by
  obtain ⟨liveness, recorded⟩ := registry.recordLiveness_same params height proposer
  simp only [OpenValidatorRegistry.onBlock, recorded]
  split
  next => exact invariant
  next =>
    split
    next => exact (invariant.of_same _ liveness).epochTransition height
    next => exact invariant.of_same registry.activatedAt liveness

theorem onBlock_active (params : OpenValidatorParams) (height : ℕ) (proposer : AccountId)
    (registry : OpenValidatorRegistry)
    (changed : (registry.onBlock params height proposer).active ≠ registry.active) :
    (Op.block height proposer).IsBoundary params := by
  obtain ⟨liveness, recorded⟩ := registry.recordLiveness_same params height proposer
  simp only [onBlock, recorded] at changed
  split at changed
  next => exact absurd rfl changed
  next open_ =>
    split at changed
    next boundary =>
      obtain ⟨reached, epochs⟩ := not_or.mp open_
      exact ⟨Nat.not_lt.mp reached, Nat.pos_of_ne_zero epochs, Nat.dvd_of_mod_eq_zero boundary⟩
    next => exact absurd rfl changed

/-! ## Histories -/

theorem state_of_ends {Error State : Type} {computation : EStateM Error State Value}
    {before : State} (holds : State → Prop) (ends : computation.Ends before holds fun _ => holds) :
    holds (computation before).state := by
  unfold Ends at ends
  cases ran : computation before with
  | ok value after =>
    rw [ran] at ends
    exact ends
  | error reason after =>
    rw [ran] at ends
    exact ends

theorem Invariant.transaction (invariant : registry.Invariant params)
    {operation : EStateM OpenValidatorError OpenValidatorRegistry Value}
    (ends : operation.Ends registry (· = registry) fun _ next =>
      next.Invariant params ∧ next.active = registry.active) :
    (operation registry).state.Invariant params ∧
      (operation registry).state.active = registry.active := by
  refine state_of_ends (fun next => next.Invariant params ∧ next.active = registry.active)
    (ends.mono ?_ fun _ _ both => both)
  rintro next rfl
  exact ⟨invariant, rfl⟩

theorem Invariant.step (invariant : registry.Invariant params) (op : Op) :
    (registry.step params op).Invariant params ∧
      ((registry.step params op).active ≠ registry.active → op.IsBoundary params) := by
  have unchanged : ∀ {next : OpenValidatorRegistry},
      next.Invariant params ∧ next.active = registry.active →
        next.Invariant params ∧ (next.active ≠ registry.active → op.IsBoundary params) :=
    fun both => ⟨both.1, fun changed => absurd both.2 changed⟩
  cases op with
  | register height owner nodeId capped =>
    exact unchanged (invariant.transaction (invariant.register height owner nodeId capped))
  | deregister height owner nodeId jailLocksBond =>
    exact unchanged (invariant.transaction
      (invariant.deregister height owner nodeId jailLocksBond))
  | unjail height owner nodeId =>
    exact unchanged (invariant.transaction (invariant.unjail height owner nodeId))
  | block height proposer =>
    exact ⟨invariant.onBlock height proposer, registry.onBlock_active params height proposer⟩

theorem Invariant.empty (params : OpenValidatorParams) : Invariant params {} where
  sorted := .nil
  bounded := Nat.zero_le _
  exact_ id := by simp
  nodes := nodup_keys _
  owners id other record otherRecord found := by simp at found
  anchors id _ := by simp

/-- After every history the active list is sorted, capped and exact, owners and nodes have one
record each, anchors have none, and the next operation changes the list only at a boundary. -/
theorem run_invariant (params : OpenValidatorParams) (ops : List Op) :
    (Run.run (step params) {} ops).Invariant params ∧
      ∀ op, ((Run.run (step params) {} ops).step params op).active ≠
          (Run.run (step params) {} ops).active → op.IsBoundary params := by
  have invariant : (Run.run (step params) {} ops).Invariant params :=
    Run.invariant_of_forall (fun _ op before => (before.step op).1) (.empty params) ops
  exact ⟨invariant, fun op => (invariant.step op).2⟩

end OpenValidatorRegistry

end BoingNetwork
