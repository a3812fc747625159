import BoingNetwork.State.NameOwnership

/-!
# Primary names

The registry keeps the primary name of an account apart from the records of names.  Every
operation that takes a name away from its target also clears the primary name that rests on
it, so a primary name always has a record whose target is the account.
-/

namespace BoingNetwork

variable {registry : NameRegistry} {label primary : String}

namespace NameRegistry

open EStateM FiniteMap

/-- The primary name of an address, if it is active and resolves back. -/
def reverseVerified (registry : NameRegistry) (addr : AccountId) (params : NameRegistryParams)
    (height : ℕ) : Option String := do
  let label ← registry.reverse[addr]?
  let record ← registry.resolve label params height
  if record.target = addr then some label else none

def Targets (registry : NameRegistry) (label : String) (addr : AccountId) : Prop :=
  ∃ record, registry.names[label]? = some record ∧ record.target = addr

def Coherent (registry : NameRegistry) : Prop :=
  ∀ (addr : AccountId) (label : String), registry.reverse[addr]? = some label →
    registry.Targets label addr

theorem reverse_clearReversePointingTo {addr other : AccountId} :
    (registry.clearReversePointingTo addr label).reverse[other]? = some primary ↔
      registry.reverse[other]? = some primary ∧ ¬ (other = addr ∧ primary = label) := by
  unfold clearReversePointingTo
  split
  next points =>
    rw [getElem?_erase]
    by_cases same : other = addr
    · simp [same, points, eq_comm]
    · simp [same]
  next differs =>
    refine ⟨fun found => ⟨found, ?_⟩, And.left⟩
    rintro ⟨rfl, rfl⟩
    exact differs found

theorem Coherent.change {before after : NameRegistry} (coherent : before.Coherent) (label : String)
    (others : ∀ other ≠ label, after.names[other]? = before.names[other]?)
    (reverse : ∀ (addr : AccountId) (primary : String), after.reverse[addr]? = some primary →
      before.reverse[addr]? = some primary)
    (rests : ∀ addr : AccountId, after.reverse[addr]? = some label → after.Targets label addr) :
    after.Coherent := by
  intro addr primary points
  by_cases same : primary = label
  · rw [same] at points ⊢
    exact rests addr points
  · obtain ⟨record, found, isTarget⟩ := coherent addr primary (reverse addr primary points)
    exact ⟨record, (others primary same).trans found, isTarget⟩

theorem Coherent.reverse_evict (coherent : registry.Coherent) {addr : AccountId}
    (points : (registry.evict label).reverse[addr]? = some primary) :
    registry.reverse[addr]? = some primary ∧ primary ≠ label := by
  unfold evict at points
  split at points
  next absent =>
    refine ⟨points, ?_⟩
    rintro rfl
    obtain ⟨record, found, -⟩ := coherent addr primary points
    rw [absent] at found
    cases found
  next old found =>
    rw [reverse_clearReversePointingTo, reverse_clearReversePointingTo] at points
    obtain ⟨⟨pointed, notTarget⟩, -⟩ := points
    refine ⟨pointed, ?_⟩
    rintro rfl
    obtain ⟨record, isRecord, isTarget⟩ := coherent addr primary pointed
    cases found.symm.trans isRecord
    exact notTarget ⟨isTarget.symm, rfl⟩

theorem Coherent.evict (coherent : registry.Coherent) (label : String) :
    (registry.evict label).Coherent := by
  apply coherent.change label
  · intro other differs
    rw [getElem?_names_evict, if_neg differs]
  · exact fun _ _ points => (coherent.reverse_evict points).1
  · exact fun _ points => absurd rfl (coherent.reverse_evict points).2

theorem Coherent.update {before after : NameRegistry} (coherent : before.Coherent)
    {record changed : NameRecord} (found : before.names[label]? = some record)
    (names : after.names = before.names.insert label changed)
    (reverse : ∀ (addr : AccountId) (primary : String), after.reverse[addr]? = some primary →
      before.reverse[addr]? = some primary)
    (target : ∀ addr : AccountId, after.reverse[addr]? = some label → record.target = addr →
      changed.target = addr) : after.Coherent := by
  apply coherent.change label _ reverse
  · intro addr points
    obtain ⟨_, isRecord, isTarget⟩ := coherent addr label (reverse addr label points)
    cases found.symm.trans isRecord
    refine ⟨changed, ?_, target addr points isTarget⟩
    rw [names, getElem?_insert, if_pos rfl]
  · intro other differs
    rw [names, getElem?_insert, if_neg differs]

variable [Crypto]

/-- Every operation keeps the primary names coherent, also when it fails. -/
theorem Coherent.perform (coherent : registry.Coherent) (rules : NameRules) (tx : NameTx) :
    (tx.perform rules).Ends registry Coherent fun _ => Coherent := by
  obtain ⟨height, sender, op⟩ := tx
  cases op with
  | commit commitment =>
    simp only [NameTx.perform, commitKeyed, ends_bind, ends_modify, ends_get]
    split <;> split <;> exact coherent
  | register label salt target years =>
    simp only [NameTx.perform, registerKeyed, ends_bind, ends_get]
    split
    next => exact coherent
    next rent used checked =>
      have erased : ({ registry with commits := registry.commits.erase used } :
        NameRegistry).Coherent := coherent
      apply (erased.evict label).change label
      · intro other differs
        simp only [pruneCommits]
        rw [getElem?_insert, if_neg differs]
      · exact fun _ _ points => points
      · exact fun _ points => absurd rfl (erased.reverse_evict points).2
  | renew label years =>
    simp only [NameTx.perform, renew, ends_bind, ends_get]
    split
    next => exact coherent
    next =>
      split
      next => exact coherent
      next record owned =>
        split
        next => exact coherent
        next => exact coherent.update (owned_eq_ok owned).1 rfl (fun _ _ => id) fun _ _ => id
  | transfer label newOwner =>
    simp only [NameTx.perform, transfer, ends_bind, ends_get]
    split
    next => exact coherent
    next record owned =>
      refine coherent.update (owned_eq_ok owned).1 (names_clearReversePointingTo ..) ?_
        fun _ _ => id
      exact fun _ _ points => (reverse_clearReversePointingTo.mp points).1
  | setTarget label target =>
    simp only [NameTx.perform, setTarget, ends_bind, ends_get]
    split
    next => exact coherent
    next record owned =>
      have found := (owned_eq_ok owned).1
      split
      next differs =>
        refine coherent.update found (names_clearReversePointingTo ..) ?_ ?_
        · exact fun _ _ points => (reverse_clearReversePointingTo.mp points).1
        · exact fun _ points isTarget =>
            absurd ⟨isTarget.symm, rfl⟩ (reverse_clearReversePointingTo.mp points).2
      next same =>
        exact coherent.update found rfl (fun _ _ => id) fun _ _ isTarget =>
          (not_not.mp same).symm.trans isTarget
  | setPrimary label =>
    simp only [NameTx.perform, setPrimary, ends_bind, ends_get]
    cases label with
    | none =>
      intro addr primary points
      rw [getElem?_erase] at points
      split at points
      next => cases points
      next => exact coherent addr primary points
    | some label =>
      dsimp only
      split
      next resolves =>
        intro addr primary points
        rw [getElem?_insert] at points
        split at points
        next isSender =>
          cases points
          obtain ⟨record, isRecord, isTarget⟩ := (Option.any_eq_true _ _).mp resolves
          rw [isSender]
          exact ⟨record, (Option.filter_eq_some_iff.mp isRecord).1, of_decide_eq_true isTarget⟩
        next => exact coherent addr primary points
      next => exact coherent
  | release label =>
    simp only [NameTx.perform, release, ends_bind, ends_get]
    split
    next => exact coherent
    next => exact coherent.evict label

/-- In every state that operations reach, a primary name has a record whose target is the
account.  A lookup returns it only while it is active. -/
theorem primaryNames_coherent (events : List (NameRules × NameTx)) :
    let registry := Run.run (fun registry event => (event.2.perform event.1 registry).state)
      ({} : NameRegistry) events
    registry.Coherent ∧ ∀ (addr : AccountId) (params : NameRegistryParams) (height : ℕ)
      (label : String), registry.reverseVerified addr params height = some label →
        ∃ record, registry.names[label]? = some record ∧ record.target = addr ∧
          statusOf record params height = .active := by
  intro registry
  have coherent : registry.Coherent := by
    refine Run.invariant_of_forall (fun before event coherent => ?_) ?_ events
    · have ends := Coherent.perform coherent event.1 event.2
      unfold Ends at ends
      split at ends <;> simp_all [Result.state]
    · intro addr label points
      simp at points
  refine ⟨coherent, fun addr params height label verified => ?_⟩
  simp only [reverseVerified, Option.bind_eq_bind, Option.bind_eq_some_iff] at verified
  obtain ⟨primary, -, record, resolves, isLabel⟩ := verified
  split at isLabel
  next isTarget =>
    cases isLabel
    obtain ⟨found, active⟩ := Option.filter_eq_some_iff.mp resolves
    exact ⟨record, found, isTarget, of_decide_eq_true active⟩
  next => cases isLabel

end NameRegistry

end BoingNetwork
