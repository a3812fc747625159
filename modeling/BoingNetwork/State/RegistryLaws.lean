import BoingNetwork.State.Conservation

/-!
# Registry operations as ledger commands

The operations of the validator registry and of the appeal book see only what survives
the encoding of the registries.  Registrations and deregistrations change the registered
bonds by the bond of one record.  Apart from the resolve votes, no operation of the appeal
book casts a vote or decides an appeal.
-/

namespace BoingNetwork

open EStateM FiniteMap MachineInt Std

/-! ## Validators -/

variable {Error Value : Type} {contents : Contents} (params : OpenValidatorParams)
  {registry : OpenValidatorRegistry} {amount : ℕ} (height : ℕ) (owner : AccountId)
  (nodeId : AccountId) (capped : Bool)

namespace OpenValidatorRegistry

theorem eq_of_settled {left right : OpenValidatorRegistry}
    (same : RegistryId.openValidators.settled left = RegistryId.openValidators.settled right) :
    right = { left with lastJail := right.lastJail } := by
  cases left
  cases right
  cases same
  rfl

/-- The derived data of the last jailing does not matter to the operation. -/
theorem settles_get {body : OpenValidatorRegistry → EStateM Error OpenValidatorRegistry Value}
    (alike : ∀ (registry : OpenValidatorRegistry) lastJail, Alike
      (fun left right =>
        RegistryId.openValidators.settled left = RegistryId.openValidators.settled right)
      (body registry registry) (body { registry with lastJail } { registry with lastJail })) :
    RegistryId.openValidators.Settles (get >>= body) := by
  apply Respects.get_bind
  intro left right same
  rw [eq_of_settled same]
  exact alike left right.lastJail

theorem settles_registerWithCap :
    RegistryId.openValidators.Settles (registerWithCap params height owner nodeId capped) := by
  apply settles_get
  intro registry lastJail
  split
  · exact ⟨rfl, rfl⟩
  split
  · exact ⟨rfl, rfl⟩
  split
  · exact ⟨rfl, rfl⟩
  split
  · exact ⟨rfl, rfl⟩
  split <;> exact ⟨rfl, rfl⟩

theorem settles_deregisterAt (height : ℕ) (jailLocksBond : Bool) :
    RegistryId.openValidators.Settles (deregisterAt owner nodeId height jailLocksBond) := by
  apply settles_get
  intro registry lastJail
  cases registry.records[nodeId]? with
  | none => exact ⟨rfl, rfl⟩
  | some record =>
    dsimp only
    split
    · exact ⟨rfl, rfl⟩
    cases record.status with
    | jailed =>
      dsimp only
      split <;> exact ⟨rfl, rfl⟩
    | _ => exact ⟨rfl, rfl⟩

theorem settles_unjail (height : ℕ) :
    RegistryId.openValidators.Settles (unjail owner nodeId height) := by
  apply settles_get
  intro registry lastJail
  cases registry.records[nodeId]? with
  | none => exact ⟨rfl, rfl⟩
  | some record =>
    dsimp only
    split
    · exact ⟨rfl, rfl⟩
    cases record.status with
    | jailed =>
      dsimp only
      split <;> exact ⟨rfl, rfl⟩
    | _ => exact ⟨rfl, rfl⟩

def bonds (registry : OpenValidatorRegistry) : ℕ :=
  total ValidatorRecord.bond registry.records

theorem registerWithCap_bonds (registry : OpenValidatorRegistry) :
    (registerWithCap params height owner nodeId capped).Ends registry (fun _ => True)
      fun _ next => next.bonds = registry.bonds + params.bond := by
  unfold registerWithCap
  rw [ends_bind, ends_get]
  split
  · trivial
  split
  · trivial
  split
  · trivial
  next isNew =>
    split
    · trivial
    split
    · trivial
    have inserted : total ValidatorRecord.bond (registry.records.insert nodeId
        ⟨owner, params.bond, height, .pending, 0⟩) +
          entryWeight ValidatorRecord.bond registry.records[nodeId]? =
        total ValidatorRecord.bond registry.records + params.bond :=
      total_insert ..
    have absent : registry.records[nodeId]? = none := by
      simpa using isNew
    rw [absent, entryWeight_none] at inserted
    exact inserted

theorem deregisterAt_bonds (height : ℕ) (jailLocksBond : Bool) (registry : OpenValidatorRegistry) :
    (deregisterAt owner nodeId height jailLocksBond).Ends registry (fun _ => True)
      fun refund next => next.bonds + refund = registry.bonds := by
  unfold deregisterAt
  rw [ends_bind, ends_get]
  cases found : registry.records[nodeId]? with
  | none => trivial
  | some record =>
    have erased : total ValidatorRecord.bond (registry.records.erase nodeId) +
        entryWeight ValidatorRecord.bond registry.records[nodeId]? =
        total ValidatorRecord.bond registry.records := total_erase ..
    have emptied : total ValidatorRecord.bond (registry.records.insert nodeId
        { record with status := .exiting, bond := 0 }) +
        entryWeight ValidatorRecord.bond registry.records[nodeId]? =
        total ValidatorRecord.bond registry.records + 0 := total_insert ..
    rw [found, entryWeight_some] at erased emptied
    dsimp only
    split
    · trivial
    cases record.status with
    | exiting => trivial
    | active => exact emptied
    | pending => exact erased
    | jailed =>
      dsimp only
      split
      · trivial
      · exact erased

theorem unjail_bonds (height : ℕ) (registry : OpenValidatorRegistry) :
    (unjail owner nodeId height).Ends registry (fun _ => True)
      fun _ next => next.bonds = registry.bonds := by
  unfold unjail
  rw [ends_bind, ends_get]
  cases found : registry.records[nodeId]? with
  | none => trivial
  | some record =>
    have released : total ValidatorRecord.bond (registry.records.insert nodeId
        { record with status := .pending }) +
        entryWeight ValidatorRecord.bond registry.records[nodeId]? =
        total ValidatorRecord.bond registry.records + record.bond :=
      total_insert ..
    rw [found, entryWeight_some] at released
    dsimp only
    split
    · trivial
    cases record.status with
    | jailed =>
      dsimp only
      split
      · exact Nat.add_right_cancel released
      · trivial
    | _ => trivial

end OpenValidatorRegistry

theorem Contents.supply_setValidators (contents : Contents) (registry : OpenValidatorRegistry) :
    (contents.setRegistry .openValidators registry).supply + contents.openValidators.bonds =
      contents.supply + registry.bonds := by
  simp only [supply, setRegistry, OpenValidatorRegistry.bonds]
  omega

theorem Contents.received_bonds (more : registry.bonds = contents.openValidators.bonds + amount) :
    contents.Received amount (contents.setRegistry .openValidators registry) where
  accounts _ := .of_eq rfl
  appeals := .refl _
  pool _ := .of_eq rfl
  supply _ := by
    have changed := contents.supply_setValidators registry
    omega

theorem Contents.paid_bonds (less : registry.bonds + amount = contents.openValidators.bonds) :
    contents.Paid amount (contents.setRegistry .openValidators registry) where
  accounts _ := .of_eq rfl
  appeals := .refl _
  pool _ := .of_eq rfl
  supply _ := by
    have changed := contents.supply_setValidators registry
    omega

/-! ## The appeal book -/

variable (registry : SlashAppealRegistry) (appealId : ℕ)
  (votes : List (AccountId × Bool × ℕ × Option Signature))
  {operation : EStateM Error SlashAppealRegistry Value}
  {undecided : ∀ registry, operation.Ends registry (fun _ => True) fun _ next =>
    registry.Undecided next}
  {settles : RegistryId.slashAppeals.Settles operation} (tipHeight : ℕ) (slashId : ℕ)
  (evidence : Bytes)

namespace SlashAppealRegistry

/-- Equal but for the allocator, which would allocate the same id. -/
theorem eq_of_settled {left right : SlashAppealRegistry}
    (same : RegistryId.slashAppeals.settled left = RegistryId.slashAppeals.settled right) :
    right = { left with nextSlashId := right.nextSlashId } ∧
      right.peekNextSlashId = left.peekNextSlashId := by
  simp only [RegistryId.settled, SlashAppealRegistry.mk.injEq] at same
  obtain ⟨slashes, appeals, next, peek⟩ := same
  refine ⟨?_, peek.symm⟩
  rw [slashes, appeals, next]

/-- With the same greatest id, two allocators stay alike. -/
theorem settled_eq {registry : SlashAppealRegistry} {next : ℕ}
    (peek : peekNextSlashId { registry with nextSlashId := next } = registry.peekNextSlashId)
    (slashes : ExtTreeMap ℕ ConsensusSlashRecord)
    (greatest : slashes.maxKey? = registry.slashes.maxKey?)
    (appeals : ExtTreeMap ℕ ConsensusSlashAppeal) (nextAppealId : ℕ) :
    RegistryId.slashAppeals.settled ⟨slashes, appeals, nextAppealId, registry.nextSlashId⟩ =
      RegistryId.slashAppeals.settled ⟨slashes, appeals, nextAppealId, next⟩ := by
  simp only [RegistryId.settled, SlashAppealRegistry.mk.injEq, true_and]
  simp only [peekNextSlashId, greatest] at peek ⊢
  exact peek.symm

/-- The value of the allocator does not matter to the operation. -/
theorem settles_get {body : SlashAppealRegistry → EStateM Error SlashAppealRegistry Value}
    (alike : ∀ (registry : SlashAppealRegistry) next,
      peekNextSlashId { registry with nextSlashId := next } = registry.peekNextSlashId →
      (∀ appeals id,
        RegistryId.slashAppeals.settled ⟨registry.slashes, appeals, id, registry.nextSlashId⟩ =
          RegistryId.slashAppeals.settled ⟨registry.slashes, appeals, id, next⟩) →
      Alike (fun left right =>
          RegistryId.slashAppeals.settled left = RegistryId.slashAppeals.settled right)
        (body registry registry)
        (body { registry with nextSlashId := next } { registry with nextSlashId := next })) :
    RegistryId.slashAppeals.Settles (get >>= body) := by
  apply Respects.get_bind
  intro left right same
  obtain ⟨isRight, peek⟩ := eq_of_settled same
  rw [isRight] at peek ⊢
  exact alike left right.nextSlashId peek (settled_eq peek left.slashes rfl)

theorem settles_submitAppeal (tipHeight maxEvidence : ℕ) (electorateWSnapshot : ℕ)
    (pinSetCommitment : BitVec 256) :
    RegistryId.slashAppeals.Settles (submitAppeal slashId evidence tipHeight maxEvidence
      electorateWSnapshot pinSetCommitment) := by
  apply settles_get
  intro registry next peek same
  split
  · exact ⟨rfl, same _ _⟩
  cases registry.slashes[slashId]? with
  | none => exact ⟨rfl, same _ _⟩
  | some slash =>
    dsimp only
    split
    · exact ⟨rfl, same _ _⟩
    split
    · exact ⟨rfl, same _ _⟩
    split <;> exact ⟨rfl, same _ _⟩

theorem settles_gateResolveWindow :
    RegistryId.slashAppeals.Settles (gateResolveWindow appealId tipHeight) := by
  apply settles_get
  intro registry next peek same
  cases registry.appeals[appealId]? with
  | none => exact ⟨rfl, same _ _⟩
  | some appeal =>
    dsimp only
    split
    · exact ⟨rfl, same _ _⟩
    split <;> exact ⟨rfl, same _ _⟩

theorem maxKey?_insert_of_mem {slashes : ExtTreeMap ℕ ConsensusSlashRecord} {id : ℕ}
    (member : id ∈ slashes) (slash : ConsensusSlashRecord) :
    (slashes.insert id slash).maxKey? = slashes.maxKey? := by
  cases greatest : slashes.maxKey? with
  | none =>
    rw [ExtTreeMap.maxKey?_eq_none_iff] at greatest
    rw [greatest] at member
    simp at member
  | some key =>
    have bounded := (ExtTreeMap.maxKey?_eq_some_iff_mem_and_forall.mp greatest).2 id member
    rw [ExtTreeMap.maxKey?_insert, greatest]
    simp only [Option.elim_some, Nat.isLE_compare] at bounded ⊢
    split <;> grind

theorem settles_modifyAppeals {update : SlashAppealRegistry → ExtTreeMap ℕ ConsensusSlashAppeal}
    (blind : ∀ (registry : SlashAppealRegistry) next,
      update { registry with nextSlashId := next } = update registry) :
    RegistryId.slashAppeals.Settles (modify fun registry =>
      { registry with appeals := update registry } : EStateM Error SlashAppealRegistry PUnit) := by
  apply settles_get
  intro registry next peek same
  refine ⟨rfl, ?_⟩
  dsimp only
  rw [blind registry next]
  exact same _ _

theorem settles_finalizeAppeal (approved : Bool) :
    RegistryId.slashAppeals.Settles (finalizeAppeal appealId slashId approved) := by
  apply settles_get
  intro registry next peek same
  cases registry.appeals[appealId]? with
  | none => exact ⟨rfl, same _ _⟩
  | some appeal =>
    refine Respects.bind ?_ (fun _ => ?_) _ _ (same registry.appeals registry.nextAppealId)
    · exact settles_modifyAppeals fun _ _ => rfl
    apply settles_get
    intro registry next peek same
    cases found : registry.slashes[slashId]? with
    | none => exact ⟨rfl, same _ _⟩
    | some slash =>
      dsimp only
      split
      · exact ⟨rfl, same _ _⟩
      split
      · exact ⟨rfl, same _ _⟩
      · have member : slashId ∈ registry.slashes := by
          rw [ExtTreeMap.mem_iff_isSome_getElem?, found]
          rfl
        exact ⟨rfl, settled_eq peek _ (maxKey?_insert_of_mem member _) _ _⟩

theorem settles_insertVotes : RegistryId.slashAppeals.Settles (insertVotes appealId votes) := by
  induction votes with
  | nil => exact .pure _
  | cons vote votes ih =>
    obtain ⟨voter, approved, weight, ballotSignature⟩ := vote
    apply settles_get
    intro registry next peek same
    cases registry.appeals[appealId]? with
    | none => exact ⟨rfl, same _ _⟩
    | some appeal =>
      dsimp only
      split
      · exact ⟨rfl, same _ _⟩
      · refine Respects.bind ?_ (fun _ => ih) _ _
          (same registry.appeals registry.nextAppealId)
        exact settles_modifyAppeals fun _ _ => rfl

theorem settles_castResolveVotesBatch (electorateW : ℕ) :
    RegistryId.slashAppeals.Settles (castResolveVotesBatch appealId votes electorateW) := by
  apply settles_get
  intro registry next peek same
  cases registry.appeals[appealId]? with
  | none => exact ⟨rfl, same _ _⟩
  | some appeal =>
    dsimp only
    split
    · exact ⟨rfl, same _ _⟩
    refine Respects.bind (settles_insertVotes appealId votes) (fun _ => ?_) _ _ (same _ _)
    apply settles_get
    intro registry next peek same
    cases registry.appeals[appealId]? with
    | none => exact ⟨rfl, same _ _⟩
    | some voted =>
      dsimp only
      split
      · exact Respects.bind (settles_finalizeAppeal _ _ _) (fun _ => .pure _) _ _ (same _ _)
      split
      · exact Respects.bind (settles_finalizeAppeal _ _ _) (fun _ => .pure _) _ _ (same _ _)
      · exact ⟨rfl, same _ _⟩

theorem settles_recordSlashWithId (id : ℕ) (account : AccountId) (amount : ℕ)
    (reason : ConsensusSlashReason) (blockHeight appealWindowBlocks : ℕ) :
    RegistryId.slashAppeals.Settles (modify (fun registry : SlashAppealRegistry =>
      registry.recordSlashWithId id account amount reason blockHeight appealWindowBlocks) :
        EStateM Error SlashAppealRegistry PUnit) := by
  apply settles_get
  intro registry next peek _
  refine ⟨rfl, ?_⟩
  simp only [RegistryId.settled, recordSlashWithId, SlashAppealRegistry.mk.injEq, true_and]
  simp only [peekNextSlashId, ExtTreeMap.maxKey?_insertIfNew, Option.getD_some] at peek ⊢
  cases greatest : registry.slashes.maxKey? with
  | none =>
    simp only [greatest, Option.getD_none, Option.elim_none, saturatingAdd,
      maxValue] at peek ⊢
    grind
  | some key =>
    simp only [greatest, Option.getD_some, Option.elim_some, saturatingAdd,
      maxValue, Nat.compare_eq_lt] at peek ⊢
    grind

/-! ### Appeals that are not voted on -/

theorem recordSlashWithId_undecided (id : ℕ) (account : AccountId) (amount : ℕ)
    (reason : ConsensusSlashReason) (blockHeight appealWindowBlocks : ℕ) :
    registry.Undecided (registry.recordSlashWithId id account amount reason blockHeight
      appealWindowBlocks) where
  appeals _ appeal found := .inr ⟨appeal, found, .inl rfl⟩
  slashes other slash found := by
    rw [recordSlashWithId, ExtTreeMap.getElem?_insertIfNew, if_neg, found]
    rintro ⟨same, absent⟩
    rw [LawfulEqCmp.eq_of_compare same] at absent
    rw [ExtTreeMap.mem_iff_isSome_getElem?, found] at absent
    exact absent rfl

theorem submitAppeal_undecided (tipHeight maxEvidence : ℕ) (electorateWSnapshot : ℕ)
    (pinSetCommitment : BitVec 256) (registry : SlashAppealRegistry) :
    (submitAppeal slashId evidence tipHeight maxEvidence electorateWSnapshot
      pinSetCommitment).Ends registry (fun _ => True) fun _ next => registry.Undecided next := by
  unfold submitAppeal
  rw [ends_bind, ends_get]
  split
  · trivial
  cases registry.slashes[slashId]? with
  | none => trivial
  | some slash =>
    dsimp only
    split
    · trivial
    split
    · trivial
    split
    · trivial
    refine ⟨fun id appeal found => ?_, fun _ _ found => found⟩
    rw [ExtTreeMap.getElem?_insert] at found
    split at found
    · cases found
      exact .inl ⟨rfl, .inl rfl⟩
    · exact .inr ⟨appeal, found, .inl rfl⟩

theorem gateResolveWindow_same (registry : SlashAppealRegistry) :
    (gateResolveWindow appealId tipHeight).Ends registry (fun _ => True)
      fun _ next => next = registry := by
  unfold gateResolveWindow
  rw [ends_bind, ends_get]
  cases registry.appeals[appealId]? with
  | none => trivial
  | some appeal =>
    dsimp only
    split
    · trivial
    split
    · trivial
    · rfl

theorem expirePendingAppeals_undecided :
    registry.Undecided (registry.expirePendingAppeals tipHeight) := by
  refine ⟨fun id appeal found => .inr ?_, fun _ _ found => found⟩
  rw [expirePendingAppeals, ExtTreeMap.getElem?_map] at found
  obtain ⟨old, foundOld, isNext⟩ := Option.map_eq_some_iff.mp found
  refine ⟨old, foundOld, ?_⟩
  split at isNext
  next expires => exact .inr ⟨expires.1, isNext.symm⟩
  next => exact .inl isNext.symm

theorem filter_undecided (keep : ℕ → ConsensusSlashAppeal → Bool) :
    registry.Undecided { registry with appeals := registry.appeals.filter keep } := by
  refine ⟨fun id appeal found => .inr ?_, fun _ _ found => found⟩
  rw [ExtTreeMap.getElem?_filter] at found
  obtain ⟨foundOld, -⟩ := Option.pfilter_eq_some_iff.mp found
  exact ⟨appeal, foundOld, .inl rfl⟩

end SlashAppealRegistry

theorem Contents.kept_setAppeals {registry : SlashAppealRegistry}
    (undecided : contents.slashAppeals.Undecided registry) :
    contents.Kept (contents.setRegistry .slashAppeals registry) where
  accounts _ := .of_eq rfl
  supply _ := rfl
  appeals := undecided
  pool _ := .of_eq rfl

namespace Quiet

variable [Crypto]

/-- Operates on the appeal book without votes and decisions. -/
def onAppeals (operation : EStateM Error SlashAppealRegistry Value)
    (settles : RegistryId.slashAppeals.Settles operation)
    (undecided : ∀ registry, operation.Ends registry (fun _ => True)
      fun _ next => registry.Undecided next) : Quiet Error Value :=
  (Act.onRegistry .slashAppeals operation settles).quietly fun before =>
    .onRegistry fun _ _ ran => by
      have follows := ends_of_ok (undecided before.slashAppeals) ran
      exact Contents.kept_setAppeals follows

theorem onAppeals_succeeds {store : StateStore} :
    (onAppeals operation settles undecided).run.Succeeds store ↔
      operation.Succeeds store.slashAppeals := by
  have succeeds : (Act.onRegistry .slashAppeals operation settles).run.Succeeds store ↔
      operation.Succeeds store.slashAppeals := Act.onRegistry_succeeds
  exact succeeds

def expirePendingAppeals (tipHeight : ℕ) : Quiet Error PUnit :=
  onAppeals (modify (SlashAppealRegistry.expirePendingAppeals · tipHeight))
    (SlashAppealRegistry.settles_modifyAppeals fun _ _ => rfl)
    fun registry => registry.expirePendingAppeals_undecided tipHeight

def pruneExpiredAppeals (tipHeight : ℕ) : Quiet Error PUnit :=
  onAppeals (modify (SlashAppealRegistry.pruneExpiredAppeals · tipHeight))
    (SlashAppealRegistry.settles_modifyAppeals fun _ _ => rfl)
    fun registry => registry.filter_undecided _

def pruneResolvedAppeals (tipHeight : ℕ) : Quiet Error PUnit :=
  onAppeals (modify (SlashAppealRegistry.pruneResolvedAppeals · tipHeight))
    (SlashAppealRegistry.settles_modifyAppeals fun _ _ => rfl)
    fun registry => registry.filter_undecided _

def recordSlashWithId (id : ℕ) (account : AccountId) (amount : ℕ)
    (reason : ConsensusSlashReason) (blockHeight appealWindowBlocks : ℕ) : Quiet Error PUnit :=
  onAppeals (modify (SlashAppealRegistry.recordSlashWithId · id account amount reason blockHeight
      appealWindowBlocks))
    (SlashAppealRegistry.settles_recordSlashWithId _ _ _ _ _ _)
    fun registry => registry.recordSlashWithId_undecided _ _ _ _ _ _

end Quiet

theorem Leads.onAppeals [Crypto] {before : Contents} {post : Value → Contents → Prop}
    (reached : ∀ value next, operation before.slashAppeals = .ok value next →
      post value (before.setRegistry .slashAppeals next)) :
    Leads (Quiet.onAppeals operation settles undecided) before post :=
  .quietly (.onRegistry reached)

end BoingNetwork
