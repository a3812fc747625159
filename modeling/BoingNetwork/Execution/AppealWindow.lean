import BoingNetwork.Execution.Appeals

/-!
# The appeal window of equivocation slashes

A slash stays in the appeal book as it was recorded, up to its reversal, and an appeal is
accepted up to the deadline of its record.  The record of an equivocation holds the round of
the evidence as its height, so the window opens at the round and not at the block that
applies the slash.
-/

namespace BoingNetwork

open EStateM MachineInt Std

variable {registry : SlashAppealRegistry} {resolvers : Resolvers} {reporter sender : AccountId}

theorem SlashAppealRegistry.submitAppeal_succeeds {slashId : ℕ} {evidence : Bytes}
    {tipHeight maxEvidence electorateWSnapshot : ℕ} {pinSet : BitVec 256} :
    (submitAppeal slashId evidence tipHeight maxEvidence electorateWSnapshot pinSet).Succeeds
        registry ↔
      evidence.length ≤ maxEvidence ∧ ∃ slash, registry.slashes[slashId]? = some slash ∧
        tipHeight ≤ slash.appealDeadline ∧ slash.reversed = false ∧
          registry.appeals.values.any (·.slashId = slashId) = false := by
  rw [submitAppeal, succeeds_get_bind]
  split
  next large => simp [Nat.not_le.mpr large]
  next small =>
    cases registry.slashes[slashId]? with
    | none => simp
    | some slash =>
      dsimp only
      split
      next late => simp [Nat.not_le.mpr late]
      next timely =>
        split
        next reversed => simp [reversed]
        next standing =>
          split
          next again => simp [again]
          next first =>
            have written : ∀ (next : SlashAppealRegistry) (id : ℕ), (set next >>= fun _ => pure id :
                  EStateM SlashAppealError SlashAppealRegistry ℕ).Succeeds registry :=
              fun next id => ⟨id, next, rfl⟩
            simp_all

theorem SlashAppealRegistry.recordSlashWithId_self {id : ℕ} (isNew : registry.slashes[id]? = none)
    (account : AccountId) (amount : ℕ) (reason : ConsensusSlashReason) (blockHeight window : ℕ) :
    (registry.recordSlashWithId id account amount reason blockHeight window).slashes[id]? =
      some ⟨id, account, amount, reason, blockHeight, saturatingAdd 64 blockHeight window,
        false⟩ := by
  have absent : id ∉ registry.slashes := by
    rw [ExtTreeMap.mem_iff_isSome_getElem?, isNew]
    simp
  rw [recordSlashWithId, ExtTreeMap.getElem?_insertIfNew, if_pos ⟨ReflCmp.compare_self, absent⟩]

section Window

variable [Platform] {evidence : EquivocationEvidence} {store : StateStore}
  {slash : ConsensusSlashRecord} {height slashId : ℕ} {vm : Vm} (before : Contents)

/-- Nothing but the deadline stands in the way of the appeal. -/
structure MayAppeal (store : StateStore) (sender : AccountId) (slashId : ℕ) (evidence : Bytes) :
    Prop where
  sender : ∃ account, store.accounts[sender]? = some account ∧ account.nonce + 1 < 2 ^ 64
  evidence : evidence.length ≤ PHASE14_MAX_APPEAL_EVIDENCE_BYTES
  standing : ∀ slash : ConsensusSlashRecord, store.slashAppeals.slashes[slashId]? = some slash →
    slash.reversed = false
  first : store.slashAppeals.appeals.values.any (·.slashId = slashId) = false

theorem bumpSenderNonce_succeeds {Value : Type} {value : Value} :
    (bumpSenderNonce value : Charge sender VmFault Value).run.Succeeds store ↔
      ∃ account, store.accounts[sender]? = some account ∧ account.nonce + 1 < 2 ^ 64 := by
  change (Act.withAccount sender _ _).run.Succeeds store ↔ _
  rw [Act.withAccount_succeeds]
  refine exists_congr fun account => and_congr_right fun _ => ?_
  rw [chargedRecord_succeeds]
  constructor
  · rintro ⟨_, _, ran, fits⟩
    cases ran
    exact fits
  · intro fits
    exact ⟨_, _, rfl, fits⟩

theorem submitted_succeeds {evidence : Bytes} :
    (submitToBook resolvers height slashId evidence).run.Succeeds store ↔
      evidence.length ≤ PHASE14_MAX_APPEAL_EVIDENCE_BYTES ∧
        ∃ slash, store.slashAppeals.slashes[slashId]? = some slash ∧
          height ≤ slash.appealDeadline ∧ slash.reversed = false ∧
            store.slashAppeals.appeals.values.any (·.slashId = slashId) = false := by
  rw [submitToBook, WriteModel.look_bind_succeeds, Within.mapError_succeeds,
    Quiet.onAppeals_succeeds]
  exact SlashAppealRegistry.submitAppeal_succeeds

theorem leads_submitToBook {evidence : Bytes} :
    Leads (submitToBook resolvers height slashId evidence) before fun _ after =>
      after.accounts = before.accounts :=
  .bind (.look fun _ => .mapError (.onAppeals fun _ _ _ => rfl))

theorem executeSubmitSlashAppeal_succeeds {evidence : Bytes}
    (mayAppeal : MayAppeal store sender slashId evidence)
    (found : store.slashAppeals.slashes[slashId]? = some slash) :
    (executeSubmitSlashAppeal resolvers height slashId evidence :
      Handler sender).run.Succeeds store ↔
        height ≤ slash.appealDeadline := by
  change ((submitToBook resolvers height slashId evidence).run >>= fun _ =>
    (bumpSenderNonce _ : Charge sender VmFault _).run).Succeeds store ↔ _
  rw [succeeds_bind_iff, submitted_succeeds]
  constructor
  · rintro ⟨⟨-, other, foundOther, timely, -⟩, -⟩
    rw [found] at foundOther
    cases foundOther
    exact timely
  · intro timely
    refine ⟨⟨mayAppeal.evidence, slash, found, timely, mayAppeal.standing slash found,
      mayAppeal.first⟩, fun _ middle ran => ?_⟩
    have accounts := ends_of_ok (leads_submitToBook store.toContents store rfl) ran
    rw [bumpSenderNonce_succeeds, accounts]
    exact mayAppeal.sender

/-! ## Slashes of equivocations -/

omit [Platform] in
theorem Contents.slashAppeals_credit (contents : Contents) (id : AccountId) (amount : ℕ) :
    (contents.credit id amount).slashAppeals = contents.slashAppeals := by
  unfold credit
  split <;> rfl

theorem leads_slashEquivocationStake {Error : Type} {validator : AccountId} :
    Leads (slashEquivocationStake validator slashId : Quiet Error ℕ) before fun _ after =>
      after.slashAppeals = before.slashAppeals :=
  .quietly (.bind (.alter (fun _ => .pure rfl) fun _ _ =>
    .bind (.creditAccount (.pure (Contents.slashAppeals_credit ..)))))

theorem leads_slashEvidence {before : Contents}
    (isNew : before.slashAppeals.findEquivocationAtRound evidence.voteA.validator
      evidence.voteA.round = none) :
    Leads (slashEvidence vm height evidence) before fun slashId after =>
      slashId = before.slashAppeals.peekNextSlashId ∧ ∃ amount, after.slashAppeals =
        before.slashAppeals.recordSlashWithId slashId evidence.voteA.validator amount .equivocation
          evidence.voteA.round EQUIVOCATION_APPEAL_WINDOW_BLOCKS := by
  unfold slashEvidence
  split
  next => exact .fail
  next =>
    refine .bind (.ofExcept fun _ _ => .bind (.look fun config => ?_))
    have seen : before.settled.slashAppeals.findEquivocationAtRound evidence.voteA.validator
      evidence.voteA.round = none := isNew
    rw [seen]
    have peeks : before.settled.slashAppeals.peekNextSlashId =
        before.slashAppeals.peekNextSlashId :=
      before.slashAppeals.peekNextSlashId_settled
    rw [peeks]
    refine .bind ((leads_slashEquivocationStake before).mono fun amount middle same => ?_)
    refine .bind (.onAppeals fun _ next ran => .pure ⟨rfl, amount, ?_⟩)
    cases ran
    rw [same]
    rfl

omit [Platform] in
theorem not_found_of_isNew {offender : AccountId} {round id : ℕ}
    (isNew : registry.findEquivocationAtRound offender round = none)
    (found : registry.slashes[id]? = some slash) :
    ¬(slash.account = offender ∧ slash.blockHeight = round ∧ slash.reason = .equivocation) := by
  have listed : slash ∈ registry.slashes.values := FiniteMap.mem_values.mpr ⟨id, found⟩
  simpa using List.find?_eq_none.mp isNew slash listed

theorem executeReportEquivocation_succeeds (active : vm.equivocationSlashActive height = true)
    (valid : EquivocationEvidence.tryFromVotes evidence.voteA evidence.voteB = .ok evidence)
    (sender : ∃ nonce, store.nonceOf reporter = some nonce ∧ nonce + 1 < 2 ^ 64) :
    (executeReportEquivocation vm height evidence : Handler reporter).run.Succeeds store := by
  obtain ⟨nonce, isNonce, fits⟩ := sender
  have slashes : (slashEvidence vm height evidence).Total := by
    unfold slashEvidence
    rw [active, valid]
    apply Within.Total.bind (.pure _)
    intro _ before
    rw [WriteModel.look_bind_succeeds]
    split
    next => exact succeeds_pure
    next =>
      have total : ∀ slashId amount, (do
          Quiet.recordSlashWithId slashId evidence.voteA.validator amount .equivocation
            evidence.voteA.round EQUIVOCATION_APPEAL_WINDOW_BLOCKS
          return slashId : Quiet VmFault ℕ).Total :=
        fun slashId amount => .bind (fun _ => Quiet.onAppeals_succeeds.mpr ⟨_, _, rfl⟩)
          fun _ => .pure _
      exact Within.Total.bind (slashEquivocationStake_total _ _) (fun _ => total _ _) before
  apply succeeds_bind_iff.mpr
  refine ⟨slashes store, fun slashId middle ran => bumpSenderNonce_succeeds.mpr ?_⟩
  have kept := Command.done_of_run _ ran
  have found := (kept.accounts reporter).nonce.eq_some isNonce
  obtain ⟨account, foundAccount, rfl⟩ := Option.map_eq_some_iff.mp found
  exact ⟨account, foundAccount, fits⟩

theorem leads_executeReportEquivocation {before : Contents}
    (isNew : before.slashAppeals.findEquivocationAtRound evidence.voteA.validator
      evidence.voteA.round = none) : Leads (executeReportEquivocation vm height evidence :
        Handler reporter) before fun _ after =>
      ∃ amount, after.slashAppeals = before.slashAppeals.recordSlashWithId
        before.slashAppeals.peekNextSlashId evidence.voteA.validator amount .equivocation
          evidence.voteA.round EQUIVOCATION_APPEAL_WINDOW_BLOCKS := by
  refine .after ((leads_slashEvidence isNew).mono fun slashId middle recorded =>
    .bumpSenderNonce fun _ _ => ?_)
  obtain ⟨rfl, amount, same⟩ := recorded
  exact ⟨amount, same⟩

theorem exists_mayAppeal (registry : SlashAppealRegistry)
    (found : registry.slashes[slashId]? = some slash) (standing : slash.reversed = false) :
    ∃ later : StateStore, registry.KeepsSlashes later.slashAppeals ∧
      MayAppeal later 0 slashId [] := by
  let contents : Contents :=
    { accounts := .insert ∅ 0 .default, slashAppeals := { registry with appeals := ∅ } }
  refine ⟨{ toContents := contents }, .of_eq fun _ _ same => same, ?_, Nat.zero_le _, ?_, ?_⟩
  · exact ⟨.default, ExtTreeMap.getElem?_insert_self .., by decide⟩
  · intro other foundOther
    rw [found] at foundOther
    cases foundOther
    exact standing
  · rw [List.any_eq_false]
    intro appeal listed
    obtain ⟨id, foundAppeal⟩ := FiniteMap.mem_values.mp listed
    simp [contents] at foundAppeal

/-- The appeals of a slash that was applied at a height are accepted up to the end of the window
that starts at this height, and not later. -/
def HasAppealWindow (registry : SlashAppealRegistry) (height slashId : ℕ)
    (evidence : EquivocationEvidence) : Prop :=
  ∃ slash : ConsensusSlashRecord, registry.slashes[slashId]? = some slash ∧
    (slash.account = evidence.voteA.validator ∧ slash.blockHeight = evidence.voteA.round ∧
      slash.reason = .equivocation) ∧
    ∀ (later : StateStore) (sender : AccountId) (appealEvidence : Bytes) (resolvers : Resolvers)
      (tip : ℕ), registry.KeepsSlashes later.slashAppeals →
        MayAppeal later sender slashId appealEvidence → tip < 2 ^ 64 →
          ((executeSubmitSlashAppeal resolvers tip slashId appealEvidence :
            Handler sender).run.Succeeds later ↔
              tip ≤ height + EQUIVOCATION_APPEAL_WINDOW_BLOCKS)

/-- An equivocation that is slashed at a height can be appealed in the window after this height
exactly if the allocated id is unused and the evidence is about this height, or both windows
end with the last height. -/
theorem equivocation_appeal_window_iff {vm : Vm} {height : ℕ} {evidence : EquivocationEvidence}
    {reporter : AccountId} {before after : StateStore} {outcome : ℕ × VmExecutionResult}
    (ran : (executeReportEquivocation vm height evidence :
      Handler reporter).run before = .ok outcome after)
    (isNew : before.slashAppeals.findEquivocationAtRound evidence.voteA.validator
      evidence.voteA.round = none) :
    HasAppealWindow after.slashAppeals height before.slashAppeals.peekNextSlashId evidence ↔
      before.slashAppeals.slashes[before.slashAppeals.peekNextSlashId]? = none ∧
        (evidence.voteA.round = height ∨
          2 ^ 64 - 1 ≤ min evidence.voteA.round height + EQUIVOCATION_APPEAL_WINDOW_BLOCKS) := by
  obtain ⟨amount, recorded⟩ := ends_of_ok
    (leads_executeReportEquivocation isNew before rfl) ran
  rw [recorded]
  constructor
  · rintro ⟨slash, found, isOffence, window⟩
    have unused : before.slashAppeals.slashes[before.slashAppeals.peekNextSlashId]? = none := by
      by_contra used
      obtain ⟨other, foundOther⟩ := Option.ne_none_iff_exists'.mp used
      have kept := (before.slashAppeals.recordSlashWithId_undecided
        before.slashAppeals.peekNextSlashId evidence.voteA.validator amount .equivocation
        evidence.voteA.round EQUIVOCATION_APPEAL_WINDOW_BLOCKS).slashes _ _ foundOther
      rw [found] at kept
      cases kept
      exact not_found_of_isNew isNew foundOther isOffence
    have recordedSlash := SlashAppealRegistry.recordSlashWithId_self unused
      evidence.voteA.validator amount .equivocation evidence.voteA.round
      EQUIVOCATION_APPEAL_WINDOW_BLOCKS
    obtain ⟨later, keeps, mayAppeal⟩ := exists_mayAppeal _ recordedSlash rfl
    obtain ⟨record, foundRecord, amends⟩ := keeps _ _ recordedSlash
    have accepted : ∀ tip < 2 ^ 64, tip ≤ saturatingAdd 64 evidence.voteA.round
        EQUIVOCATION_APPEAL_WINDOW_BLOCKS ↔ tip ≤ height + EQUIVOCATION_APPEAL_WINDOW_BLOCKS := by
      intro tip fits
      rw [← window later 0 [] none tip keeps mayAppeal fits,
        executeSubmitSlashAppeal_succeeds mayAppeal foundRecord, amends]
    refine ⟨unused, ?_⟩
    simp only [saturatingAdd, maxValue] at accepted
    have atRound := accepted (min (evidence.voteA.round + EQUIVOCATION_APPEAL_WINDOW_BLOCKS)
      (2 ^ 64 - 1)) (by omega)
    have atHeight := accepted (min (height + EQUIVOCATION_APPEAL_WINDOW_BLOCKS) (2 ^ 64 - 1))
      (by omega)
    omega
  · rintro ⟨unused, deadline⟩
    have found := SlashAppealRegistry.recordSlashWithId_self unused evidence.voteA.validator amount
      .equivocation evidence.voteA.round EQUIVOCATION_APPEAL_WINDOW_BLOCKS
    refine ⟨_, found, ⟨rfl, rfl, rfl⟩, ?_⟩
    intro later sender appealEvidence resolvers tip keeps mayAppeal fits
    obtain ⟨record, foundRecord, amends⟩ := keeps _ _ found
    rw [executeSubmitSlashAppeal_succeeds mayAppeal foundRecord, amends]
    simp only [saturatingAdd, maxValue]
    omega

end Window

/-! ## Late evidence -/

section Late

open Checksum

/-- Two votes of one validator in round 5. -/
def lateEvidence : EquivocationEvidence := ⟨.sign 5 1 7, .sign 5 2 7⟩

/-- A reporter and a staked validator. -/
def lateStore : StateStore :=
  { accounts := .insert (.insert ∅ 1 .default) 7 { AccountState.default with stake := 100 } }

def reportLate : Handler 1 :=
  executeReportEquivocation .new 2000 lateEvidence

theorem lateEvidence_valid :
    EquivocationEvidence.tryFromVotes lateEvidence.voteA lateEvidence.voteB = .ok lateEvidence := by
  decide +kernel

theorem reportLate_succeeds : reportLate.run.Succeeds lateStore :=
  executeReportEquivocation_succeeds rfl lateEvidence_valid ⟨0, by decide +kernel, by decide⟩

theorem lateEvidence_isNew :
    lateStore.slashAppeals.findEquivocationAtRound lateEvidence.voteA.validator
      lateEvidence.voteA.round = none := rfl

/-- Nothing but the deadline stands in the way of an appeal of the slash, and it is refused even
in the block of the slash. -/
theorem late_slash_not_appealable : ∃ outcome after,
    reportLate.run lateStore = .ok outcome after ∧ MayAppeal after 1 1 [] ∧
      ¬(executeSubmitSlashAppeal none 2000 1 [] : Handler 1).run.Succeeds after := by
  obtain ⟨outcome, after, ran⟩ := reportLate_succeeds
  obtain ⟨amount, recorded⟩ := ends_of_ok
    (leads_executeReportEquivocation lateEvidence_isNew lateStore rfl) ran
  have found : after.slashAppeals.slashes[1]? =
      some ⟨1, 7, amount, .equivocation, 5, 1005, false⟩ := by
    have unused : lateStore.slashAppeals.slashes[1]? = none := rfl
    have peek : lateStore.slashAppeals.peekNextSlashId = 1 := by
      simp [lateStore, SlashAppealRegistry.peekNextSlashId]
    have deadline : saturatingAdd 64 5 1000 = 1005 := by decide
    rw [recorded, peek, ← deadline]
    exact SlashAppealRegistry.recordSlashWithId_self unused 7 amount .equivocation 5 1000
  have mayAppeal : MayAppeal after 1 1 [] := by
    constructor
    · have raised := ((Command.done_of_run _ ran).bumped 0 (by decide +kernel)).1
      obtain ⟨account, foundAccount, nonce⟩ := Option.map_eq_some_iff.mp raised
      exact ⟨account, foundAccount, by rw [nonce]; decide⟩
    · exact Nat.zero_le _
    · intro slash foundSlash
      rw [found] at foundSlash
      cases foundSlash
      rfl
    · rw [recorded]
      rfl
  refine ⟨outcome, after, ran, mayAppeal, ?_⟩
  rw [executeSubmitSlashAppeal_succeeds mayAppeal found, Nat.not_le]
  exact Nat.lt_of_sub_eq_succ rfl

theorem equivocation_appeal_window_iff_late : ∃ outcome after,
    reportLate.run lateStore = .ok outcome after ∧
      ¬HasAppealWindow after.slashAppeals 2000 lateStore.slashAppeals.peekNextSlashId
        lateEvidence := by
  obtain ⟨outcome, after, ran⟩ := reportLate_succeeds
  refine ⟨outcome, after, ran, ?_⟩
  rw [equivocation_appeal_window_iff ran lateEvidence_isNew]
  rintro ⟨-, same | saturates⟩
  · cases same
  · exact absurd saturates (by decide)

end Late

end BoingNetwork
