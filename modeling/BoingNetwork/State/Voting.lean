import BoingNetwork.State.RegistryLaws

/-!
# Votes on appeals

What a successful cast does to the appeal book: the votes of one ballot are added to a
pending appeal, which is decided if one side then has two thirds of the electorate.  All
other appeals stay as they are.
-/

namespace BoingNetwork

open EStateM

/-- A vote of several accounts for one side of an appeal. -/
structure Ballot where
  appealId : ℕ
  approved : Bool
  voters : List AccountId

/-- The decision by the recorded votes. -/
def ConsensusSlashAppeal.verdict (appeal : ConsensusSlashAppeal) (electorateW : ℕ) :
    ConsensusAppealStatus :=
  if phase17ResolveThresholdMet (SlashAppealRegistry.weightTallies appeal).1 electorateW then
    .approved
  else if phase17ResolveThresholdMet (SlashAppealRegistry.weightTallies appeal).2 electorateW then
    .rejected
  else .pending

/-- The same slash, perhaps reversed meanwhile. -/
def ConsensusSlashRecord.Amends (later slash : ConsensusSlashRecord) : Prop :=
  later = { slash with reversed := later.reversed }

theorem ConsensusSlashRecord.Amends.trans {first second third : ConsensusSlashRecord}
    (later : third.Amends second) (earlier : second.Amends first) : third.Amends first := by
  rw [earlier] at later
  exact later

variable (appealId : ℕ) (votes : List (AccountId × Bool × ℕ × Option Signature))
  {registry : SlashAppealRegistry} {appeal : ConsensusSlashAppeal}

namespace SlashAppealRegistry

/-- The listed votes were added; none was replaced. -/
def AddsVotes (votes : List (AccountId × Bool × ℕ × Option Signature))
    (before after : Std.ExtTreeMap AccountId ResolveVote) : Prop :=
  (∀ (voter : AccountId) (vote : ResolveVote), before[voter]? = some vote →
    after[voter]? = some vote) ∧
  ∀ (voter : AccountId) (vote : ResolveVote), after[voter]? = some vote →
    before[voter]? = some vote ∨
      (voter, vote.approved, vote.weight, vote.ballotSignature) ∈ votes

/-- Recorded slashes stay, but one may be reversed. -/
def KeepsSlashes (before after : SlashAppealRegistry) : Prop :=
  ∀ (id : ℕ) (slash : ConsensusSlashRecord), before.slashes[id]? = some slash →
    ∃ later, after.slashes[id]? = some later ∧ later.Amends slash

theorem KeepsSlashes.of_eq {before after : SlashAppealRegistry}
    (same : ∀ (id : ℕ) (slash : ConsensusSlashRecord), before.slashes[id]? = some slash →
      after.slashes[id]? = some slash) : before.KeepsSlashes after :=
  fun id slash found => ⟨slash, same id slash found, rfl⟩

theorem KeepsSlashes.trans {start middle finish : SlashAppealRegistry}
    (first : start.KeepsSlashes middle) (second : middle.KeepsSlashes finish) :
    start.KeepsSlashes finish := by
  intro id slash found
  obtain ⟨between, foundBetween, amends⟩ := first id slash found
  obtain ⟨later, foundLater, also⟩ := second id between foundBetween
  exact ⟨later, foundLater, also.trans amends⟩

theorem keepsSlashes_reverse {slashId : ℕ} {slash : ConsensusSlashRecord}
    (found : registry.slashes[slashId]? = some slash)
    (appeals : Std.ExtTreeMap ℕ ConsensusSlashAppeal) (nextAppealId nextSlashId : ℕ) :
    registry.KeepsSlashes ⟨registry.slashes.insert slashId { slash with reversed := true }, appeals,
      nextAppealId, nextSlashId⟩ := by
  intro id old foundOld
  simp only [Std.ExtTreeMap.getElem?_insert, compare_eq_iff_eq]
  split
  next same =>
    subst same
    rw [found] at foundOld
    cases foundOld
    exact ⟨_, rfl, rfl⟩
  next => exact ⟨old, foundOld, rfl⟩

structure Replaces (appealId : ℕ) (appeal : ConsensusSlashAppeal)
    (before after : SlashAppealRegistry) : Prop where
  appeals : ∀ id : ℕ, after.appeals[id]? =
    if appealId = id then some appeal else before.appeals[id]?
  slashes : before.KeepsSlashes after

theorem replaces_insert (appeal : ConsensusSlashAppeal)
    {slashes : Std.ExtTreeMap ℕ ConsensusSlashRecord} {nextAppealId nextSlashId : ℕ}
    (kept : registry.KeepsSlashes
      ⟨slashes, registry.appeals.insert appealId appeal, nextAppealId, nextSlashId⟩) :
    registry.Replaces appealId appeal
      ⟨slashes, registry.appeals.insert appealId appeal, nextAppealId, nextSlashId⟩ where
  appeals id := by simp only [Std.ExtTreeMap.getElem?_insert, compare_eq_iff_eq]
  slashes := kept

theorem Replaces.trans {appealId : ℕ} {first second : ConsensusSlashAppeal}
    {start middle finish : SlashAppealRegistry} (one : start.Replaces appealId first middle)
    (other : middle.Replaces appealId second finish) : start.Replaces appealId second finish where
  appeals id := by
    rw [other.appeals id]
    split
    · rfl
    next apart => rw [one.appeals id, if_neg apart]
  slashes := one.slashes.trans other.slashes

theorem insertVotes_ends (registry : SlashAppealRegistry)
    (found : registry.appeals[appealId]? = some appeal) :
    (insertVotes appealId votes).Ends registry (fun _ => True) fun _ next =>
      ∃ cast, AddsVotes votes appeal.votes cast ∧
        registry.Replaces appealId { appeal with votes := cast } next := by
  induction votes generalizing registry appeal with
  | nil =>
    refine ⟨appeal.votes, ⟨fun _ _ same => same, fun _ _ same => .inl same⟩, ?_,
      .of_eq fun _ _ same => same⟩
    intro id
    split
    next same => rw [← same, found]
    next => rfl
  | cons vote votes ih =>
    obtain ⟨voter, approved, weight, ballotSignature⟩ := vote
    rw [insertVotes, ends_bind, ends_get, found]
    dsimp only
    split
    · trivial
    next isNew =>
      have absent : appeal.votes[voter]? = none :=
        Std.ExtTreeMap.getElem?_eq_none (by simpa using isNew)
      apply (ih _ (Std.ExtTreeMap.getElem?_insert_self ..)).imp
      rintro _ next ⟨cast, ⟨kept, added⟩, replaced⟩
      refine ⟨cast, ⟨?_, ?_⟩,
        (replaces_insert appealId _ (.of_eq fun _ _ same => same)).trans replaced⟩
      · intro other otherVote foundOther
        apply kept
        rw [Std.ExtTreeMap.getElem?_insert, if_neg]
        · exact foundOther
        · intro same
          rw [← Std.LawfulEqCmp.eq_of_compare same, absent] at foundOther
          cases foundOther
      · intro other otherVote foundOther
        rcases added other otherVote foundOther with before | listed
        · rw [Std.ExtTreeMap.getElem?_insert] at before
          split at before
          next same =>
            cases before
            rw [← Std.LawfulEqCmp.eq_of_compare same]
            exact .inr List.mem_cons_self
          next => exact .inl before
        · exact .inr (List.mem_cons_of_mem _ listed)

theorem finalizeAppeal_ends (slashId : ℕ) (approved : Bool) (registry : SlashAppealRegistry)
    (found : registry.appeals[appealId]? = some appeal) :
    (finalizeAppeal appealId slashId approved).Ends registry (fun _ => True) fun _ next =>
      registry.Replaces appealId
        { appeal with status := if approved then .approved else .rejected } next := by
  rw [finalizeAppeal, ends_bind, ends_get, found]
  rw [ends_bind, ends_modify, ends_bind, ends_get]
  split
  · trivial
  next slash foundSlash =>
    split
    · exact replaces_insert appealId _ (.of_eq fun _ _ same => same)
    split
    · trivial
    · exact replaces_insert appealId _ (keepsSlashes_reverse foundSlash _ _ _)

theorem castResolveVotesBatch_ends (electorateW : ℕ) (registry : SlashAppealRegistry) :
    (castResolveVotesBatch appealId votes electorateW).Ends registry (fun _ => True) fun _ next =>
      ∃ appeal cast, registry.appeals[appealId]? = some appeal ∧ appeal.status = .pending ∧
        AddsVotes votes appeal.votes cast ∧ registry.Replaces appealId { appeal with
          votes := cast
          status := ConsensusSlashAppeal.verdict { appeal with votes := cast } electorateW }
          next := by
  rw [castResolveVotesBatch, ends_bind, ends_get]
  cases found : registry.appeals[appealId]? with
  | none => trivial
  | some appeal =>
    dsimp only
    split
    · trivial
    next isPending =>
      rw [ends_bind]
      apply (insertVotes_ends appealId votes registry found).imp
      rintro _ middle ⟨cast, added, replaced⟩
      rw [ends_bind, ends_get]
      have foundVoted := replaced.appeals appealId
      rw [if_pos rfl] at foundVoted
      rw [foundVoted]
      dsimp only
      have pending := not_not.mp isPending
      have decides : ∀ approved, ConsensusSlashAppeal.verdict { appeal with votes := cast }
          electorateW = (if approved then .approved else .rejected) → (do
            finalizeAppeal appealId appeal.slashId approved
            return CastResolveOutcome.finalized approved :
              EStateM SlashAppealError SlashAppealRegistry CastResolveOutcome).Ends middle
            (fun _ => True) fun _ next =>
              ∃ other cast, some appeal = some other ∧ other.status = .pending ∧
                AddsVotes votes other.votes cast ∧ registry.Replaces appealId { other with
                  votes := cast
                  status := ConsensusSlashAppeal.verdict { other with votes := cast }
                    electorateW } next := by
        intro approved isVerdict
        rw [ends_bind]
        apply (finalizeAppeal_ends appealId appeal.slashId approved middle foundVoted).mono
        · intro _ _
          trivial
        · intro _ next decided
          refine ⟨appeal, cast, rfl, pending, added, ?_⟩
          rw [isVerdict]
          exact replaced.trans decided
      split
      next approves =>
        exact decides true (by simp only [ConsensusSlashAppeal.verdict, approves, if_true])
      split
      next approves rejects =>
        exact decides false (by
          simp only [ConsensusSlashAppeal.verdict, approves, rejects, if_true, if_false,
            Bool.false_eq_true])
      next approves rejects =>
        refine ⟨appeal, cast, rfl, pending, added, ?_⟩
        simp only [ConsensusSlashAppeal.verdict, approves, rejects]
        rw [← pending]
        exact replaced

end SlashAppealRegistry

end BoingNetwork
