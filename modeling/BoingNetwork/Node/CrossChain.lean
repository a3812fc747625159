import BoingNetwork.Consensus.Steps
import BoingNetwork.Execution.EquivocationPenalty

/-!
# Votes of one key on two networks

The digest of a vote names the round and the block, and no network.  So a vote that was signed
for one network verifies on every other one.  Two votes for different blocks in one round, one on
each network, are evidence of equivocation on both, and a vote counts on the other network if
its block is pending there.  Nothing else crosses over.
-/

namespace BoingNetwork

open EStateM

/-- The rounds and block hashes of the votes that a key signed on a network. -/
abbrev SignedVotes : Type := List (ℕ × Hash)

/-- At most one block in each round. -/
def SignedVotes.OncePerRound (signed : SignedVotes) : Prop :=
  ∀ round first second, (round, first) ∈ signed → (round, second) ∈ signed → first = second

variable {signed : SignedVotes}

theorem SignedVotes.OncePerRound.of_nodup (distinct : (signed.map Prod.fst).Nodup) :
    signed.OncePerRound := by
  intro round first second isFirst isSecond
  have same := List.inj_on_of_nodup_map distinct isFirst isSecond rfl
  exact (Prod.mk.inj same).2

section Signatures

variable [Crypto]

/-- Signatures cannot be forged: a vote of the key that verifies was signed. -/
def SignedVotes.Unforged (signed : SignedVotes) (key : SigningKey) (vote : ConsensusVote) : Prop :=
  vote.validator = Crypto.verifyingKey key → vote.verify = .ok () →
    (vote.round, vote.blockHash) ∈ signed

def SignedVotes.Verifiable (signed : SignedVotes) (key : SigningKey) : Prop :=
  ∀ vote ∈ signed, (ConsensusVote.sign vote.1 vote.2 key).verify = .ok ()

end Signatures

section Networks

variable [Platform]

def SignedVotes.Slashes (signed : SignedVotes) (key : SigningKey) : Prop :=
  ∃ (vm : Vm) (height : ℕ) (reporter : AccountId) (evidence : EquivocationEvidence)
    (before after : StateStore) (outcome : ℕ × VmExecutionResult),
    signed.Unforged key evidence.voteA ∧ signed.Unforged key evidence.voteB ∧
      evidence.voteA.validator = Crypto.verifyingKey key ∧
      (executeReportEquivocation vm height evidence :
        Handler reporter).run before = .ok outcome after ∧
      after.capitalOf (Crypto.verifyingKey key) < before.capitalOf (Crypto.verifyingKey key)

def ConsensusEngine.CountsForeign (engine : ConsensusEngine) (here there : SignedVotes)
    (key : SigningKey) : Prop :=
  ∃ vote : ConsensusVote, (here ++ there : SignedVotes).Unforged key vote ∧
    vote.validator = Crypto.verifyingKey key ∧ vote.verify = .ok () ∧
    vote.round = engine.round ∧ (vote.round, vote.blockHash) ∉ here ∧
    engine.votes[vote.validator]? = none ∧
    ∃ committed next, engine.vote vote.blockHash vote.validator = (.ok committed, next)

/-- The votes of a round are for the same block on both networks. -/
def SignedVotes.Agree (here there : SignedVotes) : Prop :=
  ∀ round first second, (round, first) ∈ here → (round, second) ∈ there → first = second

variable {here there : SignedVotes} {key : SigningKey}

theorem conflict_of_report {vm : Vm} {height : ℕ} {reporter : AccountId}
    {evidence : EquivocationEvidence} {before after : StateStore}
    {outcome : ℕ × VmExecutionResult}
    (ran : (executeReportEquivocation vm height evidence :
      Handler reporter).run before = .ok outcome after) :
    ∃ built, EquivocationEvidence.tryFromVotes evidence.voteA evidence.voteB = .ok built := by
  have leads : Leads (executeReportEquivocation vm height evidence :
      Handler reporter) before.toContents fun _ _ =>
        ∃ built, EquivocationEvidence.tryFromVotes evidence.voteA evidence.voteB = .ok built := by
    refine .after ?_
    unfold slashEvidence
    split
    next => exact .fail
    next => exact .bind (.ofExcept fun built valid => .of_forall fun _ _ =>
        .of_forall fun _ _ => ⟨built, valid⟩)
  have reached := ends_of_ok (leads before rfl) ran
  exact reached

def selfReporter (validator : AccountId) : StateStore :=
  { accounts := .insert ∅ validator { AccountState.default with stake := 100 } }

theorem selfReport_lowers {validator : AccountId} {evidence : EquivocationEvidence}
    (valid : EquivocationEvidence.tryFromVotes evidence.voteA evidence.voteB = .ok evidence)
    (isValidator : evidence.voteA.validator = validator) : ∃ outcome after,
      (executeReportEquivocation Vm.new 0 evidence :
        Handler validator).run (selfReporter validator) =
          .ok outcome after ∧
        after.capitalOf validator < (selfReporter validator).capitalOf validator := by
  have found : (selfReporter validator).accounts[validator]? =
      some { AccountState.default with stake := 100 } :=
    Std.ExtTreeMap.getElem?_insert_self
  have nonce : (selfReporter validator).nonceOf validator = some 0 := by
    rw [Contents.nonceOf, found]
    rfl
  obtain ⟨outcome, after, ran⟩ := executeReportEquivocation_succeeds
    (rfl : Vm.new.equivocationSlashActive 0 = true) valid ⟨0, nonce, by decide⟩
  refine ⟨outcome, after, ran, ?_⟩
  have taken := capitalOf_executeReportEquivocation ran
  have locked : (selfReporter validator).lockedOf validator = 100 := by
    rw [Contents.lockedOf, found]
    rfl
  have isNew : (selfReporter validator).slashAppeals.findEquivocationAtRound validator
      evidence.voteA.round = none := rfl
  rw [isValidator, Contents.equivocationPenalty, isNew, locked] at taken
  have positive : 0 < slashAmount (min 100 (MachineInt.maxValue 128)) := by decide
  dsimp only at taken
  omega

theorem slashes_of_conflict {round : ℕ} {first second : Hash}
    (signedFirst : (round, first) ∈ signed) (signedSecond : (round, second) ∈ signed)
    (different : first ≠ second) (verifiable : signed.Verifiable key) : signed.Slashes key := by
  have valid : EquivocationEvidence.tryFromVotes (.sign round first key) (.sign round second key) =
      .ok ⟨.sign round first key, .sign round second key⟩ :=
    EquivocationEvidence.tryFromVotes_eq_ok.mpr ⟨rfl, rfl, different,
      verifiable (round, first) signedFirst, verifiable (round, second) signedSecond, rfl⟩
  obtain ⟨outcome, after, ran, falls⟩ := @selfReport_lowers _ (Crypto.verifyingKey key)
    ⟨.sign round first key, .sign round second key⟩ valid rfl
  exact ⟨Vm.new, 0, _, _, _, after, outcome, fun _ _ => signedFirst, fun _ _ => signedSecond, rfl,
    ran, falls⟩

theorem slashes_iff (onceHere : here.OncePerRound) (onceThere : there.OncePerRound)
    (verifiable : (here ++ there : SignedVotes).Verifiable key) :
    (here ++ there : SignedVotes).Slashes key ↔ ¬here.Agree there := by
  constructor
  · rintro ⟨vm, height, reporter, evidence, before, after, outcome, unforgedA, unforgedB, isKey,
      ran, -⟩ agree
    obtain ⟨built, valid⟩ := conflict_of_report ran
    obtain ⟨sameKey, sameRound, different, verifiedA, verifiedB, -⟩ :=
      EquivocationEvidence.tryFromVotes_eq_ok.mp valid
    have signedA := unforgedA isKey verifiedA
    have signedB := unforgedB (sameKey ▸ isKey) verifiedB
    rw [← sameRound] at signedB
    apply different
    rcases List.mem_append.mp signedA with hereA | thereA <;>
      rcases List.mem_append.mp signedB with hereB | thereB
    · exact onceHere _ _ _ hereA hereB
    · exact agree _ _ _ hereA thereB
    · exact (agree _ _ _ hereB thereA).symm
    · exact onceThere _ _ _ thereA thereB
  · intro disagree
    simp only [SignedVotes.Agree, not_forall] at disagree
    obtain ⟨round, first, second, inHere, inThere, different⟩ := disagree
    exact slashes_of_conflict (List.mem_append_left _ inHere) (List.mem_append_right _ inThere)
      different verifiable

theorem countsForeign_iff (engine : ConsensusEngine)
    (verifiable : (here ++ there : SignedVotes).Verifiable key) :
    engine.CountsForeign here there key ↔ ∃ pending, engine.pendingBlock = some pending ∧
        Crypto.verifyingKey key ∈ engine.validators ∧
        engine.votes[Crypto.verifyingKey key]? = none ∧
        (engine.round, pending.hash) ∈ there ∧ (engine.round, pending.hash) ∉ here := by
  constructor
  · rintro ⟨vote, unforged, isKey, verified, isRound, foreign, fresh, committed, next, ran⟩
    have signed := unforged isKey verified
    have outcome := ConsensusEngine.vote_cases engine vote.blockHash vote.validator
    rw [ran] at outcome
    rw [isKey] at fresh outcome
    have inThere := (List.mem_append.mp signed).resolve_left foreign
    rw [isRound] at inThere foreign
    cases outcome with
    | repeated member recorded =>
      rw [fresh] at recorded
      cases recorded
    | counted member isPending _ same =>
      exact ⟨_, isPending, member, fresh, same ▸ inThere, same ▸ foreign⟩
    | committed member isPending _ same =>
      exact ⟨_, isPending, member, fresh, same ▸ inThere, same ▸ foreign⟩
  · rintro ⟨pending, isPending, member, fresh, inThere, notHere⟩
    have signed : (engine.round, pending.hash) ∈ here ++ there := List.mem_append_right _ inThere
    have counts : ∃ committed next, engine.vote pending.hash (Crypto.verifyingKey key) =
        (.ok committed, next) := by
      have contained : engine.validators.contains (Crypto.verifyingKey key) = true := by
        simpa using member
      simp only [ConsensusEngine.vote, contained, isPending, fresh, Bool.not_true,
        Bool.false_eq_true, if_false, ne_eq, not_true_eq_false]
      split <;> exact ⟨_, _, rfl⟩
    exact ⟨.sign engine.round pending.hash key, fun _ _ => signed, rfl,
      verifiable (engine.round, pending.hash) signed, rfl, notHere, fresh, counts⟩

/-- A validator that votes at most once per round on each of two networks is not slashed, and
no vote for one network counts on the other, exactly if the votes of each round are for the same
block and no block that is pending in a round was voted for on the other network only. -/
theorem cross_chain_safe_iff (engine : ConsensusEngine) (onceHere : here.OncePerRound)
    (onceThere : there.OncePerRound) (verifiable : (here ++ there : SignedVotes).Verifiable key) :
    ¬(here ++ there : SignedVotes).Slashes key ∧ ¬engine.CountsForeign here there key ↔
      here.Agree there ∧ ∀ pending, engine.pendingBlock = some pending →
        Crypto.verifyingKey key ∈ engine.validators →
        engine.votes[Crypto.verifyingKey key]? = none →
        (engine.round, pending.hash) ∈ there → (engine.round, pending.hash) ∈ here := by
  rw [slashes_iff onceHere onceThere verifiable, countsForeign_iff engine verifiable, not_not]
  apply and_congr_right
  intro _
  constructor
  · intro uncounted pending isPending member fresh inThere
    by_contra notHere
    exact uncounted ⟨pending, isPending, member, fresh, inThere, notHere⟩
  · rintro counted ⟨pending, isPending, member, fresh, inThere, notHere⟩
    exact notHere (counted pending isPending member fresh inThere)

end Networks

section Examples

open Checksum

def votedBlock : Block := .empty ⟨0, 5, 0, 7, 0, 0, 0, none⟩

/-- An engine that votes on a block in round 5. -/
def votingEngine : ConsensusEngine :=
  { ConsensusEngine.new [7] (by decide) with round := 5, pendingBlock := some votedBlock }

/-- The pending block in round 5 on both networks, and other rounds on one network only. -/
theorem agreeing_votes_safe :
    let here : SignedVotes := [(5, votedBlock.hash), (6, 2)]
    let there : SignedVotes := [(5, votedBlock.hash), (9, 3)]
    ¬(here ++ there : SignedVotes).Slashes 7 ∧ ¬votingEngine.CountsForeign here there 7 := by
  intro here there
  have verifiable : (here ++ there : SignedVotes).Verifiable 7 := by
    unfold SignedVotes.Verifiable
    decide +kernel
  have agree : here.Agree there := by
    intro round first second inHere inThere
    grind
  refine (cross_chain_safe_iff votingEngine (.of_nodup (by decide)) (.of_nodup (by decide))
    verifiable).mpr ⟨agree, ?_⟩
  rintro pending isPending - - -
  cases isPending
  exact List.mem_cons_self

/-- Chains 1 and 2: the votes that validator 7 signed in round 5, one on each chain, are a report
on chain 1 that takes half of its stake. -/
theorem one_vote_per_chain_slashed :
    let evidence : EquivocationEvidence := ⟨.sign 5 1 7, .sign 5 2 7⟩
    let chain : Vm := { Vm.new with registrationChainId := some 1 }
    SignedVotes.OncePerRound [(5, 1)] ∧ SignedVotes.OncePerRound [(5, 2)] ∧
      ∃ outcome after, (executeReportEquivocation chain 2000 evidence :
          Handler 1).run lateStore = .ok outcome after ∧
        lateStore.capitalOf 7 = 100 ∧ after.capitalOf 7 = 50 := by
  have active : Vm.equivocationSlashActive { Vm.new with registrationChainId := some 1 } 2000 =
      true := rfl
  have capital : lateStore.capitalOf 7 = 100 := by decide +kernel
  have nonce : lateStore.nonceOf 1 = some 0 := by decide +kernel
  obtain ⟨outcome, after, ran⟩ := executeReportEquivocation_succeeds active lateEvidence_valid
    ⟨0, nonce, by decide⟩
  refine ⟨.of_nodup (by decide), .of_nodup (by decide), outcome, after, ran, capital, ?_⟩
  have taken : after.capitalOf 7 + lateStore.equivocationPenalty 7 5 = lateStore.capitalOf 7 :=
    capitalOf_executeReportEquivocation ran
  have penalty : lateStore.equivocationPenalty 7 5 = 50 := by decide +kernel
  omega

end Examples

end BoingNetwork
