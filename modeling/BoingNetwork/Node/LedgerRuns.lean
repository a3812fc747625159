import BoingNetwork.Node.Replay

/-!
# Ledgers over runs

What a chain keeps over any run.  A recorded vote on an appeal was cast by a ballot of an applied
transaction, for a pinned account and with the stake it had then.  A decided appeal has the votes
for its decision.  Slashes and accounts stay, and nonces do not fall.
-/

namespace BoingNetwork

open EStateM

section Runs

variable [Platform]

/-- The recorded votes give the status, at the snapshot of the electorate if there is one. -/
def ConsensusSlashAppeal.MeetsThreshold (appeal : ConsensusSlashAppeal) : Prop :=
  ∃ electorateW, (appeal.isLegacy = false → electorateW = appeal.electorateWSnapshot) ∧
    appeal.status = appeal.verdict electorateW

/-- Every approved or rejected appeal was so before, or its votes meet the threshold. -/
def Contents.DecidesByVotes (before after : Contents) : Prop :=
  ∀ (id : ℕ) (appeal : ConsensusSlashAppeal), after.slashAppeals.appeals[id]? = some appeal →
    appeal.status ≠ .pending → appeal.status ≠ .expired →
      before.slashAppeals.appeals[id]? = some appeal ∨ appeal.MeetsThreshold

/-- No account is lost, and no nonce falls but to the largest one. -/
def Contents.NoncesRise (before after : Contents) : Prop :=
  ∀ id nonce, before.nonceOf id = some nonce → ∃ next, after.nonceOf id = some next ∧
    min nonce (MachineInt.maxValue 64) ≤ next

namespace LedgerEvent

namespace AppliedTx

def resolvers (applied : AppliedTx) : Resolvers := applied.config.slashAppealResolvers

def ballot? (applied : AppliedTx) : Option Ballot :=
  payloadBallot applied.resolvers applied.tx.sender applied.tx.payload

/-- The transaction has a ballot with this vote, weighed by the ledger before it. -/
structure Casts (applied : AppliedTx) (before : Contents) (id : ℕ) (voter : AccountId)
    (vote : ResolveVote) : Prop where
  ballot : ∃ given, applied.ballot? = some given ∧ given.appealId = id ∧ voter ∈ given.voters ∧
    given.approved = vote.approved
  pinned : applied.resolvers ≠ none → voter ∈ applied.resolvers.pinned
  weight : vote.weight = voteWeight applied.resolvers before voter

end AppliedTx

variable {event : LedgerEvent} {before after : Contents} {id : ℕ} {voter : AccountId}
  {vote : ResolveVote} {appeal : ConsensusSlashAppeal}

theorem Step.voted (step : event.Step before after) : before.Voted
    (event.applied?.bind AppliedTx.resolvers) (event.applied?.bind AppliedTx.ballot?) after := by
  cases event with
  | quiet => exact Contents.voted_of_undecided step.appeals
  | redenominated =>
    rw [step]
    exact Contents.voted_of_undecided (.refl _)
  | executed env config outcome =>
    obtain ⟨index, receipt, ending⟩ := outcome
    obtain ⟨tx, isTx, ended⟩ := step
    cases ending with
    | applied rent =>
      obtain ⟨⟨middle, applied, -, kept⟩, -⟩ := ended
      rw [applied?, isTx]
      exact applied.applied.votes.undecided kept.appeals
    | merged => exact Contents.voted_of_undecided ended.1.appeals
    | failed =>
      rw [ended.1]
      exact Contents.voted_of_undecided (before.failed_failTx env.failedFee tx).appeals
  | rewarded proposer amount =>
    rw [step]
    exact Contents.voted_of_undecided (before.received_credit proposer amount).appeals
  | hooked config height proposer =>
    rw [step, Contents.hooked]
    split <;> exact Contents.voted_of_undecided (.refl _)

theorem Step.vote_of_found (step : event.Step before after)
    (found : after.slashAppeals.appeals[id]? = some appeal)
    (recorded : appeal.votes[voter]? = some vote) :
    (∃ old, before.slashAppeals.appeals[id]? = some old ∧ old.votes[voter]? = some vote) ∨
      ∃ applied, event.applied? = some applied ∧ applied.Casts before id voter vote := by
  cases step.voted.appeals id appeal found with
  | fresh isFresh =>
    rw [isFresh.1] at recorded
    simp at recorded
  | @follows old foundOld same =>
    refine .inl ⟨old, foundOld, ?_⟩
    rcases same with rfl | ⟨-, rfl⟩ <;> exact recorded
  | @voted old decided given foundOld isBallot isId pinned cast same =>
    -- An appeal may expire after the ballot in the same transaction; its votes stay.
    have inDecided : decided.votes[voter]? = some vote := by
      rcases same with rfl | ⟨-, rfl⟩ <;> exact recorded
    obtain ⟨applied, isApplied, isGiven⟩ := Option.bind_eq_some_iff.mp isBallot
    rw [isApplied, Option.bind_some] at pinned cast
    rcases cast.cast voter vote inDecided with inOld | ⟨isVoter, side, weight⟩
    · exact .inl ⟨old, foundOld, inOld⟩
    · exact .inr ⟨applied, isApplied, ⟨given, isGiven, isId, isVoter, side.symm⟩,
        fun configured => pinned configured isVoter, weight⟩

theorem Step.decidesByVotes (step : event.Step before after) : before.DecidesByVotes after := by
  intro id appeal found notPending notExpired
  cases step.voted.appeals id appeal found with
  | fresh isFresh => exact absurd isFresh.2 (not_or.mpr ⟨notPending, notExpired⟩)
  | follows foundOld same =>
    rcases same with rfl | ⟨-, rfl⟩
    · exact .inl foundOld
    · exact absurd rfl notExpired
  | voted _ _ _ _ cast same =>
    rcases same with rfl | ⟨-, rfl⟩
    · obtain ⟨electorateW, frozen, isDecided⟩ := cast.decided
      refine .inr ⟨electorateW, ?_, ?_⟩ <;> rw [isDecided]
      · exact frozen
      · rfl
    · exact absurd rfl notExpired

variable {entries : List (LedgerEvent × Contents)} {start finish : Contents}

theorem vote_of_steps (steps : Run.Steps (Run.Remembers Step) entries start finish)
    (found : finish.slashAppeals.appeals[id]? = some appeal)
    (recorded : appeal.votes[voter]? = some vote) :
    (∃ old, start.slashAppeals.appeals[id]? = some old ∧ old.votes[voter]? = some vote) ∨
      ∃ entry ∈ entries, ∃ applied, entry.1.applied? = some applied ∧
        applied.Casts entry.2 id voter vote := by
  induction entries generalizing start with
  | nil =>
    cases steps
    exact .inl ⟨appeal, found, recorded⟩
  | cons entry entries ih =>
    obtain ⟨middle, ⟨rfl, step⟩, rest⟩ := steps
    rcases ih rest with ⟨old, foundOld, inOld⟩ | ⟨later, listed, isCast⟩
    · exact (step.vote_of_found foundOld inOld).imp_right fun isCast =>
        ⟨entry, List.mem_cons_self, isCast⟩
    · exact .inr ⟨later, List.mem_cons_of_mem _ listed, isCast⟩

end LedgerEvent

namespace BlockExecutor

variable (executor : BlockExecutor) (store : StateStore) (blocks : List PinnedBlock)

/-- A relation that every event extends to the front holds over a run. -/
theorem relates_run (Relation : Contents → Contents → Prop)
    (refl : ∀ contents, Relation contents contents)
    (follow : ∀ event before middle after, LedgerEvent.Step event before middle →
      Relation middle after → Relation before after) :
    Relation store.toContents (Run.run executor.advance store blocks).toContents := by
  obtain ⟨entries, traces⟩ := exists_traces executor store blocks
  have steps := traces.steps
  clear traces
  generalize store.toContents = start at steps ⊢
  induction entries generalizing start with
  | nil =>
    rw [steps]
    exact refl start
  | cons entry entries ih =>
    obtain ⟨middle, ⟨-, step⟩, rest⟩ := steps
    exact follow _ _ _ _ step (ih middle rest)

theorem slashes_stay : store.slashAppeals.KeepsSlashes
    (Run.run executor.advance store blocks).slashAppeals :=
  executor.relates_run store blocks
    (fun before after => before.slashAppeals.KeepsSlashes after.slashAppeals)
    (fun _ => .of_eq fun _ _ found => found)
    fun _ _ _ _ step rest => step.voted.slashes.trans rest

theorem appeals_decided_by_votes :
    store.toContents.DecidesByVotes (Run.run executor.advance store blocks).toContents := by
  refine executor.relates_run store blocks _ (fun _ _ _ found _ _ => .inl found) ?_
  intro _ _ _ _ step rest id appeal found notPending notExpired
  rcases rest id appeal found notPending notExpired with between | meets
  · exact step.decidesByVotes id appeal between notPending notExpired
  · exact .inr meets

theorem nonces_rise :
    store.toContents.NoncesRise (Run.run executor.advance store blocks).toContents := by
  refine executor.relates_run store blocks _
    (fun _ _ nonce found => ⟨nonce, found, min_le_left ..⟩) ?_
  intro _ _ _ _ step rest id nonce found
  obtain ⟨next, foundNext, rises⟩ := step.nonceStep.mono found
  obtain ⟨last, foundLast, above⟩ := rest id next foundNext
  exact ⟨last, foundLast, by omega⟩

/-- Every vote was recorded at the start or cast by an applied transaction of the run. -/
theorem recorded_votes_cast :
    ∃ entries, executor.Traces store blocks entries (Run.run executor.advance store blocks) ∧
      ∀ (id : ℕ) (appeal : ConsensusSlashAppeal) (voter : AccountId) (vote : ResolveVote),
        (Run.run executor.advance store blocks).slashAppeals.appeals[id]? = some appeal →
          appeal.votes[voter]? = some vote →
        (∃ old, store.slashAppeals.appeals[id]? = some old ∧ old.votes[voter]? = some vote) ∨
          ∃ entry ∈ entries, ∃ applied, entry.1.applied? = some applied ∧
            applied.Casts entry.2 id voter vote ∧
            ∃ block ∈ blocks, applied.tx ∈ block.input.txs := by
  obtain ⟨entries, traces⟩ := exists_traces executor store blocks
  refine ⟨entries, traces, fun id appeal voter vote found recorded => ?_⟩
  refine (LedgerEvent.vote_of_steps traces.steps found recorded).imp_right ?_
  rintro ⟨entry, listed, applied, isApplied, cast⟩
  obtain ⟨block, isBlock, isTx, -⟩ := traces.applied listed isApplied
  exact ⟨entry, listed, applied, isApplied, cast, block, isBlock, isTx⟩

end BlockExecutor

end Runs

end BoingNetwork
