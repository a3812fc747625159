import BoingNetwork.Node.Restart
import BoingNetwork.Primitives.Checksum

/-!
# One vote per round

The field `last_local_vote_round` guards against a second vote in a round.  It is
cleared by a proposal timeout and by a replaced proposal, and it is not saved
before the next commit.  As long as none of this happens after a vote of the
round, all votes a validator signs in one round are for one block.
-/

namespace BoingNetwork

structure Guarded (round : ℕ) (guard : Option ℕ) (signed : List ConsensusVote) : Prop where
  bounded : ∀ vote ∈ signed, vote.round ≤ round
  current : ∀ vote ∈ signed, vote.round = round → guard = some round
  single : ∀ first ∈ signed, ∀ second ∈ signed, first.round = second.round →
    first.blockHash = second.blockHash

namespace Guarded

variable {round next : ℕ} {guard : Option ℕ} {signed : List ConsensusVote}

variable (guarded : Guarded round guard signed)

include guarded

theorem advance (later : round < next) : Guarded next guard signed where
  bounded vote member := (guarded.bounded vote member).trans later.le
  current vote member sameRound := by
    have := guarded.bounded vote member
    omega
  single := guarded.single

theorem release (unvoted : ∀ vote ∈ signed, vote.round ≠ round) : Guarded round none signed where
  bounded := guarded.bounded
  current vote member sameRound := absurd sameRound (unvoted vote member)
  single := guarded.single

theorem unvoted (unguarded : guard ≠ some round) : ∀ vote ∈ signed, vote.round ≠ round :=
  fun vote member sameRound => unguarded (guarded.current vote member sameRound)

theorem sign (unguarded : guard ≠ some round) {vote : ConsensusVote}
    (isCurrent : vote.round = round) : Guarded round (some round) (signed ++ [vote]) := by
  have unvoted := guarded.unvoted unguarded
  have cases' {other : ConsensusVote} (member : other ∈ signed ++ [vote]) :
      other ∈ signed ∧ other.round ≠ round ∨ other = vote := by
    rcases List.mem_append.mp member with earlier | latest
    · exact .inl ⟨earlier, unvoted other earlier⟩
    · exact .inr (List.mem_singleton.mp latest)
  refine ⟨?_, fun _ _ _ => rfl, ?_⟩
  · intro other member
    rcases cases' member with ⟨earlier, -⟩ | rfl
    · exact guarded.bounded other earlier
    · exact isCurrent.le
  · intro first firstMember second secondMember sameRound
    rcases cases' firstMember with ⟨firstEarlier, firstRound⟩ | rfl <;>
      rcases cases' secondMember with ⟨secondEarlier, secondRound⟩ | rfl
    · exact guarded.single first firstEarlier second secondEarlier sameRound
    · exact absurd (sameRound.trans isCurrent) firstRound
    · exact absurd (sameRound.symm.trans isCurrent) secondRound
    · rfl

end Guarded

variable [Crypto] {Ledger : Type} {config : NodeConfig Ledger}

namespace BoingNode

variable {node next : BoingNode Ledger} {external : ℕ → Hash → AccountId → Prop} {dynamic : Prop}

def GuardsVotes (node : BoingNode Ledger) : Prop :=
  Guarded (node.chain.height + 1) node.lastLocalVoteRound node.signed

theorem Change.guardsVotes (coherent : node.Coherent external) (guarded : node.GuardsVotes)
    (change : Change external dynamic node next) : next.GuardsVotes := by
  cases change with
  | noted | buffered | vrfStored | entered | reaffirmed | cast | abandoned => exact guarded
  | released atTip unvoted => exact guarded.release (atTip ▸ unvoted)
  | votedLocally signed atTip unguarded log =>
    rw [AtTip] at atTip
    rw [atTip] at unguarded log
    rw [GuardsVotes, atTip]
    rcases log with rfl | ⟨vote, isCurrent, rfl⟩
    · exact ⟨guarded.bounded, fun _ _ _ => rfl, guarded.single⟩
    · exact guarded.sign unguarded isCurrent
  | committed pending voter update static isPending =>
    have chains := coherent.chains pending isPending
    exact guarded.advance (Nat.succ_lt_succ (Nat.lt_of_succ_le chains.2.ge))
  | caughtUp block state update writes imports chains =>
    exact guarded.advance (Nat.succ_lt_succ (Nat.lt_of_succ_le chains.2.ge))

theorem Changes.guardsVotes (coherent : node.Coherent external) (guarded : node.GuardsVotes)
    (changes : Changes external dynamic node next) : next.GuardsVotes := by
  induction changes with
  | refl => exact guarded
  | tail before change ih =>
    exact change.guardsVotes (Changes.coherent coherent before) ih

/-- Any vote may be counted. -/
def everyVote : ℕ → Hash → AccountId → Prop := fun _ _ _ => True

theorem coherent_of_idle (engineIdle : node.consensus.pendingBlock = none)
    (idle : node.pendingCommit = none) : node.Coherent everyVote where
  round isSome := by simp [engineIdle] at isSome
  pending := by rw [engineIdle, idle]; rfl
  chains pending isPending := by simp [idle] at isPending
  early _ _ _ _ _ _ := .inl trivial
  keyless _ _ _ := trivial

theorem withDataDir_eq_ok {identity : LocalValidator} {disk : Disk Ledger}
    (loaded : withDataDir identity config disk = .ok node) :
    node.consensus.round = node.chain.height + 1 ∧ node.consensus.pendingBlock = none ∧
      node.pendingCommit = none := by
  rw [withDataDir, Except.bind_eq_ok] at loaded
  obtain ⟨fresh, isFresh, loaded⟩ := loaded
  cases loaded
  unfold loadLedger at isFresh
  split at isFresh
  next =>
    cases isFresh
    exact ⟨rfl, rfl, rfl⟩
  next =>
    rw [Except.bind_eq_ok] at isFresh
    obtain ⟨chain, -, isFresh⟩ := isFresh
    cases isFresh
    exact ⟨rfl, rfl, rfl⟩

end BoingNode

namespace Host

variable {host : Host Ledger}

/-- No event makes the host forget a vote of the round it is in: neither a timeout
nor a replaced proposal after the vote, nor a restart in a round with a vote. -/
def Remembers (host : Host Ledger) : HostEvent Ledger → Prop
  | .handled event | .crashed event _ _ =>
    host.running → host.node.releasesVote event → host.node.Unvoted
  | .restarted config =>
    (host.restart config).running → ∀ vote ∈ host.node.signed,
      vote.round < (host.restart config).node.consensus.round

instance (host : Host Ledger) : ∀ event, Decidable (host.Remembers event)
  | .handled event | .crashed event _ _ =>
    inferInstanceAs (Decidable (host.running → host.node.releasesVote event → host.node.Unvoted))
  | .restarted config =>
    inferInstanceAs (Decidable ((host.restart config).running → ∀ vote ∈ host.node.signed, _))

structure Safe (host : Host Ledger) : Prop where
  single : ∀ first ∈ host.node.signed, ∀ second ∈ host.node.signed,
    first.round = second.round → first.blockHash = second.blockHash
  coherent : host.running → host.node.Coherent BoingNode.everyVote
  guarded : host.running → host.node.GuardsVotes

theorem Safe.restart (safe : host.Safe) (stopped : host.running = false)
    (earlier : (host.restart config).running → ∀ vote ∈ host.node.signed,
      vote.round < (host.restart config).node.consensus.round) : (host.restart config).Safe := by
  revert earlier
  simp only [Host.restart]
  split
  next => exact fun _ => ⟨safe.single, by simp [stopped], by simp [stopped]⟩
  next node loaded =>
    intro earlier
    obtain ⟨round, engineIdle, idle⟩ := BoingNode.withDataDir_eq_ok loaded
    have below := earlier rfl
    refine ⟨safe.single, fun _ => BoingNode.coherent_of_idle engineIdle idle, fun _ => ?_⟩
    rw [round] at below
    exact ⟨fun vote member => (below vote member).le,
      fun vote member sameRound => absurd sameRound (below vote member).ne, safe.single⟩

theorem Safe.step (safe : host.Safe) {event : HostEvent Ledger} (remembers : host.Remembers event) :
    (host.step event).Safe := by
  have changes {event : NodeEvent Ledger} (running : host.running = true)
      (remembers : host.running → host.node.releasesVote event → host.node.Unvoted) :
      BoingNode.Changes BoingNode.everyVote True host.node (host.node.handle event) :=
    BoingNode.handle_changes (safe.coherent running) (fun _ _ _ _ => .inl trivial)
      (remembers running) (.inr trivial)
  cases event with
  | handled event =>
    simp only [Host.step]
    split
    next running =>
      have handling := changes running remembers
      have guarded := handling.guardsVotes (safe.coherent running) (safe.guarded running)
      have coherent := handling.coherent (safe.coherent running)
      exact ⟨guarded.single,
        fun _ => ⟨coherent.round, coherent.pending, coherent.chains, coherent.early,
          coherent.keyless⟩, fun _ => guarded⟩
    next => exact safe
  | crashed event files votes =>
    simp only [Host.step]
    split
    next running =>
      have handling := changes running remembers
      have guarded := handling.guardsVotes (safe.coherent running) (safe.guarded running)
      have sent {vote : ConsensusVote} (member : vote ∈ host.node.signed ++
          ((host.node.handle event).signed.drop host.node.signed.length).take votes) :
          vote ∈ (host.node.handle event).signed := by
        rcases List.mem_append.mp member with earlier | latest
        · exact handling.signed_subset earlier
        · exact List.mem_of_mem_drop (List.mem_of_mem_take latest)
      exact ⟨fun first firstSent second secondSent =>
        guarded.single first (sent firstSent) second (sent secondSent), by simp, by simp⟩
    next => exact safe
  | restarted config =>
    simp only [Host.step]
    split
    next => exact safe
    next stopped => exact safe.restart (by simpa using stopped) remembers

theorem start_safe (identity : LocalValidator) (config : NodeConfig Ledger) :
    (start identity config).Safe where
  single first member := by simp [start, BoingNode.withValidators] at member
  coherent _ := BoingNode.coherent_of_idle rfl rfl
  guarded _ := ⟨by simp [start, BoingNode.withValidators],
    by simp [start, BoingNode.withValidators], by simp [start, BoingNode.withValidators]⟩

/-- In every run in which the host forgets no vote of its round, no two signed
votes of one round name different blocks, and no two of them are evidence. -/
theorem signedVotes_consistent (identity : LocalValidator) (config : NodeConfig Ledger)
    (events : List (HostEvent Ledger))
    (remembers : Run.Allowed step Remembers (start identity config) events) :
    ∀ first ∈ (Run.run step (start identity config) events).node.signed,
      ∀ second ∈ (Run.run step (start identity config) events).node.signed,
        (first.round = second.round → first.blockHash = second.blockHash) ∧
          ∀ evidence, EquivocationEvidence.tryFromVotes first second ≠ .ok evidence := by
  have safe : (Run.run step (start identity config) events).Safe :=
    Run.invariant (fun _ _ safe => safe.step) (start_safe identity config) remembers
  intro first firstSigned second secondSigned
  have single := safe.single first firstSigned second secondSigned
  refine ⟨single, fun evidence built => ?_⟩
  obtain ⟨-, sameRound, different, -⟩ := EquivocationEvidence.tryFromVotes_eq_ok.mp built
  exact different (single sameRound)

end Host

end BoingNetwork

namespace BoingNetwork.Sample

/-! ## Concrete runs -/

open Checksum

def keyHolder (key : SigningKey) : LocalValidator := ⟨key, some key, by simp [Crypto.verifyingKey]⟩

def genesis : Block := .empty ⟨0, 0, 0, 0, 0, 0, 0, none⟩

def config (anchors : List AccountId) : NodeConfig Unit where
  validators := [1, 2, 3, 4]
  validators_ne_nil := by simp
  anchors := anchors
  leaderElection := .roundRobin
  genesis := genesis
  genesisState := ()

/-- An empty block of height one. -/
def firstBlock (proposer : AccountId) (timestamp : ℕ) : Block :=
  .empty ⟨genesis.hash, 1, timestamp, proposer, 0, 0, 0, none⟩

def delivered (block : Block) : NodeEvent Unit := .networkBlock block ⟨.ok (), .ok ()⟩ .none

/-- The first view times out after the vote for its block. -/
def timeoutRun : List (HostEvent Unit) :=
  [.handled (delivered (firstBlock 2 1)), .handled (.tick true),
    .handled (delivered (firstBlock 3 1))]

/-- The fallback anchor replaces the block of a leader that is no anchor. -/
def replacementRun : List (HostEvent Unit) :=
  [.handled (delivered (firstBlock 2 1)), .handled (delivered (firstBlock 3 1))]

def restartRun : List (HostEvent Unit) :=
  [.handled (delivered (firstBlock 2 1)), .crashed (.tick false) 0 0, .restarted (config []),
    .handled (delivered (firstBlock 2 2))]

def Equivocates (host : Host Unit) : Prop :=
  ∃ first ∈ host.node.signed, ∃ second ∈ host.node.signed,
    first.round = second.round ∧ first.blockHash ≠ second.blockHash ∧
      (EquivocationEvidence.tryFromVotes first second).isOk

instance : DecidablePred Equivocates :=
  fun host => inferInstanceAs (Decidable (∃ first ∈ host.node.signed, _))

theorem signedVotes_conflict :
    Equivocates (Run.run Host.step (Host.start (keyHolder 1) (config [])) timeoutRun) ∧
      Equivocates (Run.run Host.step (Host.start (keyHolder 1) (config [3])) replacementRun) ∧
      Equivocates (Run.run Host.step (Host.start (keyHolder 1) (config [])) restartRun) := by
  decide +kernel

/-- A node that restarts before it votes signs one vote in the round. -/
theorem signedVotes_consistent_restart :
    let host := Run.run Host.step (Host.start (keyHolder 1) (config []))
      [.crashed (.tick true) 0 0, .restarted (config []), .handled (delivered (firstBlock 2 1))]
    host.node.signed.length = 1 ∧
      ∀ first ∈ host.node.signed, ∀ second ∈ host.node.signed,
        (first.round = second.round → first.blockHash = second.blockHash) ∧
          ∀ evidence, EquivocationEvidence.tryFromVotes first second ≠ .ok evidence :=
  ⟨by decide +kernel, Host.signedVotes_consistent (keyHolder 1) (config []) _ (by decide +kernel)⟩

end BoingNetwork.Sample
