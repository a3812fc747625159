import BoingNetwork.Consensus.LeaderElection
import BoingNetwork.Library.Result
import BoingNetwork.Primitives.Block
import Mathlib.Data.BitVec
import Mathlib.Data.List.Dedup
import Mathlib.Data.List.Sort

/-!
# The consensus engine

Single-round quorum commit: a proposal enters the voting phase, votes are
recorded per validator, and the block commits when the votes that count reach
the quorum.  A proposal timeout advances the view inside the round.  The engine
record carries the two invariants that its constructors establish: the validator
list is not empty, and the anchor list is sorted without repetition.
-/

namespace BoingNetwork

open MachineInt

inductive LeaderElection where
  | roundRobin
  | vrf
deriving DecidableEq

inductive ConsensusError where
  | invalidBlock (message : String)
  | insufficientVotes
  | equivocation (validator : AccountId) (round : ℕ)
deriving DecidableEq

structure ConsensusEngine where
  validators : List AccountId
  validators_ne_nil : validators ≠ []
  round : ℕ
  /-- Pacemaker view within the round. -/
  view : ℕ
  pendingBlock : Option Block
  /-- Votes for the pending block: validator to block hash. -/
  votes : Std.ExtTreeMap AccountId Hash
  leaderElection : LeaderElection
  lastCommittedVoters : List AccountId
  /-- Verified ECVRF outputs: round to validator to output. -/
  vrfProofs : Std.ExtTreeMap ℕ (Std.ExtTreeMap AccountId VrfOutput)
  anchors : List AccountId
  anchors_sorted : anchors.Pairwise (· < ·)

def sortDedup (accounts : List AccountId) : List AccountId :=
  (accounts.insertionSort (· ≤ ·)).dedup

theorem sortDedup_sorted (accounts : List AccountId) : (sortDedup accounts).Pairwise (· < ·) := by
  have sorted : (sortDedup accounts).Pairwise (· ≤ ·) :=
    (List.pairwise_insertionSort (· ≤ ·) accounts).sublist (List.dedup_sublist _)
  have distinct : (sortDedup accounts).Pairwise (· ≠ ·) := List.nodup_dedup _
  exact (sorted.and distinct).imp fun {_ _} ordered => BitVec.lt_of_le_ne ordered.1 ordered.2

namespace ConsensusEngine

/-- The caller passes a non-empty validator list (the source asserts it). -/
def new (validators : List AccountId) (nonempty : validators ≠ []) : ConsensusEngine where
  validators := validators
  validators_ne_nil := nonempty
  round := 0
  view := 0
  pendingBlock := none
  votes := ∅
  leaderElection := .roundRobin
  lastCommittedVoters := []
  vrfProofs := ∅
  anchors := []
  anchors_sorted := List.Pairwise.nil

variable (engine : ConsensusEngine)

def setAnchors (anchors : List AccountId) : ConsensusEngine :=
  { engine with
    anchors := sortDedup anchors
    anchors_sorted := sortDedup_sorted anchors
    votes := ∅ }

/-- Anchors that are members of the current validator set. -/
def activeAnchors : List AccountId :=
  engine.anchors.filter fun anchor => engine.validators.contains anchor

theorem validators_length_pos : 0 < engine.validators.length :=
  List.length_pos_iff.mpr engine.validators_ne_nil

def roundRobinIndexAt (round view : ℕ) : Fin engine.validators.length :=
  ⟨wrappingAdd 64 round view % max engine.validators.length 1, by
    have positive := engine.validators_length_pos
    rw [max_eq_left positive]
    exact Nat.mod_lt _ positive⟩

def fallbackAnchorAt (round view : ℕ) : Option AccountId :=
  engine.activeAnchors[wrappingAdd 64 round view % engine.activeAnchors.length]?

def isAnchor (account : AccountId) : Bool :=
  engine.anchors.contains account

/-- Largest tolerated number of faulty validators. -/
def f : ℕ := (engine.validators.length - 1) / 3

def quorum : ℕ :=
  if engine.anchors.isEmpty then 2 * engine.f + 1
  else if engine.activeAnchors.length = 0 then 2 * engine.f + 1
  else
    let f := (engine.activeAnchors.length - 1) / 3
    (engine.activeAnchors.length + f) / 2 + 1

def abandonProposal : ConsensusEngine :=
  { engine with
    pendingBlock := none
    votes := ∅
    view := saturatingAdd 64 engine.view 1 }

def setLeaderElection (mode : LeaderElection) : ConsensusEngine :=
  { engine with
    leaderElection := mode
    vrfProofs := if mode = .vrf then engine.vrfProofs else ∅ }

/-- The caller passes a non-empty validator list (the source asserts it). -/
def setValidators (newValidators : List AccountId) (nonempty : newValidators ≠ []) :
    ConsensusEngine :=
  { engine with
    validators := newValidators
    validators_ne_nil := nonempty
    pendingBlock := none
    votes := ∅
    view := 0
    lastCommittedVoters := []
    vrfProofs := ∅ }

def enterVotingPhase (block : Block) : ConsensusEngine :=
  { engine with pendingBlock := some block, votes := ∅ }

def syncRound (nextBlockHeight : ℕ) : ConsensusEngine :=
  { engine with
    round := nextBlockHeight
    view := 0
    pendingBlock := none
    votes := ∅
    lastCommittedVoters := [] }

variable [Crypto]

def leaderAt (round view : ℕ) : AccountId :=
  let roundRobin := engine.validators.get (engine.roundRobinIndexAt round view)
  match engine.leaderElection with
  | .roundRobin => roundRobin
  | .vrf =>
    if view = 0 then
      match (engine.vrfProofs[round]?).bind fun proofs =>
          leaderFromEcvrfProofs engine.validators round proofs.toList with
      | some leader => leader
      | none => (leaderFromVrf engine.validators (dummyVrfOutput round)).get
          (leaderFromVrf_isSome engine.validators_ne_nil _)
    else roundRobin

def mayProposeAt (round view : ℕ) (who : AccountId) : Bool :=
  engine.validators.contains who &&
    (engine.leaderAt round view == who || engine.fallbackAnchorAt round view == some who)

def earliestEligibleView (round : ℕ) (who : AccountId) : Option ℕ :=
  if engine.validators.contains who then
    let bound := max (saturatingMul 64 (max engine.validators.length 1) 2) 8
    (List.range bound).findSome? fun delta =>
      let view := saturatingAdd 64 engine.view delta
      if engine.mayProposeAt round view who then some view else none
  else none

def mayPropose (round : ℕ) (who : AccountId) : Bool :=
  engine.mayProposeAt round engine.view who

def leader (round : ℕ) : AccountId :=
  engine.leaderAt round engine.view

/-- Votes for `want`, in key order (the source iterates a hash map). -/
def matchingVotes (want : Hash) : List (AccountId × Hash) :=
  engine.votes.toList.filter fun entry => entry.2 == want

def countedVotes : ℕ :=
  match engine.pendingBlock with
  | none => 0
  | some pending =>
    let matching := engine.matchingVotes pending.hash
    if engine.anchors.isEmpty || engine.activeAnchors.isEmpty then matching.length
    else (matching.filter fun entry => engine.activeAnchors.contains entry.1).length

/-- The checks before an ECVRF proof is stored. -/
def admitsVrfProof (validator : AccountId) (round : ℕ) (vrf : VrfOutput) : Bool :=
  engine.leaderElection == .vrf && engine.validators.contains validator &&
    verifyEcvrfOutput validator round vrf

def insertVrfProof (validator : AccountId) (round : ℕ) (vrf : VrfOutput) :
    Bool × ConsensusEngine :=
  match engine.admitsVrfProof validator round vrf with
  | false => (false, engine)
  | true =>
    let proofs := (engine.vrfProofs[round]?).getD ∅
    let inserted := engine.vrfProofs.insert round (proofs.insert validator vrf)
    let keepFrom := engine.round - 1
    (true, { engine with vrfProofs := inserted.filter fun kept _ => decide (keepFrom ≤ kept) })

/-- Height and membership checks shared by proposing and accepting. -/
def validateProposal (block : Block) : Except ConsensusError Unit :=
  if block.header.height ≠ engine.round then
    .error (.invalidBlock
      s!"Block height {block.header.height} != expected round {engine.round}")
  else if !engine.validators.contains block.header.proposer then
    .error (.invalidBlock "Proposer not in validator set")
  else .ok ()

def validateProposalCurrentView (block : Block) : Except ConsensusError Unit := do
  engine.validateProposal block
  if !engine.mayPropose engine.round block.header.proposer then
    .error (.invalidBlock (s!"Proposer {AccountId.debug block.header.proposer} is not eligible " ++
      s!"at round {engine.round} view {engine.view}"))
  else .ok ()

def propose (block : Block) : Except ConsensusError Unit × ConsensusEngine :=
  match engine.validateProposalCurrentView block with
  | .error error => (.error error, engine)
  | .ok _ => (.ok (), engine.enterVotingPhase block)

/-- What accepting a proposal does to the engine. -/
inductive AcceptAction where
  /-- The block is already pending; only the view may advance. -/
  | keepPending (view : ℕ)
  /-- The block becomes pending in `view`, without votes. -/
  | enterVotingPhase (view : ℕ)

def replaceAction (block : Block) (eligibleView : ℕ) : Except ConsensusError AcceptAction :=
  match engine.pendingBlock with
  | none => .ok (.enterVotingPhase eligibleView)
  | some pending =>
    if pending.hash = block.hash then
      .ok (.keepPending (if engine.view < eligibleView then eligibleView else engine.view))
    else if eligibleView < engine.view then
      .error (.invalidBlock "Stale-view proposal while a newer view is pending")
    else if eligibleView = engine.view then
      -- same view: only the fallback anchor replaces a non-anchor proposal
      if engine.fallbackAnchorAt engine.round engine.view == some block.header.proposer &&
          !engine.isAnchor pending.header.proposer then
        .ok (.enterVotingPhase engine.view)
      else .error (.invalidBlock "Different pending block already in voting phase")
    else .ok (.enterVotingPhase eligibleView)

/-- Follower path: a proposal of the current or the next view. -/
def acceptAction (block : Block) : Except ConsensusError AcceptAction := do
  engine.validateProposal block
  match engine.earliestEligibleView engine.round block.header.proposer with
  | none =>
    .error (.invalidBlock (s!"Proposer {AccountId.debug block.header.proposer} is not eligible " ++
      s!"at round {engine.round} (view≥{engine.view})"))
  | some eligibleView =>
    if saturatingAdd 64 engine.view 1 < eligibleView then
      .error (.invalidBlock (s!"Proposal view {eligibleView} is ahead of local view " ++
        s!"{engine.view} (accept view+1 only)"))
    else engine.replaceAction block eligibleView

def acceptProposal (block : Block) : Except ConsensusError Unit × ConsensusEngine :=
  match engine.acceptAction block with
  | .error error => (.error error, engine)
  | .ok (.keepPending view) => (.ok (), { engine with view := view })
  | .ok (.enterVotingPhase view) => (.ok (), { engine with view := view }.enterVotingPhase block)

def commitRound (blockHash : Hash) : ConsensusEngine :=
  { engine with
    lastCommittedVoters := (engine.matchingVotes blockHash).map Prod.fst
    round := MachineInt.wrappingAdd 64 engine.round 1
    view := 0
    pendingBlock := none
    votes := ∅ }

def recordVote (blockHash : Hash) (validator : AccountId) : ConsensusEngine :=
  { engine with votes := engine.votes.insert validator blockHash }

/-- Submit a vote; the result is the committed hash when the quorum is reached.
A vote for another hash than the pending one is kept, so that a later conflicting
vote of the validator is detected. -/
def vote (blockHash : Hash) (validator : AccountId) :
    Except ConsensusError (Option Hash) × ConsensusEngine :=
  if !engine.validators.contains validator then
    (.error (.invalidBlock "Voter not in validator set"), engine)
  else match engine.pendingBlock with
    | none => (.error (.invalidBlock "No pending block to vote on"), engine)
    | some pending =>
      match engine.votes[validator]? with
      | some previous =>
        if previous ≠ blockHash then (.error (.equivocation validator engine.round), engine)
        else (.ok none, engine)
      | none =>
        let voted := engine.recordVote blockHash validator
        if pending.hash ≠ blockHash then
          (.error (.invalidBlock "Vote for wrong block hash"), voted)
        else if voted.quorum ≤ voted.countedVotes then
          (.ok (some pending.hash), voted.commitRound pending.hash)
        else (.ok none, voted)

end ConsensusEngine

end BoingNetwork
