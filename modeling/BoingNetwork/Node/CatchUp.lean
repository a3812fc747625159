import BoingNetwork.Node.Agreement

/-!
# Blocks fetched from peers

A node that has fallen behind fetches blocks and appends those that pass the checks of an
import, without votes.  The checks ask whether the proposer may propose in the view of the
importing node, and not whether a quorum committed the block.  So a block that was committed
in a later view can be refused, and a block that nobody committed can be appended.
-/

namespace BoingNetwork

variable [Crypto] {Ledger : Type} {network : Network Ledger} {verdict : Verdict Ledger}
  {block : Block}

namespace BoingNode

variable {node : BoingNode Ledger}

theorem importBlock_eq_ok {state : Ledger} : node.importBlock block verdict = .ok state ↔
      node.chain.Chains block ∧ verdict.before = .ok () ∧
        node.consensus.mayPropose block.header.height block.header.proposer ∧
        verdict.after = .ok state := by
  have chained : chainsTo block node.chain.latestHash node.chain.height ↔
      node.chain.Chains block := by
    simp [chainsTo, ChainState.Chains]
  unfold importBlock
  by_cases chains : node.chain.Chains block
  · rw [if_neg (by simpa using chained.mpr chains)]
    cases verdict.before with
    | error error => simp [bind, Except.bind]
    | ok =>
      by_cases eligible : node.consensus.mayPropose block.header.height block.header.proposer
      · have member : node.consensus.validators.contains block.header.proposer := by
          simp only [ConsensusEngine.mayPropose, ConsensusEngine.mayProposeAt,
            Bool.and_eq_true] at eligible
          exact eligible.1
        simp [bind, Except.bind, chains, eligible, List.contains_iff_mem.mp member]
      · -- a validator that is not eligible is not the leader of the view
        simp only [bind, Except.bind, if_neg eligible]
        split
        next => simp [eligible]
        next member =>
          have differs : block.header.proposer ≠ node.consensus.leader block.header.height := by
            intro isLeader
            apply eligible
            simp only [Bool.not_eq_true', Bool.not_eq_false] at member
            simp only [ConsensusEngine.mayPropose, ConsensusEngine.mayProposeAt, member]
            rw [← ConsensusEngine.leader, ← isLeader]
            simp
          simp [differs, eligible]
  · rw [if_pos (by simpa using fun holds => chains (chained.mp holds))]
    simp [chains]

theorem importNetworkBlockCatchup_eq_ok {update : ValidatorUpdate} :
    (node.importNetworkBlockCatchup block verdict update).1 = .ok () ↔
      ∃ state, node.importBlock block verdict = .ok state := by
  unfold importNetworkBlockCatchup
  cases imported : node.importBlock block verdict with
  | error error => simp
  | ok state =>
    rw [ChainState.append_of_chains (importBlock_chains imported)]
    simp

/-- The node has accepted the block for its vote, or has built it itself, and then the checks
that do not depend on a node pass. -/
def VotesFor (node : BoingNode Ledger) (block : Block) (verdict : Verdict Ledger) : Prop :=
  (∃ update committed, (node.handleNetworkBlock block verdict update).1 = .ok committed) ∨
    ∃ anchorFallback draft proposal,
      node.produceProposalWithFallback anchorFallback draft = some proposal ∧
        proposal.block = block ∧ verdict = ⟨.ok (), .ok proposal.newState⟩

/-- A block that a node votes for, one that it has built itself included, is accepted by another
node with the same tip exactly if its proposer may propose in the view of that other node. -/
theorem catchup_accepts_iff {voter importer : BoingNode Ledger} {importUpdate : ValidatorUpdate}
    (votes : voter.VotesFor block verdict)
    (sameParent : importer.chain.latestHash = voter.chain.latestHash)
    (sameHeight : importer.chain.height = voter.chain.height) :
    (importer.importNetworkBlockCatchup block verdict importUpdate).1 = .ok () ↔
      importer.consensus.mayPropose block.header.height block.header.proposer := by
  obtain ⟨chains, before, state, after⟩ : voter.chain.Chains block ∧ verdict.before = .ok () ∧
      ∃ state, verdict.after = .ok state := by
    rcases votes with ⟨update, committed, accepted⟩ | ⟨_, _, proposal, produced, rfl, rfl⟩
    · unfold handleNetworkBlock at accepted
      split at accepted
      next => cases accepted
      next state imported =>
        obtain ⟨chains, before, -, after⟩ := importBlock_eq_ok.mp imported
        exact ⟨chains, before, state, after⟩
    · exact ⟨produceProposal_chains produced, rfl, proposal.newState, rfl⟩
  have follows : importer.chain.Chains block :=
    ⟨chains.1.trans sameParent.symm, chains.2.trans (by rw [sameHeight])⟩
  rw [importNetworkBlockCatchup_eq_ok]
  constructor
  · rintro ⟨_, fetched⟩
    exact (importBlock_eq_ok.mp fetched).2.2.1
  · intro eligible
    exact ⟨state, importBlock_eq_ok.mpr ⟨follows, before, eligible, after⟩⟩

/-! ## Fetched blocks and quorums -/

def fetched (node : BoingNode Ledger) (block : Block) (state : Ledger) : BoingNode Ledger :=
  { node with
    chain := node.chain.extend block
    state := state
    consensus := node.consensus.syncRound (block.header.height + 1)
    pendingCommit := none
    writes := node.writes ++ persistBlockAndState block state }

instance (external : ℕ → Hash → AccountId → Prop)
    [decision : ∀ round blockHash voter, Decidable (external round blockHash voter)] (height : ℕ)
    (blockHash : Hash) : Decidable (node.Certified external height blockHash) :=
  have (voter : AccountId) : Decidable (node.Justified external height blockHash voter) :=
    inferInstanceAs (Decidable (_ ∨ _))
  decidable_of_iff (node.consensus.quorum ≤
      (node.consensus.electorate.filter (node.Justified external height blockHash)).card) <| by
    constructor
    · intro large
      exact ⟨_, Finset.filter_subset _ _, large,
        fun voter member => (Finset.mem_filter.mp member).2⟩
    · rintro ⟨voters, subset, large, justified⟩
      exact large.trans (Finset.card_le_card fun voter member =>
        Finset.mem_filter.mpr ⟨subset member, justified voter member⟩)

theorem handle_catchupBlock : node.handle (.catchupBlock block verdict .none) =
      match node.importBlock block verdict with
      | .ok state => node.fetched block state
      | .error _ => node := by
  change (node.importNetworkBlockCatchup block verdict .none).2 = _
  unfold importNetworkBlockCatchup
  cases imported : node.importBlock block verdict with
  | error error => rfl
  | ok state =>
    rw [ChainState.append_of_chains (importBlock_chains imported)]
    rfl

theorem Backed.fetched {external : ℕ → Hash → AccountId → Prop}
    {genesis : Hash} (backed : node.Backed external genesis)
    (chains : node.chain.Chains block)
    (certified : node.Certified external block.header.height block.hash) (state : Ledger) :
    (node.fetched block state).Backed external genesis where
  votes voter blockHash voted := by simp [BoingNode.fetched, ConsensusEngine.syncRound] at voted
  chain height found isBlock := by
    simp only [BoingNode.fetched, ChainState.extend, Std.ExtTreeMap.getElem?_insert] at isBlock
    split at isBlock
    next same =>
      obtain rfl := Std.LawfulEqCmp.eq_of_compare same
      obtain rfl := Option.some.inj isBlock
      exact .inr ⟨by rw [chains.2]; exact Nat.succ_pos _, certified⟩
    next => exact backed.chain height found isBlock

end BoingNode

namespace Setup

variable {setup : Setup Ledger} {built : List Block}

variable (setup) in
def Fetchable (network : Network Ledger) (delivery : Delivery Ledger) : Prop :=
  match delivery.event with
  | .catchupBlock _ _ update => update = .none
  | event => event.Static ∧ setup.Authentic network event

variable (setup) in
/-- A quorum has committed the block, if it is on the tip of the node and its proposer may propose
in the view of the node. -/
def Commits (network : Network Ledger) (account : AccountId) (block : Block) : Prop :=
  (network account).chain.Chains block →
  (network account).consensus.mayPropose block.header.height block.header.proposer →
    (network account).Certified (setup.Admitted network) block.header.height block.hash

variable (setup) in
/-- A fetched block is one of those that were built, and a quorum has committed each of them that
the receiver may take for the block of its view. -/
def Settled (built : List Block) (network : Network Ledger) (delivery : Delivery Ledger) : Prop :=
  match delivery.event with
  | .catchupBlock fetched _ _ =>
    fetched ∈ built ∧ ∀ block ∈ built, setup.Commits network delivery.receiver block
  | _ => True

instance (network : Network Ledger) (round : ℕ) (blockHash : Hash) (voter : AccountId) :
    Decidable (setup.Admitted network round blockHash voter) :=
  inferInstanceAs (Decidable (_ → _))

instance (network : Network Ledger) : DecidablePred (setup.Fetchable network)
  | ⟨_, .catchupBlock _ _ update⟩ => inferInstanceAs (Decidable (update = .none))
  | ⟨_, .networkBlock _ _ _⟩ | ⟨_, .consensusVote _ _⟩ | ⟨_, .tick _⟩ | ⟨_, .produce _ _ _ _⟩
  | ⟨_, .vrfProof _ _ _⟩ => inferInstanceAs (Decidable (_ ∧ _))

instance (network : Network Ledger) (account : AccountId) (block : Block) :
    Decidable (setup.Commits network account block) :=
  have : Decidable ((network account).chain.Chains block) := inferInstanceAs (Decidable (_ ∧ _))
  inferInstanceAs (Decidable (_ → _ → _))

instance (built : List Block) (network : Network Ledger) :
    DecidablePred (setup.Settled built network)
  | ⟨_, .catchupBlock _ _ _⟩ => inferInstanceAs (Decidable (_ ∧ ∀ block ∈ built, setup.Commits ..))
  | ⟨_, .networkBlock _ _ _⟩ | ⟨_, .consensusVote _ _⟩ | ⟨_, .tick _⟩ | ⟨_, .produce _ _ _ _⟩
  | ⟨_, .vrfProof _ _ _⟩ => isTrue trivial

/-- Appending a block with a certificate keeps everything certified. -/
theorem fetch_step {receiver : AccountId} (sound : setup.AllSound network)
    (settled : setup.Settled built network ⟨receiver, .catchupBlock block verdict .none⟩) :
    setup.AllSound (network.step ⟨receiver, .catchupBlock block verdict .none⟩) := by
  unfold Network.step
  rw [BoingNode.handle_catchupBlock]
  cases imported : (network receiver).importBlock block verdict with
  | error error => rwa [Function.update_eq_self]
  | ok state =>
    -- what the checks of the import give
    obtain ⟨chains, -, eligible, -⟩ := BoingNode.importBlock_eq_ok.mp imported
    have certified := settled.2 block settled.1 chains eligible
    -- no vote is signed, so the same votes are admitted
    have signed : ∀ voter, (Function.update network receiver
        ((network receiver).fetched block state) voter).signed = (network voter).signed := by
      intro voter
      by_cases isReceiver : voter = receiver
      · rw [isReceiver, Function.update_self]
        rfl
      · rw [Function.update_of_ne isReceiver]
    have admitted : setup.Admitted (Function.update network receiver
        ((network receiver).fetched block state)) = setup.Admitted network := by
      funext round blockHash voter
      simp only [Admitted, BoingNode.Signed, signed]
    intro account correct
    have before := sound account correct
    by_cases isReceiver : account = receiver
    · subst isReceiver
      have change : BoingNode.Change (setup.Admitted network) True (network account)
          ((network account).fetched block state) :=
        .caughtUp block state .none _ trivial chains
      constructor <;> rw [Function.update_self]
      · exact before.identity
      · exact before.validators
      · exact before.anchors
      · rw [admitted]
        exact change.coherent before.coherent
      · exact change.guardsVotes before.coherent before.guarded
      · rw [admitted]
        exact before.backed.fetched chains certified state
    · constructor <;> rw [Function.update_of_ne isReceiver]
      · exact before.identity
      · exact before.validators
      · exact before.anchors
      · rw [admitted]
        exact before.coherent
      · exact before.guarded
      · rw [admitted]
        exact before.backed

theorem fetchable_step {delivery : Delivery Ledger} (sound : setup.AllSound network)
    (allowed : setup.Fetchable network delivery ∧ setup.Remembers network delivery ∧
      setup.Settled built network delivery) : setup.AllSound (network.step delivery) := by
  obtain ⟨fetchable, remembers, settled⟩ := allowed
  obtain ⟨receiver, event⟩ := delivery
  cases event with
  | catchupBlock block verdict update =>
    obtain rfl : update = .none := fetchable
    exact fetch_step sound settled
  | _ => exact sound_step sound ⟨fetchable, remembers⟩

end Setup

end BoingNetwork

namespace BoingNetwork.Sample

open Checksum

def passes : Verdict Unit := ⟨.ok (), .ok ()⟩

def fetchResult (node : BoingNode Unit) (block : Block) : Option BlockValidationError :=
  match (node.importNetworkBlockCatchup block passes .none).1 with
  | .ok _ => none
  | .error error => some error

def viewChangeRun : List (Delivery Unit) :=
  [receives 1 (firstBlock 2 1), receives 3 (firstBlock 2 1), receives 4 (firstBlock 2 1),
    timesOut 1, timesOut 3, timesOut 4, produces 3, receives 1 (firstBlock 3 1),
    receives 4 (firstBlock 3 1), hears 3 1 (firstBlock 3 1), hears 3 4 (firstBlock 3 1)]

/-- Validator 2 is at the parent and refuses the committed block, since it is in the first
view. -/
theorem committed_block_refused :
    let network := Run.run Network.step (setup (config []) ∅).start viewChangeRun
    (network 3).chain.blocksByHeight[1]? = some (firstBlock 3 1) ∧
      BoingNode.chainsTo (firstBlock 3 1) (network 2).chain.latestHash (network 2).chain.height ∧
      fetchResult (network 2) (firstBlock 3 1) = some (.notRoundLeader 3 2) := by
  decide +kernel

theorem catchup_accepts_first :
    let network := (setup (config []) ∅).start
    ((network 1).handleNetworkBlock (firstBlock 2 1) passes .none).1 = .ok none ∧
      ((network 4).importNetworkBlockCatchup (firstBlock 2 1) passes .none).1 = .ok () := by
  intro network
  have accepted : ((network 1).handleNetworkBlock (firstBlock 2 1) passes .none).1 = .ok none := by
    decide +kernel
  have eligible : (network 4).consensus.mayPropose (firstBlock 2 1).header.height
      (firstBlock 2 1).header.proposer := by
    decide +kernel
  exact ⟨accepted, (BoingNode.catchup_accepts_iff (.inl ⟨.none, none, accepted⟩)
    (by decide +kernel) (by decide +kernel)).mpr eligible⟩

def fetches (receiver : AccountId) (block : Block) : Delivery Unit :=
  ⟨receiver, .catchupBlock block passes .none⟩

/-- Validator 2 proposes twice.  A quorum commits its first block, and validator 1 fetches the
second one. -/
def uncommittedFetch : List (Delivery Unit) :=
  [receives 3 (firstBlock 2 1), receives 4 (firstBlock 2 1), hears 3 2 (firstBlock 2 1),
    hears 3 4 (firstBlock 2 1), fetches 1 (firstBlock 2 2)]

def committedFetch : List (Delivery Unit) :=
  [receives 3 (firstBlock 2 1), receives 4 (firstBlock 2 1), hears 3 2 (firstBlock 2 1),
    hears 3 4 (firstBlock 2 1), fetches 1 (firstBlock 2 1)]

end BoingNetwork.Sample
