import BoingNetwork.Node.Certificates
import BoingNetwork.Node.VoteGuard

/-!
# Agreement between nodes

A network is the state of all nodes; one step lets one node handle one event.
Votes of honest validators are delivered only when they were signed, and all
other votes and all blocks are arbitrary.  Two certificates for one height share
an honest validator, so as long as honest nodes forget no vote of their round no
two of them commit different blocks at one height.
-/

namespace BoingNetwork

variable [Crypto] {Ledger : Type}

/-- The nodes by account; the entries of deviating validators have no meaning. -/
abbrev Network (Ledger : Type) := AccountId → BoingNode Ledger

structure Delivery (Ledger : Type) where
  receiver : AccountId
  event : NodeEvent Ledger

def Network.step (network : Network Ledger) (delivery : Delivery Ledger) : Network Ledger :=
  Function.update network delivery.receiver ((network delivery.receiver).handle delivery.event)

/-- One configuration for all nodes, and the validators that deviate.  The other
nodes run under their own account, and as validators they have a key. -/
structure Setup (Ledger : Type) where
  config : NodeConfig Ledger
  faulty : Finset AccountId
  identity : AccountId → LocalValidator
  identified : ∀ account ∉ faulty, (identity account).account = account
  keyed : ∀ account ∈ config.validators, account ∉ faulty → (identity account).signingKey ≠ none

namespace Setup

variable (setup : Setup Ledger)

def start : Network Ledger :=
  fun account => BoingNode.withValidators (setup.identity account) setup.config

def Honest (account : AccountId) : Prop :=
  account ∈ setup.config.validators ∧ account ∉ setup.faulty

instance (account : AccountId) : Decidable (setup.Honest account) :=
  inferInstanceAs (Decidable (_ ∧ _))

/-- Votes of honest validators were signed by them. -/
def Admitted (network : Network Ledger) (round : ℕ) (blockHash : Hash) (voter : AccountId) : Prop :=
  setup.Honest voter → (network voter).Signed round blockHash

/-- Signatures of honest validators are not forged. -/
def Authentic (network : Network Ledger) : NodeEvent Ledger → Prop
  | .consensusVote vote _ =>
    vote.verify = .ok () → setup.Admitted network vote.round vote.blockHash vote.validator
  | _ => True

/-- The votes are authentic, the validator set is fixed, and blocks are committed by
votes only. -/
def Deliverable (network : Network Ledger) (delivery : Delivery Ledger) : Prop :=
  delivery.event.Static ∧ setup.Authentic network delivery.event

/-- An honest node does not release its vote guard after a vote of the round. -/
def Remembers (network : Network Ledger) (delivery : Delivery Ledger) : Prop :=
  delivery.receiver ∉ setup.faulty →
    (network delivery.receiver).releasesVote delivery.event →
      (network delivery.receiver).Unvoted

instance (network : Network Ledger) : DecidablePred (setup.Authentic network)
  | .consensusVote vote _ =>
    inferInstanceAs (Decidable (vote.verify = .ok () → setup.Honest vote.validator →
      (network vote.validator).Signed vote.round vote.blockHash))
  | .networkBlock _ _ _ | .catchupBlock _ _ _ | .tick _ | .produce _ _ _ _ | .vrfProof _ _ _ =>
    isTrue trivial

instance (network : Network Ledger) (delivery : Delivery Ledger) :
    Decidable (setup.Deliverable network delivery) :=
  inferInstanceAs (Decidable (_ ∧ _))

instance (network : Network Ledger) (delivery : Delivery Ledger) :
    Decidable (setup.Remembers network delivery) :=
  inferInstanceAs (Decidable (_ → _ → _))

/-- What holds of every node that does not deviate. -/
structure Sound (network : Network Ledger) (account : AccountId) : Prop where
  identity : (network account).localValidator = setup.identity account
  validators : (network account).consensus.validators = setup.config.engine.validators
  anchors : (network account).consensus.anchors = setup.config.engine.anchors
  coherent : (network account).Coherent (setup.Admitted network)
  guarded : (network account).GuardsVotes
  backed : (network account).Backed (setup.Admitted network) setup.config.genesis.hash

def AllSound (network : Network Ledger) : Prop :=
  ∀ account ∉ setup.faulty, setup.Sound network account

variable {setup} {network : Network Ledger} {delivery : Delivery Ledger}

theorem start_sound {account : AccountId} (correct : account ∉ setup.faulty) :
    setup.Sound setup.start account where
  identity := rfl
  validators := rfl
  anchors := rfl
  coherent := by
    refine ⟨fun _ => rfl, rfl, by simp [start, BoingNode.withValidators], ?_, ?_⟩
    · intro round blockHash voters buffered
      simp [start, BoingNode.withValidators] at buffered
    · intro noKey round blockHash honest
      have isAccount : (setup.start account).proposer = account := setup.identified account correct
      rw [isAccount] at honest
      exact absurd noKey (setup.keyed account honest.1 correct)
  guarded := ⟨by simp [start, BoingNode.withValidators], by simp [start, BoingNode.withValidators],
    by simp [start, BoingNode.withValidators]⟩
  backed := by
    refine ⟨fun voter blockHash voted => by simp [start, BoingNode.withValidators,
      NodeConfig.engine, ConsensusEngine.setAnchors] at voted, ?_⟩
    intro height block isBlock
    simp only [start, BoingNode.withValidators, ChainState.fromGenesis,
      Std.ExtTreeMap.getElem?_insert] at isBlock
    split at isBlock
    next same =>
      obtain rfl := Option.some.inj isBlock
      exact .inl ⟨(Std.LawfulEqCmp.eq_of_compare same).symm, rfl⟩
    next => simp at isBlock

theorem handle_changes (correct : delivery.receiver ∉ setup.faulty)
    (sound : setup.Sound network delivery.receiver)
    (deliverable : setup.Deliverable network delivery)
    (remembers : setup.Remembers network delivery) :
    BoingNode.Changes (setup.Admitted network) False (network delivery.receiver)
      ((network delivery.receiver).handle delivery.event) := by
  refine BoingNode.handle_changes sound.coherent ?_ (remembers correct) (.inl deliverable.1)
  intro vote update isVote verified
  have admitted := deliverable.2
  rw [isVote] at admitted
  exact .inl (admitted verified)

/-- Signed votes of honest validators stay signed. -/
theorem admitted_step (sound : setup.AllSound network)
    (deliverable : setup.Deliverable network delivery)
    (remembers : setup.Remembers network delivery) (round : ℕ) (blockHash : Hash)
    (voter : AccountId) (admitted : setup.Admitted network round blockHash voter) :
    setup.Admitted (network.step delivery) round blockHash voter := by
  intro honest
  have signed := admitted honest
  by_cases isReceiver : voter = delivery.receiver
  · subst isReceiver
    have changes := handle_changes honest.2 (sound _ honest.2) deliverable remembers
    rw [Network.step, Function.update_self]
    exact signed.append changes.signed_subset
  · rwa [Network.step, Function.update_of_ne isReceiver]

theorem sound_step (sound : setup.AllSound network)
    (allowed : setup.Deliverable network delivery ∧ setup.Remembers network delivery) :
    setup.AllSound (network.step delivery) := by
  intro account correct
  have widens := admitted_step sound allowed.1 allowed.2
  have before := sound account correct
  by_cases isReceiver : account = delivery.receiver
  · subst isReceiver
    have changes := handle_changes correct before allowed.1 allowed.2
    have node : network.step delivery delivery.receiver =
        (network delivery.receiver).handle delivery.event := Function.update_self ..
    obtain ⟨validators, anchors⟩ := changes.static_engine
    constructor <;> rw [node]
    · exact changes.localValidator.trans before.identity
    · exact validators.trans before.validators
    · exact anchors.trans before.anchors
    · exact (changes.coherent before.coherent).widen widens
    · exact changes.guardsVotes before.coherent before.guarded
    · exact (changes.backed before.coherent before.backed).widen widens
  · have node : network.step delivery account = network account :=
      Function.update_of_ne isReceiver ..
    constructor <;> rw [node]
    · exact before.identity
    · exact before.validators
    · exact before.anchors
    · exact before.coherent.widen widens
    · exact before.guarded
    · exact before.backed.widen widens

theorem Sound.signed {account voter : AccountId} (correct : account ∉ setup.faulty)
    (sound : setup.Sound network account) (honest : setup.Honest voter) {round : ℕ}
    {blockHash : Hash}
    (justified : (network account).Justified (setup.Admitted network) round blockHash voter) :
    (network voter).Signed round blockHash := by
  rcases justified with admitted | ⟨isProposer, signed⟩
  · exact admitted honest
  · have isAccount : (network account).proposer = account := by
      unfold BoingNode.proposer
      rw [sound.identity]
      exact setup.identified account correct
    rw [isProposer, isAccount]
    exact signed

theorem Sound.certified_eq (tolerates : setup.config.engine.Tolerates setup.faulty)
    (sound : setup.AllSound network) {first second : AccountId}
    (firstCorrect : first ∉ setup.faulty) (secondCorrect : second ∉ setup.faulty) {height : ℕ}
    {firstHash secondHash : Hash}
    (firstCertified : (network first).Certified (setup.Admitted network) height firstHash)
    (secondCertified : (network second).Certified (setup.Admitted network) height secondHash) :
    firstHash = secondHash := by
  obtain ⟨firstVoters, firstSubset, firstLarge, firstJustified⟩ := firstCertified
  obtain ⟨secondVoters, secondSubset, secondLarge, secondJustified⟩ := secondCertified
  have firstSound := sound first firstCorrect
  have secondSound := sound second secondCorrect
  rw [ConsensusEngine.electorate_congr firstSound.validators firstSound.anchors] at firstSubset
  rw [ConsensusEngine.electorate_congr secondSound.validators secondSound.anchors] at secondSubset
  rw [ConsensusEngine.quorum_congr firstSound.validators firstSound.anchors] at firstLarge
  rw [ConsensusEngine.quorum_congr secondSound.validators secondSound.anchors] at secondLarge
  obtain ⟨voter, inFirst, inSecond, correct⟩ :=
    tolerates.exists_correct firstSubset secondSubset firstLarge secondLarge
  have member := setup.config.engine.electorate_subset (firstSubset inFirst)
  have honest : setup.Honest voter := ⟨List.mem_toFinset.mp member, correct⟩
  obtain ⟨firstVote, firstSigned, firstRound, isFirst⟩ :=
    firstSound.signed firstCorrect honest (firstJustified voter inFirst)
  obtain ⟨secondVote, secondSigned, secondRound, isSecond⟩ :=
    secondSound.signed secondCorrect honest (secondJustified voter inSecond)
  rw [← isFirst, ← isSecond]
  exact (sound voter correct).guarded.single firstVote firstSigned secondVote secondSigned
    (firstRound.trans secondRound.symm)

/-- No two nodes that do not deviate commit different blocks at one height, in
every run in which they forget no vote of their round. -/
theorem committedBlocks_agree (setup : Setup Ledger)
    (tolerates : setup.config.engine.Tolerates setup.faulty) (deliveries : List (Delivery Ledger))
    (deliverable : Run.Allowed Network.step setup.Deliverable setup.start deliveries)
    (remembers : Run.Allowed Network.step setup.Remembers setup.start deliveries)
    {first second : AccountId} (firstCorrect : first ∉ setup.faulty)
    (secondCorrect : second ∉ setup.faulty) {height : ℕ} {firstBlock secondBlock : Block}
    (firstCommits : (Run.run Network.step setup.start deliveries
      first).chain.blocksByHeight[height]? = some firstBlock)
    (secondCommits : (Run.run Network.step setup.start deliveries
      second).chain.blocksByHeight[height]? = some secondBlock) :
    firstBlock.hash = secondBlock.hash := by
  have sound : setup.AllSound (Run.run Network.step setup.start deliveries) :=
    Run.invariant (fun _ _ => sound_step) (fun _ => start_sound) (deliverable.and remembers)
  rcases (sound first firstCorrect).backed.chain height firstBlock firstCommits with
      ⟨genesis, firstHash⟩ | ⟨positive, firstCertified⟩ <;>
    rcases (sound second secondCorrect).backed.chain height secondBlock secondCommits with
      ⟨genesis', secondHash⟩ | ⟨positive', secondCertified⟩
  · rw [firstHash, secondHash]
  · omega
  · omega
  · exact Sound.certified_eq tolerates sound firstCorrect secondCorrect firstCertified
      secondCertified

end Setup

end BoingNetwork

namespace BoingNetwork.Sample

open Checksum

def setup (config : NodeConfig Unit) (faulty : Finset AccountId) : Setup Unit where
  config := config
  faulty := faulty
  identity := keyHolder
  identified _ _ := rfl
  keyed _ _ _ := by simp [keyHolder]

def fiveValidators : NodeConfig Unit :=
  { config [] with validators := [1, 2, 3, 4, 5], validators_ne_nil := by simp }

def produces (proposer : AccountId) : Delivery Unit :=
  ⟨proposer, .produce false false (some ⟨1, 0, 0, 0, none, [], [], [], ()⟩) .none⟩

def receives (receiver : AccountId) (block : Block) : Delivery Unit :=
  ⟨receiver, delivered block⟩

def hears (receiver voter : AccountId) (block : Block) : Delivery Unit :=
  ⟨receiver, .consensusVote (ConsensusVote.sign 1 block.hash voter) .none⟩

def timesOut (receiver : AccountId) : Delivery Unit := ⟨receiver, .tick true⟩

/-- Validator 2 commits its block; the others time out, and with the same votes
validator 3 commits the block of the next view. -/
def timeoutSplit : List (Delivery Unit) :=
  [produces 2, receives 1 (firstBlock 2 1), receives 3 (firstBlock 2 1),
    receives 4 (firstBlock 2 1), hears 2 3 (firstBlock 2 1), hears 2 4 (firstBlock 2 1),
    timesOut 1, timesOut 3, timesOut 4, produces 3, receives 1 (firstBlock 3 1),
    receives 4 (firstBlock 3 1), hears 3 1 (firstBlock 3 1), hears 3 4 (firstBlock 3 1)]

/-- Five validators have quorums of three: a leader that proposes twice splits the
honest validators into two pairs. -/
def proposerSplit : List (Delivery Unit) :=
  [receives 1 (firstBlock 2 1), receives 3 (firstBlock 2 1), receives 4 (firstBlock 2 2),
    receives 5 (firstBlock 2 2), hears 1 3 (firstBlock 2 1), hears 1 2 (firstBlock 2 1),
    hears 4 5 (firstBlock 2 2), hears 4 2 (firstBlock 2 2)]

def committedFirst (setup : Setup Unit) (deliveries : List (Delivery Unit))
    (account : AccountId) : Option Block :=
  (Run.run Network.step setup.start deliveries account).chain.blocksByHeight[1]?

/-- Without deviating validators a timeout splits four nodes, and without any
timeout one deviating leader splits five. -/
theorem committedBlocks_differ :
    (Run.Allowed Network.step (setup (config []) ∅).Deliverable (setup (config []) ∅).start
        timeoutSplit ∧
      committedFirst (setup (config []) ∅) timeoutSplit 2 = some (firstBlock 2 1) ∧
      committedFirst (setup (config []) ∅) timeoutSplit 3 = some (firstBlock 3 1) ∧
      (firstBlock 2 1).hash ≠ (firstBlock 3 1).hash) ∧
    ((setup fiveValidators {2}).faulty.card ≤ fiveValidators.engine.f ∧
      Run.Allowed Network.step (setup fiveValidators {2}).Deliverable
        (setup fiveValidators {2}).start proposerSplit ∧
      Run.Allowed Network.step (setup fiveValidators {2}).Remembers
        (setup fiveValidators {2}).start proposerSplit ∧
      committedFirst (setup fiveValidators {2}) proposerSplit 1 = some (firstBlock 2 1) ∧
      committedFirst (setup fiveValidators {2}) proposerSplit 4 = some (firstBlock 2 2) ∧
      (firstBlock 2 1).hash ≠ (firstBlock 2 2).hash) := by
  decide +kernel

/-- Two of four nodes commit the block of the leader. -/
def commonRun : List (Delivery Unit) :=
  [produces 2, receives 3 (firstBlock 2 1), receives 4 (firstBlock 2 1),
    hears 2 3 (firstBlock 2 1), hears 2 4 (firstBlock 2 1),
    hears 3 2 (firstBlock 2 1), hears 3 4 (firstBlock 2 1)]

theorem committedBlocks_agree_four :
    let network := Run.run Network.step (setup (config []) {1}).start commonRun
    (network 2).chain.height = 1 ∧ (network 3).chain.height = 1 ∧
      ∀ firstBlock secondBlock, (network 2).chain.blocksByHeight[1]? = some firstBlock →
        (network 3).chain.blocksByHeight[1]? = some secondBlock →
          firstBlock.hash = secondBlock.hash :=
  ⟨by decide +kernel, by decide +kernel, fun _ _ firstCommits secondCommits =>
    Setup.committedBlocks_agree (setup (config []) {1}) (by decide +kernel) commonRun
      (by decide +kernel) (by decide +kernel) (by decide) (by decide) firstCommits secondCommits⟩

end BoingNetwork.Sample
