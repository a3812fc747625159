import BoingNetwork.Node.Changes

/-!
# Certificates of committed blocks

With a fixed validator set and without catch-up, every block a node commits has a
certificate: a quorum of the electorate whose votes for the block at its height
are justified.  The electorate is the validator set, or the active anchors when
there are any.
-/

namespace BoingNetwork

variable {engine : ConsensusEngine}

namespace ConsensusEngine

/-- The validators whose votes count. -/
def electorate (engine : ConsensusEngine) : Finset AccountId :=
  if engine.Classic then engine.validators.toFinset else engine.activeAnchors.toFinset

theorem electorate_subset (engine : ConsensusEngine) :
    engine.electorate ⊆ engine.validators.toFinset := by
  unfold electorate
  split
  next => exact Finset.Subset.refl _
  next =>
    intro anchor active
    exact List.mem_toFinset.mpr (mem_activeAnchors.mp (List.mem_toFinset.mp active)).2

theorem electorate_congr {first second : ConsensusEngine}
    (validators : first.validators = second.validators)
    (anchors : first.anchors = second.anchors) : first.electorate = second.electorate := by
  simp [electorate, Classic, activeAnchors, validators, anchors]

theorem countedVoters_subset {want : Hash}
    (members : ∀ voter, engine.votes[voter]? = some want → voter ∈ engine.validators) :
    engine.countedVoters want ⊆ engine.electorate := by
  intro voter counted
  obtain ⟨voted, counts⟩ := mem_countedVoters.mp counted
  unfold electorate
  split
  next => exact List.mem_toFinset.mpr (members voter voted)
  next anchored => exact List.mem_toFinset.mpr (counts.resolve_left anchored)

/-- The deviating validators are few enough for the quorum: in classic mode there
are at most `3f + 1` validators and at most `f` deviate; with anchors at most
`f` of the active anchors deviate, for their own `f`. -/
def Tolerates (engine : ConsensusEngine) (faulty : Finset AccountId) : Prop :=
  if engine.Classic then
    engine.validators.toFinset.card ≤ 3 * engine.f + 1 ∧
      (engine.validators.toFinset ∩ faulty).card ≤ engine.f
  else (engine.activeAnchors.toFinset ∩ faulty).card ≤ (engine.activeAnchors.length - 1) / 3

instance (engine : ConsensusEngine) (faulty : Finset AccountId) :
    Decidable (engine.Tolerates faulty) :=
  inferInstanceAs (Decidable (if engine.Classic then _ else _))

theorem Tolerates.exists_correct {faulty first second : Finset AccountId}
    (tolerates : engine.Tolerates faulty) (firstSubset : first ⊆ engine.electorate)
    (secondSubset : second ⊆ engine.electorate) (firstLarge : engine.quorum ≤ first.card)
    (secondLarge : engine.quorum ≤ second.card) :
    ∃ voter, voter ∈ first ∧ voter ∈ second ∧ voter ∉ faulty := by
  obtain ⟨faults, intersects, bound⟩ : ∃ faults,
      Quorum.Intersects engine.electorate engine.quorum faults ∧
        (engine.electorate ∩ faulty).card ≤ faults := by
    unfold Tolerates at tolerates
    unfold electorate
    split at tolerates
    next classic =>
      rw [if_pos classic]
      exact ⟨engine.f, (engine.reachesQuorum_overlap_iff classic).mpr tolerates.1, tolerates.2⟩
    next anchored =>
      rw [if_neg anchored]
      exact ⟨_, engine.anchorQuorum_intersects anchored, tolerates⟩
  obtain ⟨voter, inFirst, inSecond, correct⟩ :=
    intersects.exists_correct bound firstSubset secondSubset firstLarge secondLarge
  refine ⟨voter, inFirst, inSecond, fun isFaulty => correct ?_⟩
  exact Finset.mem_inter.mpr ⟨firstSubset inFirst, isFaulty⟩

end ConsensusEngine

variable [Crypto] {Ledger : Type} {voter : AccountId}

namespace BoingNode

def Certified (node : BoingNode Ledger) (external : ℕ → Hash → AccountId → Prop) (height : ℕ)
    (blockHash : Hash) : Prop :=
  ∃ voters ⊆ node.consensus.electorate, node.consensus.quorum ≤ voters.card ∧
    ∀ voter ∈ voters, node.Justified external height blockHash voter

structure Backed (node : BoingNode Ledger) (external : ℕ → Hash → AccountId → Prop)
    (genesis : Hash) : Prop where
  votes : ∀ voter blockHash, node.consensus.votes[voter]? = some blockHash →
    voter ∈ node.consensus.validators ∧
      node.Justified external node.consensus.round blockHash voter
  chain : ∀ height block, node.chain.blocksByHeight[height]? = some block →
    height = 0 ∧ block.hash = genesis ∨
      0 < height ∧ node.Certified external height block.hash

variable {node next : BoingNode Ledger} {external : ℕ → Hash → AccountId → Prop}
  {genesis blockHash : Hash}

theorem Change.static_engine (change : Change external False node next) :
    next.consensus.validators = node.consensus.validators ∧
      next.consensus.anchors = node.consensus.anchors := by
  cases change with
  | committed pending voter update static =>
    obtain rfl := static.resolve_right id
    exact ⟨rfl, rfl⟩
  | caughtUp _ _ _ _ imports => exact imports.elim
  | _ => exact ⟨rfl, rfl⟩

theorem Certified.change {height : ℕ} (certified : node.Certified external height blockHash)
    (change : Change external False node next) : next.Certified external height blockHash := by
  obtain ⟨voters, subset, large, justified⟩ := certified
  obtain ⟨validators, anchors⟩ := change.static_engine
  refine ⟨voters, ?_, ?_, fun voter member => ?_⟩
  · rw [ConsensusEngine.electorate_congr validators anchors]
    exact subset
  · rw [ConsensusEngine.quorum_congr validators anchors]
    exact large
  · exact (justified voter member).mono change.proposer change.signed_subset

section

variable (backed : node.Backed external genesis) (member : voter ∈ node.consensus.validators)
  (justified : node.Justified external node.consensus.round blockHash voter)

include backed member justified

theorem Backed.recordVote : ∀ other otherHash,
      (node.consensus.recordVote blockHash voter).votes[other]? = some otherHash →
        other ∈ node.consensus.validators ∧
          node.Justified external node.consensus.round otherHash other := by
  intro other otherHash recorded
  by_cases same : voter = other
  · subst same
    have sameHash : blockHash = otherHash := by
      simpa [ConsensusEngine.recordVote] using recorded
    exact sameHash ▸ ⟨member, justified⟩
  · apply backed.votes other otherHash
    simpa [ConsensusEngine.recordVote, Std.ExtTreeMap.getElem?_insert, same] using recorded

theorem Backed.certified
    (reached : node.consensus.quorum ≤
      ((node.consensus.recordVote blockHash voter).countedVoters blockHash).card) :
    node.Certified external node.consensus.round blockHash := by
  have recorded := backed.recordVote member justified
  refine ⟨_, ?_, reached, fun other counted => ?_⟩
  · exact ConsensusEngine.countedVoters_subset fun other voted => (recorded other _ voted).1
  · exact (recorded other _ (ConsensusEngine.mem_countedVoters.mp counted).1).2

end

theorem Change.backed (coherent : node.Coherent external) (backed : node.Backed external genesis)
    (change : Change external False node next) : next.Backed external genesis := by
  have certified : ∀ height blockHash, node.Certified external height blockHash →
      next.Certified external height blockHash :=
    fun _ _ certified => certified.change change
  have kept : ∀ height block, node.chain.blocksByHeight[height]? = some block →
      height = 0 ∧ block.hash = genesis ∨ 0 < height ∧ next.Certified external height block.hash :=
    fun height block isBlock => (backed.chain height block isBlock).imp id
      fun later => ⟨later.1, certified _ _ later.2⟩
  have recorded : ∀ voter blockHash, node.consensus.votes[voter]? = some blockHash →
      voter ∈ node.consensus.validators ∧
        next.Justified external node.consensus.round blockHash voter :=
    fun voter blockHash voted =>
      have cast := backed.votes voter blockHash voted
      ⟨cast.1, cast.2.mono change.proposer change.signed_subset⟩
  cases change with
  | noted | buffered | vrfStored | reaffirmed | released | votedLocally => exact ⟨recorded, kept⟩
  | entered => exact ⟨fun _ _ voted => by simp [ConsensusEngine.enterView,
      ConsensusEngine.enterVotingPhase] at voted, kept⟩
  | cast blockHash voter member justified =>
    exact ⟨backed.recordVote member justified, kept⟩
  | abandoned => exact ⟨fun _ _ voted => by simp [ConsensusEngine.abandonProposal] at voted, kept⟩
  | caughtUp _ _ _ _ imports => exact imports.elim
  | committed pending voter update static isPending member justified reached =>
    obtain rfl := static.resolve_right id
    refine ⟨fun _ _ voted => by simp [afterCommit, ValidatorUpdate.apply, ValidatorUpdate.none,
      ConsensusEngine.commitRound] at voted, ?_⟩
    intro height block isBlock
    simp only [afterCommit, ChainState.extend, Std.ExtTreeMap.getElem?_insert] at isBlock
    split at isBlock
    next same =>
      have isHeight := Std.LawfulEqCmp.eq_of_compare same
      obtain rfl := Option.some.inj isBlock
      have atTip : node.consensus.round = node.chain.height + 1 :=
        coherent.atTip (Option.isSome_of_eq_some isPending)
      have isRound : height = node.consensus.round := by
        rw [atTip, ← (coherent.chains pending isPending).2, isHeight]
      refine .inr ⟨?_, ?_⟩
      · rw [isRound, atTip]
        exact Nat.succ_pos _
      · rw [isRound]
        exact certified _ _ (backed.certified member justified reached)
    next => exact kept height block isBlock

theorem Changes.backed (coherent : node.Coherent external)
    (backed : node.Backed external genesis) (changes : Changes external False node next) :
    next.Backed external genesis := by
  induction changes with
  | refl => exact backed
  | tail before change ih =>
    exact change.backed (Changes.coherent coherent before) ih

theorem Changes.static_engine (changes : Changes external False node next) :
    next.consensus.validators = node.consensus.validators ∧
      next.consensus.anchors = node.consensus.anchors := by
  induction changes with
  | refl => exact ⟨rfl, rfl⟩
  | tail _ change ih =>
    exact ⟨change.static_engine.1.trans ih.1, change.static_engine.2.trans ih.2⟩

/-! ## More votes are admitted over time -/

variable {wider : ℕ → Hash → AccountId → Prop}
  (widens : ∀ round blockHash voter, external round blockHash voter → wider round blockHash voter)

include widens

theorem Justified.widen {round : ℕ} (justified : node.Justified external round blockHash voter) :
    node.Justified wider round blockHash voter :=
  justified.imp (widens round blockHash voter) id

theorem Coherent.widen (coherent : node.Coherent external) : node.Coherent wider where
  round := coherent.round
  pending := coherent.pending
  chains := coherent.chains
  early round blockHash voters buffered voter member :=
    (coherent.early round blockHash voters buffered voter member).widen widens
  keyless noKey round blockHash := widens _ _ _ (coherent.keyless noKey round blockHash)

theorem Backed.widen (backed : node.Backed external genesis) : node.Backed wider genesis where
  votes voter blockHash voted :=
    ⟨(backed.votes voter blockHash voted).1, (backed.votes voter blockHash voted).2.widen widens⟩
  chain height block isBlock := by
    refine (backed.chain height block isBlock).imp id fun later => ⟨later.1, ?_⟩
    obtain ⟨voters, subset, large, justified⟩ := later.2
    exact ⟨voters, subset, large, fun voter member => (justified voter member).widen widens⟩

end BoingNode

end BoingNetwork
