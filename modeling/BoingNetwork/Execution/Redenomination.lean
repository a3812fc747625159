import BoingNetwork.Execution.Block

/-!
# Redenomination

The migration to base units multiplies the amounts of the accounts and the bonds of the
open validators.  What other registries recorded, and later refund, settle, restore or count
as a vote, keeps its number.
-/

open FiniteMap MachineInt

namespace BoingNetwork

/-- The places of the state that hold a native amount. -/
inductive NativeAmount where
  | balance (id : AccountId)
  | stake (id : AccountId)
  | pendingUnbond (id : AccountId)
  | validatorBond (node : AccountId)
  | askFee (key : String)
  | challengeBond (key : String)
  | providerPenalty (key : String)
  | slash (id : ℕ)
  | appealVote (appealId : ℕ) (voter : AccountId)
  | electorate (appealId : ℕ)
  | proposalVote (proposalId : ℕ) (voter : String)

/-- The amounts that `redenominate` multiplies. -/
def NativeAmount.IsMigrated : NativeAmount → Prop
  | .balance _ | .stake _ | .pendingUnbond _ | .validatorBond _ => True
  | .askFee _ | .challengeBond _ | .providerPenalty _ | .slash _ | .appealVote _ _ | .electorate _
  | .proposalVote _ _ => False

/-- The weight in units of stake; without a pin set the votes on an appeal count heads. -/
def ConsensusSlashAppeal.inStake [Platform] (appeal : ConsensusSlashAppeal) (weight : ℕ) : ℕ :=
  if appeal.pinSetCommitment = phase20PinSetCommitment [] then 0 else weight

namespace Contents

variable [Platform]

def amount (contents : Contents) : NativeAmount → ℕ
  | .balance id => entryWeight AccountState.balance contents.accounts[id]?
  | .stake id => entryWeight AccountState.stake contents.accounts[id]?
  | .pendingUnbond id => entryWeight AccountState.pendingUnbond contents.accounts[id]?
  | .validatorBond node => entryWeight ValidatorRecord.bond contents.openValidators.records[node]?
  | .askFee key => entryWeight EscrowedSampleOffer.askFee contents.sampleOffers.offers[key]?
  | .challengeBond key =>
    entryWeight BlobSampleServeChallenge.bondAmount contents.sampleServe.challenges[key]?
  | .providerPenalty key =>
    entryWeight BlobSampleServeChallenge.providerPenalty contents.sampleServe.challenges[key]?
  | .slash id => entryWeight ConsensusSlashRecord.amount contents.slashAppeals.slashes[id]?
  | .appealVote appealId voter => entryWeight (fun appeal : ConsensusSlashAppeal =>
      appeal.inStake (entryWeight ResolveVote.weight appeal.votes[voter]?))
    contents.slashAppeals.appeals[appealId]?
  | .electorate appealId => entryWeight (fun appeal : ConsensusSlashAppeal =>
      appeal.inStake appeal.electorateWSnapshot) contents.slashAppeals.appeals[appealId]?
  | .proposalVote proposalId voter => entryWeight
      (fun proposal : Proposal => entryWeight ProposalVote.weight proposal.votes[voter]?)
      contents.governance.proposals[proposalId]?

/-- Every migrated amount fits after the migration, and there are no others. -/
def Migratable (contents : Contents) (factor : ℕ) : Prop :=
  ∀ place : NativeAmount,
    (place.IsMigrated → contents.amount place * factor < 2 ^ 128) ∧
      (¬ place.IsMigrated → contents.amount place = 0)

variable (contents : Contents) (factor : ℕ) {place : NativeAmount}

theorem amount_redenominated_of_migrated (isMigrated : place.IsMigrated) :
    (contents.redenominated factor).amount place =
      saturatingMul 128 (contents.amount place) factor := by
  have zero : saturatingMul 128 0 factor = 0 := by
    rw [saturatingMul, Nat.zero_mul, Nat.zero_min]
  cases place with
  | balance | stake | pendingUnbond | validatorBond =>
    simp only [amount, redenominated, StoreWrite.effect, OpenValidatorRegistry.redenominated,
      Std.ExtTreeMap.getElem?_map]
    exact entryWeight_map (saturatingMul 128 · factor) zero (fun _ => rfl) _
  | _ => exact isMigrated.elim

theorem amount_redenominated_of_not_migrated (notMigrated : ¬ place.IsMigrated) :
    (contents.redenominated factor).amount place = contents.amount place := by
  cases place with
  | balance | stake | pendingUnbond | validatorBond => exact absurd trivial notMigrated
  | _ => rfl

theorem amount_redenominated_iff (proper : 1 < factor) (place : NativeAmount) :
    (contents.redenominated factor).amount place = factor * contents.amount place ↔
      (place.IsMigrated → contents.amount place * factor < 2 ^ 128) ∧
        (¬ place.IsMigrated → contents.amount place = 0) := by
  by_cases isMigrated : place.IsMigrated
  · rw [amount_redenominated_of_migrated _ _ isMigrated, saturatingMul,
      maxValue, Nat.mul_comm factor]
    simp only [isMigrated, forall_const, not_true_eq_false, false_implies, and_true]
    omega
  · rw [amount_redenominated_of_not_migrated _ _ isMigrated]
    simp only [isMigrated, false_implies, true_and, not_false_eq_true, forall_const]
    refine ⟨fun same => ?_, fun zero => by rw [zero, Nat.mul_zero]⟩
    rcases Nat.eq_zero_or_pos (contents.amount place) with zero | positive
    · exact zero
    · exact absurd same (lt_mul_of_one_lt_left positive proper).ne

variable {contents factor} {after : Contents}

theorem supply_eq_mul
    (uniform : ∀ place, after.amount place = factor * contents.amount place) :
    after.supply = factor * contents.supply := by
  have accounts : ∀ id : AccountId, entryWeight AccountState.worth after.accounts[id]? =
      factor * entryWeight AccountState.worth contents.accounts[id]? := by
    have parts (entry : Option AccountState) : entryWeight AccountState.worth entry =
        entryWeight AccountState.balance entry + entryWeight AccountState.stake entry +
          entryWeight AccountState.pendingUnbond entry := by cases entry <;> rfl
    intro id
    have balance := uniform (.balance id)
    have stake := uniform (.stake id)
    have pendingUnbond := uniform (.pendingUnbond id)
    simp only [amount] at balance stake pendingUnbond
    rw [parts, parts, balance, stake, pendingUnbond, Nat.mul_add, Nat.mul_add]
  rw [supply, supply, total_eq_mul accounts,
    total_eq_mul fun node => uniform (.validatorBond node), Nat.mul_add]

end Contents

/-! ## Later payouts -/

/-- The operation gives the same in another unit, but for the unit of its result. -/
def Rescales {Error State Value : Type} (operation : EStateM Error State Value)
    (state : State → State) (value : Value → Value) : Prop :=
  ∀ before, operation (state before) = match operation before with
    | .ok result after => .ok (value result) (state after)
    | .error error after => .error error (state after)

variable (factor : ℕ)

def EscrowedSampleOffer.scaled (offer : EscrowedSampleOffer) : EscrowedSampleOffer :=
  { offer with askFee := factor * offer.askFee }

def BlobSampleServeChallenge.scaled (challenge : BlobSampleServeChallenge) :
    BlobSampleServeChallenge :=
  { challenge with
    bondAmount := factor * challenge.bondAmount
    providerPenalty := factor * challenge.providerPenalty }

def ConsensusSlashRecord.scaled (slash : ConsensusSlashRecord) : ConsensusSlashRecord :=
  { slash with amount := factor * slash.amount }

def SampleOfferRegistry.scaled (registry : SampleOfferRegistry) : SampleOfferRegistry :=
  { registry with offers := registry.offers.map fun _ => .scaled factor }

def SampleServeChallengeRegistry.scaled (registry : SampleServeChallengeRegistry) :
    SampleServeChallengeRegistry :=
  { registry with challenges := registry.challenges.map fun _ => .scaled factor }

/-- With the amounts that a restore pays. -/
def SlashAppealRegistry.scaled (registry : SlashAppealRegistry) : SlashAppealRegistry :=
  { registry with slashes := registry.slashes.map fun _ => .scaled factor }

/-- The operations that release a recorded amount do not depend on the unit. -/
structure PayoutsRescale [Platform] : Prop where
  settle : ∀ blobId chunkIndex provider height,
    Rescales (SampleOfferRegistry.settle blobId chunkIndex provider height) (.scaled factor)
      (.scaled factor)
  cancel : ∀ blobId chunkIndex provider,
    Rescales (SampleOfferRegistry.cancel blobId chunkIndex provider) (.scaled factor)
      (.scaled factor)
  expire : ∀ height, Rescales (modifyGet (SampleOfferRegistry.takeExpired · height) :
    EStateM SampleOfferRegistryError _ _) (.scaled factor) (List.map (.scaled factor))
  fail : ∀ height, Rescales (modifyGet (SampleServeChallengeRegistry.takeNewlyFailed · height) :
    EStateM SampleServeChallengeError _ _) (.scaled factor) (List.map (.scaled factor))
  respond : ∀ blobId chunkIndex provider challenger height sample,
    Rescales (SampleServeChallengeRegistry.respond blobId chunkIndex provider challenger height
      sample) (.scaled factor) (.scaled factor)
  restore : ∀ appealId slashId approved,
    Rescales (SlashAppealRegistry.finalizeAppeal appealId slashId approved) (.scaled factor) id

theorem lookup_scaled (offers : SampleOfferRegistry) (blobId : BlobId) (chunkIndex : ℕ)
    (provider : AccountId) : (offers.scaled factor).lookup blobId chunkIndex provider =
      (offers.lookup blobId chunkIndex provider).map (.scaled factor) :=
  Std.ExtTreeMap.getElem?_map

theorem takeNewlyFailed_scaled (serve : SampleServeChallengeRegistry) (height : ℕ) :
    (serve.scaled factor).takeNewlyFailed height =
      ((serve.takeNewlyFailed height).1.map (.scaled factor),
        (serve.takeNewlyFailed height).2.scaled factor) := by
  have expire_scaled (challenge : BlobSampleServeChallenge) :
      (challenge.scaled factor).expire height = (challenge.expire height).scaled factor := by
    by_cases late : challenge.status = .opened ∧ height > challenge.deadlineHeight <;>
      simp [BlobSampleServeChallenge.expire, BlobSampleServeChallenge.scaled, late]
  simp only [SampleServeChallengeRegistry.takeNewlyFailed, SampleServeChallengeRegistry.scaled]
  rw [map_comm _ expire_scaled, values_map, List.filter_map]
  rfl

theorem payoutsRescale [Platform] : PayoutsRescale factor where
  settle blobId chunkIndex provider height offers := by
    simp only [SampleOfferRegistry.settle, EStateM.get_bind, lookup_scaled]
    cases offers.lookup blobId chunkIndex provider with
    | none => rfl
    | some offer =>
      have same : (offer.scaled factor).isExpired height = offer.isExpired height := rfl
      simp only [Option.map_some, same]
      split
      · rfl
      · change EStateM.Result.ok _ _ = EStateM.Result.ok _ _
        rw [SampleOfferRegistry.scaled, SampleOfferRegistry.scaled, map_erase]
  cancel blobId chunkIndex provider offers := by
    simp only [SampleOfferRegistry.cancel, EStateM.get_bind, lookup_scaled]
    cases offers.lookup blobId chunkIndex provider with
    | none => rfl
    | some offer =>
      change EStateM.Result.ok _ _ = EStateM.Result.ok _ _
      rw [SampleOfferRegistry.scaled, SampleOfferRegistry.scaled, map_erase]
  expire height offers := by
    change EStateM.Result.ok _ _ = EStateM.Result.ok _ _
    simp only [SampleOfferRegistry.scaled, values_map, List.filter_map]
    rw [map_filter]
    · rfl
    · exact fun _ => rfl
  fail height serve := by
    exact congrArg (fun taken : _ × _ => EStateM.Result.ok taken.1 taken.2)
      (takeNewlyFailed_scaled factor serve height)
  respond blobId chunkIndex provider challenger height sample serve := by
    simp only [SampleServeChallengeRegistry.respond, EStateM.modify_bind, EStateM.get_bind,
      takeNewlyFailed_scaled]
    generalize (serve.takeNewlyFailed height).2 = current
    have found (key : String) : (current.scaled factor).challenges[key]? =
      current.challenges[key]?.map (.scaled factor) := Std.ExtTreeMap.getElem?_map
    rw [found]
    cases current.challenges[serveChallengeKey blobId chunkIndex provider challenger]? with
    | none => rfl
    | some challenge =>
      have same : (challenge.scaled factor).validateRespond height sample =
        challenge.validateRespond height sample := rfl
      simp only [Option.map_some, same]
      cases challenge.validateRespond height sample with
      | error => rfl
      | ok =>
        change EStateM.Result.ok _ _ = EStateM.Result.ok _ _
        simp only [SampleServeChallengeRegistry.scaled, ← map_insert]
        rfl
  restore appealId slashId approved appeals := by
    have found : (appeals.scaled factor).slashes[slashId]? =
      appeals.slashes[slashId]?.map (.scaled factor) := Std.ExtTreeMap.getElem?_map
    have same : (appeals.scaled factor).appeals = appeals.appeals := rfl
    simp only [SlashAppealRegistry.finalizeAppeal, EStateM.get_bind, same]
    cases appeals.appeals[appealId]? with
    | none => rfl
    | some appeal =>
      simp only [EStateM.get_bind, EStateM.modify_bind, found]
      cases appeals.slashes[slashId]? with
      | none => rfl
      | some slash =>
        have kept : (slash.scaled factor).reversed = slash.reversed := rfl
        simp only [Option.map_some, kept]
        split
        · rfl
        · split
          · rfl
          · change EStateM.Result.ok _ _ = EStateM.Result.ok _ _
            simp only [SlashAppealRegistry.scaled, ← map_insert]
            rfl

/-- Every native amount was multiplied, keeps its fraction of the supply, and will be paid out
as multiplied. -/
structure Contents.Rescaled [Platform] (before after : Contents) : Prop where
  amounts : ∀ place, after.amount place = factor * before.amount place
  fractions : ∀ place, after.amount place * before.supply = before.amount place * after.supply
  offers : after.sampleOffers = before.sampleOffers.scaled factor
  serve : after.sampleServe = before.sampleServe.scaled factor
  slashes : after.slashAppeals = before.slashAppeals.scaled factor

namespace BlockExecutor

variable (executor : BlockExecutor)

def unitFactor (height : ℕ) : ℕ :=
  if executor.Redenominates height then BASE_UNITS_PER_BOING else 1

theorem prod_unitFactor (tip : ℕ) : ∏ height ∈ Finset.Icc 1 tip, executor.unitFactor height =
      if executor.redenominationHeight.any (· ≤ tip) then BASE_UNITS_PER_BOING else 1 := by
  rcases executor.redenominationHeight.eq_none_or_eq_some with never | ⟨migration, switch⟩
  · simp [unitFactor, Redenominates, never]
  · have positive : 0 < migration := by
      simpa using (Option.filter_eq_some_iff.mp switch).2
    simp only [unitFactor, Redenominates, switch, Option.some.injEq, Finset.prod_ite_eq,
      Finset.mem_Icc, Option.any_some, decide_eq_true_eq]
    simp [Nat.one_le_iff_ne_zero.mpr positive.ne']

variable [Platform]

theorem rescaled_of_amounts {height : ℕ} {contents : Contents}
    (amounts : ∀ place, (executor.preparedContents height contents).amount place =
      executor.unitFactor height * contents.amount place) :
    contents.Rescaled (executor.unitFactor height) (executor.preparedContents height contents) := by
  -- The registries that the migration skips hold no amount that the factor would change.
  have same {place : NativeAmount} (skipped : ¬ place.IsMigrated) :
      executor.unitFactor height * contents.amount place = contents.amount place := by
    rw [← amounts place, preparedContents]
    split
    next => exact contents.amount_redenominated_of_not_migrated _ skipped
    next => rfl
  have kept : executor.preparedContents height contents = { contents with
      accounts := (executor.preparedContents height contents).accounts
      openValidators := (executor.preparedContents height contents).openValidators } := by
    unfold preparedContents
    split <;> rfl
  refine ⟨amounts, fun place => ?_, ?_, ?_, ?_⟩
  · rw [Contents.supply_eq_mul amounts, amounts place, Nat.mul_comm (executor.unitFactor height),
      Nat.mul_assoc]
  · rw [kept, SampleOfferRegistry.scaled, map_eq_self]
    intro key offer found
    have fee := @same (.askFee key) not_false
    simp only [Contents.amount, found, entryWeight_some] at fee
    rw [EscrowedSampleOffer.scaled, fee]
  · rw [kept, SampleServeChallengeRegistry.scaled, map_eq_self]
    intro key challenge found
    have bond := @same (.challengeBond key) not_false
    have penalty := @same (.providerPenalty key) not_false
    simp only [Contents.amount, found, entryWeight_some] at bond penalty
    rw [BlobSampleServeChallenge.scaled, bond, penalty]
  · rw [kept, SlashAppealRegistry.scaled, map_eq_self]
    intro id slash found
    have amount := @same (.slash id) not_false
    simp only [Contents.amount, found, entryWeight_some] at amount
    rw [ConsensusSlashRecord.scaled, amount]

end BlockExecutor

section Sample

open Checksum

end Sample

end BoingNetwork
