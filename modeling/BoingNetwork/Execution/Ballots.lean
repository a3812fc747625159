import BoingNetwork.Qa.Rules

/-!
# Ballots of slash appeals

The messages that a committee signs to decide an appeal, the Ed25519 check of one ballot
and the BLS check of an aggregate ballot.  The aggregate ballot carries its own public
keys; nothing here relates a key to the account that it stands for.
-/

namespace BoingNetwork

def PHASE29_MAX_PIN_SET_LEN : ℕ := 64

/-- Errors of the aggregate ballot, in the order of the checks. -/
inductive BlsResolveError where
  | emptyPinSet
  | pinSetTooLarge (got max : ℕ)
  | emptyBitset
  | bitsetLongerThanPinSet
  | bitOutOfRange
  | pubkeyCountMismatch (got expected : ℕ)
  | emptySignerSet
  | duplicateAccount
  | inner (reason : BlsError)

def BlsResolveError.display : BlsResolveError → String
  | .emptyPinSet => "pin set empty"
  | .pinSetTooLarge got max => s!"pin set too large: {got} > {max}"
  | .emptyBitset => "signer bitset empty"
  | .bitsetLongerThanPinSet => "signer bitset longer than pin set"
  | .bitOutOfRange => "signer bitset has bits set beyond pin set length"
  | .pubkeyCountMismatch got expected =>
    s!"signer pubkey count {got} != bitset signer count {expected}"
  | .emptySignerSet => "empty signer set"
  | .duplicateAccount => "duplicate AccountId in dual-key registration set"
  | .inner reason => reason.display

/-! ## Signer bitsets -/

/-- The positions of the set bits; the lowest bit of the first byte is position 0. -/
def setBits (bitset : Bytes) : List ℕ :=
  (List.range (8 * bitset.length)).filter fun index =>
    ((bitset.getD (index / 8) 0).toNat >>> (index % 8)) % 2 = 1

def pinnedAt (pinned : List AccountId) (positions : List ℕ) : Option (List AccountId) :=
  positions.mapM (pinned[·]?)

def phase29DecodeSignerBitset (pinned : List AccountId) (bitset : Bytes) :
    Except BlsResolveError (List AccountId) :=
  if pinned.isEmpty then .error .emptyPinSet
  else if pinned.length > PHASE29_MAX_PIN_SET_LEN then
    .error (.pinSetTooLarge pinned.length PHASE29_MAX_PIN_SET_LEN)
  else if bitset.length > (pinned.length + 7) / 8 then .error .bitsetLongerThanPinSet
  else match pinnedAt pinned (setBits bitset) with
    | none => .error .bitOutOfRange
    | some [] => .error .emptyBitset
    | some signers => .ok signers

theorem mem_of_pinnedAt {pinned signers : List AccountId} {positions : List ℕ}
    (decoded : pinnedAt pinned positions = some signers) : signers ⊆ pinned := by
  unfold pinnedAt at decoded
  induction positions generalizing signers with
  | nil =>
    cases decoded
    exact List.nil_subset _
  | cons position positions ih =>
    rw [List.mapM_cons] at decoded
    obtain ⟨signer, found, rest⟩ := Option.bind_eq_some_iff.mp decoded
    obtain ⟨others, decodedOthers, isSigners⟩ := Option.bind_eq_some_iff.mp rest
    cases isSigners
    exact List.cons_subset.mpr ⟨List.mem_of_getElem? found, ih decodedOthers⟩

theorem mem_of_decoded {pinned signers : List AccountId} {bitset : Bytes}
    (decoded : phase29DecodeSignerBitset pinned bitset = .ok signers) : signers ⊆ pinned := by
  unfold phase29DecodeSignerBitset at decoded
  split at decoded
  next => cases decoded
  split at decoded
  next => cases decoded
  split at decoded
  next => cases decoded
  split at decoded
  next => cases decoded
  next => cases decoded
  next found =>
    cases decoded
    exact mem_of_pinnedAt found

def phase26ValidateDualKeySet (identities : List (AccountId × BlsPublicKeyG1)) :
    Except BlsResolveError Unit :=
  if identities.isEmpty then .error .emptySignerSet
  else if (identities.map Prod.fst).Nodup then .ok ()
  else .error .duplicateAccount

/-! ## Messages -/

section Ballots

variable [Platform]

def PHASE20_LEGACY_PIN_SET_COMMITMENT : Hash := 0

def phase20PinSetCommitment (pinned : List AccountId) : Hash :=
  let domain := asciiBytes "BOING_SLASH_APPEAL_PIN_SET_V1"
  if pinned.isEmpty then Crypto.blake3 (domain ++ asciiBytes "UNPINNED")
  else Crypto.blake3 (domain ++ leBytes 8 pinned.length ++
    (pinned.mergeSort fun first second => first.toNat ≤ second.toNat).flatMap bytes32)

/-- The electorate at submission: the summed stakes, or one without a pin set. -/
def phase20SnapshotElectorateW (pinnedStakes : List ℕ) : ℕ :=
  if pinnedStakes.isEmpty then 1
  else pinnedStakes.foldl (MachineInt.saturatingAdd 128) 0

def phase20IsLegacyElectorateSnapshot (electorateW : ℕ) (pinSetCommitment : Hash) : Bool :=
  electorateW = 0 ∧ pinSetCommitment = PHASE20_LEGACY_PIN_SET_COMMITMENT

/-- The fields that every ballot message starts with. -/
def ballotHeader (domain : String) (chainId appealId slashId : ℕ) (approved : Bool) : Bytes :=
  asciiBytes domain ++ leBytes 8 chainId ++ leBytes 8 appealId ++ leBytes 8 slashId ++
    [if approved then 1 else 0]

def slashAppealResolveBallotPreimageV1 (chainId appealId slashId : ℕ) (approved : Bool)
    (voter : AccountId) : Hash :=
  Crypto.blake3 (ballotHeader "BOING_SLASH_APPEAL_RESOLVE_BALLOT_V1" chainId appealId slashId
    approved ++ bytes32 voter)

def slashAppealResolveBallotPreimageV2 (chainId appealId slashId : ℕ) (approved : Bool)
    (voter : AccountId) (pinSetCommitment : Hash) : Hash :=
  Crypto.blake3 (ballotHeader "BOING_SLASH_APPEAL_RESOLVE_BALLOT_V2" chainId appealId slashId
    approved ++ bytes32 voter ++ bytes32 pinSetCommitment)

def phase26BlsAggregateBallotPreimage (chainId appealId slashId : ℕ) (approved : Bool)
    (pinSetCommitment : Hash) : Hash :=
  Crypto.blake3 (ballotHeader "BOING_SLASH_APPEAL_BLS_AGG_V1" chainId appealId slashId approved ++
    bytes32 pinSetCommitment)

/-- The second version binds the pin set; the first is accepted as well. -/
def verifySlashAppealResolveBallotDual (chainId appealId slashId : ℕ) (approved : Bool)
    (voter : AccountId) (pinSetCommitment : Hash) (ballotSignature : Signature) :
    Except SignatureError Unit :=
  let first := Crypto.verifyStrict voter
    (slashAppealResolveBallotPreimageV1 chainId appealId slashId approved voter) ballotSignature
  if pinSetCommitment = PHASE20_LEGACY_PIN_SET_COMMITMENT then first
  else match Crypto.verifyStrict voter (slashAppealResolveBallotPreimageV2 chainId appealId
      slashId approved voter pinSetCommitment) ballotSignature with
    | .ok () => .ok ()
    | .error _ => first

/-- The keys come with the ballot; they are paired with the decoded signers in order. -/
def phase30VerifyAggregateResolveSelfContained (chainId slashId : ℕ) (pinSetCommitment : Hash)
    (pinned : List AccountId) (appealId : ℕ) (approved : Bool) (signerBitset : Bytes)
    (aggregateSignature : BlsSignatureG2) (signerBlsPubkeys : List BlsPublicKeyG1) :
    Except BlsResolveError Unit := do
  let signers ← phase29DecodeSignerBitset pinned signerBitset
  if signerBlsPubkeys.length ≠ signers.length then
    throw (.pubkeyCountMismatch signerBlsPubkeys.length signers.length)
  phase26ValidateDualKeySet (signers.zip signerBlsPubkeys)
  (Platform.blsAggregateVerify (phase26BlsAggregateBallotPreimage chainId appealId slashId approved
    pinSetCommitment) aggregateSignature signerBlsPubkeys).mapError .inner

/-- From the flip height on, committees use aggregate ballots. -/
def phase32BlsCommitteeFlipActive (height : ℕ) (flipFrom : Option ℕ) : Bool :=
  flipFrom.any (· ≤ height)

def phase32CommitteeRequiresAttested (pinnedLength height : ℕ) (flipFrom : Option ℕ) : Bool :=
  !phase32BlsCommitteeFlipActive height flipFrom && pinnedLength > 1

def phase32CommitteeRequiresBlsAggregate (pinnedLength height : ℕ) (flipFrom : Option ℕ) : Bool :=
  phase32BlsCommitteeFlipActive height flipFrom && pinnedLength > 1

end Ballots

end BoingNetwork
