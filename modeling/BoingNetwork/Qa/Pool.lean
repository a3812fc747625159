import BoingNetwork.Qa.Rules

/-!
# The quality pool

Who may vote on a pending deploy, when the votes decide it, and the configurations that
the network starts from.
-/

namespace BoingNetwork

/-- A trimmed 32-byte hexadecimal account id, with or without `0x`. -/
def parseAccountHex (text : String) : Option AccountId :=
  let digits := match (trimText text).toList with
    | '0' :: 'x' :: rest => rest
    | digits => digits
  match hexDecode digits with
  | some bytes => if bytes.length = 32 then some (wordOfBytes bytes) else none
  | none => none

inductive QaQuorumDecision where
  | pending
  | allow
  | reject
deriving DecidableEq

inductive QaVoterIneligible where
  | notMember
  | deployerConflict
  | insufficientStake
deriving DecidableEq

namespace QaPoolGovernanceConfig

def developmentDefault : QaPoolGovernanceConfig :=
  { maxPendingItems := 256
    maxPendingPerDeployer := 16
    devOpenVoting := true
    minQuorumVotes := 1
    rewardPerCountedVote := 0 }

def canonicalDefault : QaPoolGovernanceConfig :=
  { reviewWindowBlocks := CANONICAL_REVIEW_WINDOW_BLOCKS
    publicMembership := true
    minQuorumVotes := 2
    rewardPerCountedVote := 0 }

def administratorAccounts (config : QaPoolGovernanceConfig) : List AccountId :=
  config.administrators.filterMap parseAccountHex

def voterEligibility (config : QaPoolGovernanceConfig) (voter : AccountId)
    (deployer : Option AccountId) (voterStake : Option ℕ) : Except QaVoterIneligible Unit :=
  if deployer = some voter then .error .deployerConflict
  else if config.publicMembership then
    if config.minVoterStake > 0 ∧ voterStake.getD 0 < config.minVoterStake then
      .error .insufficientStake
    else .ok ()
  else if config.devOpenVoting && config.administratorAccounts.isEmpty then .ok ()
  else if config.administratorAccounts.contains voter then .ok ()
  else .error .notMember

def effectiveElectorateSize (config : QaPoolGovernanceConfig) : ℕ :=
  if config.publicMembership then max config.minQuorumVotes 1
  else if config.devOpenVoting && config.administratorAccounts.isEmpty then 1
  else max config.administratorAccounts.length 1

/-- The ratios are binary64 quotients; counts are exact. -/
def quorumDecision (config : QaPoolGovernanceConfig) (allow reject : ℕ) : QaQuorumDecision :=
  let total := allow + reject
  if total = 0 then .pending
  else if config.publicMembership ∧ total < config.minQuorumVotes then .pending
  else if binary64 total (max config.effectiveElectorateSize 1) < config.quorumFraction then
    .pending
  else if binary64 allow total ≥ config.allowThresholdFraction then .allow
  else if binary64 reject total ≥ config.rejectThresholdFraction then .reject
  else .pending

end QaPoolGovernanceConfig

end BoingNetwork
