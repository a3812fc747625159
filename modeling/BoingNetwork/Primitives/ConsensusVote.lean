import BoingNetwork.Primitives.Basic

/-!
# Signed votes and equivocation evidence

A vote names the round and the block hash.  Two verified votes of one validator
for one round and different blocks are equivocation evidence.
-/

namespace BoingNetwork

structure ConsensusVote where
  round : ℕ
  blockHash : Hash
  validator : AccountId
  signature : Signature
deriving DecidableEq

/-- Two votes of one validator for different blocks in the same round. -/
structure EquivocationEvidence where
  voteA : ConsensusVote
  voteB : ConsensusVote
deriving DecidableEq

inductive EquivocationError where
  | validatorMismatch
  | roundMismatch
  | sameBlock
  | badSignature (error : SignatureError)
deriving DecidableEq

def CONSENSUS_VOTE_DOMAIN : Bytes := asciiBytes "boing.consensus.vote.v1\x00"

variable [Crypto]

def consensusVoteSignableHash (round : ℕ) (blockHash : Hash) : Hash :=
  Crypto.blake3 (CONSENSUS_VOTE_DOMAIN ++ leBytes 8 round ++ bytes32 blockHash)

namespace ConsensusVote

def sign (round : ℕ) (blockHash : Hash) (key : SigningKey) : ConsensusVote where
  round := round
  blockHash := blockHash
  validator := Crypto.verifyingKey key
  signature := Crypto.sign key (consensusVoteSignableHash round blockHash)

def verify (vote : ConsensusVote) : Except SignatureError Unit :=
  Crypto.verifyStrict vote.validator
    (consensusVoteSignableHash vote.round vote.blockHash) vote.signature

variable (round : ℕ) (blockHash : Hash) (key : SigningKey)

end ConsensusVote

namespace EquivocationEvidence

def tryFromVotes (a b : ConsensusVote) : Except EquivocationError EquivocationEvidence :=
  if a.validator ≠ b.validator then .error .validatorMismatch
  else if a.round ≠ b.round then .error .roundMismatch
  else if a.blockHash = b.blockHash then .error .sameBlock
  else match a.verify with
    | .error reason => .error (.badSignature reason)
    | .ok _ => match b.verify with
      | .error reason => .error (.badSignature reason)
      | .ok _ => .ok ⟨a, b⟩

theorem tryFromVotes_eq_ok {a b : ConsensusVote} {evidence : EquivocationEvidence} :
    tryFromVotes a b = .ok evidence ↔
      a.validator = b.validator ∧ a.round = b.round ∧ a.blockHash ≠ b.blockHash ∧
        a.verify = .ok () ∧ b.verify = .ok () ∧ evidence = ⟨a, b⟩ := by
  unfold tryFromVotes
  cases verifiedA : a.verify <;> cases verifiedB : b.verify <;> grind

end EquivocationEvidence

end BoingNetwork
