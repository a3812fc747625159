import BoingNetwork.Primitives.Bincode
import Std.Data.ExtTreeSet

/-!
# Pending deploys and the committed quality policy

A deploy that quality assurance could not decide waits for votes.  The policy that
governance sets for quality assurance is held as JSON bytes.
-/

namespace BoingNetwork

open Bincode

structure QaPendingRecord where
  deployer : AccountId
  deployNonce : ℕ
  tx : Transaction
  votes : Std.ExtTreeMap AccountId QaPoolVoteKind
  rewarded : Std.ExtTreeSet AccountId
  enteredHeight : ℕ
deriving DecidableEq

namespace QaPendingRecord

def new (tx : Transaction) (enteredHeight : ℕ) : QaPendingRecord where
  deployer := tx.sender
  deployNonce := tx.nonce
  tx := tx
  votes := ∅
  rewarded := ∅
  enteredHeight := enteredHeight

def serialize (record : QaPendingRecord) : Bytes :=
  bytes32 record.deployer ++ leBytes 8 record.deployNonce ++ record.tx.serialize ++
    Bincode.map bytes32 QaPoolVoteKind.serialize record.votes ++
    vec bytes32 record.rewarded.toList ++ leBytes 8 record.enteredHeight

variable [Crypto]

def commitmentHash (record : QaPendingRecord) : Hash :=
  Crypto.blake3 (asciiBytes "boing.qa_pending.v1" ++ record.serialize)

def smtKey (subject : Hash) : BitVec 256 :=
  Crypto.blake3 (asciiBytes "boing.qa_pending.key.v1" ++ bytes32 subject)

end QaPendingRecord

/-- The voters that are still to be paid, in the order of their ids. -/
def unpaidCountedVoters (record : QaPendingRecord) (payAbstain : Bool) : List AccountId :=
  (record.votes.toList.filter fun (id, kind) =>
    !record.rewarded.contains id && match kind with
      | .allow | .reject => true
      | .abstain => payAbstain).map (·.1)

structure CommittedQaPolicy where
  registryJson : Option Bytes := none
  poolConfigJson : Option Bytes := none
deriving DecidableEq

namespace CommittedQaPolicy

def serialize (policy : CommittedQaPolicy) : Bytes :=
  option byteVec policy.registryJson ++ option byteVec policy.poolConfigJson

def DOMAIN : Bytes := asciiBytes "BOING_QA_POLICY_V1"

def isEmpty (policy : CommittedQaPolicy) : Bool :=
  policy.registryJson.isNone && policy.poolConfigJson.isNone

end CommittedQaPolicy

end BoingNetwork
