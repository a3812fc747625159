import BoingNetwork.Library.HashCollision
import BoingNetwork.Primitives.Checksum
import BoingNetwork.Primitives.TransactionCodec

/-!
# What the signature of a transaction commits to

A transaction is signed in one of three formats: the plain format has no domain tag, the
second one binds the chain id, and the third one also binds a priority tip.  Within each
format the digest fixes all that was signed.  The plain format starts with the nonce, so it
is separated from the other two only for nonces that do not spell the beginning of a tag.
-/

namespace BoingNetwork

open Bincode

def TX_SIGNING_DOMAIN_V2 : Bytes := asciiBytes "BOING_TX_V2"

def TX_SIGNING_DOMAIN_PRIORITY : Bytes := asciiBytes "BOING_TX_PRIORITY"

section Digests

variable [Crypto]

def signableHash (tx : Transaction) : Hash :=
  Crypto.blake3 (leBytes 8 tx.nonce ++ bytes32 tx.sender ++ tx.payload.serialize ++
    tx.accessList.serialize)

def signableTransactionHashV2 (tx : Transaction) (chainId : ℕ) : Hash :=
  Crypto.blake3 (TX_SIGNING_DOMAIN_V2 ++ leBytes 8 chainId ++ leBytes 8 tx.nonce ++
    bytes32 tx.sender ++ tx.payload.serialize ++ tx.accessList.serialize)

/-- Without a tip the digest is the one of the second format. -/
def signableTransactionHashWithTip (tx : Transaction) (chainId priorityTip : ℕ) : Hash :=
  if priorityTip = 0 then signableTransactionHashV2 tx chainId
  else Crypto.blake3 (TX_SIGNING_DOMAIN_PRIORITY ++ leBytes 8 chainId ++ leBytes 8 tx.nonce ++
    bytes32 tx.sender ++ tx.payload.serialize ++ tx.accessList.serialize ++
    leBytes 16 priorityTip)

end Digests

/-- Which formats a verifier accepts; without a chain id only the plain one. -/
structure TxSigPolicy where
  chainId : Option ℕ
  requireV2 : Bool

section Verification

variable [Crypto]

/-- The digest is signed by the key. -/
def Verifies (sender : AccountId) (digest : Hash) (signature : Signature) : Prop :=
  Crypto.verifyStrict sender digest signature = .ok ()

instance (sender : AccountId) (digest : Hash) (signature : Signature) :
    Decidable (Verifies sender digest signature) :=
  inferInstanceAs (Decidable (_ = _))

/-- The key is checked before anything else; whether it is one does not depend on the digest. -/
def verifySignatureWithTip (tx : Transaction) (signature : Signature) (sender : AccountId)
    (policy : TxSigPolicy) (priorityTip : ℕ) : Except SignatureError Unit :=
  if Crypto.verifyStrict sender (signableHash tx) signature = .error .invalidPublicKey then
    .error .invalidPublicKey
  else if ∃ chainId ∈ policy.chainId,
      Verifies sender (signableTransactionHashWithTip tx chainId priorityTip) signature then .ok ()
  else if priorityTip > 0 then .error .invalidSignature
  else if policy.requireV2 then
    .error (if Verifies sender (signableHash tx) signature then .legacySignatureRejected
      else .invalidSignature)
  else (Crypto.verifyStrict sender (signableHash tx) signature).mapError fun _ => .invalidSignature

end Verification

/-! ## What is signed -/

/-- The format of a signature, with what it binds beside the transaction. -/
inductive SigningDomain where
  | plain
  | bound (chainId priorityTip : ℕ)

/-- A transaction as it is signed in one of the formats. -/
structure Signable where
  tx : Transaction
  domain : SigningDomain

variable (tx : Transaction)

namespace Signable

/-- The fields have the widths of their types. -/
def Fits (signable : Signable) : Prop :=
  signable.tx.Fits ∧
    match signable.domain with
    | .plain => True
    | .bound chainId priorityTip => chainId < 2 ^ 64 ∧ priorityTip < 2 ^ 128

def preimage : Signable → Bytes
  | ⟨tx, .plain⟩ => tx.serialize
  | ⟨tx, .bound chainId 0⟩ => TX_SIGNING_DOMAIN_V2 ++ (leBytes 8 chainId ++ tx.serialize)
  | ⟨tx, .bound chainId priorityTip⟩ =>
    TX_SIGNING_DOMAIN_PRIORITY ++ (leBytes 8 chainId ++ (tx.serialize ++ leBytes 16 priorityTip))

/-- The nonce whose bytes are the first eight of both domain tags. -/
def TAG_NONCE : ℕ := leValue (asciiBytes "BOING_TX")

/-- Beside a signable with a domain tag, a plain one does not start like a tag. -/
def UntaggedFor (signable other : Signable) : Prop :=
  signable.domain = .plain → other.domain ≠ .plain → signable.tx.nonce ≠ TAG_NONCE

def digest [Crypto] (signable : Signable) : Hash :=
  match signable.domain with
  | .plain => signableHash signable.tx
  | .bound chainId priorityTip => signableTransactionHashWithTip signable.tx chainId priorityTip

theorem digest_eq [Crypto] (signable : Signable) :
    signable.digest = Crypto.blake3 signable.preimage := by
  obtain ⟨tx, domain⟩ := signable
  cases domain with
  | plain => rfl
  | bound chainId priorityTip =>
    cases priorityTip with
    | zero =>
      simp [digest, signableTransactionHashWithTip, signableTransactionHashV2, preimage,
        Transaction.serialize]
    | succ tip =>
      simp [digest, signableTransactionHashWithTip, preimage, Transaction.serialize]

theorem take_serialize (rest : Bytes) : (tx.serialize ++ rest).take 8 = leBytes 8 tx.nonce := by
  rw [Transaction.serialize, List.append_assoc, List.append_assoc, List.append_assoc,
    List.take_left' (length_leBytes 8 tx.nonce)]

/-- A preimage with a tag starts with the tag. -/
theorem take_preimage_bound (chainId priorityTip : ℕ) :
    (preimage ⟨tx, .bound chainId priorityTip⟩).take 8 = asciiBytes "BOING_TX" := by
  cases priorityTip with
  | zero => rfl
  | succ tip => rfl

theorem preimage_plain_ne {tx other : Transaction} (fits : tx.Fits)
    (untagged : tx.nonce ≠ TAG_NONCE) (chainId priorityTip : ℕ) :
    preimage ⟨tx, .plain⟩ ≠ preimage ⟨other, .bound chainId priorityTip⟩ := by
  intro same
  have start := take_serialize tx []
  rw [List.append_nil] at start
  rw [preimage] at same
  rw [same, take_preimage_bound] at start
  apply untagged
  rw [TAG_NONCE, start, leValue_leBytes, Nat.mod_eq_of_lt fits.1]

/-- The two tags differ in their ninth letter. -/
theorem preimage_untipped_ne (other : Transaction) (chainId otherId tip : ℕ) :
    preimage ⟨tx, .bound chainId 0⟩ ≠ preimage ⟨other, .bound otherId (tip + 1)⟩ := by
  intro same
  have letter := congrArg (fun bytes => bytes[9]?) same
  simp [preimage, TX_SIGNING_DOMAIN_V2, TX_SIGNING_DOMAIN_PRIORITY, asciiBytes] at letter

theorem append_serialize_inj {tx other : Transaction} (fits : tx.Fits) (otherFits : other.Fits)
    {rest otherRest : Bytes} (same : tx.serialize ++ rest = other.serialize ++ otherRest) :
    tx = other ∧ rest = otherRest :=
  Transaction.codec.append_inj ((Transaction.codec_valid tx).mpr fits)
    ((Transaction.codec_valid other).mpr otherFits) same

theorem eq_of_preimage_bound {tx other : Transaction} (fits : tx.Fits) (otherFits : other.Fits)
    {tag : Bytes} {chainId otherId : ℕ} (idFits : chainId < 2 ^ 64) (otherIdFits : otherId < 2 ^ 64)
    {rest otherRest : Bytes}
    (same : tag ++ (leBytes 8 chainId ++ (tx.serialize ++ rest)) =
      tag ++ (leBytes 8 otherId ++ (other.serialize ++ otherRest))) :
    chainId = otherId ∧ tx = other ∧ rest = otherRest := by
  obtain ⟨sameId, sameRest⟩ :=
    (uintCodec 8).append_inj idFits otherIdFits (List.append_cancel_left same)
  exact ⟨sameId, append_serialize_inj fits otherFits sameRest⟩

theorem preimage_injective {first second : Signable} (firstFits : first.Fits)
    (secondFits : second.Fits) (firstUntagged : first.UntaggedFor second)
    (secondUntagged : second.UntaggedFor first) (same : first.preimage = second.preimage) :
    first = second := by
  obtain ⟨tx, domain⟩ := first
  obtain ⟨other, otherDomain⟩ := second
  obtain ⟨txFits, domainFits⟩ := firstFits
  obtain ⟨otherFits, otherDomainFits⟩ := secondFits
  cases domain with
  | plain =>
    cases otherDomain with
    | plain =>
      have padded : tx.serialize ++ [] = other.serialize ++ [] := congrArg (· ++ []) same
      exact congrArg (Signable.mk · .plain) (append_serialize_inj txFits otherFits padded).1
    | bound otherId otherTip =>
      exact absurd same (preimage_plain_ne txFits (firstUntagged rfl (by simp)) otherId otherTip)
  | bound chainId tip =>
    cases otherDomain with
    | plain =>
      exact absurd same.symm
        (preimage_plain_ne otherFits (secondUntagged rfl (by simp)) chainId tip)
    | bound otherId otherTip =>
      cases tip with
      | zero =>
        cases otherTip with
        | zero =>
          have padded := congrArg (· ++ []) same
          simp only [preimage, List.append_assoc] at padded
          obtain ⟨rfl, rfl, -⟩ := eq_of_preimage_bound txFits otherFits domainFits.1
            otherDomainFits.1 padded
          rfl
        | succ otherTip => exact absurd same (preimage_untipped_ne tx other _ _ _)
      | succ tip =>
        cases otherTip with
        | zero => exact absurd same.symm (preimage_untipped_ne other tx _ _ _)
        | succ otherTip =>
          obtain ⟨rfl, rfl, sameTip⟩ := eq_of_preimage_bound txFits otherFits domainFits.1
            otherDomainFits.1 same
          rw [(uintCodec 16).encode_injective domainFits.2 otherDomainFits.2 sameTip]

theorem eq_of_digest_eq [Crypto] {first second : Signable} (firstFits : first.Fits)
    (secondFits : second.Fits) (firstUntagged : first.UntaggedFor second)
    (secondUntagged : second.UntaggedFor first) (same : first.digest = second.digest) :
    first = second ∨ HashCollision Crypto.blake3 [first.preimage, second.preimage] := by
  by_cases samePreimage : first.preimage = second.preimage
  · exact .inl (preimage_injective firstFits secondFits firstUntagged secondUntagged samePreimage)
  · rw [digest_eq, digest_eq] at same
    exact .inr ⟨_, List.mem_cons_self, _, List.mem_cons_of_mem _ List.mem_cons_self, samePreimage,
      same⟩

end Signable

/-! ## What a verifier accepts -/

structure SignatureCheck where
  tx : Transaction
  policy : TxSigPolicy
  priorityTip : ℕ

variable {check : SignatureCheck} {signable : Signable}

namespace SignatureCheck

def Fits (check : SignatureCheck) : Prop :=
  check.tx.Fits ∧ (∀ chainId ∈ check.policy.chainId, chainId < 2 ^ 64) ∧
    check.priorityTip < 2 ^ 128

/-- The plain format is accepted without a tip, until the policy requires the second one. -/
def AllowsPlain (check : SignatureCheck) : Prop :=
  check.priorityTip = 0 ∧ check.policy.requireV2 = false

instance (check : SignatureCheck) : Decidable check.AllowsPlain :=
  inferInstanceAs (Decidable (_ ∧ _))

def signables (check : SignatureCheck) : List Signable :=
  check.policy.chainId.toList.map (fun chainId => ⟨check.tx, .bound chainId check.priorityTip⟩) ++
    if check.AllowsPlain then [⟨check.tx, .plain⟩] else []

/-- Beside a check that knows its chain, no plain signature passes for a transaction that starts
like a domain tag. -/
def UntaggedFor (check other : SignatureCheck) : Prop :=
  check.AllowsPlain → other.policy.chainId ≠ none → check.tx.nonce ≠ Signable.TAG_NONCE

theorem mem_signables : signable ∈ check.signables ↔
      (∃ chainId ∈ check.policy.chainId, signable = ⟨check.tx, .bound chainId check.priorityTip⟩) ∨
        check.AllowsPlain ∧ signable = ⟨check.tx, .plain⟩ := by
  rw [signables, List.mem_append]
  apply or_congr
  · simp [eq_comm]
  · split
    next allowed => simp [allowed]
    next refused => simp [refused]

theorem fits_of_mem (fits : check.Fits) (member : signable ∈ check.signables) : signable.Fits := by
  rcases mem_signables.mp member with ⟨chainId, isId, rfl⟩ | ⟨-, rfl⟩
  · exact ⟨fits.1, fits.2.1 chainId isId, fits.2.2⟩
  · exact ⟨fits.1, trivial⟩

theorem untaggedFor_of_mem {other : SignatureCheck} {otherSignable : Signable}
    (untagged : check.UntaggedFor other) (member : signable ∈ check.signables)
    (otherMember : otherSignable ∈ other.signables) : signable.UntaggedFor otherSignable := by
  rcases mem_signables.mp member with ⟨chainId, -, rfl⟩ | ⟨allowed, rfl⟩
  · rintro ⟨⟩
  · intro _ tagged
    rcases mem_signables.mp otherMember with ⟨chainId, isId, rfl⟩ | ⟨-, rfl⟩
    · exact untagged allowed (Option.ne_none_iff_exists'.mpr ⟨chainId, isId⟩)
    · exact absurd rfl tagged

variable [Crypto]

def Accepts (check : SignatureCheck) (sender : AccountId) (signature : Signature) : Prop :=
  verifySignatureWithTip check.tx signature sender check.policy check.priorityTip = .ok ()

instance (check : SignatureCheck) (sender : AccountId) (signature : Signature) :
    Decidable (check.Accepts sender signature) :=
  inferInstanceAs (Decidable (_ = _))

theorem Accepts.verifies {sender : AccountId} {signature : Signature}
    (accepts : check.Accepts sender signature) :
    ∃ signable ∈ check.signables, Verifies sender signable.digest signature := by
  simp only [Accepts, verifySignatureWithTip] at accepts
  split at accepts
  · cases accepts
  · split at accepts
    next bound =>
      obtain ⟨chainId, isId, verifies⟩ := bound
      exact ⟨_, mem_signables.mpr (.inl ⟨chainId, isId, rfl⟩), verifies⟩
    next =>
      split at accepts
      · cases accepts
      · split at accepts
        · cases accepts
        next noTip noV2 =>
          refine ⟨⟨check.tx, .plain⟩,
            mem_signables.mpr (.inr ⟨⟨by omega, by simpa using noV2⟩, rfl⟩), ?_⟩
          rw [Verifies, Signable.digest]
          revert accepts
          cases Crypto.verifyStrict sender (signableHash check.tx) signature with
          | error reason => rintro ⟨⟩
          | ok checked => exact fun _ => rfl

end SignatureCheck

/-- A signature verifies for one digest at most, whatever the keys are. -/
def SignatureBinding [Crypto] : Prop :=
  ∀ (sender other : AccountId) (digest otherDigest : Hash) (signature : Signature),
    Verifies sender digest signature → Verifies other otherDigest signature → digest = otherDigest

section Tagged

open Checksum

/-- A key that starts with the rest of a tag, a chain id and a nonce, and then repeats itself. -/
def taggedSender : AccountId :=
  wordOfBytes (asciiBytes "_V2" ++ leBytes 8 6913 ++ leBytes 8 65536 ++ asciiBytes "_V2" ++
    leBytes 8 6913 ++ leBytes 2 65536)

/-- A transfer of five units for chain 6913; the receiver spells the length of a byte string. -/
def taggedTransfer : Transaction where
  nonce := 65536
  sender := taggedSender
  payload := .transfer (wordOfBytes (List.replicate 13 0 ++ leBytes 8 27 ++ List.replicate 11 0)) 5
  accessList := ⟨[], []⟩

/-- A call whose plain preimage is the one of the transfer on its chain. -/
def taggedCall : Transaction where
  nonce := Signable.TAG_NONCE
  sender := taggedSender
  payload := .contractCall (wordOfBytes (leBytes 2 0 ++ asciiBytes "_V2" ++ leBytes 8 6913 ++
    List.replicate 19 0)) (List.replicate 11 0 ++ leBytes 16 5)
  accessList := ⟨[], []⟩

theorem taggedTransfer_fits : taggedTransfer.Fits := by
  simp [Transaction.Fits, TransactionPayload.Fits, taggedTransfer]

theorem taggedCall_fits : taggedCall.Fits := by
  refine ⟨by decide, ?_, by decide, by decide⟩
  simp [TransactionPayload.Fits, taggedCall]

theorem checksum_signatureBinding : SignatureBinding := by
  intro sender other digest otherDigest signature verifies otherVerifies
  have signed : ∀ {key : AccountId} {message : Hash}, Verifies key message signature →
      signature = key ++ message := by
    intro key message verified
    by_contra unsigned
    have refused : Verifies key message signature ↔ False := by
      simp [Verifies, Crypto.verifyStrict, unsigned]
    exact refused.mp verified
  have same : sender ++ digest = other ++ otherDigest :=
    (signed verifies).symm.trans (signed otherVerifies)
  have low := congrArg (BitVec.setWidth 256) same
  rwa [BitVec.setWidth_append_eq_right, BitVec.setWidth_append_eq_right] at low

def transferSignature : Signature :=
  Crypto.sign taggedSender (signableTransactionHashV2 taggedTransfer 6913)

end Tagged

end BoingNetwork
