import BoingNetwork.Primitives.TransactionCodec

/-!
# Signed transactions on the wire

A transaction, its signature and a tip.  A tip of zero is left out, so what is received is
first read with a tip and, if that fails, without one.
-/

namespace BoingNetwork

open Bincode Codec

structure SignedTransaction where
  tx : Transaction
  signature : Signature
  priorityTip : ℕ

variable {signed : SignedTransaction}

namespace SignedTransaction

def serialize (signed : SignedTransaction) : Bytes :=
  signed.tx.serialize ++ signatureBytes signed.signature ++
    (if signed.priorityTip = 0 then [] else leBytes 16 signed.priorityTip)

/-- With a tip; bytes that are left over do not matter. -/
def tippedCodec : Codec UInt8 (Transaction × Signature × ℕ) :=
  pair Transaction.codec (pair signatureCodec (uintCodec 16))

def legacyCodec : Codec UInt8 (Transaction × Signature) := pair Transaction.codec signatureCodec

def fromBincode (bytes : Bytes) : Option SignedTransaction :=
  match tippedCodec.decode bytes with
  | some ((tx, signature, priorityTip), _) => some ⟨tx, signature, priorityTip⟩
  | none => (legacyCodec.decode bytes).map fun ((tx, signature), _) => ⟨tx, signature, 0⟩

def Fits (signed : SignedTransaction) : Prop := signed.tx.Fits ∧ signed.priorityTip < 2 ^ 128

/-- What is read has the widths of the fields. -/
theorem fits_of_fromBincode {bytes : Bytes} (decoded : fromBincode bytes = some signed) :
    signed.Fits := by
  unfold fromBincode at decoded
  split at decoded
  next tx signature priorityTip rest read =>
    cases decoded
    obtain ⟨⟨isTx, -, isTip⟩, -⟩ := tippedCodec.decode_eq_some.mp read
    exact ⟨(Transaction.codec_valid tx).mp isTx, isTip⟩
  next =>
    obtain ⟨⟨⟨tx, signature⟩, rest⟩, read, rfl⟩ := Option.map_eq_some_iff.mp decoded
    obtain ⟨⟨isTx, -⟩, -⟩ := legacyCodec.decode_eq_some.mp read
    exact ⟨(Transaction.codec_valid tx).mp isTx, Nat.two_pow_pos 128⟩

theorem tippedCodec_decode_eq_none {tx : Transaction} (fits : tx.Fits) (signature : Signature) :
    tippedCodec.decode (tx.serialize ++ signatureBytes signature) = none := by
  rw [Option.eq_none_iff_forall_ne_some]
  rintro ⟨⟨other, otherSignature, priorityTip⟩, rest⟩ read
  obtain ⟨⟨isOther, isSignature, -⟩, same⟩ := tippedCodec.decode_eq_some.mp read
  rw [tippedCodec, pair_encode, pair_encode, List.append_assoc, List.append_assoc] at same
  obtain ⟨-, sameSignature⟩ := Transaction.codec.append_inj isOther
    ((Transaction.codec_valid tx).mpr fits) same
  obtain ⟨-, nothing⟩ := signatureCodec.append_inj isSignature
    ((signatureCodec_valid signature).mpr trivial) sameSignature
  have length := congrArg List.length nothing
  simp at length

/-- What is written is read back. -/
theorem fromBincode_serialize (fits : signed.Fits) :
    fromBincode signed.serialize = some signed := by
  obtain ⟨tx, signature, priorityTip⟩ := signed
  obtain ⟨txFits, tipFits⟩ := fits
  have isTx := (Transaction.codec_valid tx).mpr txFits
  have isSignature := (signatureCodec_valid signature).mpr trivial
  unfold serialize fromBincode
  by_cases noTip : priorityTip = 0
  · have read : legacyCodec.decode (tx.serialize ++ signatureBytes signature) =
        some ((tx, signature), []) := by
      rw [legacyCodec.decode_eq_some]
      exact ⟨⟨isTx, isSignature⟩, List.append_nil _⟩
    rw [if_pos noTip, List.append_nil, tippedCodec_decode_eq_none txFits, read, noTip]
    rfl
  · have read : tippedCodec.decode (tx.serialize ++ signatureBytes signature ++
        leBytes 16 priorityTip) = some ((tx, signature, priorityTip), []) := by
      rw [tippedCodec.decode_eq_some]
      refine ⟨⟨isTx, isSignature, tipFits⟩, ?_⟩
      rw [List.append_nil, List.append_assoc]
      rfl
    rw [if_neg noTip, read]

end SignedTransaction

end BoingNetwork
