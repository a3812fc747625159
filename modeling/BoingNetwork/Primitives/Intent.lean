import BoingNetwork.Library.HashCollision
import BoingNetwork.Primitives.Checksum
import BoingNetwork.Primitives.TransactionCodec

/-!
# Signed intents

The chain id of an intent is left out where there is none, but the reader expects an optional
field there, so only intents with a chain id are read back.  What is signed starts with the
chain id or with a text that says there is none, and one such text continues the other: an
intent with a chain id and one without can have the same bytes to sign.
-/

namespace BoingNetwork

open Bincode Codec

inductive IntentKind where
  | swap (fromAsset toAsset : AccountId) (amount : ℕ) (minOut : Option ℕ)
  | transfer (recipient : AccountId) (amount : ℕ)
  | custom (payload : Bytes)
deriving DecidableEq

@[ext]
structure Intent where
  signer : AccountId
  kind : IntentKind
  nonce : ℕ
  deadlineBlock : ℕ
  chainId : Option ℕ
deriving DecidableEq

structure SignedIntent where
  intent : Intent
  signature : Signature

namespace IntentKind

def serialize : IntentKind → Bytes
  | swap fromAsset toAsset amount minOut => variantIndex 0 ++ bytes32 fromAsset ++
      bytes32 toAsset ++ leBytes 16 amount ++ option (leBytes 16) minOut
  | transfer recipient amount => variantIndex 1 ++ bytes32 recipient ++ leBytes 16 amount
  | custom payload => variantIndex 2 ++ byteVec payload

def Fits : IntentKind → Prop
  | swap _ _ amount minOut => amount < 2 ^ 128 ∧ ∀ least ∈ minOut, least < 2 ^ 128
  | transfer _ amount => amount < 2 ^ 128
  | custom payload => payload.length < 2 ^ 64

def codec : Codec UInt8 IntentKind :=
  Codec.enum (uintCodec 4)
    [⟨_, pair wordCodec (pair wordCodec (pair (uintCodec 16) (optionCodec (uintCodec 16)))),
        fun (fromAsset, toAsset, amount, minOut) => .swap fromAsset toAsset amount minOut⟩,
      ⟨_, pair wordCodec (uintCodec 16), fun (recipient, amount) => .transfer recipient amount⟩,
      ⟨_, byteVecCodec, .custom⟩]
    serialize Fits
    (by
      rintro (_ | _ | _ | index) variant isVariant fields <;> cases isVariant <;>
        simp [serialize, variantIndex])
    (by
      rintro (_ | _ | _ | index) variant isVariant fields <;> cases isVariant <;>
        simp [Fits])
    (by
      rintro (⟨fromAsset, toAsset, amount, minOut⟩ | ⟨recipient, amount⟩ | ⟨payload⟩)
      · exact ⟨0, _, rfl, (fromAsset, toAsset, amount, minOut), rfl⟩
      · exact ⟨1, _, rfl, (recipient, amount), rfl⟩
      · exact ⟨2, _, rfl, payload, rfl⟩)

end IntentKind

namespace Intent

/-- All fields but the chain id. -/
def bodyCodec : Codec UInt8 (AccountId × IntentKind × ℕ × ℕ) :=
  pair wordCodec (pair IntentKind.codec (pair (uintCodec 8) (uintCodec 8)))

def body (intent : Intent) : AccountId × IntentKind × ℕ × ℕ :=
  (intent.signer, intent.kind, intent.nonce, intent.deadlineBlock)

/-- `skip_serializing_if`: a chain id that is absent takes no bytes. -/
def chainIdBytes : Option ℕ → Bytes
  | some id => 1 :: leBytes 8 id
  | none => []

def serialize (intent : Intent) : Bytes :=
  bytes32 intent.signer ++ intent.kind.serialize ++ leBytes 8 intent.nonce ++
    leBytes 8 intent.deadlineBlock ++ chainIdBytes intent.chainId

def chainIdTag : Option ℕ → Bytes
  | some id => asciiBytes "cid" ++ leBytes 8 id
  | none => asciiBytes "cid0"

def signablePreimage (intent : Intent) : Bytes :=
  asciiBytes "BOING_INTENT_V1" ++ chainIdTag intent.chainId ++ intent.serialize

def signableHash [Crypto] (intent : Intent) : Hash := Crypto.blake3 intent.signablePreimage

def Fits (intent : Intent) : Prop :=
  intent.kind.Fits ∧ intent.nonce < 2 ^ 64 ∧ intent.deadlineBlock < 2 ^ 64 ∧
    ∀ id ∈ intent.chainId, id < 2 ^ 64

/-- The chain id starts with the character zero, and without it the bytes of the one intent
continue with those of the other. -/
def Aliases (tagged bare : Intent) : Prop :=
  bare.chainId = none ∧ ∃ id, tagged.chainId = some id ∧ id % 256 = 48 ∧
    bare.serialize = leBytes 7 (id / 256) ++ tagged.serialize

variable {first second intent : Intent}

theorem bodyCodec_valid (fits : intent.Fits) : bodyCodec.Valid intent.body :=
  ⟨trivial, fits.1, fits.2.1, fits.2.2.1⟩

theorem serialize_eq :
    intent.serialize = bodyCodec.encode intent.body ++ chainIdBytes intent.chainId := by
  simp only [serialize, bodyCodec, body, pair_encode, List.append_assoc]
  rfl

theorem eq_of_signablePreimage (firstFits : first.Fits) (secondFits : second.Fits)
    (shape : first.chainId.isSome = second.chainId.isSome)
    (same : first.signablePreimage = second.signablePreimage) : first = second := by
  rw [signablePreimage, signablePreimage, List.append_assoc, List.append_assoc,
    List.append_cancel_left_eq] at same
  have sameId : first.chainId = second.chainId := by
    cases isFirst : first.chainId with
    | some id =>
      cases isSecond : second.chainId with
      | some other =>
        simp only [chainIdTag, isFirst, isSecond, List.append_assoc,
          List.append_cancel_left_eq] at same
        have sameBytes := (uintCodec 8).append_inj (firstFits.2.2.2 id isFirst)
          (secondFits.2.2.2 other isSecond) same
        rw [sameBytes.1]
      | none => simp [isFirst, isSecond] at shape
    | none =>
      rw [isFirst] at shape
      exact (Option.isNone_iff_eq_none.mp (Option.isSome_eq_false_iff.mp shape.symm)).symm
  rw [sameId, List.append_cancel_left_eq, serialize_eq, serialize_eq] at same
  have sameBody := (bodyCodec.append_inj (bodyCodec_valid firstFits)
    (bodyCodec_valid secondFits) same).1
  simp only [body, Prod.mk.injEq] at sameBody
  obtain ⟨signer, kind, nonce, deadlineBlock⟩ := sameBody
  exact Intent.ext signer kind nonce deadlineBlock sameId

theorem signablePreimage_eq_iff_of_some_none {id : ℕ} (isId : first.chainId = some id)
    (noId : second.chainId = none) :
    first.signablePreimage = second.signablePreimage ↔ first.Aliases second := by
  have tag : asciiBytes "cid0" = asciiBytes "cid" ++ [48] := by decide
  have bytes : leBytes 8 id = UInt8.ofNat id :: leBytes 7 (id / 256) := leBytes_succ 7 id
  have digit : UInt8.ofNat id = 48 ↔ id % 256 = 48 := by
    rw [← UInt8.toNat_inj, UInt8.toNat_ofNat']
    rfl
  simp only [signablePreimage, chainIdTag, isId, noId, tag, bytes, List.append_assoc,
    List.append_cancel_left_eq, List.cons_append, List.nil_append, List.cons.injEq, digit]
  constructor
  · rintro ⟨isZero, same⟩
    exact ⟨noId, id, isId, isZero, same.symm⟩
  · rintro ⟨-, other, isOther, isZero, same⟩
    obtain rfl := Option.some.inj (isId.symm.trans isOther)
    exact ⟨isZero, same.symm⟩

theorem signablePreimage_eq_iff_of_ne (shape : first.chainId.isSome ≠ second.chainId.isSome) :
    first.signablePreimage = second.signablePreimage ↔
      first.Aliases second ∨ second.Aliases first := by
  cases isFirst : first.chainId with
  | some id =>
    cases isSecond : second.chainId with
    | some other => simp [isFirst, isSecond] at shape
    | none =>
      rw [signablePreimage_eq_iff_of_some_none isFirst isSecond]
      exact (or_iff_left (by simp [Aliases, isFirst])).symm
  | none =>
    cases isSecond : second.chainId with
    | some other =>
      rw [eq_comm, signablePreimage_eq_iff_of_some_none isSecond isFirst]
      exact (or_iff_right (by simp [Aliases, isSecond])).symm
    | none => simp [isFirst, isSecond] at shape

theorem signablePreimage_injective_iff (firstFits : first.Fits) (secondFits : second.Fits) :
    (first.signablePreimage = second.signablePreimage → first = second) ↔
      ¬ (first.Aliases second ∨ second.Aliases first) := by
  by_cases shape : first.chainId.isSome = second.chainId.isSome
  · refine iff_of_true (eq_of_signablePreimage firstFits secondFits shape) ?_
    rintro (⟨noId, id, isId, -⟩ | ⟨noId, id, isId, -⟩) <;> simp [noId, isId] at shape
  · have differ : first ≠ second := fun same => shape (by rw [same])
    rw [signablePreimage_eq_iff_of_ne shape]
    exact forall_congr' fun _ => iff_false_intro differ

end Intent

namespace SignedIntent

def serialize (signed : SignedIntent) : Bytes :=
  signed.intent.serialize ++ signatureBytes signed.signature

/-- `bincode::deserialize`: the chain id is read as an optional field, and bytes that are left
over do not matter. -/
def fromBincode (bytes : Bytes) : Option SignedIntent :=
  ((pair Intent.bodyCodec (pair (optionCodec (uintCodec 8)) signatureCodec)).decode bytes).map
    fun (((signer, kind, nonce, deadlineBlock), chainId, signature), _) =>
      ⟨⟨signer, kind, nonce, deadlineBlock, chainId⟩, signature⟩

theorem fromBincode_serialize_iff_isSome {signed : SignedIntent} (fits : signed.intent.Fits) :
    fromBincode signed.serialize = some signed ↔ signed.intent.chainId.isSome := by
  have isBody := Intent.bodyCodec_valid fits
  cases isId : signed.intent.chainId with
  | some id =>
    have read : (pair Intent.bodyCodec (pair (optionCodec (uintCodec 8)) signatureCodec)).decode
        signed.serialize = some ((signed.intent.body, some id, signed.signature), []) := by
      have isOption := (optionCodec_valid (uintCodec 8) (some id)).mpr
        fun inner isInner => fits.2.2.2 inner (isId.trans isInner)
      refine (Codec.decode_eq_some _).mpr ⟨⟨isBody, isOption, trivial⟩, ?_⟩
      rw [serialize, Intent.serialize_eq, isId, List.append_nil, List.append_assoc]
      rfl
    rw [fromBincode, read, ← isId]
    exact iff_of_true rfl (by rw [isId]; rfl)
  | none =>
    simp only [Option.isSome_none, Bool.false_eq_true, iff_false]
    intro read
    obtain ⟨⟨⟨body, chainId, signature⟩, rest⟩, decoded, -⟩ := Option.map_eq_some_iff.mp read
    obtain ⟨⟨otherBody, isOption, -⟩, same⟩ := (Codec.decode_eq_some _).mp decoded
    rw [serialize, Intent.serialize_eq, isId, Intent.chainIdBytes, List.append_nil, pair_encode,
      List.append_assoc] at same
    obtain ⟨-, misread⟩ := Intent.bodyCodec.append_inj otherBody isBody same
    -- The length of the signature stands where the reader expects zero or one.
    have tag := congrArg List.head? misread
    have length : (signatureBytes signed.signature).head? = some 64 := by
      simp [signatureBytes, byteVec, leBytes_succ]
    rw [length] at tag
    cases chainId with
    | none => simp [option] at tag
    | some id => simp [option] at tag

end SignedIntent

/-- Signed intents are read back exactly if they have a chain id, and the digest of two intents
binds them exactly if none of them continues the other. -/
theorem intents_decode_and_bind [Crypto] (signed other : SignedIntent) (fits : signed.intent.Fits)
    (otherFits : other.intent.Fits) :
    (SignedIntent.fromBincode signed.serialize = some signed ↔ signed.intent.chainId.isSome) ∧
      ((signed.intent.signableHash = other.intent.signableHash →
        signed.intent = other.intent ∨ HashCollision Crypto.blake3
          [signed.intent.signablePreimage, other.intent.signablePreimage]) ↔
        ¬ (signed.intent.Aliases other.intent ∨ other.intent.Aliases signed.intent)) := by
  refine ⟨SignedIntent.fromBincode_serialize_iff_isSome fits, ?_⟩
  rw [← Intent.signablePreimage_injective_iff fits otherFits]
  constructor
  · intro bound same
    rcases bound (congrArg Crypto.blake3 same) with
      equal | ⟨first, isFirst, second, isSecond, differ, -⟩
    · exact equal
    · simp only [same, List.mem_cons, List.not_mem_nil, or_false, or_self] at isFirst isSecond
      exact absurd (isFirst.trans isSecond.symm) differ
  · intro injective digest
    by_cases same : signed.intent.signablePreimage = other.intent.signablePreimage
    · exact .inl (injective same)
    · exact .inr ⟨_, List.mem_cons_self, _, List.mem_cons_of_mem _ List.mem_cons_self, same, digest⟩

section Runs

open Checksum

/-- A swap on chain 48, the code of the character zero. -/
def taggedSwap : Intent := ⟨0x02000000590000, .swap 0 0 5 none, 0, 0, some 48⟩

/-- Its bytes after the first one of the chain id, read without a chain id. -/
def bareCustom : Intent :=
  ⟨0, .custom (List.replicate 63 0 ++ 5 :: List.replicate 25 0), 2 ^ 56, 48, none⟩

theorem bare_intent_refused_and_aliased :
    SignedIntent.fromBincode (SignedIntent.serialize ⟨bareCustom, 0⟩) = none ∧
      taggedSwap ≠ bareCustom ∧ taggedSwap.signableHash = bareCustom.signableHash ∧
      ¬ HashCollision Crypto.blake3 [taggedSwap.signablePreimage, bareCustom.signablePreimage] := by
  decide +kernel

theorem taggedSwap_decodes_and_binds :
    SignedIntent.fromBincode (SignedIntent.serialize ⟨taggedSwap, 0⟩) = some ⟨taggedSwap, 0⟩ := by
  have fits : taggedSwap.Fits := by simp [Intent.Fits, IntentKind.Fits, taggedSwap]
  exact (intents_decode_and_bind ⟨taggedSwap, 0⟩ ⟨taggedSwap, 0⟩ fits fits).1.mpr rfl

end Runs

end BoingNetwork
