import BoingNetwork.Primitives.Block
import BoingNetwork.Primitives.Checksum
import BoingNetwork.Primitives.TransactionCodec

/-!
# Encoding and decoding of blocks

A block is written without its empty trailing lists, and its header without an absent
`blobs_root`.  The decoder therefore tries the layouts one after the other and takes the
first one that reads the input exactly to its end.
-/

namespace BoingNetwork

open Bincode Codec

/-- The part of a header that every layout has. -/
def BlockHeader.serializeCommon (header : BlockHeader) : Bytes :=
  bytes32 header.parentHash ++ leBytes 8 header.height ++ leBytes 8 header.timestamp ++
    bytes32 header.proposer ++ bytes32 header.txRoot ++ bytes32 header.receiptsRoot ++
    bytes32 header.stateRoot

def unlessEmpty {Value : Type} (encode : Value → Bytes) (values : List Value) : Bytes :=
  if values.isEmpty then [] else Bincode.vec encode values

def Block.serialize (block : Block) : Bytes :=
  block.header.serialize ++ Bincode.vec Transaction.serialize block.transactions ++
    unlessEmpty signatureBytes block.signatures ++ unlessEmpty (leBytes 16) block.priorityTips

/-! ## Layouts -/

def legacyHeaderCodec : Codec UInt8 BlockHeader where
  encode header := header.serializeCommon
  decode bytes :=
    (pair wordCodec (pair (uintCodec 8) (pair (uintCodec 8) (pair wordCodec (pair wordCodec
      (pair wordCodec wordCodec)))))).reads
      (fun (parentHash, height, timestamp, proposer, txRoot, receiptsRoot, stateRoot) =>
        ⟨parentHash, height, timestamp, proposer, txRoot, receiptsRoot, stateRoot, none⟩) bytes
  Valid header := header.height < 2 ^ 64 ∧ header.timestamp < 2 ^ 64 ∧ header.blobsRoot = none
  decode_eq_some := by
    intro bytes header rest
    rw [reads_eq_some]
    constructor
    · rintro ⟨⟨parentHash, height, timestamp, proposer, txRoot, receiptsRoot, stateRoot⟩, rfl,
        valid, rfl⟩
      refine ⟨⟨valid.2.1, valid.2.2.1, rfl⟩, ?_⟩
      simp [BlockHeader.serializeCommon]
    · rintro ⟨⟨height, timestamp, absent⟩, rfl⟩
      refine ⟨(header.parentHash, header.height, header.timestamp, header.proposer, header.txRoot,
        header.receiptsRoot, header.stateRoot), ?_, ?_, ?_⟩
      · rw [← absent]
      · simpa using ⟨height, timestamp⟩
      · simp [BlockHeader.serializeCommon]

def headerCodec : Codec UInt8 BlockHeader where
  encode header := header.serializeCommon ++ option bytes32 header.blobsRoot
  decode bytes :=
    (pair legacyHeaderCodec (optionCodec wordCodec)).reads
      (fun (header, blobsRoot) => { header with blobsRoot }) bytes
  Valid header := header.height < 2 ^ 64 ∧ header.timestamp < 2 ^ 64
  decode_eq_some := by
    intro bytes header rest
    rw [reads_eq_some]
    constructor
    · rintro ⟨⟨legacy, blobsRoot⟩, rfl, ⟨legacyValid, -⟩, rfl⟩
      exact ⟨⟨legacyValid.1, legacyValid.2.1⟩, rfl⟩
    · rintro ⟨⟨height, timestamp⟩, rfl⟩
      exact ⟨({ header with blobsRoot := none }, header.blobsRoot), rfl,
        ⟨⟨height, timestamp, rfl⟩, by simp⟩, rfl⟩

def unsignedCodec (header : Codec UInt8 BlockHeader) :
    Codec UInt8 (BlockHeader × List Transaction) :=
  pair header (vecCodec Transaction.codec)

def signedCodec (header : Codec UInt8 BlockHeader) :
    Codec UInt8 ((BlockHeader × List Transaction) × List Signature) :=
  pair (unsignedCodec header) (vecCodec signatureCodec)

def fullCodec :
    Codec UInt8 (((BlockHeader × List Transaction) × List Signature) × List ℕ) :=
  pair (signedCodec headerCodec) (vecCodec (uintCodec 16))

def Block.ofFull (fields : ((BlockHeader × List Transaction) × List Signature) × List ℕ) : Block :=
  ⟨fields.1.1.1, fields.1.1.2, fields.1.2, fields.2⟩

def Block.ofSigned (fields : (BlockHeader × List Transaction) × List Signature) : Block :=
  ⟨fields.1.1, fields.1.2, fields.2, []⟩

def Block.ofUnsigned (fields : BlockHeader × List Transaction) : Block :=
  ⟨fields.1, fields.2, [], []⟩

/-- The first layout, with its check of the number of tips. -/
def decodeFull (bytes : Bytes) : Option Block :=
  ((fullCodec.decodeExact bytes).map Block.ofFull).filter fun block =>
    block.priorityTips.isEmpty || block.priorityTips.length == block.transactions.length

/-- The layouts whose header has `blobs_root`. -/
def decodeCurrent (bytes : Bytes) : Option Block :=
  decodeFull bytes
    <|> ((signedCodec headerCodec).decodeExact bytes).map Block.ofSigned
    <|> ((unsignedCodec headerCodec).decodeExact bytes).map Block.ofUnsigned

/-- The layouts whose header has no `blobs_root`. -/
def decodeLegacy (bytes : Bytes) : Option Block :=
  ((signedCodec legacyHeaderCodec).decodeExact bytes).map Block.ofSigned
    <|> ((unsignedCodec legacyHeaderCodec).decodeExact bytes).map Block.ofUnsigned

/-- `Block::from_bincode`.  The last attempt ignores what follows the block. -/
def Block.fromBincode (bytes : Bytes) : Option Block :=
  decodeCurrent bytes <|> decodeLegacy bytes
    <|> (fullCodec.decode bytes).map fun (fields, _) => Block.ofFull fields

/-! ## Round trips -/

/-- The numbers and lengths of a block have the width of their types. -/
structure Block.Fits (block : Block) : Prop where
  height : block.header.height < 2 ^ 64
  timestamp : block.header.timestamp < 2 ^ 64
  transactions : block.transactions.length < 2 ^ 64 ∧ ∀ tx ∈ block.transactions, tx.Fits
  signatures : block.signatures.length < 2 ^ 64
  priorityTips : block.priorityTips.length < 2 ^ 64 ∧ ∀ tip ∈ block.priorityTips, tip < 2 ^ 128

structure Block.Shaped (block : Block) : Prop where
  signatures : block.signatures = [] ∨ block.signatures.length = block.transactions.length
  priorityTips : block.priorityTips = [] ∨
    block.priorityTips.length = block.transactions.length ∧
      block.signatures.length = block.transactions.length

/-- The encodings that start with a header whose `blobs_root` has its tag. -/
def Block.taggedEncodings (block : Block) : List Bytes :=
  (if block.priorityTips = [] ∨ block.priorityTips.length = block.transactions.length then
    [fullCodec.encode
      (((block.header, block.transactions), block.signatures), block.priorityTips)] else []) ++
  (if block.priorityTips = [] then
    [(signedCodec headerCodec).encode ((block.header, block.transactions), block.signatures)]
    else []) ++
  (if block.priorityTips = [] ∧ block.signatures = [] then
    [(unsignedCodec headerCodec).encode (block.header, block.transactions)] else [])

variable {Value : Type} (encode : Value → Bytes) {bytes : Bytes}

@[simp]
theorem unlessEmpty_nil : unlessEmpty encode [] = [] := rfl

theorem unlessEmpty_of_ne_nil {values : List Value} (some_ : values ≠ []) :
    unlessEmpty encode values = Bincode.vec encode values := by
  rw [unlessEmpty, if_neg (by simpa using some_)]

/-- No layout is a proper extension of an encoding by a further list. -/
theorem append_vec_ne {Fields : Type} (codec : Codec UInt8 Fields) {fields other : Fields}
    (valid : codec.Valid fields) (otherValid : codec.Valid other) (encode : Value → Bytes)
    (values : List Value) (rest : Bytes) :
    codec.encode fields ≠ codec.encode other ++ (Bincode.vec encode values ++ rest) := by
  intro same
  rw [← List.append_nil (codec.encode fields)] at same
  have isNil := (codec.append_inj valid otherValid same).2
  have long := length_vec encode values
  have none_ := congrArg List.length isNil
  simp only [List.length_nil, List.length_append] at none_
  omega

section Layouts

variable {header : Codec UInt8 BlockHeader} {fields : BlockHeader × List Transaction}

theorem decodeExact_signed_eq_none (valid : (unsignedCodec header).Valid fields) :
    (signedCodec header).decodeExact ((unsignedCodec header).encode fields) = none := by
  rw [Option.eq_none_iff_forall_not_mem]
  intro other isOther
  obtain ⟨otherValid, same⟩ := (Codec.decodeExact_eq_some _).mp isOther
  refine append_vec_ne (unsignedCodec header) valid otherValid.1 signatureBytes other.2 [] ?_
  rw [List.append_nil]
  exact same.symm

theorem decodeFull_eq_none_of_signed
    {fields : (BlockHeader × List Transaction) × List Signature}
    (valid : (signedCodec headerCodec).Valid fields) :
    decodeFull ((signedCodec headerCodec).encode fields) = none := by
  rw [decodeFull, Option.filter_eq_none_iff]
  intro block isBlock
  obtain ⟨other, isOther, -⟩ := Option.map_eq_some_iff.mp isBlock
  obtain ⟨otherValid, same⟩ := (Codec.decodeExact_eq_some _).mp isOther
  refine absurd ?_ (append_vec_ne (signedCodec headerCodec) valid otherValid.1 (leBytes 16)
    other.2 [])
  rw [List.append_nil]
  exact same.symm

theorem decodeFull_eq_none_of_unsigned (valid : (unsignedCodec headerCodec).Valid fields) :
    decodeFull ((unsignedCodec headerCodec).encode fields) = none := by
  rw [decodeFull, Option.filter_eq_none_iff]
  intro block isBlock
  obtain ⟨other, isOther, -⟩ := Option.map_eq_some_iff.mp isBlock
  obtain ⟨otherValid, same⟩ := (Codec.decodeExact_eq_some _).mp isOther
  refine absurd ?_ (append_vec_ne (unsignedCodec headerCodec) valid otherValid.1.1 signatureBytes
    other.1.2 (Bincode.vec (leBytes 16) other.2))
  rw [← same]
  exact List.append_assoc _ _ _

end Layouts

section Serialize

variable {block : Block}

theorem headerSerialize_of_some (present : block.header.blobsRoot.isSome) :
    block.header.serialize = headerCodec.encode block.header := by
  obtain ⟨root, isRoot⟩ := Option.isSome_iff_exists.mp present
  simp [BlockHeader.serialize, headerCodec, BlockHeader.serializeCommon, isRoot, option]

theorem headerSerialize_of_none (absent : block.header.blobsRoot = none) :
    block.header.serialize = legacyHeaderCodec.encode block.header := by
  simp [BlockHeader.serialize, legacyHeaderCodec, BlockHeader.serializeCommon, absent]

theorem Block.fits_iff : block.Fits ↔
    fullCodec.Valid (((block.header, block.transactions), block.signatures),
      block.priorityTips) := by
  simp only [fullCodec, signedCodec, unsignedCodec, pair_valid, vecCodec_valid,
    Transaction.codec_valid, signatureCodec_valid, uintCodec_valid]
  constructor
  · rintro ⟨height, timestamp, transactions, signatures, tips⟩
    exact ⟨⟨⟨⟨height, timestamp⟩, transactions⟩, signatures, fun _ _ => trivial⟩, tips⟩
  · rintro ⟨⟨⟨⟨height, timestamp⟩, transactions⟩, signatures, -⟩, tips⟩
    exact ⟨height, timestamp, transactions, signatures, tips⟩

theorem decodeCurrent_serialize (fits : block.Fits) (shaped : block.Shaped)
    (present : block.header.blobsRoot.isSome) : decodeCurrent block.serialize = some block := by
  have fullValid := Block.fits_iff.mp fits
  have signedValid := fullValid.1
  have unsignedValid := signedValid.1
  by_cases noTips : block.priorityTips = []
  · by_cases noSignatures : block.signatures = []
    · -- the third layout
      have encoded : block.serialize =
          (unsignedCodec headerCodec).encode (block.header, block.transactions) := by
        simp [Block.serialize, headerSerialize_of_some present, noTips, noSignatures, unsignedCodec]
      rw [encoded, decodeCurrent, decodeFull_eq_none_of_unsigned unsignedValid,
        decodeExact_signed_eq_none unsignedValid,
        (Codec.decodeExact_eq_some _).mpr ⟨unsignedValid, rfl⟩]
      simp [Block.ofUnsigned, ← noTips, ← noSignatures]
    · -- the second layout
      have encoded : block.serialize = (signedCodec headerCodec).encode
          ((block.header, block.transactions), block.signatures) := by
        simp [Block.serialize, headerSerialize_of_some present, noTips,
          unlessEmpty_of_ne_nil _ noSignatures, unsignedCodec, signedCodec]
      rw [encoded, decodeCurrent, decodeFull_eq_none_of_signed signedValid,
        (Codec.decodeExact_eq_some _).mpr ⟨signedValid, rfl⟩]
      simp [Block.ofSigned, ← noTips]
  · -- the first layout
    obtain ⟨tipCount, signatureCount⟩ := shaped.priorityTips.resolve_left noTips
    have someSignatures : block.signatures ≠ [] := by
      rw [← List.length_pos_iff, signatureCount, ← tipCount, List.length_pos_iff]
      exact noTips
    have encoded : block.serialize = fullCodec.encode
        (((block.header, block.transactions), block.signatures), block.priorityTips) := by
      simp [Block.serialize, headerSerialize_of_some present, unlessEmpty_of_ne_nil _ noTips,
        unlessEmpty_of_ne_nil _ someSignatures, unsignedCodec, signedCodec, fullCodec]
    rw [encoded, decodeCurrent, decodeFull, (Codec.decodeExact_eq_some _).mpr ⟨fullValid, rfl⟩]
    simp [Block.ofFull, tipCount]

theorem decodeLegacy_serialize (fits : block.Fits) (absent : block.header.blobsRoot = none)
    (noTips : block.priorityTips = []) : decodeLegacy block.serialize = some block := by
  have fullValid := Block.fits_iff.mp fits
  have unsignedValid : (unsignedCodec legacyHeaderCodec).Valid
      (block.header, block.transactions) :=
    ⟨⟨fits.height, fits.timestamp, absent⟩, fullValid.1.1.2⟩
  by_cases noSignatures : block.signatures = []
  · have encoded : block.serialize =
        (unsignedCodec legacyHeaderCodec).encode (block.header, block.transactions) := by
      simp [Block.serialize, headerSerialize_of_none absent, noTips, noSignatures, unsignedCodec]
    rw [encoded, decodeLegacy, decodeExact_signed_eq_none unsignedValid,
      (Codec.decodeExact_eq_some _).mpr ⟨unsignedValid, rfl⟩]
    simp [Block.ofUnsigned, ← noTips, ← noSignatures]
  · have signedValid : (signedCodec legacyHeaderCodec).Valid
        ((block.header, block.transactions), block.signatures) :=
      ⟨unsignedValid, fullValid.1.2⟩
    have encoded : block.serialize = (signedCodec legacyHeaderCodec).encode
        ((block.header, block.transactions), block.signatures) := by
      simp [Block.serialize, headerSerialize_of_none absent, noTips,
        unlessEmpty_of_ne_nil _ noSignatures, unsignedCodec, signedCodec]
    rw [encoded, decodeLegacy, (Codec.decodeExact_eq_some _).mpr ⟨signedValid, rfl⟩]
    simp [Block.ofSigned, ← noTips]

theorem length_unlessEmpty_le (values : List Value) :
    (unlessEmpty encode values).length ≤ (Bincode.vec encode values).length := by
  rw [unlessEmpty]
  split
  · exact Nat.zero_le _
  · exact le_rfl

theorem length_serialize_lt (absent : block.header.blobsRoot = none) : block.serialize.length <
      ((unsignedCodec headerCodec).encode (block.header, block.transactions)).length +
        (unlessEmpty signatureBytes block.signatures).length +
        (unlessEmpty (leBytes 16) block.priorityTips).length := by
  simp [Block.serialize, headerSerialize_of_none absent, unsignedCodec, headerCodec,
    legacyHeaderCodec, absent, option]
  omega

theorem encodeFull_append_ne (absent : block.header.blobsRoot = none)
    {fields : ((BlockHeader × List Transaction) × List Signature) × List ℕ}
    (isBlock : Block.ofFull fields = block) (rest : Bytes) :
    block.serialize ≠ fullCodec.encode fields ++ rest := by
  subst isBlock
  intro same
  have shorter := length_serialize_lt absent
  rw [same] at shorter
  have signatures := length_unlessEmpty_le signatureBytes fields.1.2
  have tips := length_unlessEmpty_le (leBytes 16) fields.2
  simp [Block.ofFull, fullCodec, signedCodec] at shorter
  omega

theorem decodeCurrent_ne_some_of_none (absent : block.header.blobsRoot = none) :
    decodeCurrent block.serialize ≠ some block := by
  have shorter := length_serialize_lt absent
  intro decoded
  simp only [decodeCurrent, Option.orElse_eq_orElse, Option.orElse_eq_or, Option.or_eq_some_iff]
    at decoded
  rcases decoded with full | ⟨-, signed | ⟨-, unsigned⟩⟩
  · obtain ⟨fields, isFields, isBlock⟩ :=
      Option.map_eq_some_iff.mp (Option.filter_eq_some_iff.mp full).1
    have same := ((Codec.decodeExact_eq_some _).mp isFields).2
    rw [← List.append_nil (fullCodec.encode fields)] at same
    exact encodeFull_append_ne absent isBlock [] same.symm
  · obtain ⟨fields, isFields, rfl⟩ := Option.map_eq_some_iff.mp signed
    rw [← ((Codec.decodeExact_eq_some _).mp isFields).2] at shorter
    have signatures := length_unlessEmpty_le signatureBytes fields.2
    simp [Block.ofSigned, signedCodec] at shorter
    omega
  · obtain ⟨fields, isFields, rfl⟩ := Option.map_eq_some_iff.mp unsigned
    rw [← ((Codec.decodeExact_eq_some _).mp isFields).2] at shorter
    simp [Block.ofUnsigned] at shorter

theorem priorityTips_of_decodeLegacy (decoded : decodeLegacy bytes = some block) :
    block.priorityTips = [] := by
  simp only [decodeLegacy, Option.orElse_eq_orElse, Option.orElse_eq_or, Option.or_eq_some_iff]
    at decoded
  rcases decoded with signed | ⟨-, unsigned⟩
  · obtain ⟨fields, -, rfl⟩ := Option.map_eq_some_iff.mp signed
    rfl
  · obtain ⟨fields, -, rfl⟩ := Option.map_eq_some_iff.mp unsigned
    rfl

theorem decodeCurrent_eq_none_iff :
    decodeCurrent bytes = none ↔ ∀ other : Block, other.Fits → bytes ∉ other.taggedEncodings := by
  constructor
  · intro nothing other fits isEncoding
    have fullValid := Block.fits_iff.mp fits
    simp only [decodeCurrent, Option.orElse_eq_orElse, Option.orElse_eq_or, Option.or_eq_none_iff,
      Option.map_eq_none_iff] at nothing
    obtain ⟨noFull, noSigned, noUnsigned⟩ := nothing
    simp only [Block.taggedEncodings, List.mem_append, List.mem_ite_nil_right,
      List.mem_singleton] at isEncoding
    rcases isEncoding with (⟨counted, rfl⟩ | ⟨-, rfl⟩) | ⟨-, rfl⟩
    · rw [decodeFull, (Codec.decodeExact_eq_some _).mpr ⟨fullValid, rfl⟩] at noFull
      simp [Block.ofFull] at noFull
      rcases counted with none_ | each
      · exact noFull.1 none_
      · exact noFull.2 each
    · rw [(Codec.decodeExact_eq_some _).mpr ⟨fullValid.1, rfl⟩] at noSigned
      exact absurd noSigned (by simp)
    · rw [(Codec.decodeExact_eq_some _).mpr ⟨fullValid.1.1, rfl⟩] at noUnsigned
      exact absurd noUnsigned (by simp)
  · intro unread
    rw [Option.eq_none_iff_forall_ne_some]
    intro block decoded
    simp only [decodeCurrent, Option.orElse_eq_orElse, Option.orElse_eq_or, Option.or_eq_some_iff]
      at decoded
    rcases decoded with full | ⟨-, signed | ⟨-, unsigned⟩⟩
    · obtain ⟨isBlock, counted⟩ := Option.filter_eq_some_iff.mp full
      obtain ⟨fields, isFields, rfl⟩ := Option.map_eq_some_iff.mp isBlock
      obtain ⟨valid, rfl⟩ := (Codec.decodeExact_eq_some _).mp isFields
      refine unread (Block.ofFull fields) (Block.fits_iff.mpr valid) ?_
      simp only [Bool.or_eq_true, List.isEmpty_iff, beq_iff_eq] at counted
      rw [Block.taggedEncodings, if_pos counted]
      simp [Block.ofFull]
    · obtain ⟨fields, isFields, rfl⟩ := Option.map_eq_some_iff.mp signed
      obtain ⟨valid, rfl⟩ := (Codec.decodeExact_eq_some _).mp isFields
      refine unread (Block.ofSigned fields)
        (Block.fits_iff.mpr ⟨valid, by simp [Block.ofSigned]⟩) ?_
      simp [Block.taggedEncodings, Block.ofSigned]
    · obtain ⟨fields, isFields, rfl⟩ := Option.map_eq_some_iff.mp unsigned
      obtain ⟨valid, rfl⟩ := (Codec.decodeExact_eq_some _).mp isFields
      refine unread (Block.ofUnsigned fields)
        (Block.fits_iff.mpr
          ⟨⟨valid, by simp [Block.ofUnsigned]⟩, by simp [Block.ofUnsigned]⟩) ?_
      simp [Block.taggedEncodings, Block.ofUnsigned]

/-- A block is decoded from its encoding exactly if it has a `blobs_root`, or has no tips and is
not mistaken for a block with the tag of a `blobs_root`. -/
theorem fromBincode_serialize_iff (fits : block.Fits) (shaped : block.Shaped) :
    Block.fromBincode block.serialize = some block ↔
      block.header.blobsRoot.isSome ∨
        block.priorityTips = [] ∧
          ∀ other : Block, other.Fits → block.serialize ∉ other.taggedEncodings := by
  cases present : block.header.blobsRoot with
  | some root =>
    rw [Block.fromBincode, decodeCurrent_serialize fits shaped (by simp [present])]
    simp
  | none =>
    simp only [← decodeCurrent_eq_none_iff, Block.fromBincode, Option.orElse_eq_orElse,
      Option.orElse_eq_or, Option.or_eq_some_iff, Option.isSome_none, Bool.false_eq_true, false_or]
    constructor
    · rintro (current | ⟨noCurrent, legacy | ⟨-, last⟩⟩)
      · exact absurd current (decodeCurrent_ne_some_of_none present)
      · exact ⟨priorityTips_of_decodeLegacy legacy, noCurrent⟩
      · obtain ⟨⟨fields, rest⟩, isFields, isBlock⟩ := Option.map_eq_some_iff.mp last
        have same := (fullCodec.decode_eq_some.mp isFields).2
        exact absurd same.symm (encodeFull_append_ne present isBlock rest)
    · rintro ⟨noTips, noCurrent⟩
      exact .inr ⟨noCurrent, .inl (decodeLegacy_serialize fits present noTips)⟩

end Serialize

/-! ## Blocks without a `blobs_root` -/

def tippedBlock (blobsRoot : Option Hash) : Block where
  header := ⟨0, 1, 1, 0, 0, 0, 0, blobsRoot⟩
  transactions := [⟨0, 0, .claimUnbond, ⟨[], []⟩⟩]
  signatures := [0]
  priorityTips := [5]

def misreadCalldata : Bytes :=
  List.replicate 25 0 ++ leBytes 8 223 ++ List.replicate 223 0

/-- The count of the transactions is read as the tag of a `blobs_root`, the sender as a count,
and the bytes of the call as another call. -/
def misreadBlock : Block where
  header := ⟨0, 1, 1, 0, 0, 0, 0, none⟩
  transactions := [⟨0, 1 <<< 112, .contractCall (1 <<< 16) misreadCalldata, ⟨[], []⟩⟩]
  signatures := []
  priorityTips := []

theorem tippedBlock_fits (blobsRoot : Option Hash) :
    (tippedBlock blobsRoot).Fits ∧ (tippedBlock blobsRoot).Shaped := by
  refine ⟨⟨by simp [tippedBlock], by simp [tippedBlock], ?_, by simp [tippedBlock],
    by simp [tippedBlock]⟩, ⟨.inr rfl, .inr ⟨rfl, rfl⟩⟩⟩
  simp [tippedBlock, Transaction.Fits, TransactionPayload.Fits]

theorem misreadBlock_fits : misreadBlock.Fits ∧ misreadBlock.Shaped := by
  refine ⟨⟨by simp [misreadBlock], by simp [misreadBlock], ?_, by simp [misreadBlock],
    by simp [misreadBlock]⟩, ⟨.inl rfl, .inl rfl⟩⟩
  have calldata : misreadCalldata.length < 2 ^ 64 := by decide +kernel
  simpa [misreadBlock, Transaction.Fits, TransactionPayload.Fits] using calldata

theorem blocks_without_blobsRoot_change :
    (tippedBlock none).Fits ∧ (tippedBlock none).Shaped ∧
      Block.fromBincode (tippedBlock none).serialize = none ∧
      misreadBlock.Fits ∧ misreadBlock.Shaped ∧
      (Block.fromBincode misreadBlock.serialize).isSome ∧
      Block.fromBincode misreadBlock.serialize ≠ some misreadBlock := by
  refine ⟨(tippedBlock_fits none).1, (tippedBlock_fits none).2, ?_, misreadBlock_fits.1,
    misreadBlock_fits.2, ?_, ?_⟩
  all_goals decide +kernel

theorem tippedBlock_round_trip :
    Block.fromBincode (tippedBlock (some 0)).serialize = some (tippedBlock (some 0)) :=
  (fromBincode_serialize_iff (tippedBlock_fits (some 0)).1 (tippedBlock_fits (some 0)).2).mpr
    (.inl rfl)

end BoingNetwork
