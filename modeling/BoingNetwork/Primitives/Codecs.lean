import BoingNetwork.Library.Codec
import BoingNetwork.Primitives.Bincode
import Mathlib.Tactic.Ring

/-!
# Bincode decoding

Every encoding of `Bincode` with its decoder, as a codec.  A decoder rejects what bincode
rejects: input that ends early, a tag that names no variant, and text that is not UTF-8.
-/

namespace BoingNetwork

/-! ## Little-endian numbers -/

/-- The number that little-endian bytes stand for. -/
def leValue : Bytes → ℕ
  | [] => 0
  | byte :: bytes => byte.toNat + 256 * leValue bytes

@[simp]
theorem length_leBytes (width value : ℕ) : (leBytes width value).length = width := by
  simp [leBytes]

theorem leBytes_succ (width value : ℕ) :
    leBytes (width + 1) value = UInt8.ofNat value :: leBytes width (value / 256) := by
  rw [leBytes, List.range_succ_eq_map, List.map_cons, List.map_map, leBytes]
  congr 1
  apply List.map_congr_left
  intro index _
  have shifted : value >>> (8 * (index + 1)) = (value / 256) >>> (8 * index) := by
    rw [Nat.shiftRight_eq_div_pow, Nat.shiftRight_eq_div_pow, Nat.div_div_eq_div_mul,
      Nat.mul_add, Nat.add_comm, Nat.pow_add]
  simp only [Function.comp_apply, shifted]

theorem leValue_leBytes (width value : ℕ) :
    leValue (leBytes width value) = value % 2 ^ (8 * width) := by
  induction width generalizing value with
  | zero => simp [leBytes, leValue, Nat.mod_one]
  | succ width ih =>
    rw [leBytes_succ, leValue, ih, UInt8.toNat_ofNat', Nat.mul_add, Nat.add_comm,
      Nat.pow_add, Nat.mul_comm (2 ^ _), Nat.mod_mul]
    norm_num
    omega

variable (bytes : Bytes) {Value : Type}

theorem leValue_lt : leValue bytes < 2 ^ (8 * bytes.length) := by
  induction bytes with
  | nil => simp [leValue]
  | cons byte bytes ih =>
    have small : byte.toNat < 256 := byte.toNat_lt
    rw [leValue, List.length_cons, Nat.mul_add, Nat.pow_add]
    omega

theorem leBytes_leValue : leBytes bytes.length (leValue bytes) = bytes := by
  induction bytes with
  | nil => rfl
  | cons byte bytes ih =>
    have small : byte.toNat < 256 := byte.toNat_lt
    have low : UInt8.ofNat (byte.toNat + 256 * leValue bytes) = byte := by
      apply UInt8.toNat_inj.mp
      rw [UInt8.toNat_ofNat']
      omega
    have high : (byte.toNat + 256 * leValue bytes) / 256 = leValue bytes := by omega
    rw [List.length_cons, leBytes_succ, leValue, low, high, ih]

namespace Bincode

/-! ## Scalars -/

def takeBytes (count : ℕ) (bytes : Bytes) : Option (Bytes × Bytes) :=
  if count ≤ bytes.length then some (bytes.take count, bytes.drop count) else none

theorem takeBytes_eq_some {count : ℕ} {bytes taken rest : Bytes} :
    takeBytes count bytes = some (taken, rest) ↔ taken.length = count ∧ taken ++ rest = bytes := by
  rw [takeBytes]
  constructor
  · intro isTaken
    split at isTaken
    next long =>
      obtain ⟨rfl, rfl⟩ := Prod.mk.inj (Option.some.inj isTaken)
      exact ⟨List.length_take_of_le long, List.take_append_drop _ _⟩
    next => cases isTaken
  · rintro ⟨rfl, rfl⟩
    simp

def uintCodec (width : ℕ) : Codec UInt8 ℕ where
  encode := leBytes width
  decode bytes := (takeBytes width bytes).map fun (taken, rest) => (leValue taken, rest)
  Valid value := value < 2 ^ (8 * width)
  decode_eq_some := by
    intro bytes value rest
    rw [Option.map_eq_some_iff]
    constructor
    · rintro ⟨⟨taken, remaining⟩, isTaken, isValue⟩
      obtain ⟨rfl, rfl⟩ := Prod.mk.inj isValue
      obtain ⟨rfl, rfl⟩ := takeBytes_eq_some.mp isTaken
      exact ⟨leValue_lt taken, by rw [leBytes_leValue]⟩
    · rintro ⟨small, rfl⟩
      refine ⟨(leBytes width value, rest), takeBytes_eq_some.mpr ⟨length_leBytes .., rfl⟩, ?_⟩
      simp only [leValue_leBytes, Nat.mod_eq_of_lt small]

theorem array_eq_reverse (count value : ℕ) : array count value = (leBytes count value).reverse := by
  apply List.ext_getElem
  · simp [array]
  · intro index first second
    simp [array, leBytes]

/-- Arrays of `count` bytes, first byte most significant. -/
def arrayCodec (count width : ℕ) (whole : width = 8 * count) : Codec UInt8 (BitVec width) where
  encode value := array count value.toNat
  decode bytes :=
    (takeBytes count bytes).map fun (taken, rest) =>
      (BitVec.ofNat width (leValue taken.reverse), rest)
  Valid _ := True
  decode_eq_some := by
    subst whole
    intro bytes value rest
    rw [Option.map_eq_some_iff]
    constructor
    · rintro ⟨⟨taken, remaining⟩, isTaken, isValue⟩
      obtain ⟨rfl, rfl⟩ := Prod.mk.inj isValue
      obtain ⟨rfl, rfl⟩ := takeBytes_eq_some.mp isTaken
      have small := leValue_lt taken.reverse
      have read := leBytes_leValue taken.reverse
      rw [List.length_reverse] at small read
      refine ⟨trivial, ?_⟩
      rw [BitVec.toNat_ofNat, Nat.mod_eq_of_lt small, array_eq_reverse, read, List.reverse_reverse]
    · rintro ⟨-, rfl⟩
      refine ⟨(array count value.toNat, rest),
        takeBytes_eq_some.mpr ⟨by simp [array], rfl⟩, ?_⟩
      simp only [array_eq_reverse, List.reverse_reverse, leValue_leBytes,
        Nat.mod_eq_of_lt value.isLt, BitVec.ofNat_toNat, BitVec.setWidth_eq]

def boolCodec : Codec UInt8 Bool where
  encode := bool
  decode
    | byte :: rest =>
      if byte = 0 then some (false, rest) else if byte = 1 then some (true, rest) else none
    | [] => none
  Valid _ := True
  decode_eq_some := by
    intro bytes value rest
    cases bytes with
    | nil => simp [bool]
    | cons byte bytes => cases value <;> simp [bool] <;> grind

def optionCodec {Value : Type} (codec : Codec UInt8 Value) : Codec UInt8 (Option Value) where
  encode := option codec.encode
  decode
    | byte :: bytes =>
      if byte = 0 then some (none, bytes)
      else if byte = 1 then codec.reads some bytes
      else none
    | [] => none
  Valid value := ∀ inner ∈ value, codec.Valid inner
  decode_eq_some := by
    intro bytes value rest
    cases bytes with
    | nil => cases value <;> simp [option]
    | cons byte bytes =>
      dsimp only
      split
      next isNone =>
        subst isNone
        cases value <;> simp [option, eq_comm]
      next notNone =>
        split
        next isSome =>
          subst isSome
          rw [codec.reads_eq_some]
          cases value <;> simp [option]
        next notSome =>
          cases value <;> simp [option] <;> grind

/-! ## Sequences and text -/

def vecCodec {Value : Type} (codec : Codec UInt8 Value) : Codec UInt8 (List Value) :=
  (Codec.vec (uintCodec 8) codec).withEncode (vec codec.encode) fun _ => rfl

def byteCodec : Codec UInt8 UInt8 where
  encode byte := [byte]
  decode
    | byte :: rest => some (byte, rest)
    | [] => none
  Valid _ := True
  decode_eq_some := by
    intro bytes value rest
    cases bytes <;> simp [eq_comm]

def byteVecCodec : Codec UInt8 Bytes where
  encode := byteVec
  decode := (vecCodec byteCodec).decode
  Valid bytes := bytes.length < 2 ^ 64
  decode_eq_some := by
    intro bytes value rest
    rw [(vecCodec byteCodec).decode_eq_some]
    have sameBytes : (vecCodec byteCodec).encode value = byteVec value := by
      change leBytes 8 value.length ++ value.flatMap (fun byte => [byte]) = _
      rw [List.flatMap_singleton', byteVec]
    rw [sameBytes]
    change (_ < _ ∧ ∀ byte ∈ value, True) ∧ _ ↔ _
    simp

def TextFits (text : String) : Prop := (utf8 text).length < 2 ^ 64

def stringCodec : Codec UInt8 String where
  encode := string
  decode bytes :=
    (byteVecCodec.decode bytes).bind fun (text, rest) =>
      (String.fromUTF8? ⟨text.toArray⟩).map fun text => (text, rest)
  Valid := TextFits
  decode_eq_some := by
    intro bytes value rest
    rw [Option.bind_eq_some_iff]
    constructor
    · rintro ⟨⟨text, remaining⟩, readBytes, readText⟩
      obtain ⟨short, rfl⟩ := byteVecCodec.decode_eq_some.mp readBytes
      obtain ⟨decoded, isText, isValue⟩ := Option.map_eq_some_iff.mp readText
      obtain ⟨rfl, rfl⟩ := Prod.mk.inj isValue
      have sameText : utf8 decoded = text := by
        rw [String.fromUTF8?] at isText
        split at isText
        next => rw [← Option.some.inj isText]; rfl
        next => cases isText
      exact ⟨by rw [TextFits, sameText]; exact short, by rw [string, sameText]; rfl⟩
    · rintro ⟨short, rfl⟩
      refine ⟨(utf8 value, rest), byteVecCodec.decode_eq_some.mpr ⟨short, rfl⟩, ?_⟩
      have sameText : String.fromUTF8? ⟨(utf8 value).toArray⟩ = some value := by
        have sameBytes : (⟨(utf8 value).toArray⟩ : ByteArray) = value.toByteArray := by
          rfl
        rw [sameBytes, String.fromUTF8?, dif_pos value.isValidUTF8]
        rfl
      simp [sameText]

def wordCodec : Codec UInt8 (BitVec 256) := arrayCodec 32 256 rfl

abbrev signatureArrayCodec : Codec UInt8 Signature := arrayCodec 64 512 rfl

def signatureCodec : Codec UInt8 Signature where
  encode := signatureBytes
  decode bytes :=
    (byteVecCodec.decode bytes).bind fun (raw, rest) =>
      (signatureArrayCodec.decodeExact raw).map fun signature => (signature, rest)
  Valid _ := True
  decode_eq_some := by
    intro bytes value rest
    rw [Option.bind_eq_some_iff]
    constructor
    · rintro ⟨⟨raw, remaining⟩, readBytes, readSignature⟩
      obtain ⟨short, rfl⟩ := byteVecCodec.decode_eq_some.mp readBytes
      obtain ⟨decoded, isSignature, isValue⟩ := Option.map_eq_some_iff.mp readSignature
      obtain ⟨rfl, rfl⟩ := Prod.mk.inj isValue
      obtain ⟨-, rfl⟩ := (Codec.decodeExact_eq_some _).mp isSignature
      exact ⟨trivial, rfl⟩
    · rintro ⟨-, rfl⟩
      refine ⟨(array 64 value.toNat, rest), byteVecCodec.decode_eq_some.mpr ⟨?_, rfl⟩, ?_⟩
      · change (array 64 value.toNat).length < 2 ^ 64
        simp [array]
      · have read : signatureArrayCodec.decodeExact (array 64 value.toNat) = some value :=
          (Codec.decodeExact_eq_some _).mpr ⟨trivial, rfl⟩
        simp [read]

/-! ## What the codecs write, and of which values -/

section Simp

variable (codec : Codec UInt8 Value)

@[simp] theorem uintCodec_encode (width : ℕ) : (uintCodec width).encode = leBytes width := rfl

@[simp] theorem uintCodec_valid (width value : ℕ) :
    (uintCodec width).Valid value ↔ value < 2 ^ (8 * width) := Iff.rfl

@[simp] theorem arrayCodec_encode (count width : ℕ) (whole : width = 8 * count) :
    (arrayCodec count width whole).encode = fun value => array count value.toNat := rfl

@[simp] theorem arrayCodec_valid (count width : ℕ) (whole : width = 8 * count)
    (value : BitVec width) : (arrayCodec count width whole).Valid value ↔ True := Iff.rfl

@[simp] theorem wordCodec_encode : wordCodec.encode = bytes32 := rfl

@[simp] theorem wordCodec_valid (value : BitVec 256) : wordCodec.Valid value ↔ True := Iff.rfl

@[simp] theorem boolCodec_encode : boolCodec.encode = bool := rfl

@[simp] theorem boolCodec_valid (value : Bool) : boolCodec.Valid value ↔ True := Iff.rfl

@[simp] theorem optionCodec_encode : (optionCodec codec).encode = option codec.encode := rfl

@[simp] theorem optionCodec_valid (value : Option Value) :
    (optionCodec codec).Valid value ↔ ∀ inner ∈ value, codec.Valid inner := Iff.rfl

@[simp] theorem vecCodec_encode : (vecCodec codec).encode = vec codec.encode := rfl

@[simp] theorem vecCodec_valid (values : List Value) :
    (vecCodec codec).Valid values ↔
      values.length < 2 ^ 64 ∧ ∀ value ∈ values, codec.Valid value := Iff.rfl

@[simp] theorem byteVecCodec_encode : byteVecCodec.encode = byteVec := rfl

@[simp] theorem byteVecCodec_valid (bytes : Bytes) :
    byteVecCodec.Valid bytes ↔ bytes.length < 2 ^ 64 := Iff.rfl

@[simp] theorem stringCodec_encode : stringCodec.encode = string := rfl

@[simp] theorem stringCodec_valid (text : String) : stringCodec.Valid text ↔ TextFits text :=
  Iff.rfl

@[simp] theorem signatureCodec_encode : signatureCodec.encode = signatureBytes := rfl

@[simp] theorem signatureCodec_valid (signature : Signature) :
    signatureCodec.Valid signature ↔ True := Iff.rfl

end Simp

/-! ## Lengths -/

@[simp] theorem length_bytes32 (value : BitVec 256) : (bytes32 value).length = 32 := by
  simp [bytes32]

@[simp] theorem length_array (count value : ℕ) : (array count value).length = count := by
  simp [array]

@[simp] theorem length_byteVec (bytes : Bytes) : (byteVec bytes).length = 8 + bytes.length := by
  simp [byteVec]

@[simp] theorem length_string (text : String) :
    (string text).length = 8 + (utf8 text).length := by
  simp [string]

@[simp] theorem length_variantIndex (index : ℕ) : (variantIndex index).length = 4 := by
  simp [variantIndex]

@[simp] theorem length_bool (value : Bool) : (bool value).length = 1 := rfl

theorem length_vec (encode : Value → Bytes) (values : List Value) :
    8 ≤ (Bincode.vec encode values).length := by
  simp [Bincode.vec]

end Bincode

/-- The 32-byte array of some bytes, as a word. -/
def wordOfBytes (bytes : Bytes) : BitVec 256 := BitVec.ofNat 256 (leValue bytes.reverse)

theorem append_bytes32_inj (left right otherLeft otherRight : BitVec 256)
    (same : bytes32 left ++ bytes32 right = bytes32 otherLeft ++ bytes32 otherRight) :
    left = otherLeft ∧ right = otherRight := by
  obtain ⟨sameLeft, sameRest⟩ := Bincode.wordCodec.append_inj trivial trivial same
  exact ⟨sameLeft, Bincode.wordCodec.encode_injective trivial trivial sameRest⟩

/-! ## Hexadecimal text -/

theorem digitChar_inj {first second : ℕ} (small : first < 16) (otherSmall : second < 16)
    (same : Nat.digitChar first = Nat.digitChar second) : first = second := by
  have injective : ∀ first second : Fin 16,
      Nat.digitChar first.val = Nat.digitChar second.val → first = second := by decide
  exact congrArg Fin.val (injective ⟨first, small⟩ ⟨second, otherSmall⟩ same)

theorem hexEncode_injective : Function.Injective hexEncode := by
  intro bytes others same
  have chars := String.ofList_injective same
  induction bytes generalizing others with
  | nil =>
    cases others with
    | nil => rfl
    | cons other others => cases chars
  | cons byte bytes ih =>
    cases others with
    | nil => cases chars
    | cons other others =>
      simp only [List.flatMap_cons, List.cons_append, List.nil_append, List.cons.injEq] at chars
      obtain ⟨high, low, rest⟩ := chars
      have bounded := byte.toNat_lt
      have otherBounded := other.toNat_lt
      have sameHigh := digitChar_inj (by omega) (by omega) high
      have sameLow := digitChar_inj (by omega) (by omega) low
      have sameByte : byte = other := UInt8.toNat_inj.mp (by omega)
      rw [sameByte, ih (congrArg String.ofList rest) rest]

/-- Hexadecimal text is ASCII with two characters for each byte. -/
theorem length_utf8_hexEncode : (Bincode.utf8 (hexEncode bytes)).length = 2 * bytes.length := by
  have single : ∀ digit < 16, (String.utf8EncodeChar (Nat.digitChar digit)).length = 1 := by decide
  have encoded : Bincode.utf8 (hexEncode bytes) = bytes.flatMap fun byte =>
      String.utf8EncodeChar (Nat.digitChar (byte.toNat / 16)) ++
        String.utf8EncodeChar (Nat.digitChar (byte.toNat % 16)) := by
    simp [Bincode.utf8, hexEncode, String.ofList, List.utf8Encode, List.flatMap_assoc]
  have double : ∀ byte : UInt8, (String.utf8EncodeChar (Nat.digitChar (byte.toNat / 16)) ++
        String.utf8EncodeChar (Nat.digitChar (byte.toNat % 16))).length = 2 := by
    intro byte
    have bounded := byte.toNat_lt
    rw [List.length_append, single _ (by omega), single _ (by omega)]
  rw [encoded, List.length_flatMap, List.map_congr_left fun byte _ => double byte]
  simp [mul_comm]

theorem bytes32_injective : Function.Injective bytes32 :=
  fun _ _ same => Bincode.wordCodec.encode_injective trivial trivial same

end BoingNetwork
