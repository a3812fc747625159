import BoingNetwork.Library.FiniteMap
import BoingNetwork.Library.MachineInt

/-!
# Identifiers, bytes and cryptographic parameters

A 32-byte array is a 256-bit vector whose most significant byte is the first
byte of the array, so that the order of arrays is the order of numbers.  The
cryptographic crates (BLAKE3, Ed25519, ECVRF) are parameters of the model.
-/

namespace BoingNetwork

abbrev Bytes := List UInt8

/-- A 32-byte account identifier (an Ed25519 public key or a derived address). -/
abbrev AccountId := BitVec 256

/-- A 32-byte BLAKE3 digest. -/
abbrev Hash := BitVec 256

/-- A 64-byte Ed25519 signature. -/
abbrev Signature := BitVec 512

/-- A 32-byte Ed25519 secret key. -/
abbrev SigningKey := BitVec 256

-- The laws of keys and values under names of their own: the maps over them share one term.
instance keyTransOrd : Std.TransOrd (BitVec 256) := BitVec.instTransOrd

instance keyLawfulEqOrd : Std.LawfulEqOrd (BitVec 256) := BitVec.instLawfulEqOrd

instance keyLawfulBEq : LawfulBEq (BitVec 256) := instLawfulBEq

instance bytesLawfulBEq : LawfulBEq (List UInt8) := List.instLawfulBEq

instance slotTransOrd : Std.TransOrd (BitVec 256 × BitVec 256) := FiniteMap.pairTransOrd

instance roundTransOrd : Std.TransOrd (ℕ × BitVec 256) := FiniteMap.pairTransOrd

def Hash.ZERO : Hash := 0

/-- The big-endian bytes of a 32-byte array. -/
def bytes32 (value : BitVec 256) : Bytes :=
  (List.range 32).map fun index => UInt8.ofNat (value.toNat >>> (8 * (31 - index)))

def leBytes (width value : ℕ) : Bytes :=
  (List.range width).map fun index => UInt8.ofNat (value >>> (8 * index))

def asciiBytes (text : String) : Bytes :=
  text.toList.map fun char => UInt8.ofNat char.toNat

def hexEncode (bytes : Bytes) : String :=
  String.ofList (bytes.flatMap fun byte =>
    [Nat.digitChar (byte.toNat / 16), Nat.digitChar (byte.toNat % 16)])

def AccountId.debug (account : AccountId) : String :=
  "AccountId(" ++ hexEncode ((bytes32 account).take 8) ++ ")"

/-- The output of a verifiable random function with its proof. -/
structure VrfOutput where
  proof : Bytes
  output : BitVec 256

inductive SignatureError where
  | invalidPublicKey
  | invalidSignature
  | legacySignatureRejected
deriving DecidableEq

/-- The functions of the cryptographic crates that the code calls. -/
class Crypto where
  blake3 : Bytes → Hash
  /-- The Ed25519 public key of a secret key. -/
  verifyingKey : SigningKey → AccountId
  sign : SigningKey → Hash → Signature
  /-- `VerifyingKey::from_bytes` followed by `verify_strict`. -/
  verifyStrict : AccountId → Hash → Signature → Except SignatureError Unit
  /-- The first 32 bytes of the hash of an ECVRF proof that verifies for the
  public key and the message. -/
  ecvrfVerify : AccountId → Bytes → Bytes → Option (BitVec 256)

end BoingNetwork
