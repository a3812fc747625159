import BoingNetwork.Primitives.Checksum
import BoingNetwork.Primitives.Payloads
import BoingNetwork.Primitives.Receipts

/-!
# Quality rules for deploys

The deterministic checks of a deployed contract: its metadata, its instruction stream,
block lists, its declared purpose and the content policy.  A deploy is allowed, rejected
with a rule and a message, or left to the voters of the quality pool.
-/

namespace BoingNetwork

/-! ## Text -/

def isWhitespace (char : Char) : Bool :=
  let code := char.toNat
  (0x9 ≤ code && code ≤ 0xD) || code == 0x20 || code == 0x85 || code == 0xA0 || code == 0x1680 ||
    (0x2000 ≤ code && code ≤ 0x200A) || code == 0x2028 || code == 0x2029 || code == 0x202F ||
    code == 0x205F || code == 0x3000

def trimText (text : String) : String :=
  String.ofList (((text.toList.dropWhile isWhitespace).reverse.dropWhile isWhitespace).reverse)

/-- The value of a hexadecimal digit. -/
def hexDigit (char : Char) : Option ℕ :=
  if '0' ≤ char ∧ char ≤ '9' then some (char.toNat - '0'.toNat)
  else if 'a' ≤ char ∧ char ≤ 'f' then some (char.toNat - 'a'.toNat + 10)
  else if 'A' ≤ char ∧ char ≤ 'F' then some (char.toNat - 'A'.toNat + 10)
  else none

def hexDecode : List Char → Option Bytes
  | [] => some []
  | [_] => none
  | high :: low :: rest => do
    let bytes ← hexDecode rest
    return UInt8.ofNat (16 * (← hexDigit high) + (← hexDigit low)) :: bytes

/-! ## Rules and results -/

inductive RuleId where
  | maxBytecodeSize
  | invalidOpcode
  | malformedBytecode
  | blocklistMatch
  | scamPatternMatch
  | purposeDeclarationInvalid
  | metadataTooLong
  | contentPolicyViolation
deriving DecidableEq

def RuleId.display : RuleId → String
  | .maxBytecodeSize => "MAX_BYTECODE_SIZE"
  | .invalidOpcode => "INVALID_OPCODE"
  | .malformedBytecode => "MALFORMED_BYTECODE"
  | .blocklistMatch => "BLOCKLIST_MATCH"
  | .scamPatternMatch => "SCAM_PATTERN_MATCH"
  | .purposeDeclarationInvalid => "PURPOSE_DECLARATION_INVALID"
  | .metadataTooLong => "METADATA_TOO_LONG"
  | .contentPolicyViolation => "CONTENT_POLICY_VIOLATION"

structure QaReject where
  ruleId : RuleId
  message : String
deriving DecidableEq

inductive QaResult where
  | allow
  | reject (reason : QaReject)
  | unsure
deriving DecidableEq

def DEFAULT_MAX_BYTECODE_SIZE : ℕ := 32 * 1024

structure RuleRegistry where
  maxBytecodeSize : ℕ := DEFAULT_MAX_BYTECODE_SIZE
  blocklist : List Hash := []
  scamPatterns : List Bytes := []
  alwaysReviewCategories : List String := []
  contentBlocklist : List String := []
  nativeValueOpcodes : Bool := false
  blake3Opcodes : Bool := false

namespace RuleRegistry

def MAX_SCAM_PATTERNS : ℕ := 256
def MAX_SCAM_PATTERN_LEN : ℕ := 1024

def withNativeValueOpcodes (registry : RuleRegistry) (allow : Bool) : RuleRegistry :=
  { registry with nativeValueOpcodes := allow }

def withBlake3Opcodes (registry : RuleRegistry) (allow : Bool) : RuleRegistry :=
  { registry with blake3Opcodes := allow }

end RuleRegistry

/-! ## Instruction streams -/

def NATIVE_VALUE_OPCODES : List UInt8 := [0x31, 0x34, 0x47, 0xf2]
def BLAKE3_OPCODE : UInt8 := 0x20

/-- The opcodes that are valid at every height, without the pushes. -/
def VALID_OPCODES : List UInt8 :=
  [0x00, 0x01, 0x02, 0x03, 0x04, 0x06, 0x08, 0x09, 0x10, 0x11, 0x14, 0x15, 0x16, 0x17, 0x18,
    0x19, 0x1b, 0x1c, 0x1d, 0x30, 0x33, 0x40, 0x41, 0x80, 0xa0, 0xa1, 0xa2, 0xa3, 0xa4, 0x51,
    0x52, 0x54, 0x55, 0x56, 0x57, 0xf1, 0xf3, 0xf5]

def isPush (byte : UInt8) : Bool := 0x60 ≤ byte && byte ≤ 0x7f

def isValidOpcode (byte : UInt8) : Bool := VALID_OPCODES.contains byte || isPush byte

def isValidOpcodeWith (byte : UInt8) (nativeValue blake3 : Bool) : Bool :=
  isValidOpcode byte || (nativeValue && NATIVE_VALUE_OPCODES.contains byte) ||
    (blake3 && byte == BLAKE3_OPCODE)

def pushImmediateSize (byte : UInt8) : Option ℕ :=
  if isPush byte then some (byte.toNat - 0x5f) else none

inductive StreamError where
  | invalidOpcode (offset : ℕ)
  | truncatedPush (offset : ℕ)

def StreamError.reject : StreamError → QaReject
  | .invalidOpcode offset => ⟨.invalidOpcode, s!"Invalid opcode at offset {offset}"⟩
  | .truncatedPush offset => ⟨.malformedBytecode, s!"Truncated PUSH immediate at offset {offset}"⟩

def checkWellFormedFrom (nativeValue blake3 : Bool) (pc skip : ℕ) :
    Bytes → Except StreamError Unit
  | [] => .ok ()
  | op :: rest =>
    match skip with
    | skip + 1 => checkWellFormedFrom nativeValue blake3 (pc + 1) skip rest
    | 0 =>
      if !isValidOpcodeWith op nativeValue blake3 then .error (.invalidOpcode pc)
      else match pushImmediateSize op with
        | none => checkWellFormedFrom nativeValue blake3 (pc + 1) 0 rest
        | some size =>
          if size > rest.length then .error (.truncatedPush (pc + 1))
          else checkWellFormedFrom nativeValue blake3 (pc + 1) size rest

def checkWellFormed (bytecode : Bytes) (nativeValue blake3 : Bool) : Except StreamError Unit :=
  checkWellFormedFrom nativeValue blake3 0 0 bytecode

/-! ## Pool configuration -/

/-- A quotient rounded to the nearest integer, ties to even. -/
def roundHalfEven (num den : ℕ) : ℕ :=
  let floor := num / den
  let rest := 2 * (num % den)
  if rest < den ∨ (rest = den ∧ floor % 2 = 0) then floor else floor + 1

def binary64 (num den : ℕ) : ℚ :=
  if num = 0 ∨ den = 0 then 0
  else
    -- The scaled quotient has 53 or 54 bits; in the latter case one bit less is kept.
    let up := 53 + den.log2 - num.log2
    let down := num.log2 - (53 + den.log2)
    let wide := (num * 2 ^ up) / (den * 2 ^ down)
    let extra := if wide < 2 ^ 53 then 0 else 1
    (roundHalfEven (num * 2 ^ up) (den * 2 ^ (down + extra)) : ℚ) * 2 ^ (down + extra) / 2 ^ up

def CANONICAL_REVIEW_WINDOW_BLOCKS : ℕ := 300

structure QaPoolGovernanceConfig where
  administrators : List String := []
  maxPendingItems : ℕ := 32
  maxPendingPerDeployer : ℕ := 2
  reviewWindowBlocks : ℕ := 0
  quorumFraction : ℚ := binary64 1 2
  allowThresholdFraction : ℚ := binary64 2 3
  rejectThresholdFraction : ℚ := binary64 2 3
  devOpenVoting : Bool := false
  publicMembership : Bool := false
  minVoterStake : ℕ := 0
  minQuorumVotes : ℕ := 3
  rewardPerCountedVote : ℕ := 1
  payAbstain : Bool := false

inductive BlsError where
  | invalidPublicKey
  | invalidSignature
  | aggregateFailed
  | verifyFailed
deriving DecidableEq

def BlsError.display : BlsError → String
  | .invalidPublicKey => "invalid BLS public key (curve / subgroup)"
  | .invalidSignature => "invalid BLS signature (curve / subgroup)"
  | .aggregateFailed => "BLS aggregate failed"
  | .verifyFailed => "BLS aggregate verify failed"

/-- What the code takes from the environment besides cryptography: `str::to_lowercase`, the
JSON of quality policies, BLS12-381, and the chain id that the process was started with. -/
class Platform extends Crypto where
  toLowercase : String → String
  ruleRegistryFromJson : Bytes → Option RuleRegistry
  qaPoolConfigFromJson : Bytes → Option QaPoolGovernanceConfig
  /-- Decodes the signature and the keys, and `fast_aggregate_verify` of the message. -/
  blsAggregateVerify : Hash → BlsSignatureG2 → List BlsPublicKeyG1 → Except BlsError Unit
  defaultSigningChainId : Option ℕ

/-- The parameters of runs on concrete inputs. An aggregate signature states the message
and the keys. -/
@[reducible]
def checksumPlatform : Platform :=
  { checksumCrypto with
    toLowercase := fun text => String.ofList (text.toList.map Char.toLower)
    ruleRegistryFromJson := fun _ => none
    qaPoolConfigFromJson := fun _ => none
    blsAggregateVerify := fun message signature keys =>
      if signature = BitVec.ofNat _ (checksum (bytes32 message ++ keys.flatMap fun key =>
        leBytes 48 key.toNat)).toNat then .ok () else .error .verifyFailed
    defaultSigningChainId := none }

namespace Checksum

scoped instance platform : Platform := checksumPlatform

end Checksum

section Checks

variable [Platform]

/-! ## Content policy -/

/-- Cyrillic letters that look like Latin ones. -/
def foldHomoglyph : Char → Char
  | 'а' | 'А' => 'a'
  | 'е' | 'Е' => 'e'
  | 'о' | 'О' => 'o'
  | 'р' | 'Р' => 'p'
  | 'с' | 'С' => 'c'
  | 'у' | 'У' => 'y'
  | 'х' | 'Х' => 'x'
  | 'і' | 'І' => 'i'
  | 'ѕ' | 'Ѕ' => 's'
  | other => other

def plainText (text : String) : List Char :=
  (Platform.toLowercase (trimText text)).toList.map foldHomoglyph

def isAsciiAlphanumeric (char : Char) : Bool := char.isAlphanum

/-- Short alphanumeric terms match whole words only. -/
def contentTermMatches (text : List Char) (term : String) : Bool :=
  let term := plainText term
  if term.isEmpty then false
  else if !term.all isAsciiAlphanumeric then decide (term <:+: text)
  else (decide (utf8Length term ≥ 4) && decide (term <:+: text)) ||
    ((text.splitOnP fun char => !isAsciiAlphanumeric char).filter fun word => !word.isEmpty).any
      (· == term)

def violatesContentPolicy (forbiddenTerms : List String) (text : String) : Bool :=
  forbiddenTerms.any fun term => !term.isEmpty && contentTermMatches (plainText text) term

def checkContentPolicy (assetName assetSymbol : Option String) (forbiddenTerms : List String) :
    Option QaReject :=
  if (assetName.any (violatesContentPolicy forbiddenTerms)) ||
      assetSymbol.any (violatesContentPolicy forbiddenTerms) then
    some ⟨.contentPolicyViolation, "Deployment metadata contains governance-forbidden content " ++
      "(vulgarity/offensiveness policy)"⟩
  else none

/-! ## Deploys -/

def VALID_PURPOSE_CATEGORIES : List String :=
  ["dapp", "dApp", "token", "nft", "NFT", "meme", "community", "entertainment", "tooling",
    "other"]

def isValidPurposeCategory (category : String) : Bool :=
  VALID_PURPOSE_CATEGORIES.any fun valid =>
    Platform.toLowercase valid == Platform.toLowercase (trimText category)

def isEmptyInit (bytecode : Bytes) : Bool :=
  contractDeployUsesInitCode bytecode && (contractDeployInitBody bytecode).isEmpty

/-- The rejection by the rules that do not depend on metadata. -/
def checkContractDeployWithBlocklist (bytecode : Bytes) (purposeCategory : Option String)
    (maxBytecodeSize : ℕ) (blocklistHashes : List Hash) (nativeValueOpcodes blake3Opcodes : Bool) :
    Option QaReject :=
  if bytecode.isEmpty then some ⟨.malformedBytecode, "Bytecode must not be empty"⟩
  else if isEmptyInit bytecode then
    some ⟨.malformedBytecode, "Init-code marker present but no init bytecode after prefix"⟩
  else if bytecode.length > maxBytecodeSize then
    some ⟨.maxBytecodeSize,
      s!"Bytecode size {bytecode.length} exceeds maximum {maxBytecodeSize}"⟩
  else match checkWellFormed (contractDeployInitBody bytecode) nativeValueOpcodes blake3Opcodes with
    | .error reason => some reason.reject
    | .ok () =>
      if blocklistHashes.contains (Crypto.blake3 bytecode) then
        some ⟨.blocklistMatch, "Bytecode matches blocklist (known scam/malware)"⟩
      else match purposeCategory with
        | none => none
        | some category =>
          let shown := trimText category
          if !shown.isEmpty && !isValidPurposeCategory category then
            some ⟨.purposeDeclarationInvalid, s!"Invalid purpose category '{shown}'; valid: " ++
              "dApp, token, NFT, meme, community, entertainment, tooling, other"⟩
          else none

def matchesScamPattern (bytecode : Bytes) (patterns : List Bytes) : Bool :=
  (patterns.take RuleRegistry.MAX_SCAM_PATTERNS).any fun pattern =>
    !pattern.isEmpty && decide (pattern.length ≤ RuleRegistry.MAX_SCAM_PATTERN_LEN) &&
      decide (pattern <:+: bytecode)

def isVague (purposeCategory : Option String) (descriptionHash : Option Bytes) : Bool :=
  match purposeCategory with
  | none => false
  | some category =>
    Platform.toLowercase (trimText category) == "other" &&
      decide ((descriptionHash.map List.length).getD 0 < 4)

def checkMetadataLength (label : String) (text : Option String) (max : ℕ) : Option QaReject :=
  match text with
  | none => none
  | some text =>
    let length := utf8Length text.toList
    if length > max then
      some ⟨.metadataTooLong, s!"{label} length {length} exceeds max {max}"⟩
    else none

def checkContractDeployFullWithMetadata (bytecode : Bytes) (purposeCategory : Option String)
    (descriptionHash : Option Bytes) (assetName assetSymbol : Option String)
    (registry : RuleRegistry) : QaResult :=
  match (((checkMetadataLength "asset_name" assetName TransactionPayload.MAX_ASSET_NAME_LEN).or
      (checkMetadataLength "asset_symbol" assetSymbol
        TransactionPayload.MAX_ASSET_SYMBOL_LEN)).or
      (checkContractDeployWithBlocklist bytecode purposeCategory registry.maxBytecodeSize
        registry.blocklist registry.nativeValueOpcodes registry.blake3Opcodes)).or
      (if matchesScamPattern bytecode registry.scamPatterns then
        some ⟨.scamPatternMatch, "Bytecode contains known scam/malware pattern"⟩
      else checkContentPolicy assetName assetSymbol registry.contentBlocklist) with
  | some reason => .reject reason
  | none =>
    if purposeCategory.any (fun category => registry.alwaysReviewCategories.contains
        (Platform.toLowercase (trimText category))) then .unsure
    else if isVague purposeCategory descriptionHash then .unsure
    else .allow

def checkContractDeployFull (bytecode : Bytes) (purposeCategory : Option String)
    (descriptionHash : Option Bytes) (registry : RuleRegistry) : QaResult :=
  checkContractDeployFullWithMetadata bytecode purposeCategory descriptionHash none none registry

end Checks

end BoingNetwork
