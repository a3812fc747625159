import BoingNetwork.Qa.Pool
import BoingNetwork.Tokenomics.Slashing

/-!
# The virtual machine and its activation heights

Errors, results and the block context of execution, and the rules that a virtual machine
has active at a height.
-/

namespace BoingNetwork

def GAS_PER_TRANSFER : ℕ := 21000
def GAS_PER_CONTRACT_CALL : ℕ := 40000000
def GAS_PER_CONTRACT_DEPLOY_INIT : ℕ := 5000000
def GAS_PER_CONTRACT_DEPLOY : ℕ := 200000
def GAS_BATCH_BASE : ℕ := GAS_PER_TRANSFER
def GAS_PER_BATCH_TRANSFER : ℕ := 7000
def GAS_PER_BATCH_CONTRACT_CALL_STEP : ℕ := 7000
def GAS_BATCH_CONTRACT_BUDGET : ℕ := GAS_PER_CONTRACT_CALL
def GAS_PER_QA_POOL_VOTE : ℕ := 21000

/-- `base::BOND`, `base::UNBOND` and `base::CLAIM_UNBOND`. -/
def GAS_STAKING : ℕ := 21000

def GAS_NAME : ℕ := 21000

def MAX_VM_MEMORY_BYTES : ℕ := 8 * 1024 * 1024
def MAX_STACK_DEPTH : ℕ := 1024

inductive VmError where
  | accountNotFound
  | insufficientBalance
  | nativeAmountExceedsU128
  | unbondNotMature (unlockHeight currentHeight : ℕ)
  | nonceOverflow
  | invalidNonce (expected got : ℕ)
  | notImplemented (what : String)
  | outOfGas
  | stackUnderflow
  | invalidBytecode
  | invalidJump
  | invalidLog (what : String)
  | deploymentAddressInUse
  | divisionByZero
  | callDepthExceeded
  | callBufferTooLarge
  | stackOverflow
  | memoryLimitExceeded
  | qaRejected (ruleId message : String)
  | qaVoterIneligible (reason : String)
  | qaPendingNotFound
  | qaPendingAlreadyRegistered
  | create2InitCodeEmpty
  | invalidBatch (reason : String)
  | batchStepFailed (index : ℕ) (reason : String)
  | openValidator (reason : String)
  | name (reason : String)
  | nativeValueNotActive
  | mediaBlobsNotActive (activation : Option ℕ)
  | mediaBlob (reason : String)
deriving DecidableEq

def debugHeight : Option ℕ → String
  | none => "None"
  | some height => s!"Some({height})"

def VmError.display : VmError → String
  | .accountNotFound => "Account not found"
  | .insufficientBalance => "Insufficient balance"
  | .nativeAmountExceedsU128 => "Native transfer amount exceeds u128"
  | .unbondNotMature unlockHeight currentHeight =>
    s!"Unbond not mature: unlock at height {unlockHeight}, current {currentHeight}"
  | .nonceOverflow => "Nonce overflow"
  | .invalidNonce expected got => s!"Invalid nonce: expected {expected}, got {got}"
  | .notImplemented what => s!"Not implemented: {what}"
  | .outOfGas => "Out of gas"
  | .stackUnderflow => "Stack underflow"
  | .invalidBytecode => "Invalid bytecode"
  | .invalidJump => "Invalid jump destination"
  | .invalidLog what => s!"Invalid log event: {what}"
  | .deploymentAddressInUse => "Deployment address already has an account or code"
  | .divisionByZero => "Division by zero"
  | .callDepthExceeded => "Contract call depth limit exceeded"
  | .callBufferTooLarge => "CALL input or output buffer exceeds protocol limit"
  | .stackOverflow => s!"VM stack depth exceeded (max {MAX_STACK_DEPTH} items)"
  | .memoryLimitExceeded =>
    s!"VM memory limit exceeded (max {MAX_VM_MEMORY_BYTES} bytes per frame)"
  | .qaRejected ruleId message => s!"QA rejected: {ruleId} — {message}"
  | .qaVoterIneligible reason => s!"QA pool vote ineligible: {reason}"
  | .qaPendingNotFound => "QA pool item not registered on-chain"
  | .qaPendingAlreadyRegistered => "QA pool item already registered"
  | .create2InitCodeEmpty => "CREATE2 init code size is zero"
  | .invalidBatch reason => s!"Invalid batch: {reason}"
  | .batchStepFailed index reason =>
    s!"Batch step {index} failed: {reason} (whole batch reverted)"
  | .openValidator reason => s!"Open validator: {reason}"
  | .name reason => s!"Name registry: {reason}"
  | .nativeValueNotActive => "Native value on contract calls is not active at this height"
  | .mediaBlobsNotActive activation =>
    "Media blobs (PutBlob) are not active at this height (activation=" ++
      debugHeight activation ++ ")"
  | .mediaBlob reason => s!"Media blob: {reason}"

def SOFT_RULE_FAILED : String := "SOFT_RULE_FAILED"

/-- A rejection by quality assurance as an error of execution. -/
def QaReject.toVmError (reason : QaReject) : VmError :=
  .qaRejected reason.ruleId.display reason.message

def SignatureError.display : SignatureError → String
  | .invalidPublicKey => "Invalid public key"
  | .invalidSignature => "Invalid signature"
  | .legacySignatureRejected =>
    "Legacy (pre-chain-id) signature rejected after the v2 activation height; re-sign with " ++
      "the chain id"

def EquivocationError.display : EquivocationError → String
  | .validatorMismatch => "votes from different validators"
  | .roundMismatch => "votes from different rounds"
  | .sameBlock => "votes target the same block"
  | .badSignature reason => "bad vote signature: " ++ reason.display

/-- The outcome of a transaction that was applied. -/
structure VmExecutionResult where
  gasUsed : ℕ
  returnData : Bytes := []
  logs : List ExecutionLog := []

/-- Why a handler stops. -/
abbrev VmFault : Type := Fault VmError

/-- The outcome of a handler without return data. -/
def gasOnly (gasUsed : ℕ) : VmExecutionResult := { gasUsed }

def idResult (gasUsed id : ℕ) : VmExecutionResult := { gasUsed, returnData := leBytes 8 id }

/-- The block context that the host supplies, with the rules that are active. -/
structure VmExecutionContext where
  blockHeight : ℕ
  blockTimestamp : ℕ
  nativeValue : Bool := false
  vmHardening : Bool := false
  blake3Opcode : Bool := false
  jumpStrict : Bool := false
  qaCanonical : Bool := false

/-- Rules, quality policies and activation heights; `none` is never. -/
structure Vm where
  qaRegistry : RuleRegistry
  qaRegistryNative : RuleRegistry
  nativeValueFrom : ℕ := 0
  vmHardeningFrom : ℕ := 0
  equivocationSlashFrom : ℕ := 0
  vmJumpStrictFrom : ℕ := 0
  qaCanonicalFrom : Option ℕ := none
  qaPoolConfig : QaPoolGovernanceConfig := .developmentDefault
  registrationChainId : Option ℕ := none
  registrationV2From : ℕ := 0
  securityV4From : ℕ := 0
  baseUnitsFrom : ℕ := 0
  mediaBlobsFrom : Option ℕ := none
  mediaBlobsPhase7CapFrom : Option ℕ := none
  blsCommitteeFlipFrom : Option ℕ := none
  governanceConsensusFrom : Option ℕ := none
  blake3From : Option ℕ := none

namespace Vm

def withQaPolicies (registry : RuleRegistry) (poolConfig : QaPoolGovernanceConfig) : Vm where
  qaRegistry := registry.withNativeValueOpcodes false
  qaRegistryNative := registry.withNativeValueOpcodes true
  qaPoolConfig := poolConfig

def new : Vm := withQaPolicies {} .developmentDefault

def setQaPolicies (vm : Vm) (registry : RuleRegistry) (poolConfig : QaPoolGovernanceConfig) : Vm :=
  { vm with
    qaRegistry := registry.withNativeValueOpcodes false
    qaRegistryNative := registry.withNativeValueOpcodes true
    qaPoolConfig := poolConfig }

variable (vm : Vm) (height : ℕ)

def mediaBlobsActive : Bool := vm.mediaBlobsFrom.any (· ≤ height)
def governanceConsensusActive : Bool := vm.governanceConsensusFrom.any (· ≤ height)
def blake3Active : Bool := vm.blake3From.any (· ≤ height)
def nativeValueActive : Bool := vm.nativeValueFrom ≤ height
def vmHardeningActive : Bool := vm.vmHardeningFrom ≤ height
def equivocationSlashActive : Bool := vm.equivocationSlashFrom ≤ height
def vmJumpStrictActive : Bool := vm.vmJumpStrictFrom ≤ height
def qaCanonicalActive : Bool := vm.qaCanonicalFrom.any (· ≤ height)
def securityV4Active : Bool := vm.securityV4From ≤ height
def mediaBlobMaxBytes : ℕ := mediaBlobMaxBytesAt height vm.mediaBlobsPhase7CapFrom

def denominationAt : Denomination :=
  if height ≥ vm.baseUnitsFrom then .baseUnits else .wholeBoing

def ctxAt (context : VmExecutionContext) : VmExecutionContext :=
  { context with
    nativeValue := vm.nativeValueActive context.blockHeight
    vmHardening := vm.vmHardeningActive context.blockHeight
    blake3Opcode := vm.blake3Active context.blockHeight
    jumpStrict := vm.vmJumpStrictActive context.blockHeight
    qaCanonical := vm.qaCanonicalActive context.blockHeight }

/-- Opcodes that are not active yet are rejected in deploys. -/
def qaAt (context : VmExecutionContext) : RuleRegistry :=
  (if context.nativeValue then vm.qaRegistryNative else vm.qaRegistry).withBlake3Opcodes
    context.blake3Opcode

end Vm

section RegistrationProof

variable [Platform]

def validatorRegistrationMessage (owner nodeId : AccountId) : Hash :=
  Crypto.blake3 (asciiBytes "BOING_OPEN_VALIDATOR_REGISTER_V1" ++ bytes32 owner ++ bytes32 nodeId)

def validatorRegistrationMessageV2 (owner nodeId : AccountId) (chainId : ℕ) : Hash :=
  Crypto.blake3 (asciiBytes "BOING_OPEN_VALIDATOR_REGISTER_V2" ++ leBytes 8 chainId ++
    bytes32 owner ++ bytes32 nodeId)

def verifyRegistration (nodeId : AccountId) (nodeSignature : Bytes) (message : Hash) : Bool :=
  nodeSignature.length = 64 &&
    (Crypto.verifyStrict nodeId message
      (BitVec.ofNat 512 (leValue nodeSignature.reverse))).isOk

def Vm.registrationProofOk (vm : Vm) (height : ℕ) (owner nodeId : AccountId) (signature : Bytes) :
    Bool :=
  let second := vm.registrationChainId.any fun chainId =>
    verifyRegistration nodeId signature (validatorRegistrationMessageV2 owner nodeId chainId)
  if vm.registrationChainId.isSome ∧ height ≥ vm.registrationV2From then second
  else second || verifyRegistration nodeId signature (validatorRegistrationMessage owner nodeId)

end RegistrationProof

/-! ## Names -/

def NAME_SUFFIX : String := ".boing"

def normalizeName (input : String) : Except NameError String :=
  let text := (trimText input).toList.map Char.toLower
  let label := String.ofList (if NAME_SUFFIX.toList <:+ text
    then text.take (text.length - NAME_SUFFIX.length) else text)
  (validateLabel label).map fun _ => label

end BoingNetwork
