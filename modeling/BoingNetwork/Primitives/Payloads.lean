import BoingNetwork.Library.Result
import BoingNetwork.Primitives.Transaction

/-!
# Payload helpers

The unit of ledger amounts, the addresses of deployed contracts, the structural check of
a batch and the accessors of transaction payloads that execution uses.
-/

namespace BoingNetwork

open MachineInt

def BASE_UNITS_PER_BOING : ℕ := 1000000000000000000

/-- Unit of the native ledger at a height. -/
inductive Denomination where
  | wholeBoing
  | baseUnits
deriving DecidableEq

namespace Denomination

def unit : Denomination → ℕ
  | wholeBoing => 1
  | baseUnits => BASE_UNITS_PER_BOING

/-- A constant in whole BOING as a ledger amount. -/
def scale (denomination : Denomination) (wholeBoing : ℕ) : ℕ :=
  saturatingMul 128 wholeBoing denomination.unit

end Denomination

section Addresses

variable [Crypto]

def nonceDerivedContractAddress (sender : AccountId) (deployTxNonce : ℕ) : AccountId :=
  Crypto.blake3 (bytes32 sender ++ leBytes 8 deployTxNonce)

def CREATE2_DOMAIN : Bytes := asciiBytes "boing.create2.v1\x00"

def create2ContractAddress (deployer : AccountId) (salt : BitVec 256) (bytecode : Bytes) :
    AccountId :=
  Crypto.blake3 (CREATE2_DOMAIN ++ bytes32 deployer ++ bytes32 salt ++
    bytes32 (Crypto.blake3 bytecode))

end Addresses

/-! ## Deploy payloads -/

/-- The first byte of a deploy payload whose rest is init code. -/
def CONTRACT_DEPLOY_INIT_CODE_MARKER : UInt8 := 0xFD

def contractDeployUsesInitCode (bytecode : Bytes) : Bool :=
  bytecode.head? == some CONTRACT_DEPLOY_INIT_CODE_MARKER

def contractDeployInitBody (bytecode : Bytes) : Bytes :=
  if contractDeployUsesInitCode bytecode then bytecode.tail else bytecode

/-- What a deploy payload declares. -/
structure ContractDeployFields where
  bytecode : Bytes
  purposeCategory : Option String
  descriptionHash : Option Bytes
  assetName : Option String
  assetSymbol : Option String

namespace TransactionPayload

def deployCreate2Salt : TransactionPayload → Option (BitVec 256)
  | contractDeploy _ salt => salt
  | contractDeployWithPurpose _ _ _ salt => salt
  | contractDeployWithPurposeAndMetadata _ _ _ _ _ salt => salt
  | _ => none

def asContractDeploy : TransactionPayload → Option ContractDeployFields
  | contractDeploy bytecode _ => some ⟨bytecode, none, none, none, none⟩
  | contractDeployWithPurpose bytecode category description _ =>
    some ⟨bytecode, some category, description, none, none⟩
  | contractDeployWithPurposeAndMetadata bytecode category description name symbol _ =>
    some ⟨bytecode, some category, description, name, symbol⟩
  | _ => none

def MAX_ASSET_NAME_LEN : ℕ := 256
def MAX_ASSET_SYMBOL_LEN : ℕ := 32

end TransactionPayload

/-! ## Batches -/

def MAX_BATCH_CALLS : ℕ := 16
def MAX_BATCH_CALLDATA_BYTES : ℕ := 64 * 1024

inductive BatchValidationError where
  | empty
  | tooManyCalls (got max : ℕ)
  | calldataTooLarge (got max : ℕ)
  | amountOverflow

def BatchValidationError.display : BatchValidationError → String
  | .empty => "batch has no calls"
  | .tooManyCalls got max => s!"batch has {got} calls (max {max})"
  | .calldataTooLarge got max => s!"batch calldata is {got} bytes (max {max})"
  | .amountOverflow => "batch transfer total overflows u128"

namespace BatchCall

/-- Native BOING that the step moves. -/
def amountMoved : BatchCall → ℕ
  | transfer _ amount => amount
  | contractCall _ _ => 0
  | contractCallWithValue _ _ value => value

def calldataLength : BatchCall → ℕ
  | transfer _ _ => 0
  | contractCall _ calldata => calldata.length
  | contractCallWithValue _ calldata _ => calldata.length

end BatchCall

def sumBatchCalls (calldata total : ℕ) : List BatchCall → Except BatchValidationError (ℕ × ℕ)
  | [] => .ok (calldata, total)
  | call :: calls =>
    match checkedAdd 128 total call.amountMoved with
    | none => .error .amountOverflow
    | some total =>
      sumBatchCalls (saturatingAdd 64 calldata call.calldataLength) total calls

def validateBatchCalls (calls : List BatchCall) : Except BatchValidationError Unit := do
  if calls.isEmpty then throw .empty
  if calls.length > MAX_BATCH_CALLS then throw (.tooManyCalls calls.length MAX_BATCH_CALLS)
  let (calldata, _) ← sumBatchCalls 0 0 calls
  if calldata > MAX_BATCH_CALLDATA_BYTES then
    throw (.calldataTooLarge calldata MAX_BATCH_CALLDATA_BYTES)

def TransactionPayload.nativeTransferTotal : TransactionPayload → ℕ
  | .transfer _ amount => amount
  | .contractCallWithValue _ _ value => value
  | .batch calls =>
    (calls.map BatchCall.amountMoved).foldl (saturatingAdd 128) 0
  | _ => 0

end BoingNetwork
