import BoingNetwork.Primitives.TransactionCodec

/-!
# Execution receipts

The receipt of a transaction with its bounds on return data, logs and error text.  The
error text is cut at a byte position, and the cut panics inside a character.
-/

namespace BoingNetwork

open Bincode Codec

def MAX_RECEIPT_RETURN_DATA_BYTES : ℕ := 24 * 1024
def MAX_RECEIPT_ERROR_STRING_BYTES : ℕ := 2048
def MAX_EXECUTION_LOG_TOPICS : ℕ := 4
def MAX_EXECUTION_LOG_DATA_BYTES : ℕ := 1024
def MAX_EXECUTION_LOGS_PER_TX : ℕ := 24

structure ExecutionLog where
  topics : List (BitVec 256)
  data : Bytes
deriving DecidableEq

structure ExecutionReceipt where
  txId : Hash
  blockHeight : ℕ
  txIndex : ℕ
  success : Bool
  gasUsed : ℕ
  returnData : Bytes
  logs : List ExecutionLog
  error : Option String
deriving DecidableEq

/-- The characters of the first `count` bytes; `none` if the cut is inside a character. -/
def cutChars : ℕ → List Char → Option (List Char)
  | 0, _ => some []
  | _ + 1, [] => some []
  | count + 1, char :: chars =>
    if char.utf8Size ≤ count + 1 then
      (cutChars (count + 1 - char.utf8Size) chars).map (char :: ·)
    else none

/-- The bytes of the characters. -/
def utf8Length (chars : List Char) : ℕ := (chars.map Char.utf8Size).sum

def truncateText (count : ℕ) (text : String) : Option String :=
  if utf8Length text.toList > count then (cutChars count text.toList).map String.ofList
  else some text

def sanitizeLogs (logs : List ExecutionLog) : List ExecutionLog :=
  (logs.take MAX_EXECUTION_LOGS_PER_TX).map fun log =>
    { topics := log.topics.take MAX_EXECUTION_LOG_TOPICS
      data := log.data.take MAX_EXECUTION_LOG_DATA_BYTES }

def receiptError : Option String → Option (Option String)
  | none => some none
  | some text =>
    (truncateText MAX_RECEIPT_ERROR_STRING_BYTES text).map fun text =>
      if text.isEmpty then none else some text

section FromTxOutcome

variable [Crypto]

/-- `none` is a panic. -/
def ExecutionReceipt.fromTxOutcome (tx : Transaction) (blockHeight txIndex : ℕ) (success : Bool)
    (gasUsed : ℕ) (returnData : Bytes) (logs : List ExecutionLog) (error : Option String) :
    Option ExecutionReceipt :=
  (receiptError error).map fun error =>
    { txId := tx.id
      blockHeight, txIndex, success, gasUsed
      returnData := returnData.take MAX_RECEIPT_RETURN_DATA_BYTES
      logs := sanitizeLogs logs
      error }

end FromTxOutcome

/-! ## Encoding -/

def ExecutionLog.serialize (log : ExecutionLog) : Bytes :=
  Bincode.vec bytes32 log.topics ++ byteVec log.data

def ExecutionLog.Fits (log : ExecutionLog) : Prop :=
  log.topics.length < 2 ^ 64 ∧ log.data.length < 2 ^ 64

def ExecutionLog.codec : Codec UInt8 ExecutionLog :=
  ((pair (vecCodec wordCodec) byteVecCodec).congr
    { toFun := fun (topics, data) => ⟨topics, data⟩
      invFun := fun log => (log.topics, log.data)
      left_inv := fun _ => rfl
      right_inv := fun _ => rfl }).withEncode ExecutionLog.serialize fun _ => rfl

@[simp] theorem ExecutionLog.codec_valid (log : ExecutionLog) :
    ExecutionLog.codec.Valid log ↔ log.Fits := by
  change (_ ∧ ∀ topic ∈ log.topics, True) ∧ _ ↔ _
  simp [ExecutionLog.Fits]

namespace ExecutionReceipt

def serialize (receipt : ExecutionReceipt) : Bytes :=
  bytes32 receipt.txId ++ leBytes 8 receipt.blockHeight ++ leBytes 4 receipt.txIndex ++
    bool receipt.success ++ leBytes 8 receipt.gasUsed ++ byteVec receipt.returnData ++
    Bincode.vec ExecutionLog.serialize receipt.logs ++ option string receipt.error

def Fits (receipt : ExecutionReceipt) : Prop :=
  receipt.blockHeight < 2 ^ 64 ∧ receipt.txIndex < 2 ^ 32 ∧ receipt.gasUsed < 2 ^ 64 ∧
    receipt.returnData.length < 2 ^ 64 ∧
    (receipt.logs.length < 2 ^ 64 ∧ ∀ log ∈ receipt.logs, log.Fits) ∧
    ∀ text ∈ receipt.error, TextFits text

def codec : Codec UInt8 ExecutionReceipt :=
  ((pair wordCodec (pair (uintCodec 8) (pair (uintCodec 4) (pair boolCodec (pair (uintCodec 8)
    (pair byteVecCodec (pair (vecCodec ExecutionLog.codec) (optionCodec stringCodec)))))))).congr
    { toFun := fun (txId, blockHeight, txIndex, success, gasUsed, returnData, logs, error) =>
        ⟨txId, blockHeight, txIndex, success, gasUsed, returnData, logs, error⟩
      invFun := fun receipt => (receipt.txId, receipt.blockHeight, receipt.txIndex,
        receipt.success, receipt.gasUsed, receipt.returnData, receipt.logs, receipt.error)
      left_inv := fun _ => rfl
      right_inv := fun _ => rfl }).withEncode serialize fun receipt => by
    simp only [serialize, List.append_assoc]
    rfl

@[simp] theorem codec_encode : codec.encode = serialize := rfl

@[simp] theorem codec_valid (receipt : ExecutionReceipt) : codec.Valid receipt ↔ receipt.Fits := by
  change True ∧ _ ∧ _ ∧ True ∧ _ ∧ _ ∧ (vecCodec ExecutionLog.codec).Valid receipt.logs ∧ _ ↔ _
  simp [Fits]

/-- The encoding of a receipt is longer than that of a pair of hashes. -/
theorem length_serialize_ne (receipt : ExecutionReceipt) : receipt.serialize.length ≠ 64 := by
  have logs := length_vec ExecutionLog.serialize receipt.logs
  have error : 1 ≤ (option string receipt.error).length := by
    cases receipt.error <;> simp [option]
  simp only [serialize, List.length_append, length_bytes32, length_leBytes, length_bool,
    length_byteVec]
  omega

end ExecutionReceipt

end BoingNetwork
