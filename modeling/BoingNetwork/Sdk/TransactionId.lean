import BoingNetwork.Sdk.EncodingAgreement

/-!
# The transaction id that the SDK derives from signed bytes

The SDK looks for the length field of the signature from the end of the bytes, first where it
stands if there is a tip.  Without a tip, what stands there belongs to the access list: the
last account of the write list, or of the read list if there is no account to write.
-/

namespace BoingNetwork.Sdk

open Bincode

def SIGNED_TX_SIGNATURE_TRAIL_BYTES : ℕ := 8 + 64

def SIGNED_TX_TIP_BYTES : ℕ := 16

section Derivation

variable [Crypto]

def tryOffset (bytes : Bytes) (sigLenOffset : ℕ) : Option Hash :=
  if sigLenOffset < 1 then none
  else if leValue ((bytes.drop sigLenOffset).take 8) ≠ 64 then none
  else some (Crypto.blake3 (bytes.take sigLenOffset))

def tryTipped (bytes : Bytes) : Option Hash :=
  if SIGNED_TX_SIGNATURE_TRAIL_BYTES + SIGNED_TX_TIP_BYTES + 1 ≤ bytes.length then
    tryOffset bytes (bytes.length - SIGNED_TX_SIGNATURE_TRAIL_BYTES - SIGNED_TX_TIP_BYTES)
  else none

def transactionIdFromSignedTransaction (bytes : Bytes) : Except String Hash :=
  if bytes.length < SIGNED_TX_SIGNATURE_TRAIL_BYTES + 1 then
    .error "Signed transaction bytes too short to derive tx_id"
  else
    match tryTipped bytes with
    | some id => .ok id
    | none =>
      match tryOffset bytes (bytes.length - SIGNED_TX_SIGNATURE_TRAIL_BYTES) with
      | some id => .ok id
      | none => .error "Unexpected serde signature length field (expected 64)"

end Derivation

/-! ## What stands where the length would be -/

def lengthPlace (accessList : AccessList) : Bytes :=
  match accessList.write.getLast?, accessList.read.getLast? with
  | some account, _ => ((bytes32 account).drop 16).take 8
  | none, some account => (bytes32 account).drop 24
  | none, none => leBytes 8 0

/-- The access list ends as if a signature and a tip followed it. -/
def LooksTipped (accessList : AccessList) : Prop := lengthPlace accessList = leBytes 8 64

instance (accessList : AccessList) : Decidable (LooksTipped accessList) :=
  inferInstanceAs (Decidable (_ = _))

theorem leValue_eq_iff {bytes : Bytes} (length : bytes.length = 8) :
    leValue bytes = 64 ↔ bytes = leBytes 8 64 := by
  constructor
  · intro isValue
    have read := leBytes_leValue bytes
    rw [length, isValue] at read
    exact read.symm
  · rintro rfl
    exact leValue_leBytes 8 64

theorem length_lengthPlace (accessList : AccessList) : (lengthPlace accessList).length = 8 := by
  unfold lengthPlace
  split <;> simp

theorem vec_concat (accounts : List AccountId) (account : AccountId) :
    vec bytes32 (accounts ++ [account]) =
      leBytes 8 (accounts.length + 1) ++ accounts.flatMap bytes32 ++ (bytes32 account).take 16 ++
        ((bytes32 account).drop 16).take 8 ++ (bytes32 account).drop 24 := by
  have parts : bytes32 account = (bytes32 account).take 16 ++
      (((bytes32 account).drop 16).take 8 ++ (bytes32 account).drop 24) := by
    conv_lhs => rw [← List.take_append_drop 16 (bytes32 account),
      ← List.take_append_drop 8 ((bytes32 account).drop 16), List.drop_drop]
  simp only [vec, List.length_append, List.length_singleton, List.flatMap_append,
    List.flatMap_singleton, List.append_assoc, ← parts]

theorem serialize_eq_place (tx : Transaction) :
    ∃ before after, tx.serialize = before ++ (lengthPlace tx.accessList ++ after) ∧
      1 ≤ before.length ∧ after.length = 8 := by
  obtain ⟨nonce, sender, payload, read, write⟩ := tx
  have starts : ∀ rest,
      1 ≤ (leBytes 8 nonce ++ bytes32 sender ++ payload.serialize ++ rest).length := by
    intro rest
    simp only [List.length_append, length_leBytes]
    omega
  simp only [Transaction.serialize, AccessList.serialize, lengthPlace]
  rcases write.eq_nil_or_concat with rfl | ⟨others, account, rfl⟩
  · rcases read.eq_nil_or_concat with rfl | ⟨others, account, rfl⟩
    · exact ⟨_, leBytes 8 0, by simp [vec], starts [], length_leBytes ..⟩
    · refine ⟨leBytes 8 nonce ++ bytes32 sender ++ payload.serialize ++
        (leBytes 8 (others.length + 1) ++ others.flatMap bytes32 ++ (bytes32 account).take 16 ++
          ((bytes32 account).drop 16).take 8), leBytes 8 0, ?_, starts _, length_leBytes ..⟩
      simp [List.concat_eq_append, vec_concat]
      simp [vec]
  · refine ⟨leBytes 8 nonce ++ bytes32 sender ++ payload.serialize ++ (vec bytes32 read ++
        (leBytes 8 (others.length + 1) ++ others.flatMap bytes32 ++ (bytes32 account).take 16)),
        (bytes32 account).drop 24, ?_, starts _, by simp⟩
    simp [List.concat_eq_append, vec_concat]

theorem one_le_length_serialize (tx : Transaction) : 1 ≤ tx.serialize.length := by
  simp only [Transaction.serialize, List.length_append, length_leBytes]
  omega

theorem signatureBytes_eq (signature : Signature) :
    signatureBytes signature = leBytes 8 64 ++ array 64 signature.toNat := by
  rw [signatureBytes, byteVec, length_array]

/-! ## The derived id -/

section Derivation

variable [Crypto]

theorem tryOffset_length {before : Bytes} (place rest : Bytes) (notEmpty : 1 ≤ before.length)
    (length : place.length = 8) : tryOffset (before ++ (place ++ rest)) before.length =
      if place = leBytes 8 64 then some (Crypto.blake3 before) else none := by
  have notZero : ¬ before.length < 1 := by omega
  rw [tryOffset, if_neg notZero, List.drop_left, List.take_left, List.take_left' length, ite_not]
  simp only [leValue_eq_iff length]

/-- With a tip's length of bytes behind the signature, the first guess reads the place. -/
theorem tryTipped_eq {before place rest : Bytes} (notEmpty : 1 ≤ before.length)
    (length : place.length = 8) (restLength : rest.length = 80) :
    tryTipped (before ++ (place ++ rest)) =
      if place = leBytes 8 64 then some (Crypto.blake3 before) else none := by
  have total : (before ++ (place ++ rest)).length = before.length + 88 := by
    rw [List.length_append, List.length_append, length, restLength]
  rw [tryTipped, total, if_pos (by
    simp only [SIGNED_TX_SIGNATURE_TRAIL_BYTES, SIGNED_TX_TIP_BYTES]
    omega)]
  exact tryOffset_length place rest notEmpty length

variable (signed : SignedTransaction)

theorem transactionId_of_tip (tipped : signed.priorityTip ≠ 0) :
    transactionIdFromSignedTransaction signed.serialize = .ok signed.tx.id := by
  have isSerialized : signed.serialize = signed.tx.serialize ++ (leBytes 8 64 ++
      (array 64 signed.signature.toNat ++ leBytes 16 signed.priorityTip)) := by
    rw [SignedTransaction.serialize, if_neg tipped, signatureBytes_eq]
    simp only [List.append_assoc]
  have long : ¬ signed.serialize.length < SIGNED_TX_SIGNATURE_TRAIL_BYTES + 1 := by
    rw [isSerialized]
    simp [SIGNED_TX_SIGNATURE_TRAIL_BYTES]
  rw [transactionIdFromSignedTransaction, if_neg long, isSerialized,
    tryTipped_eq (one_le_length_serialize signed.tx) (length_leBytes ..) (by simp), if_pos rfl]
  rfl

/-- Without a tip, the first guess reads the place in the access list. -/
theorem tryTipped_serialize (noTip : signed.priorityTip = 0) : tryTipped signed.serialize =
      if LooksTipped signed.tx.accessList then
        some (Crypto.blake3 (signed.tx.serialize.take (signed.tx.serialize.length - 16)))
      else none := by
  obtain ⟨before, after, isSerialized, notEmpty, afterLength⟩ := serialize_eq_place signed.tx
  have placeLength := length_lengthPlace signed.tx.accessList
  have isBefore : signed.tx.serialize.take (signed.tx.serialize.length - 16) = before := by
    rw [isSerialized]
    apply List.take_left'
    simp only [List.length_append, placeLength, afterLength]
    omega
  rw [isBefore, SignedTransaction.serialize, if_pos noTip, List.append_nil, isSerialized,
    List.append_assoc, List.append_assoc,
    tryTipped_eq notEmpty placeLength (by simp [afterLength, signatureBytes_eq])]
  rfl

theorem transactionId_of_no_tip (noTip : signed.priorityTip = 0) :
    transactionIdFromSignedTransaction signed.serialize =
      .ok (if LooksTipped signed.tx.accessList then
        Crypto.blake3 (signed.tx.serialize.take (signed.tx.serialize.length - 16))
      else signed.tx.id) := by
  have isSerialized : signed.serialize = signed.tx.serialize ++ (leBytes 8 64 ++
      array 64 signed.signature.toNat) := by
    rw [SignedTransaction.serialize, if_pos noTip, signatureBytes_eq, List.append_nil]
  have total : signed.serialize.length = signed.tx.serialize.length + 72 := by
    rw [isSerialized, List.length_append, List.length_append, length_leBytes, length_array]
  have notEmpty := one_le_length_serialize signed.tx
  rw [transactionIdFromSignedTransaction, tryTipped_serialize signed noTip, if_neg (by
    rw [total, SIGNED_TX_SIGNATURE_TRAIL_BYTES]
    omega)]
  split_ifs
  next => rfl
  next =>
    have second : tryOffset signed.serialize
        (signed.serialize.length - SIGNED_TX_SIGNATURE_TRAIL_BYTES) = some signed.tx.id := by
      have offset : signed.serialize.length - SIGNED_TX_SIGNATURE_TRAIL_BYTES =
          signed.tx.serialize.length := by
        rw [total, SIGNED_TX_SIGNATURE_TRAIL_BYTES]
        omega
      rw [offset, isSerialized, tryOffset_length _ _ notEmpty (length_leBytes ..), if_pos rfl]
      rfl
    simp only [second]

/-- The derived id is that of the transaction unless the tip is left out and the access list
looks as if there were one. -/
theorem transaction_id_derived_iff :
    transactionIdFromSignedTransaction signed.serialize = .ok signed.tx.id ↔
      signed.priorityTip ≠ 0 ∨ ¬ LooksTipped signed.tx.accessList ∨
        Crypto.blake3 (signed.tx.serialize.take (signed.tx.serialize.length - 16)) =
          signed.tx.id := by
  by_cases noTip : signed.priorityTip = 0
  · rw [transactionId_of_no_tip signed noTip, Except.ok.injEq]
    by_cases looksTipped : LooksTipped signed.tx.accessList
    · simp [noTip, looksTipped]
    · simp [looksTipped]
  · simp [transactionId_of_tip signed noTip, noTip]

end Derivation

/-- An account whose bytes contain a length of 64. -/
def craftedRecipient : AccountId := BitVec.ofNat 256 (64 * 2 ^ 120)

def craftedTransfer : Transaction where
  nonce := 0
  sender := 1
  payload := .transfer craftedRecipient 5
  accessList := { read := [], write := [1, craftedRecipient] }

def craftedInput : TransactionInput where
  nonce := 0
  sender := bytes32 1
  payload := .transfer (bytes32 craftedRecipient) 5
  read := []
  write := [bytes32 1, bytes32 craftedRecipient]
  priorityTip := none

open Checksum

/-- The SDK encodes a transfer and derives an id that is not the one of the node. -/
theorem crafted_id_derived :
    craftedInput.Describes craftedTransfer 0 ∧
    encodeSignedTransaction craftedInput someSignature = .ok (encodedBytes craftedInput) ∧
    (transactionIdFromSignedTransaction (encodedBytes craftedInput)).isOk ∧
    transactionIdFromSignedTransaction (encodedBytes craftedInput) ≠ .ok craftedTransfer.id :=
  ⟨⟨rfl, rfl, rfl, rfl, rfl, rfl⟩, by decide +kernel, by decide +kernel, by decide +kernel⟩

end BoingNetwork.Sdk
