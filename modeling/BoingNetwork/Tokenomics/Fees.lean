import BoingNetwork.Primitives.Codecs
import BoingNetwork.Primitives.Payloads
import BoingNetwork.State.Conservation

/-!
# Fees

The fee policy, the fee of a transaction, and the charges that debit a sender and credit
the proposer, the treasury and the burn sink.  The shares of a charge add up to it, so a
charge only moves value.
-/

namespace BoingNetwork

open MachineInt

/-- Shares are basis points; amounts are in the unit of the ledger. -/
structure NetworkFeePolicy where
  feeValidatorsBps : ℕ := 0
  feeTreasuryBps : ℕ := 10000
  feeBurnBps : ℕ := 0
  extraFixedFee : ℕ := 0
  transferAmountBps : ℕ := 0
  blobBaseFeePerKib : ℕ := 0
  blobForeverPinFeePerKib : ℕ := 0
  blobPinRenewFeePerKibBlock : ℕ := 0
  blobSampleFeePerChunk : ℕ := 0
  executionGasFeeBps : ℕ := 10000
  tipProposerBps : ℕ := 10000
  tipTreasuryBps : ℕ := 0
  tipBurnBps : ℕ := 0

def GAS_PRICE : ℕ := 1
def GAS_PRICE_BASE_UNITS : ℕ := 1000000000000
def GAS_UNITS_PER_BOING : ℕ := 21000

/-- `TREASURY`, zeros and a final one. -/
def PROTOCOL_TREASURY : AccountId :=
  wordOfBytes (asciiBytes "TREASURY" ++ List.replicate 23 0 ++ [1])

/-- `BURN`, zeros and a final one. -/
def FEE_BURN_SINK : AccountId :=
  wordOfBytes (asciiBytes "BURN" ++ List.replicate 27 0 ++ [1])

/-- Production default: all fees go to the treasury. -/
def NetworkFeePolicy.treasuryDefault : NetworkFeePolicy := {}

/-- Who receives the remainder of a fee split. -/
inductive FeeRemainder where
  | treasury
  | validators
deriving DecidableEq

/-- A share in basis points. -/
def bpsShare (amount bps : ℕ) : ℕ := saturatingMul 128 amount bps / 10000

/-! ## Amounts -/

def feeForGas (gasUsed : ℕ) : ℕ :=
  if gasUsed = 0 then 0
  else saturatingAdd 128 (saturatingMul 128 gasUsed GAS_PRICE)
    (GAS_UNITS_PER_BOING - 1) / GAS_UNITS_PER_BOING

def feeForGasIn (gasUsed : ℕ) : Denomination → ℕ
  | .wholeBoing => feeForGas gasUsed
  | .baseUnits => saturatingMul 128 gasUsed GAS_PRICE_BASE_UNITS

def executionGasFeeIn (gasUsed : ℕ) (policy : NetworkFeePolicy) (denomination : Denomination) :
    ℕ :=
  let full := feeForGasIn gasUsed denomination
  if policy.executionGasFeeBps = 0 then 0
  else if policy.executionGasFeeBps ≥ 10000 then full
  else bpsShare full policy.executionGasFeeBps

/-- Started KiB, at least one. -/
def startedKib (size : ℕ) : ℕ := max ((size + 1023) / 1024) 1

def publishedBlobFee (size : ℕ) (retention : BlobRetention) (policy : NetworkFeePolicy) : ℕ :=
  let base := if policy.blobBaseFeePerKib > 0 then
      saturatingAdd 128 0
        (saturatingMul 128 (startedKib size) policy.blobBaseFeePerKib)
    else 0
  if retention = .forever ∧ policy.blobForeverPinFeePerKib > 0 then
    saturatingAdd 128 base
      (saturatingMul 128 (startedKib size) policy.blobForeverPinFeePerKib)
  else base

def blobDataFee (policy : NetworkFeePolicy) : TransactionPayload → ℕ
  | .putBlob retention _ data => publishedBlobFee data.length retention policy
  | .blobAnnounce _ size retention _ => publishedBlobFee size retention policy
  | .renewMediaBlobPin _ size extendBlocks =>
    if policy.blobPinRenewFeePerKibBlock = 0 then 0
    else saturatingMul 128
      (saturatingMul 128 (startedKib size) extendBlocks)
      policy.blobPinRenewFeePerKibBlock
  | .payBlobSample _ _ _ => policy.blobSampleFeePerChunk
  | .settleBlobSampleMatch _ _ _ _ => policy.blobSampleFeePerChunk
  | _ => 0

def transferLevy (policy : NetworkFeePolicy) (payload : TransactionPayload) : ℕ :=
  match payload with
  | .transfer _ _ | .contractCallWithValue _ _ _ | .batch _ =>
    if policy.transferAmountBps > 0 then
      bpsShare payload.nativeTransferTotal policy.transferAmountBps
    else 0
  | _ => 0

/-- The fee of an included transaction, without its tip. -/
def networkFeeAmountIn (gasUsed : ℕ) (payload : TransactionPayload) (policy : NetworkFeePolicy)
    (denomination : Denomination) : ℕ :=
  saturatingAdd 128
    (saturatingAdd 128
      (saturatingAdd 128 (executionGasFeeIn gasUsed policy denomination)
        policy.extraFixedFee)
      (transferLevy policy payload))
    (blobDataFee policy payload)

/-! ## Shares -/

structure FeeShares where
  proposer : ℕ
  treasury : ℕ
  burn : ℕ

def FeeShares.sum (shares : FeeShares) : ℕ := shares.proposer + shares.treasury + shares.burn

def splitFeeWithRemainder (fee : ℕ) (policy : NetworkFeePolicy) (remainder : FeeRemainder) :
    FeeShares :=
  let validators := bpsShare fee policy.feeValidatorsBps
  let treasury := bpsShare fee policy.feeTreasuryBps
  let burn := bpsShare fee policy.feeBurnBps
  let allocated := saturatingAdd 128 (saturatingAdd 128 validators treasury)
    burn
  if allocated > fee then ⟨0, fee, 0⟩
  else
    let rest := fee - allocated
    match remainder with
    | .treasury => ⟨validators, saturatingAdd 128 treasury rest, burn⟩
    | .validators => ⟨saturatingAdd 128 validators rest, treasury, burn⟩

def splitTip (tip : ℕ) (policy : NetworkFeePolicy) : FeeShares :=
  let proposer := bpsShare tip policy.tipProposerBps
  let treasury := bpsShare tip policy.tipTreasuryBps
  let burn := bpsShare tip policy.tipBurnBps
  let allocated := saturatingAdd 128 (saturatingAdd 128 proposer treasury) burn
  if allocated > tip then ⟨tip, 0, 0⟩
  else ⟨saturatingAdd 128 proposer (tip - allocated), treasury, burn⟩

theorem bpsShare_le (amount bps : ℕ) : bpsShare amount bps ≤ (2 ^ 128 - 1) / 10000 :=
  Nat.div_le_div_right (min_le_right _ _)

theorem sum_splitFeeWithRemainder {fee : ℕ} (bounded : fee < 2 ^ 128)
    (policy : NetworkFeePolicy) (remainder : FeeRemainder) :
    (splitFeeWithRemainder fee policy remainder).sum = fee := by
  have validators := bpsShare_le fee policy.feeValidatorsBps
  have treasury := bpsShare_le fee policy.feeTreasuryBps
  have burn := bpsShare_le fee policy.feeBurnBps
  cases remainder <;> simp only [splitFeeWithRemainder] <;> split <;>
    simp only [FeeShares.sum, saturatingAdd, maxValue] at * <;> omega

theorem sum_splitTip {tip : ℕ} (bounded : tip < 2 ^ 128) (policy : NetworkFeePolicy) :
    (splitTip tip policy).sum = tip := by
  have proposer := bpsShare_le tip policy.tipProposerBps
  have treasury := bpsShare_le tip policy.tipTreasuryBps
  have burn := bpsShare_le tip policy.tipBurnBps
  simp only [splitTip]
  split <;> simp only [FeeShares.sum, saturatingAdd, maxValue] at * <;> omega

/-! ## Charges -/

inductive FeeError where
  | senderMissing
  | insufficientBalance (have_ need : ℕ)

def FeeError.display : FeeError → String
  | .senderMissing => "sender account missing"
  | .insufficientBalance have_ need => s!"insufficient balance for fee: have {have_}, need {need}"

def debitFee (amount : ℕ) : EStateM FeeError AccountState PUnit := do
  let account ← get
  if account.balance < amount then throw (.insufficientBalance account.balance amount)
  else set { account with balance := account.balance - amount }

/-- The contents after a credit; nothing happens for a zero amount. -/
def Contents.credit (contents : Contents) (id : AccountId) (amount : ℕ) : Contents :=
  if amount = 0 then contents else contents.deposit id amount

/-- The contents after the three credits of a charge. -/
def Contents.distribute (contents : Contents) (feeRecipient : AccountId) (shares : FeeShares) :
    Contents :=
  ((contents.credit feeRecipient shares.proposer).credit PROTOCOL_TREASURY shares.treasury).credit
    FEE_BURN_SINK shares.burn

variable {before : Contents} {amount : ℕ} {post : PUnit → Contents → Prop} (contents : Contents)
  {account : AccountState} {shares : FeeShares} {id feeRecipient sender : AccountId}

namespace Contents

theorem received_credit (id : AccountId) (amount : ℕ) :
    contents.Received amount (contents.credit id amount) := by
  unfold credit
  split
  next zero =>
    rw [zero]
    exact .zero contents
  next => exact received_deposit ..

theorem received_distribute (feeRecipient : AccountId) (shares : FeeShares) :
    contents.Received shares.sum (contents.distribute feeRecipient shares) :=
  ((received_credit ..).trans (received_credit ..)).trans (received_credit ..)

def charge (contents : Contents) (sender : AccountId) (account : AccountState)
    (amount : ℕ) (feeRecipient : AccountId) (shares : FeeShares) : Contents :=
  (contents.write (.account sender) (some { account with
    balance := account.balance - amount })).distribute feeRecipient shares

theorem paid_debit (found : before.accounts[id]? = some account)
    (enough : amount ≤ account.balance) :
    before.Paid amount (before.write (.account id)
      (some { account with balance := account.balance - amount })) := by
  apply Paid.of_account found
  · rfl
  · exact .refl _
  · intro _
    simp only [AccountState.worth]
    omega

theorem charge_kept (found : before.accounts[sender]? = some account)
    (enough : amount ≤ account.balance) (whole : amount < 2 ^ 128 → shares.sum = amount) :
    before.Kept (before.charge sender account amount feeRecipient shares) := by
  refine (paid_debit found enough).received (fun fits => whole ?_) (received_distribute ..)
  have owned := worth_le_supply found
  simp only [AccountState.worth, SUPPLY_LIMIT] at owned fits
  omega

end Contents

section Charges

variable [Crypto] {Error : Type}

def creditAccount (id : AccountId) (amount : ℕ) : Act Error PUnit :=
  if amount = 0 then pure ⟨⟩ else Act.deposit id amount

theorem creditAccount_total (id : AccountId) (amount : ℕ) :
    (creditAccount id amount : Act Error PUnit).Total := by
  unfold creditAccount
  split
  next => exact .pure _
  next => exact Act.place_total _ _

theorem Leads.creditAccount (reached : post ⟨⟩ (before.credit id amount)) :
    Leads (creditAccount id amount : Act Error PUnit) before post := by
  unfold BoingNetwork.creditAccount
  unfold Contents.credit at reached
  split at reached
  next zero =>
    rw [if_pos zero]
    exact .pure reached
  next positive =>
    rw [if_neg positive]
    exact .place reached

def chargeShares (sender : AccountId) (amount : ℕ) (feeRecipient : AccountId)
    (shares : FeeShares) : Act FeeError PUnit :=
  if amount = 0 then pure ⟨⟩
  else do
    Act.withAccount sender .senderMissing (debitFee amount)
    creditAccount feeRecipient shares.proposer
    creditAccount PROTOCOL_TREASURY shares.treasury
    creditAccount FEE_BURN_SINK shares.burn

theorem leads_chargeShares (free : amount = 0 → post ⟨⟩ before)
    (paid : amount ≠ 0 → ∀ account, before.accounts[sender]? = some account →
      amount ≤ account.balance →
        post ⟨⟩ (before.charge sender account amount feeRecipient shares)) :
    Leads (chargeShares sender amount feeRecipient shares) before post := by
  unfold chargeShares
  split
  next zero => exact .pure (free zero)
  next positive =>
    refine .bind (.withAccount fun account _ next found ran => ?_)
    have debited : (debitFee amount).Ends account (fun _ => True) fun _ next =>
        amount ≤ account.balance ∧ next = { account with balance := account.balance - amount } := by
      simp only [debitFee, EStateM.ends_bind, EStateM.ends_get]
      split
      next => trivial
      next enough => exact ⟨Nat.not_lt.mp enough, rfl⟩
    obtain ⟨enough, rfl⟩ := EStateM.ends_of_ok debited ran
    exact .bind (.creditAccount (.bind (.creditAccount (.creditAccount
      (paid positive account found enough)))))

def chargeAndDistributeFee (sender : AccountId) (fee : ℕ) (feeRecipient : AccountId)
    (policy : NetworkFeePolicy) (remainder : FeeRemainder) : Quiet FeeError PUnit :=
  (chargeShares sender fee feeRecipient (splitFeeWithRemainder fee policy remainder)).quietly
    fun _ => leads_chargeShares (fun _ => .refl _) fun _ _ found enough =>
      Contents.charge_kept found enough fun bounded => sum_splitFeeWithRemainder bounded ..

def chargePriorityTip (sender : AccountId) (tip : ℕ) (feeRecipient : AccountId)
    (policy : NetworkFeePolicy) : Quiet FeeError PUnit :=
  (chargeShares sender tip feeRecipient (splitTip tip policy)).quietly
    fun _ => leads_chargeShares (fun _ => .refl _) fun _ _ found enough =>
      Contents.charge_kept found enough fun bounded => sum_splitTip bounded policy

end Charges

end BoingNetwork
