import BoingNetwork.Execution.Basic

/-!
# Bytecode and call frames

The instruction set, its gas schedule, and what one instruction does to the frame that
executes it.  A frame computation only spends gas.  An instruction that does not halt the
frame spends some, so a frame executes at most as many instructions as it has gas.
-/

namespace BoingNetwork

open MachineInt

/-- A word of the stack machine. -/
abbrev Word := BitVec 256

inductive Opcode where
  | stop | add | sub | mul | div | mod | addMod | mulMod
  | lt | gt | eq | isZero | and | or | xor | not | blake3 | shl | shr | sar
  | address | balance | caller | callValue | blockHeight | timestamp | selfBalance
  | mLoad | mStore | sLoad | sStore | jump | jumpI | dup1
  | log0 | log1 | log2 | log3 | log4
  | call | nativeTransfer | return | create2
deriving DecidableEq

/-- Push instructions are decoded before the table is read. -/
def opcodeTable : List (UInt8 × Opcode) :=
  [(0x00, .stop), (0x01, .add), (0x02, .sub), (0x03, .mul), (0x04, .div), (0x06, .mod),
    (0x08, .addMod), (0x09, .mulMod), (0x10, .lt), (0x11, .gt), (0x14, .eq), (0x15, .isZero),
    (0x16, .and), (0x17, .or), (0x18, .xor), (0x19, .not), (0x20, .blake3), (0x1b, .shl),
    (0x1c, .shr), (0x1d, .sar), (0x30, .address), (0x40, .blockHeight), (0x41, .timestamp),
    (0x33, .caller), (0x80, .dup1), (0xa0, .log0), (0xa1, .log1), (0xa2, .log2),
    (0xa3, .log3), (0xa4, .log4), (0x51, .mLoad), (0x52, .mStore), (0x54, .sLoad),
    (0x55, .sStore), (0x56, .jump), (0x57, .jumpI), (0xf1, .call), (0xf3, .return),
    (0xf5, .create2), (0x31, .balance), (0x34, .callValue), (0x47, .selfBalance),
    (0xf2, .nativeTransfer)]

def Opcode.fromByte (byte : UInt8) : Option Opcode := opcodeTable.lookup byte

namespace Gas

def STOP : ℕ := 0
def ADD : ℕ := 3
def SUB : ℕ := 3
def MUL : ℕ := 5
def DIV : ℕ := 5
def MOD : ℕ := 5
def ADDMOD : ℕ := 8
def MULMOD : ℕ := 8
def CMP : ℕ := 3
def ISZERO : ℕ := 3
def BITWISE : ℕ := 3
def SHIFT : ℕ := 3
def MLOAD : ℕ := 3
def MSTORE : ℕ := 3
def SLOAD : ℕ := 100
def SSTORE : ℕ := 20000
def PUSH : ℕ := 3
def JUMP : ℕ := 8
def JUMPI : ℕ := 10
def RETURN : ℕ := 0
def CALL : ℕ := 700
def CREATE2 : ℕ := 32000
def CREATE2_PER_INIT_BYTE : ℕ := 200
def DUP1 : ℕ := 3
def ADDRESS : ℕ := 2
def BLOCKCTX : ℕ := 2
def CALLER : ℕ := 2
def LOG_BASE : ℕ := 100
def LOG_PER_TOPIC : ℕ := 375
def LOG_PER_DATA_BYTE : ℕ := 8
def CALLVALUE : ℕ := 2
def SELFBALANCE : ℕ := 5
def BALANCE : ℕ := 100
def NATIVE_TRANSFER : ℕ := 7000
def BLAKE3 : ℕ := 30
def BLAKE3_PER_WORD : ℕ := 6

end Gas

def MAX_CALL_DEPTH : ℕ := 64
def MEMORY_GAS_PER_WORD : ℕ := 3
def MEMORY_GAS_QUAD_DIVISOR : ℕ := 512
def BLAKE3_MAX_INPUT_BYTES : ℕ := 4096

/-- Total memory gas of a frame of so many 32-byte words. -/
def memoryGasCost (words : ℕ) : ℕ :=
  saturatingAdd 64 (saturatingMul 64 MEMORY_GAS_PER_WORD words)
    (saturatingMul 64 words words / MEMORY_GAS_QUAD_DIVISOR)

/-- Bytes to 32-byte words, rounded up. -/
def wordCount (size : ℕ) : ℕ := (size + 31) / 32

/-- The low eight bytes of a word. -/
def Word.size (word : Word) : ℕ := word.toNat % 2 ^ 64

/-- The shift count of a word is its low byte. -/
def Word.shift (word : Word) : ℕ := word.toNat % 2 ^ 8

def Word.ofBool (holds : Bool) : Word := if holds then 1 else 0

/-- The interpreter of one frame. The top of the stack comes first. -/
structure Frame where
  code : Bytes
  pc : ℕ := 0
  stack : List Word := []
  memory : Bytes := []
  gasUsed : ℕ := 0
  gasLimit : ℕ
  returnData : Option Bytes := none
  logs : List ExecutionLog := []
  callerId : AccountId := 0
  contractId : AccountId := 0
  callValue : ℕ := 0
deriving DecidableEq

variable {amount : ℕ} {Value : Type}

namespace Frame

def remaining (frame : Frame) : ℕ := frame.gasLimit - frame.gasUsed

/-- Below the largest limit, the counter of the gas is never cut. -/
def IsBounded (frame : Frame) : Prop := frame.gasLimit < 2 ^ 64 - 1

def IsPaid (frame : Frame) : Prop := frame.gasUsed ≤ frame.gasLimit

/-- The position is kept, and no gas is given back. -/
structure Stays (before after : Frame) : Prop where
  limit : after.gasLimit = before.gasLimit
  code : after.code = before.code
  pc : after.pc = before.pc
  less : before.IsBounded → after.remaining ≤ before.remaining

/-- The position is kept, and gas is only spent within the limit. -/
structure Spends (before after : Frame) : Prop extends before.Stays after where
  paid : before.IsPaid → after.IsPaid

/-- Some gas was spent within the limit. -/
structure Burns (before after : Frame) : Prop where
  limit : after.gasLimit = before.gasLimit
  code : after.code = before.code
  less : before.IsBounded → after.remaining < before.remaining
  paid : after.IsPaid

def Pays (before after : Frame) : Prop :=
  after.gasLimit = before.gasLimit ∧ (before.IsPaid → after.IsPaid)

variable {start middle finish frame : Frame}

theorem Spends.pays (spends : start.Spends finish) : start.Pays finish :=
  ⟨spends.limit, spends.paid⟩

theorem Burns.pays (burns : start.Burns finish) : start.Pays finish :=
  ⟨burns.limit, fun _ => burns.paid⟩

theorem Pays.trans (first : start.Pays middle) (second : middle.Pays finish) : start.Pays finish :=
  ⟨second.1.trans first.1, fun paid => second.2 (first.2 paid)⟩

theorem IsBounded.of_eq (bounded : start.IsBounded) (same : finish.gasLimit = start.gasLimit) :
    finish.IsBounded := by
  rw [IsBounded, same]
  exact bounded

theorem Stays.trans (first : start.Stays middle) (second : middle.Stays finish) :
    start.Stays finish where
  limit := second.limit.trans first.limit
  code := second.code.trans first.code
  pc := second.pc.trans first.pc
  less bounded := (second.less (bounded.of_eq first.limit)).trans (first.less bounded)

theorem Spends.trans (first : start.Spends middle) (second : middle.Spends finish) :
    start.Spends finish where
  toStays := first.toStays.trans second.toStays
  paid before := second.paid (first.paid before)

theorem Spends.burns (first : start.Spends middle) (second : middle.Burns finish) :
    start.Burns finish where
  limit := second.limit.trans first.limit
  code := second.code.trans first.code
  less bounded := (second.less (bounded.of_eq first.limit)).trans_le (first.less bounded)
  paid := second.paid

theorem Burns.spends (first : start.Burns middle) (second : middle.Spends finish) :
    start.Burns finish where
  limit := second.limit.trans first.limit
  code := second.code.trans first.code
  less bounded := (second.less (bounded.of_eq first.limit)).trans_lt (first.less bounded)
  paid := second.paid first.paid

/-- The frame after some gas was counted. -/
def spent (frame : Frame) (amount : ℕ) : Frame :=
  { frame with gasUsed := saturatingAdd 64 frame.gasUsed amount }

theorem spends_spent (paid : (frame.spent amount).IsPaid) : frame.Spends (frame.spent amount) where
  limit := rfl
  code := rfl
  pc := rfl
  less bounded := by
    simp only [spent, IsBounded, remaining, saturatingAdd, maxValue] at *
    omega
  paid _ := paid

theorem burns_spent (positive : 0 < amount) (paid : (frame.spent amount).IsPaid) :
    frame.Burns (frame.spent amount) where
  limit := rfl
  code := rfl
  less bounded := by
    simp only [spent, IsBounded, IsPaid, remaining, saturatingAdd,
      maxValue] at *
    omega
  paid := paid

end Frame

/-! ## Metered computations -/

def frameConduct : Conduct Frame where
  always _ _ := True
  refl _ := trivial
  trans _ _ := trivial
  same _ := Eq

def metered : Effect Frame where
  rel := Frame.Spends
  refl _ := ⟨⟨rfl, rfl, rfl, fun _ => le_rfl⟩, id⟩
  trans := Frame.Spends.trans

abbrev Metered (Value : Type) : Type := Within frameConduct metered VmError Value

theorem respects_eq {Error State : Type} (computation : EStateM Error State Value) :
    computation.Respects Eq := by
  rintro left _ rfl
  cases computation left with
  | ok => exact ⟨rfl, rfl⟩
  | error => exact ⟨rfl, rfl⟩

/-- The frame is changed in its data only. -/
def Frame.SameMeter (before after : Frame) : Prop :=
  after.gasLimit = before.gasLimit ∧ after.gasUsed = before.gasUsed ∧ after.code = before.code ∧
    after.pc = before.pc

theorem Frame.SameMeter.spends {before after : Frame} (same : before.SameMeter after) :
    before.Spends after := by
  obtain ⟨limit, used, code, pc⟩ := same
  refine ⟨⟨limit, code, pc, fun _ => ?_⟩, fun paid => ?_⟩
  · rw [Frame.remaining, limit, used, Frame.remaining]
  · rw [Frame.IsPaid, limit, used]
    exact paid

namespace Metered

/-- A computation that touches neither the gas nor the position. -/
def free (run : EStateM VmError Frame Value)
    (keeps : ∀ before, run.Ends before (fun _ => True) fun _ after => before.SameMeter after) :
    Metered Value where
  run := run
  ensures before := (keeps before).imp fun _ _ same => ⟨trivial, same.spends⟩
  respects _ := respects_eq run

def frame : Metered Frame := free get fun _ => ⟨rfl, rfl, rfl, rfl⟩

def fail (error : VmError) : Metered Value := Within.fail error

def pop : Metered Word :=
  free (do
      let frame ← get
      match frame.stack with
      | [] => throw .stackUnderflow
      | word :: stack => do
        set { frame with stack }
        return word)
    fun before => by
      rw [EStateM.ends_bind, EStateM.ends_get]
      cases before.stack with
      | nil => trivial
      | cons => exact ⟨rfl, rfl, rfl, rfl⟩

def push (word : Word) : Metered PUnit :=
  free (modify fun frame => { frame with stack := word :: frame.stack })
    fun _ => ⟨rfl, rfl, rfl, rfl⟩

/-- Overwrites a range of the memory. -/
def writeMemory (offset : ℕ) (bytes : Bytes) : Metered PUnit :=
  free (modify fun frame => { frame with
      memory := frame.memory.take offset ++ bytes ++ frame.memory.drop (offset + bytes.length) })
    fun _ => ⟨rfl, rfl, rfl, rfl⟩

def setReturnData (bytes : Bytes) : Metered PUnit :=
  free (modify fun frame => { frame with returnData := some bytes })
    fun _ => ⟨rfl, rfl, rfl, rfl⟩

def setLogs (logs : List ExecutionLog) : Metered PUnit :=
  free (modify fun frame => { frame with logs }) fun _ => ⟨rfl, rfl, rfl, rfl⟩

end Metered

/-- The gas is counted even if it exceeds the limit. -/
def spendGasRun (amount : ℕ) : EStateM VmError Frame PUnit := do
  modify fun frame => { frame with gasUsed := saturatingAdd 64 frame.gasUsed amount }
  let frame ← get
  if frame.gasUsed > frame.gasLimit then throw .outOfGas

theorem spendGasRun_eq {frame : Frame} (paid : (frame.spent amount).IsPaid) :
    spendGasRun amount frame = .ok ⟨⟩ (frame.spent amount) := by
  have within : ¬(frame.spent amount).gasUsed > (frame.spent amount).gasLimit := Nat.not_lt.mpr paid
  change (if (frame.spent amount).gasUsed > (frame.spent amount).gasLimit then throw .outOfGas
    else pure ⟨⟩ : EStateM VmError Frame PUnit) (frame.spent amount) = _
  rw [if_neg within]
  rfl

theorem spendGasRun_ends (amount : ℕ) (before : Frame) :
    (spendGasRun amount).Ends before (fun _ => True) fun _ after =>
      after = before.spent amount ∧ (before.spent amount).IsPaid := by
  simp only [spendGasRun, EStateM.ends_bind, EStateM.ends_modify, EStateM.ends_get]
  split
  next => trivial
  next within => exact ⟨rfl, Nat.not_lt.mp within⟩

namespace Metered

def spendGas (amount : ℕ) : Metered PUnit where
  run := spendGasRun amount
  ensures before := (spendGasRun_ends amount before).imp
    fun _ _ ⟨isSpent, paid⟩ => ⟨trivial, isSpent ▸ Frame.spends_spent paid⟩
  respects _ := respects_eq _

/-- Grows the memory up to the end of a range, also of an empty one. -/
def ensureMemory (context : VmExecutionContext) (offset size : ℕ) : Metered PUnit := do
  match checkedAdd 64 offset size with
  | none => fail .memoryLimitExceeded
  | some finish =>
    let before ← frame
    if finish > before.memory.length then
      if finish > MAX_VM_MEMORY_BYTES then fail .memoryLimitExceeded
      else
        if context.vmHardening then
          spendGas (memoryGasCost (wordCount finish) -
            memoryGasCost (wordCount before.memory.length))
        free (modify fun frame => { frame with
            memory := frame.memory ++ List.replicate (finish - frame.memory.length) 0 })
          fun _ => ⟨rfl, rfl, rfl, rfl⟩

/-- A range of the memory, which grows up to its end. -/
def readMemory (context : VmExecutionContext) (offset size : ℕ) : Metered Bytes := do
  ensureMemory context offset size
  return ((← frame).memory.drop offset).take size

end Metered

/-! ## Instructions -/

/-- What an instruction needs from the state. -/
inductive HostRequest where
  | sload (key : Word)
  | sstore (key value : Word)
  | balance (account : AccountId)
  | nativeTransfer (target : AccountId) (amount : ℕ)
  | call (target : AccountId) (calldata : Bytes) (retOffset retSize : ℕ)
  | create2 (salt : Word) (bytecode : Bytes)
deriving DecidableEq

inductive Progress where
  | next
  | halt
  | ask (request : HostRequest)
deriving DecidableEq

/-- Gas is paid; unless the frame halts some is lost, and the position moves as given. -/
abbrev Turn (moves : Frame → Frame → Prop) : Type :=
  Command frameConduct VmError Progress fun progress before after =>
    before.Pays after ∧ (progress ≠ .halt → before.Burns after ∧ moves before after)

/-- Where an opcode jumps to, if it jumps with this stack. -/
def Opcode.target : Opcode → List Word → Option ℕ
  | .jump, dest :: _ => some dest.size
  | .jumpI, dest :: condition :: _ => if condition = 0 then none else some dest.size
  | _, _ => none

/-- The frame is at the target of a jump in the code, or else at the next instruction. -/
def Frame.Moves (after : Frame) (strict : Bool) (target : Option ℕ) (linear : ℕ) : Prop :=
  match target with
  | none => after.pc = linear
  | some dest => after.pc = dest ∧ dest < after.code.length ∨ strict = false ∧ after.pc = linear

/-- A turn that leaves the position alone. -/
abbrev Instruction : Type := Turn fun before after => after.pc = before.pc

variable (context : VmExecutionContext) (before : Frame) (size : ℕ)

namespace Instruction

open Metered

def burnGas (amount : ℕ) (positive : 0 < amount) :
    Command frameConduct VmError PUnit fun _ before after =>
      before.Burns after ∧ after.pc = before.pc where
  run := spendGasRun amount
  ensures before := (spendGasRun_ends amount before).imp
    fun _ after ⟨isSpent, paid⟩ => by
      subst isSpent
      exact ⟨trivial, Frame.burns_spent positive paid, rfl⟩
  respects _ := respects_eq _

def burn (amount : ℕ) (positive : 0 < amount) (rest : Metered Progress) : Instruction :=
  (burnGas amount positive).andThen (fun _ => rest) fun burned spent =>
    ⟨(burned.1.spends spent).pays, fun _ =>
      ⟨burned.1.spends spent, (Frame.Spends.toStays spent).pc.trans burned.2⟩⟩

/-- An instruction that starts with checks and operands. -/
def prepare {Value : Type} (first : Metered Value) (next : Value → Instruction) : Instruction :=
  first.andThen next fun spent turned =>
    ⟨(Frame.Spends.pays spent).trans turned.1, fun continues =>
      ⟨Frame.Spends.burns spent (turned.2 continues).1,
        (turned.2 continues).2.trans (Frame.Spends.toStays spent).pc⟩⟩

def halting (last : Metered PUnit) : Instruction where
  run := do
    last.run
    return .halt
  ensures before := by
    rw [EStateM.ends_bind]
    apply (last.ensures before).imp
    intro _ _ spent
    exact ⟨trivial, Frame.Spends.pays spent.2, fun continues => absurd rfl continues⟩
  respects _ := respects_eq _

def fail (error : VmError) : Instruction where
  run := throw error
  ensures _ := trivial
  respects _ := respects_eq _

/-- Pops two operands and pushes the result; the right operand is on top. -/
def binary (operation : Word → Word → Word) : Metered Progress := do
  let right ← pop
  let left ← pop
  push (operation left right)
  return .next

def divide (operation : Word → Word → Word) : Metered Progress := do
  let right ← pop
  let left ← pop
  if right = 0 then Metered.fail .divisionByZero
  else
    push (operation left right)
    return .next

/-- A sum or product of full width, reduced; the modulus is on top. -/
def modular (operation : ℕ → ℕ → ℕ) : Metered Progress := do
  let modulus ← pop
  let right ← pop
  let left ← pop
  push (if modulus = 0 then 0
    else BitVec.ofNat 256 (operation left.toNat right.toNat % modulus.toNat))
  return .next

def unary (operation : Word → Word) : Metered Progress := do
  push (operation (← pop))
  return .next

/-- Pushes a word of the context. -/
def environment (word : Frame → Word) : Metered Progress := do
  push (word (← frame))
  return .next

def shiftBy (operation : Word → ℕ → Word) : Metered Progress := do
  let count ← pop
  let value ← pop
  push (operation value count.shift)
  return .next

def popMany : ℕ → Metered (List Word)
  | 0 => pure []
  | count + 1 => do
    let word ← pop
    return word :: (← popMany count)

def logGas (topics : List Word) (data : Bytes) : ℕ :=
  saturatingAdd 64
    (saturatingAdd 64 Gas.LOG_BASE
      (saturatingMul 64 Gas.LOG_PER_TOPIC topics.length))
    (saturatingMul 64 Gas.LOG_PER_DATA_BYTE data.length)

theorem logGas_pos (topics : List Word) (data : Bytes) : 0 < logGas topics data := by
  simp only [logGas, saturatingAdd, saturatingMul, maxValue,
    Gas.LOG_BASE]
  omega

def appendLog (topics : List Word) (data : Bytes) : Instruction :=
  prepare frame fun before =>
    if topics.length > MAX_EXECUTION_LOG_TOPICS then fail (.invalidLog "too many topics")
    else if data.length > MAX_EXECUTION_LOG_DATA_BYTES then
      fail (.invalidLog "log data too large")
    else if before.logs.length ≥ MAX_EXECUTION_LOGS_PER_TX then
      fail (.invalidLog "too many logs")
    else burn (logGas topics data) (logGas_pos topics data) do
      setLogs (before.logs ++ [⟨topics, data⟩])
      return .next

/-- The first topic is the deepest operand. -/
def logWithTopics (context : VmExecutionContext) (count : ℕ) : Instruction :=
  prepare (do
      let offset := (← pop).size
      let size := (← pop).size
      let topics ← popMany count
      let data ← readMemory context offset size
      return (topics.reverse, data))
    fun (topics, data) => appendLog topics data

def gated (active : Bool) (instruction : Instruction) : Instruction :=
  if active then instruction else fail .invalidBytecode

def jumpRun : EStateM VmError Frame Progress := do
  spendGasRun Gas.JUMP
  let dest := (← pop.run).size
  if dest ≥ (← get).code.length then throw .invalidJump
  else
    modify fun frame => { frame with pc := dest }
    return .next

/-- A taken jump out of the code falls through unless jumps are strict. -/
def jumpIRun (context : VmExecutionContext) : EStateM VmError Frame Progress := do
  spendGasRun Gas.JUMPI
  let dest := (← pop.run).size
  let condition ← pop.run
  if condition = 0 then return .next
  else if dest < (← get).code.length then
    modify fun frame => { frame with pc := dest }
    return .next
  else if context.jumpStrict then throw .invalidJump
  else return .next

def jumping (strict : Bool) (opcode : Opcode) (run : EStateM VmError Frame Progress)
    (moves : ∀ before, run.Ends before (fun _ => True) fun _ after =>
      before.Burns after ∧ after.Moves strict (opcode.target before.stack) before.pc) :
    Turn fun before after => after.Moves strict (opcode.target before.stack) before.pc where
  run := run
  ensures before := (moves before).imp
    fun _ _ both => ⟨trivial, both.1.pays, fun _ => both⟩
  respects _ := respects_eq run

theorem pop_ends :
    pop.run.Ends before (fun _ => True) fun word after => ∃ rest, before.stack = word :: rest ∧
      after = { before with stack := rest } := by
  simp only [pop, free, EStateM.ends_bind, EStateM.ends_get]
  split
  next => trivial
  next word rest isStack => exact ⟨rest, isStack, rfl⟩

theorem jumpRun_ends (strict : Bool) (before : Frame) :
    jumpRun.Ends before (fun _ => True) fun _ after =>
      before.Burns after ∧ after.Moves strict (Opcode.jump.target before.stack) before.pc := by
  simp only [jumpRun, EStateM.ends_bind, EStateM.ends_get]
  apply (spendGasRun_ends _ before).imp
  rintro _ _ ⟨rfl, paid⟩
  apply (pop_ends _).imp
  rintro word _ ⟨rest, isStack, rfl⟩
  split
  next => trivial
  next inside =>
    have isStack : before.stack = word :: rest := isStack
    rw [isStack]
    have burns := Frame.burns_spent (by decide) paid
    exact ⟨⟨burns.limit, burns.code, burns.less, burns.paid⟩, .inl ⟨rfl, Nat.not_le.mp inside⟩⟩

theorem jumpIRun_ends :
    (jumpIRun context).Ends before (fun _ => True) fun _ after => before.Burns after ∧
      after.Moves context.jumpStrict (Opcode.jumpI.target before.stack) before.pc := by
  simp only [jumpIRun, EStateM.ends_bind]
  apply (spendGasRun_ends _ before).imp
  rintro _ _ ⟨rfl, paid⟩
  apply (pop_ends _).imp
  rintro word _ ⟨below, isStack, rfl⟩
  apply (pop_ends _).imp
  rintro condition _ ⟨rest, isBelow, rfl⟩
  have isStack : before.stack = word :: below := isStack
  have isBelow : below = condition :: rest := isBelow
  have burns := Frame.burns_spent (by decide) paid
  rw [isStack, isBelow]
  split
  next untaken =>
    refine ⟨⟨burns.limit, burns.code, burns.less, burns.paid⟩, ?_⟩
    rw [Opcode.target, if_pos untaken]
    rfl
  next taken =>
    rw [Opcode.target, if_neg taken]
    simp only [EStateM.ends_bind, EStateM.ends_get]
    split
    next inside =>
      exact ⟨⟨burns.limit, burns.code, burns.less, burns.paid⟩, .inl ⟨rfl, inside⟩⟩
    next =>
      split
      next => trivial
      next loose =>
        exact ⟨⟨burns.limit, burns.code, burns.less, burns.paid⟩,
          .inr ⟨Bool.eq_false_iff.mpr loose, rfl⟩⟩

def callOperands (context : VmExecutionContext) : Metered Progress := do
  let retSize := (← pop).size
  let retOffset := (← pop).size
  let argsSize := (← pop).size
  let argsOffset := (← pop).size
  let target ← pop
  if argsSize > MAX_RECEIPT_RETURN_DATA_BYTES ∨ retSize > MAX_RECEIPT_RETURN_DATA_BYTES then
    Metered.fail .callBufferTooLarge
  else
    ensureMemory context argsOffset argsSize
    ensureMemory context retOffset retSize
    let calldata := ((← frame).memory.drop argsOffset).take argsSize
    return .ask (.call target calldata retOffset retSize)

def create2Gas (size : ℕ) : ℕ :=
  saturatingAdd 64 Gas.CREATE2
    (saturatingMul 64 Gas.CREATE2_PER_INIT_BYTE size)

theorem create2Gas_pos : 0 < create2Gas size := by
  simp only [create2Gas, saturatingAdd, maxValue, Gas.CREATE2]
  omega

def create2Operands (context : VmExecutionContext) (registry : RuleRegistry) : Instruction :=
  prepare (do
      let salt ← pop
      let size := (← pop).size
      let offset := (← pop).size
      return (salt, size, offset))
    fun (salt, size, offset) =>
      if size = 0 then fail .create2InitCodeEmpty
      else if size > (if context.qaCanonical then registry.maxBytecodeSize
          else DEFAULT_MAX_BYTECODE_SIZE) then fail .callBufferTooLarge
      else burn (create2Gas size) (create2Gas_pos size) do
        let bytecode ← readMemory context offset size
        return .ask (.create2 salt bytecode)

/-- The recipient is on top of the amount. -/
def transferOperands (context : VmExecutionContext) : Metered Progress := do
  let target ← pop
  let amount ← pop
  if amount.toNat ≥ 2 ^ 128 then
    Metered.fail (if context.jumpStrict then .nativeAmountExceedsU128 else .insufficientBalance)
  else return .ask (.nativeTransfer target amount.toNat)

section Execute

variable [Crypto] (context : VmExecutionContext) (registry : RuleRegistry) (depth : ℕ)

def hashMemory : Metered Progress := do
  let offset := (← pop).size
  let size := (← pop).size
  if size > BLAKE3_MAX_INPUT_BYTES then Metered.fail .invalidBytecode
  else
    spendGas (saturatingMul 64 Gas.BLAKE3_PER_WORD (wordCount size))
    push (Crypto.blake3 (← readMemory context offset size))
    return .next

def execute : (opcode : Opcode) → Turn fun before after =>
    after.Moves context.jumpStrict (opcode.target before.stack) before.pc
  | .stop => halting (spendGas Gas.STOP)
  | .add => burn Gas.ADD (by decide) (binary (· + ·))
  | .sub => burn Gas.SUB (by decide) (binary (· - ·))
  | .mul => burn Gas.MUL (by decide) (binary (· * ·))
  | .div => burn Gas.DIV (by decide) (divide (· / ·))
  | .mod => burn Gas.MOD (by decide) (divide (· % ·))
  | .addMod => burn Gas.ADDMOD (by decide) (modular (· + ·))
  | .mulMod => burn Gas.MULMOD (by decide) (modular (· * ·))
  | .lt => burn Gas.CMP (by decide) (binary fun left right => Word.ofBool (left < right))
  | .gt => burn Gas.CMP (by decide) (binary fun left right => Word.ofBool (left > right))
  | .eq => burn Gas.CMP (by decide) (binary fun left right => Word.ofBool (left == right))
  | .isZero => burn Gas.ISZERO (by decide) (unary fun word => Word.ofBool (word == 0))
  | .and => burn Gas.BITWISE (by decide) (binary (· &&& ·))
  | .or => burn Gas.BITWISE (by decide) (binary (· ||| ·))
  | .xor => burn Gas.BITWISE (by decide) (binary (· ^^^ ·))
  | .not => burn Gas.BITWISE (by decide) (unary fun word => ~~~word)
  | .shl => burn Gas.SHIFT (by decide) (shiftBy fun value count => value <<< count)
  | .shr => burn Gas.SHIFT (by decide) (shiftBy fun value count => value >>> count)
  | .sar => burn Gas.SHIFT (by decide) (shiftBy fun value count => value.sshiftRight count)
  | .mLoad => burn Gas.MLOAD (by decide) do
      let offset := (← pop).size
      push (wordOfBytes (← readMemory context offset 32))
      return .next
  | .mStore => burn Gas.MSTORE (by decide) do
      let offset := (← pop).size
      let value ← pop
      ensureMemory context offset 32
      writeMemory offset (bytes32 value)
      return .next
  | .dup1 => burn Gas.DUP1 (by decide) do
      match (← frame).stack with
      | [] => Metered.fail .stackUnderflow
      | word :: _ => do
        push word
        return .next
  | .address => burn Gas.ADDRESS (by decide) (environment Frame.contractId)
  | .blockHeight => burn Gas.BLOCKCTX (by decide)
      (environment fun _ => BitVec.ofNat 256 context.blockHeight)
  | .timestamp => burn Gas.BLOCKCTX (by decide)
      (environment fun _ => BitVec.ofNat 256 context.blockTimestamp)
  | .caller => burn Gas.CALLER (by decide) (environment Frame.callerId)
  | .log0 => logWithTopics context 0
  | .log1 => logWithTopics context 1
  | .log2 => logWithTopics context 2
  | .log3 => logWithTopics context 3
  | .log4 => logWithTopics context 4
  | .sLoad => burn Gas.SLOAD (by decide) do
      return .ask (.sload (← pop))
  | .sStore => burn Gas.SSTORE (by decide) do
      let key ← pop
      let value ← pop
      return .ask (.sstore key value)
  | .jump => jumping _ .jump jumpRun (jumpRun_ends _)
  | .jumpI => jumping _ .jumpI (jumpIRun context) (jumpIRun_ends context)
  | .call =>
    if depth ≥ MAX_CALL_DEPTH then fail .callDepthExceeded
    else burn Gas.CALL (by decide) (callOperands context)
  | .create2 =>
    if depth + 1 ≥ MAX_CALL_DEPTH then fail .callDepthExceeded
    else create2Operands context registry
  | .return => halting do
      spendGas Gas.RETURN
      let offset := (← pop).size
      let size := (← pop).size
      setReturnData (← readMemory context offset size)
  | .blake3 => gated context.blake3Opcode (burn Gas.BLAKE3 (by decide) (hashMemory context))
  | .callValue => gated context.nativeValue (burn Gas.CALLVALUE (by decide)
      (environment fun frame => BitVec.ofNat 256 frame.callValue))
  | .selfBalance => gated context.nativeValue (burn Gas.SELFBALANCE (by decide) do
      return .ask (.balance (← frame).contractId))
  | .balance => gated context.nativeValue (burn Gas.BALANCE (by decide) do
      return .ask (.balance (← pop)))
  | .nativeTransfer => gated context.nativeValue
      (burn Gas.NATIVE_TRANSFER (by decide) (transferOperands context))

def pushImmediate (size : ℕ) : EStateM VmError Frame Progress := do
  spendGasRun Gas.PUSH
  let before ← get
  if before.pc + size > before.code.length then throw .invalidBytecode
  else
    let word := wordOfBytes ((before.code.drop before.pc).take size)
    set { before with stack := word :: before.stack, pc := before.pc + size }
    return .next

def fetch : EStateM VmError Frame UInt8 := do
  let before ← get
  if context.vmHardening ∧ before.stack.length > MAX_STACK_DEPTH then throw .stackOverflow
  else
    set { before with pc := before.pc + 1 }
    return before.code.getD before.pc 0

/-- What the instruction of a byte does. -/
def dispatch (byte : UInt8) : EStateM VmError Frame Progress :=
  match pushImmediateSize byte with
  | some size => pushImmediate size
  | none => match Opcode.fromByte byte with
    | none => throw .invalidBytecode
    | some opcode => (execute context registry depth opcode).run

/-- One turn of the interpreter loop, without its law. -/
def stepRun : EStateM VmError Frame Progress := do
  dispatch context registry depth (← fetch context)

end Execute

end Instruction

namespace Frame

/-- The byte that is fetched next. -/
def byte (frame : Frame) : UInt8 := frame.code.getD frame.pc 0

/-- The position after the instruction in the linear order of the code. -/
def nextPc (frame : Frame) : ℕ := frame.pc + 1 + (pushImmediateSize frame.byte).getD 0

/-- Where the instruction at the position jumps to, if it jumps. -/
def jumpTarget (frame : Frame) : Option ℕ :=
  match pushImmediateSize frame.byte with
  | some _ => none
  | none => (Opcode.fromByte frame.byte).bind (·.target frame.stack)

end Frame

namespace Instruction

variable {frame : Frame}

section Step

theorem fetch_eq {context : VmExecutionContext} (shallow : frame.stack.length ≤ MAX_STACK_DEPTH) :
    fetch context frame = .ok frame.byte { frame with pc := frame.pc + 1 } := by
  have notDeep : ¬(context.vmHardening ∧ frame.stack.length > MAX_STACK_DEPTH) :=
    fun deep => absurd shallow (Nat.not_le.mpr deep.2)
  change (if context.vmHardening ∧ frame.stack.length > MAX_STACK_DEPTH then throw .stackOverflow
    else do
      set { frame with pc := frame.pc + 1 }
      return frame.byte : EStateM VmError Frame UInt8) frame = _
  rw [if_neg notDeep]
  rfl

theorem pushImmediate_eq {size : ℕ} (paid : (frame.spent Gas.PUSH).IsPaid)
    (inside : frame.pc + size ≤ frame.code.length) :
    pushImmediate size frame = .ok .next { frame.spent Gas.PUSH with
      stack := wordOfBytes ((frame.code.drop frame.pc).take size) :: frame.stack
      pc := frame.pc + size } := by
  simp only [pushImmediate, bind, EStateM.bind, spendGasRun_eq paid]
  change (if frame.pc + size > frame.code.length then _ else _ :
    EStateM VmError Frame Progress) _ = _
  rw [if_neg (Nat.not_lt.mpr inside)]
  rfl

theorem jumpRun_eq {dest : Word} {rest : List Word} (paid : (frame.spent Gas.JUMP).IsPaid)
    (isStack : frame.stack = dest :: rest) (inside : dest.size < frame.code.length) :
    jumpRun frame = .ok .next { frame.spent Gas.JUMP with stack := rest, pc := dest.size } := by
  obtain ⟨code, pc, stack, memory, gasUsed, gasLimit, returnData, logs, callerId, contractId,
    callValue⟩ := frame
  subst isStack
  simp only [jumpRun, bind, EStateM.bind, spendGasRun_eq paid]
  change (if dest.size ≥ code.length then _ else _ : EStateM VmError Frame Progress) _ = _
  rw [if_neg (Nat.not_le.mpr inside)]
  rfl

theorem fetch_ends : (fetch context).Ends before (fun _ => True) fun byte after =>
      after = { before with pc := before.pc + 1 } ∧ byte = before.byte := by
  simp only [fetch, EStateM.ends_bind, EStateM.ends_get]
  split
  next => trivial
  next => exact ⟨rfl, rfl⟩

theorem pushImmediate_ends (before : Frame) :
    (pushImmediate size).Ends before (fun _ => True) fun _ after =>
      before.Burns after ∧ after.pc = before.pc + size := by
  simp only [pushImmediate, EStateM.ends_bind, EStateM.ends_get]
  apply (spendGasRun_ends _ before).imp
  rintro _ _ ⟨rfl, paid⟩
  have burns := Frame.burns_spent (by decide) paid
  split
  next => trivial
  next => exact ⟨⟨burns.limit, burns.code, burns.less, burns.paid⟩, rfl⟩

variable [Crypto] (context : VmExecutionContext) (registry : RuleRegistry) (depth : ℕ)

theorem stepRun_ends (before : Frame) :
    (stepRun context registry depth).Ends before (fun _ => True) fun progress after =>
      before.Pays after ∧ (progress ≠ .halt → before.Burns after ∧
        after.Moves context.jumpStrict before.jumpTarget before.nextPc) := by
  rw [stepRun, EStateM.ends_bind]
  apply (fetch_ends context before).imp
  rintro _ _ ⟨rfl, rfl⟩
  unfold dispatch
  cases width : pushImmediateSize before.byte with
  | some size =>
    apply (pushImmediate_ends size _).imp
    intro _ after ⟨burns, moved⟩
    refine ⟨burns.pays, fun _ => ⟨⟨burns.limit, burns.code, burns.less, burns.paid⟩, ?_⟩⟩
    rw [Frame.jumpTarget, width, Frame.nextPc, width]
    exact moved
  | none =>
    cases decoded : Opcode.fromByte before.byte with
    | none => trivial
    | some opcode =>
      apply ((execute context registry depth opcode).ensures _).imp
      intro _ after ⟨_, pays, law⟩
      refine ⟨pays, fun continues => ?_⟩
      obtain ⟨burns, moved⟩ := law continues
      refine ⟨⟨burns.limit, burns.code, burns.less, burns.paid⟩, ?_⟩
      rw [Frame.jumpTarget, width, Frame.nextPc, width, decoded]
      exact moved

theorem stepRun_eq (shallow : frame.stack.length ≤ MAX_STACK_DEPTH) :
    stepRun context registry depth frame =
      dispatch context registry depth frame.byte { frame with pc := frame.pc + 1 } := by
  simp only [stepRun, bind, EStateM.bind, fetch_eq shallow]

/-- One turn of the interpreter loop. -/
def step : Turn fun before after =>
    after.Moves context.jumpStrict before.jumpTarget before.nextPc where
  run := stepRun context registry depth
  ensures before := (stepRun_ends context registry depth before).imp
    fun _ _ law => ⟨trivial, law⟩
  respects _ := respects_eq _

end Step

end Instruction

end BoingNetwork
