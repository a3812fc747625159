import BoingNetwork.Execution.Interpreter
import Mathlib.Logic.Relation

/-!
# Instruction boundaries

The quality scan decodes a deployed program from its start, instruction by instruction.
The interpreter leaves this linear order only by jumps, and it checks the target of a jump
against the end of the code only.  So it stays on the decoded instructions exactly as long
as the jumps that are taken lead to one.
-/

namespace BoingNetwork

/-- The positions at which the linear decoding of the code finds an instruction, or its end. -/
inductive IsBoundary (code : Bytes) : ℕ → Prop where
  | start : IsBoundary code 0
  | next {pc : ℕ} (before : IsBoundary code pc) (inside : pc < code.length) :
      IsBoundary code (pc + 1 + (pushImmediateSize (code.getD pc 0)).getD 0)

/-! ## The quality scan -/

theorem checkWellFormedFrom_skip (nativeValue blake3 : Bool) {skip pc : ℕ} {rest : Bytes}
    (fits : skip ≤ rest.length) : checkWellFormedFrom nativeValue blake3 pc skip rest =
      checkWellFormedFrom nativeValue blake3 (pc + skip) 0 (rest.drop skip) := by
  induction skip generalizing pc rest with
  | zero => rfl
  | succ skip ih =>
    cases rest with
    | nil => exact absurd fits (Nat.not_succ_le_zero _)
    | cons byte rest =>
      rw [checkWellFormedFrom, ih (Nat.le_of_succ_le_succ fits),
        List.drop_succ_cons, Nat.add_right_comm, Nat.add_assoc]

section

variable {nativeValue blake3 : Bool} {code : Bytes} {pc : ℕ}
  (passes : checkWellFormed code nativeValue blake3 = .ok ()) (boundary : IsBoundary code pc)

include passes boundary

/-- From an instruction on, the scan of the rest of the code succeeds. -/
theorem checkWellFormedFrom_of_boundary :
    checkWellFormedFrom nativeValue blake3 pc 0 (code.drop pc) = .ok () := by
  induction boundary with
  | start => exact passes
  | @next pc _ inside ih =>
    rw [List.drop_eq_getElem_cons inside, checkWellFormedFrom] at ih
    rw [show code.getD pc 0 = code[pc] from (List.getElem_eq_getD 0).symm]
    split at ih
    next => cases ih
    next =>
      cases width : pushImmediateSize code[pc] with
      | none =>
        rw [width] at ih
        exact ih
      | some size =>
        rw [width] at ih
        dsimp only at ih
        split at ih
        next => cases ih
        next fits =>
          rw [checkWellFormedFrom_skip _ _ (Nat.not_lt.mp fits), List.drop_drop] at ih
          exact ih

/-- The scan has checked the opcode of every instruction. -/
theorem isValidOpcodeWith_of_boundary (inside : pc < code.length) :
    isValidOpcodeWith (code.getD pc 0) nativeValue blake3 = true := by
  have scanned := checkWellFormedFrom_of_boundary passes boundary
  rw [List.drop_eq_getElem_cons inside, checkWellFormedFrom] at scanned
  rw [show code.getD pc 0 = code[pc] from (List.getElem_eq_getD 0).symm]
  split at scanned
  next => cases scanned
  next valid => simpa using valid

end

section Deploy

variable [Platform]

/-- A deploy that quality assurance does not reject holds a well-formed program. -/
theorem checkWellFormed_of_passes {bytecode : Bytes} {purpose : Option String}
    {description : Option Bytes} {assetName assetSymbol : Option String} {registry : RuleRegistry}
    (passes : ∀ reason, checkContractDeployFullWithMetadata bytecode purpose description assetName
      assetSymbol registry ≠ .reject reason) :
    checkWellFormed (contractDeployInitBody bytecode) registry.nativeValueOpcodes
      registry.blake3Opcodes = .ok () := by
  have accepted : checkContractDeployWithBlocklist bytecode purpose registry.maxBytecodeSize
      registry.blocklist registry.nativeValueOpcodes registry.blake3Opcodes = none := by
    by_contra rejected
    obtain ⟨reason, isReason⟩ := Option.ne_none_iff_exists'.mp rejected
    unfold checkContractDeployFullWithMetadata at passes
    rw [isReason] at passes
    split at passes
    next => exact passes _ rfl
    next none_ => simp at none_
  unfold checkContractDeployWithBlocklist at accepted
  split at accepted
  next => cases accepted
  split at accepted
  next => cases accepted
  split at accepted
  next => cases accepted
  split at accepted
  next => cases accepted
  next wellFormed => exact wellFormed

end Deploy

/-! ## Runs of a frame -/

section Run

variable [Platform] {env : CallEnv} {depth : ℕ}

/-- One turn of the loop that does not end it, with the state that it works on. -/
inductive LoopStep (env : CallEnv) (depth : ℕ) :
    Frame × StateStore → Frame × StateStore → Prop where
  | next {frame after : Frame} {store : StateStore} (inside : frame.pc < frame.code.length)
      (ran : (Instruction.step env.context env.registry depth).run frame = .ok .next after) :
      LoopStep env depth (frame, store) (after, store)
  | ask {frame asked after : Frame} {store served : StateStore} {request : HostRequest}
      {exhausted : VmFault} {fuel : ℕ} {resume : Resuming PUnit}
      (inside : frame.pc < frame.code.length)
      (ran : (Instruction.step env.context env.registry depth).run frame = .ok (.ask request) asked)
      (isServed : (serve env (fun depth child => runLoopUntil exhausted env fuel depth child) depth
        asked request).run store = .ok resume served)
      (resumed : resume.run asked = .ok ⟨⟩ after) :
      LoopStep env depth (frame, store) (after, served)

/-- The turns of a frame: at each of them the interpreter fetches an instruction. -/
def Visits (env : CallEnv) (depth : ℕ) : Frame × StateStore → Frame × StateStore → Prop :=
  Relation.ReflTransGen (LoopStep env depth)

/-- The frame of a turn, and where the interpreter goes from there. -/
theorem LoopStep.moves {before after : Frame × StateStore}
    (step : LoopStep env depth before after) :
    before.1.pc < before.1.code.length ∧ after.1.code = before.1.code ∧
      after.1.Moves env.context.jumpStrict before.1.jumpTarget before.1.nextPc := by
  cases step with
  | next inside ran =>
    obtain ⟨burns, moves⟩ := (Command.done_of_run _ ran).2 nofun
    exact ⟨inside, burns.code, moves⟩
  | @ask _ asked after _ _ _ _ _ _ inside ran _ resumed =>
    obtain ⟨burns, moves⟩ := (Command.done_of_run _ ran).2 nofun
    have stays : asked.Stays after := Command.done_of_run _ resumed
    refine ⟨inside, stays.code.trans burns.code, ?_⟩
    simp only [Frame.Moves, stays.pc, stays.code] at moves ⊢
    exact moves

/-- As long as the jumps that are taken lead to instructions, so do all turns. -/
theorem Visits.aligned {start final : Frame × StateStore} (visits : Visits env depth start final)
    (strict : env.context.jumpStrict = true) (atStart : start.1.pc = 0)
    (jumpsAligned : ∀ before after, Visits env depth start before →
      LoopStep env depth before after → ∀ dest, before.1.jumpTarget = some dest →
        IsBoundary start.1.code dest) :
    final.1.code = start.1.code ∧ IsBoundary start.1.code final.1.pc := by
  induction visits with
  | refl =>
    rw [atStart]
    exact ⟨rfl, .start⟩
  | @tail before after visits step ih =>
    obtain ⟨sameCode, boundary⟩ := ih
    obtain ⟨inside, keepsCode, moves⟩ := step.moves
    refine ⟨keepsCode.trans sameCode, ?_⟩
    cases target : before.1.jumpTarget with
    | none =>
      simp only [Frame.Moves, target, Frame.nextPc, Frame.byte, sameCode] at moves inside
      rw [moves]
      exact boundary.next inside
    | some dest =>
      simp only [Frame.Moves, target, strict, Bool.true_eq_false, false_and, or_false] at moves
      rw [moves.1]
      exact jumpsAligned before after visits step dest target

/-- Every fetch in a run of accepted code is at an instruction of the linear decoding, with an
opcode that the scan has checked, if and only if every jump that is taken leads to one. -/
theorem fetches_aligned_iff {bytecode : Bytes} {purpose : Option String}
    {description : Option Bytes} {assetName assetSymbol : Option String} {registry : RuleRegistry}
    (passes : ∀ reason, checkContractDeployFullWithMetadata bytecode purpose description assetName
      assetSymbol registry ≠ .reject reason)
    (strict : env.context.jumpStrict = true) {gasLimit callValue : ℕ}
    {callerId contractId : AccountId} {calldata : Bytes} {start : Frame}
    (called : callFrame env.context (contractDeployInitBody bytecode) gasLimit callerId contractId
      calldata callValue = .ok start) (store : StateStore) :
    (∀ final, Visits env depth (start, store) final → final.1.pc < final.1.code.length →
      IsBoundary (contractDeployInitBody bytecode) final.1.pc ∧
        isValidOpcodeWith final.1.byte registry.nativeValueOpcodes registry.blake3Opcodes = true) ↔
    ∀ before after, Visits env depth (start, store) before → LoopStep env depth before after →
      ∀ dest, before.1.jumpTarget = some dest →
        IsBoundary (contractDeployInitBody bytecode) dest := by
  have fresh := callFrame_spends called
  have startCode : start.code = contractDeployInitBody bytecode := fresh.code
  constructor
  · intro aligned before after visits step dest target
    obtain ⟨-, -, moves⟩ := step.moves
    simp only [Frame.Moves, target, strict, Bool.true_eq_false, false_and, or_false] at moves
    obtain ⟨landed, inside⟩ := moves
    rw [← landed] at inside ⊢
    exact (aligned after (visits.tail step) inside).1
  · intro jumpsAligned final visits inside
    rw [← startCode] at jumpsAligned ⊢
    obtain ⟨sameCode, boundary⟩ := visits.aligned strict fresh.pc jumpsAligned
    refine ⟨boundary, ?_⟩
    rw [Frame.byte, sameCode]
    rw [sameCode] at inside
    rw [startCode] at boundary inside ⊢
    exact isValidOpcodeWith_of_boundary (checkWellFormed_of_passes passes) boundary inside

end Run

/-! ## A jump into an immediate -/

section IntoImmediate

open Checksum

/-- A jump to the immediate of the push that follows it. -/
def hiddenCode : Bytes := [0x60, 0x04, 0x56, 0x60, 0x00]

def hiddenEnv : CallEnv := ⟨{ blockHeight := 1, blockTimestamp := 0, jumpStrict := true }, {}⟩

/-- The frame after the push, and the one after the jump. -/
def pushedFrame : Frame :=
  { code := hiddenCode, pc := 2, stack := [4], gasUsed := Gas.PUSH, gasLimit := 1000, callerId := 1,
    contractId := 2 }

def hiddenFrame : Frame :=
  { code := hiddenCode, pc := 4, gasUsed := Gas.PUSH + Gas.JUMP, gasLimit := 1000, callerId := 1,
    contractId := 2 }

def hiddenStart : Frame :=
  { code := hiddenCode, gasLimit := 1000, callerId := 1, contractId := 2 }

theorem hiddenCode_boundary {pc : ℕ} (boundary : IsBoundary hiddenCode pc) : pc ∈ [0, 2, 3, 5] := by
  induction boundary with
  | start => decide
  | @next pc _ inside ih =>
    simp only [List.mem_cons, List.not_mem_nil, or_false] at ih
    rcases ih with rfl | rfl | rfl | rfl
    · decide
    · decide
    · decide
    · exact absurd inside (by decide)

theorem hiddenStart_called :
    callFrame hiddenEnv.context (contractDeployInitBody hiddenCode) 1000 1 2 [] 0 =
      .ok hiddenStart := by
  decide +kernel

theorem hiddenStart_pushes : LoopStep hiddenEnv 0 (hiddenStart, {}) (pushedFrame, {}) :=
  .next (by decide) rfl

theorem pushedFrame_jumps : LoopStep hiddenEnv 0 (pushedFrame, {}) (hiddenFrame, {}) :=
  .next (by decide) rfl

theorem hiddenCode_passes :
    checkContractDeployFullWithMetadata hiddenCode (some "dapp") none none none {} = .allow := by
  decide +kernel

/-- Code that is accepted may fetch inside the immediate of a push. -/
theorem fetch_inside_immediate :
    checkContractDeployFullWithMetadata hiddenCode (some "dapp") none none none {} = .allow ∧
      callFrame hiddenEnv.context (contractDeployInitBody hiddenCode) 1000 1 2 [] 0 =
        .ok hiddenStart ∧
      Visits hiddenEnv 0 (hiddenStart, {}) (hiddenFrame, {}) ∧
      hiddenFrame.pc < hiddenFrame.code.length ∧
      ¬IsBoundary (contractDeployInitBody hiddenCode) hiddenFrame.pc := by
  refine ⟨hiddenCode_passes, hiddenStart_called, ?_, by decide, ?_⟩
  · exact (Relation.ReflTransGen.single hiddenStart_pushes).tail pushedFrame_jumps
  · intro boundary
    exact absurd (hiddenCode_boundary boundary) (by decide)

theorem fetches_aligned_iff_hiddenCode :
    ¬∀ before after, Visits hiddenEnv 0 (hiddenStart, {}) before →
      LoopStep hiddenEnv 0 before after → ∀ dest, before.1.jumpTarget = some dest →
        IsBoundary (contractDeployInitBody hiddenCode) dest := by
  have passes : ∀ reason, checkContractDeployFullWithMetadata hiddenCode (some "dapp") none none
      none {} ≠ .reject reason := by
    intro reason
    nofun
  rw [← fetches_aligned_iff passes rfl hiddenStart_called {}]
  intro aligned
  have visits : Visits hiddenEnv 0 (hiddenStart, {}) (hiddenFrame, {}) :=
    (Relation.ReflTransGen.single hiddenStart_pushes).tail pushedFrame_jumps
  exact absurd (hiddenCode_boundary (aligned _ visits (by decide)).1) (by decide)

end IntoImmediate

end BoingNetwork
