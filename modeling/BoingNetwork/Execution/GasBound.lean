import BoingNetwork.Execution.Contracts

/-!
# Gas bounds

Every run of the interpreter ends and pays within its gas limit, and the calls of a batch
share one budget.  The gas counter saturates, so at the largest limit nothing stops a loop.
-/

namespace BoingNetwork

open Instruction

variable {frame : Frame} {calldata : Bytes} {index budget : ℕ}

section Batches

variable [Platform] {sender contract : AccountId} {progress : BatchProgress} {env : CallEnv}

/-! ## Gas of batches -/

/-- What the calls have spent and what they may still spend. -/
def BatchProgress.allowance (progress : BatchProgress) : ℕ :=
  progress.contractGas + progress.budget

theorem batchCall_gasUsed_le :
    (batchCall env sender budget contract calldata).Returns fun frame => frame.gasUsed ≤ budget :=
  .andThen fun _ => runNested_gasUsed_le

theorem batchCallWithValue_gasUsed_le {value : ℕ} :
    (batchCallWithValue env sender budget contract calldata value).Returns fun frame =>
      frame.gasUsed ≤ budget := by
  unfold batchCallWithValue
  split
  · exact .andThen fun _ => .andThen fun _ => runNested_gasUsed_le
  · exact .fail

omit [Platform] in
theorem BatchProgress.allowance_afterTransfer (progress : BatchProgress) :
    progress.afterTransfer.allowance = progress.allowance := by
  simp only [allowance, afterTransfer]

omit [Platform] in
theorem BatchProgress.allowance_afterCall (within : frame.gasUsed ≤ progress.budget) :
    (progress.afterCall frame).allowance = progress.allowance := by
  simp only [allowance, afterCall]
  omega

theorem batchStep_allowance {call : BatchCall} :
    (batchStep env sender index progress call).Returns fun next =>
      next.allowance = progress.allowance := by
  cases call with
  | transfer recipient amount =>
    exact .andThen fun _ => .pure progress.allowance_afterTransfer
  | contractCall contract calldata =>
    exact batchCall_gasUsed_le.mapError.bind fun frame within =>
      .pure (BatchProgress.allowance_afterCall within)
  | contractCallWithValue contract calldata value =>
    exact batchCallWithValue_gasUsed_le.mapError.bind fun frame within =>
      .pure (BatchProgress.allowance_afterCall within)

theorem runBatch_allowance {calls : List BatchCall} :
    (runBatch env sender index progress calls).Returns fun final =>
      final.allowance = progress.allowance := by
  induction calls generalizing index progress with
  | nil => exact .pure rfl
  | cons call calls ih =>
    refine batchStep_allowance.bind fun next same store => ?_
    exact (ih store).imp fun _ _ rest => rest.trans same

/-- Below the largest gas limit the interpreter ends, whatever the fuel, within its limit, and
the calls of a batch together spend at most the budget of the batch. -/
theorem interpreter_ends_within_limit (env : CallEnv) (code calldata : Bytes)
    (callerId contractId : AccountId) (callValue gasLimit : ℕ) (bounded : gasLimit < 2 ^ 64 - 1) :
    (∀ exhausted fuel, gasLimit < fuel →
      runNestedUntil exhausted fuel env code gasLimit callerId contractId calldata callValue =
        runNested env code gasLimit callerId contractId calldata callValue) ∧
      (runNested env code gasLimit callerId contractId calldata callValue).Returns
        (fun frame => frame.gasUsed ≤ gasLimit) ∧
      ∀ (batchSender : AccountId) (calls : List BatchCall),
        (runBatch env batchSender 0 {} calls).Returns fun final =>
          final.contractGas ≤ GAS_BATCH_CONTRACT_BUDGET := by
  refine ⟨fun exhausted fuel enough => runNestedUntil_eq bounded enough, runNested_gasUsed_le, ?_⟩
  intro batchSender calls store
  have allowed : (runBatch env batchSender 0 {} calls).Returns fun final =>
      final.allowance = GAS_BATCH_CONTRACT_BUDGET := runBatch_allowance
  apply (allowed store).imp
  intro final _ same
  exact (Nat.le_add_right _ _).trans_eq same

end Batches

/-! ## The largest limit -/

section LargestLimit

/-- A push of zero and a jump to it. -/
def loopCode : Bytes := [0x60, 0x00, 0x56]

structure Frame.Loops (frame : Frame) : Prop where
  code : frame.code = loopCode
  limit : frame.gasLimit = 2 ^ 64 - 1
  place : frame.pc = 0 ∧ frame.stack = [] ∨ frame.pc = 2 ∧ frame.stack = [0]

theorem Frame.Loops.paid (loops : frame.Loops) (amount : ℕ) : (frame.spent amount).IsPaid := by
  simp only [Frame.IsPaid, Frame.spent, loops.limit, MachineInt.saturatingAdd, MachineInt.maxValue]
  exact Nat.min_le_right _ _

theorem Frame.Loops.step [Crypto] (loops : frame.Loops) (context : VmExecutionContext)
    (registry : RuleRegistry) (depth : ℕ) :
    ∃ next, stepRun context registry depth frame = .ok .next next ∧ next.Loops := by
  have paid := loops.paid
  obtain ⟨isCode, limit, place⟩ := loops
  obtain ⟨code, pc, stack, memory, gasUsed, gasLimit, returnData, logs, callerId, contractId,
    callValue⟩ := frame
  subst isCode limit
  rcases place with ⟨rfl, rfl⟩ | ⟨rfl, rfl⟩
  · rw [stepRun_eq context registry depth (Nat.zero_le _)]
    have pushed : wordOfBytes [0x00] = 0 := by decide
    exact ⟨_, pushImmediate_eq (paid _) (Nat.le_of_ble_eq_true rfl), rfl, rfl,
      .inr ⟨rfl, congrArg (· :: []) pushed⟩⟩
  · rw [stepRun_eq context registry depth (Nat.le_of_ble_eq_true rfl)]
    have inside : Word.size 0 < loopCode.length := by decide
    exact ⟨_, jumpRun_eq (paid _) rfl inside, rfl, rfl, .inl ⟨rfl, rfl⟩⟩

theorem Frame.Loops.exhausts [Platform] (loops : frame.Loops) (exhausted : VmFault)
    (env : CallEnv) (fuel depth : ℕ) :
    runLoopUntil exhausted env fuel depth frame = Within.fail exhausted := by
  induction fuel generalizing frame with
  | zero => rfl
  | succ fuel ih =>
    have inside : ¬frame.pc ≥ frame.code.length := by
      rw [loops.code]
      rcases loops.place with ⟨pc, -⟩ | ⟨pc, -⟩ <;> rw [pc] <;> decide
    obtain ⟨next, ran, nextLoops⟩ := loops.step env.context env.registry depth
    have turned : (Instruction.step env.context env.registry depth).run frame = .ok .next next :=
      ran
    rw [runLoopUntil, if_neg inside, turned]
    exact ih nextLoops

open Checksum

def loopFrame : Frame :=
  { code := loopCode, gasLimit := 2 ^ 64 - 1, callerId := 1, contractId := 2 }

def loopEnv : CallEnv := ⟨{ blockHeight := 1, blockTimestamp := 0 }, {}⟩

/-- At the largest limit a loop is never stopped: no fuel is enough. -/
theorem interpreter_loops_at_largest_limit :
    ¬∃ fuel, runNestedUntil .panic fuel loopEnv loopCode (2 ^ 64 - 1) 1 2 [] =
      runNestedUntil (.error .outOfGas) fuel loopEnv loopCode (2 ^ 64 - 1) 1 2 [] := by
  rintro ⟨fuel, same⟩
  have loops : loopFrame.Loops := ⟨rfl, rfl, .inl ⟨rfl, rfl⟩⟩
  have runs : ∀ exhausted, runNestedUntil exhausted fuel loopEnv loopCode (2 ^ 64 - 1) 1 2 [] =
      Within.fail exhausted := fun exhausted => loops.exhausts exhausted loopEnv fuel 0
  rw [runs, runs] at same
  have differ := congrFun (congrArg Command.run same) {}
  cases differ

/-- A program that pushes one word returns, having paid for the push. -/
theorem interpreter_ends_within_limit_push :
    let run := runNested loopEnv [0x60, 0x07] 1000 1 2 []
    (∃ frame, run.run {} = .ok frame {} ∧ frame.gasUsed = Gas.PUSH) ∧
      run.Returns fun frame => frame.gasUsed ≤ 1000 :=
  ⟨⟨_, rfl, rfl⟩,
    (interpreter_ends_within_limit loopEnv [0x60, 0x07] [] 1 2 0 1000 (by decide)).2.1⟩

end LargestLimit

end BoingNetwork
