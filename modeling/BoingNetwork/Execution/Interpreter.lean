import BoingNetwork.Execution.Bytecode
import BoingNetwork.Execution.Native

/-!
# The interpreter

The interpreter loop with nested calls and in-contract deploys.  Frames read and write
the state through quiet commands only.  The loop has fuel, and as every instruction spends
gas, more fuel than gas is never used up.  A frame that ends well has paid for everything,
nested frames included.
-/

namespace BoingNetwork

open MachineInt

/-- What all frames of a transaction share. -/
structure CallEnv where
  context : VmExecutionContext
  registry : RuleRegistry

def mergeChildLogs (parent child : List ExecutionLog) : Except VmError (List ExecutionLog) :=
  if parent.length + child.length > MAX_EXECUTION_LOGS_PER_TX then
    .error (.invalidLog "too many logs")
  else
    match child.find? fun log => log.topics.length > MAX_EXECUTION_LOG_TOPICS ||
        log.data.length > MAX_EXECUTION_LOG_DATA_BYTES with
    | none => .ok (parent ++ child)
    | some log =>
      if log.topics.length > MAX_EXECUTION_LOG_TOPICS then .error (.invalidLog "too many topics")
      else .error (.invalidLog "log data too large")

/-! ## Frames of calls -/

/-- What a frame does when a nested frame has ended. -/
def resuming : Effect Frame where
  rel := Frame.Stays
  refl _ := ⟨rfl, rfl, rfl, fun _ => le_rfl⟩
  trans := Frame.Stays.trans

abbrev Resuming (Value : Type) : Type := Within frameConduct resuming VmError Value

theorem Frame.stays_spent (frame : Frame) (amount : ℕ) : frame.Stays (frame.spent amount) := by
  refine ⟨rfl, rfl, rfl, fun bounded => ?_⟩
  simp only [IsBounded, remaining, spent, saturatingAdd, maxValue] at *
  omega

def Resuming.addChildGas (amount : ℕ) : Resuming PUnit where
  run := modify fun frame => frame.spent amount
  ensures before := by
    exact ⟨trivial, before.stays_spent amount⟩
  respects _ := respects_eq _

namespace Metered

def resume {Value : Type} (computation : Metered Value) : Resuming Value :=
  computation.weaken fun _ spends => Frame.Spends.toStays spends

def mergeLogs (child : List ExecutionLog) : Metered PUnit := do
  match mergeChildLogs (← frame).logs child with
  | .ok logs => setLogs logs
  | .error reason => fail reason

def loadCalldata (context : VmExecutionContext) (calldata : Bytes) : Metered PUnit := do
  ensureMemory context 0 calldata.length
  writeMemory 0 calldata

/-- Fills the return buffer of a call, and reports success. -/
def finishCall (returned : Bytes) (retOffset retSize : ℕ) : Metered PUnit := do
  let copied := returned.take retSize
  writeMemory retOffset (copied ++ List.replicate (retSize - copied.length) 0)
  push 1

end Metered

/-- A frame before its first instruction. -/
def callFrame (context : VmExecutionContext) (code : Bytes) (gasLimit : ℕ)
    (callerId contractId : AccountId) (calldata : Bytes) (callValue : ℕ := 0) :
    Except VmError Frame :=
  match (Metered.loadCalldata context calldata).run
      { code, gasLimit, callerId, contractId, callValue } with
  | .ok _ frame => .ok frame
  | .error reason _ => .error reason

variable {context : VmExecutionContext} {frame : Frame}

section

variable {code calldata : Bytes} {gasLimit callValue : ℕ} {callerId contractId : AccountId}
  (called : callFrame context code gasLimit callerId contractId calldata callValue = .ok frame)

include called

theorem callFrame_spends :
    ({ code, gasLimit, callerId, contractId, callValue } : Frame).Spends frame := by
  unfold callFrame at called
  split at called
  next ran =>
    cases called
    exact Command.done_of_run _ ran
  next => cases called

theorem callFrame_gas :
    frame.gasLimit = gasLimit ∧ (frame.IsBounded → frame.remaining ≤ gasLimit) := by
  have spends := callFrame_spends called
  refine ⟨spends.limit, fun bounded => spends.less ?_⟩
  rw [Frame.IsBounded, spends.limit] at bounded
  exact bounded

end

section Loop

variable [Platform]

variable {env : CallEnv} {code calldata : Bytes} {gasLimit depth fuel callValue : ℕ}
  {callerId contractId : AccountId} {exhausted : VmFault}

def qaCheckInitRuntime (runtime : Bytes) (purpose : Option String) (descHash : Option Bytes)
    (assetName assetSymbol : Option String) (registry : RuleRegistry) : Except VmError Unit :=
  if contractDeployUsesInitCode runtime then
    .error (.qaRejected RuleId.malformedBytecode.display
      "runtime bytecode returned by init code must not start with the init-code marker")
  else
    match checkContractDeployFullWithMetadata runtime purpose descHash assetName assetSymbol
        registry with
    | .reject reason =>
      .error (.qaRejected reason.ruleId.display ("init-code runtime: " ++ reason.message))
    | .allow | .unsure => .ok ()

def qaCheckCreate2 (bytecode : Bytes) (registry : RuleRegistry) : Except VmError Unit :=
  match checkContractDeployFull bytecode (some "dapp") none registry with
  | .allow => .ok ()
  | .reject reason => .error reason.toVmError
  | .unsure => .error (.qaRejected SOFT_RULE_FAILED
      "in-tx CREATE2 QA Unsure: deploy via a top-level ContractDeploy for community review")

/-- How a nested frame is run, at its depth. -/
abbrev Nested : Type := ℕ → Frame → Quiet VmFault Frame

def applyInTxCreate2 (env : CallEnv) (nested : Nested) (depth : ℕ) (frame : Frame)
    (salt : Word) (bytecode : Bytes) : Quiet VmFault (Resuming PUnit) := do
  if bytecode = [] then reject .create2InitCodeEmpty
  else
    check (qaCheckCreate2 bytecode env.registry)
    let address := create2ContractAddress frame.contractId salt bytecode
    createAccount address
    if contractDeployUsesInitCode bytecode then
      if depth + 1 ≥ MAX_CALL_DEPTH then reject .callDepthExceeded
      else
        let init ← check (callFrame env.context (contractDeployInitBody bytecode)
          frame.remaining frame.contractId address [])
        let init ← nested (depth + 1) init
        let logs ← check (mergeChildLogs frame.logs init.logs)
        let runtime := init.returnData.getD []
        if env.context.vmHardening then
          check (qaCheckInitRuntime runtime (some "dapp") none none none env.registry)
        Quiet.setContractCode address runtime
        return do
          (Metered.setLogs logs).resume
          Resuming.addChildGas init.gasUsed
          (Metered.push address).resume
    else
      Quiet.setContractCode address bytecode
      return (Metered.push address).resume

def serve (env : CallEnv) (nested : Nested) (depth : ℕ) (frame : Frame) :
    HostRequest → Quiet VmFault (Resuming PUnit)
  | .sload key => do
    let view ← ledgerModel.look
    return (Metered.push (view.contents.contractStorage[(frame.contractId, key)]?.getD 0)).resume
  | .sstore key value => do
    Quiet.mergeContractStorage frame.contractId key value
    return pure ⟨⟩
  | .balance account => do
    let view ← ledgerModel.look
    return (Metered.push (BitVec.ofNat 256 (view.contents.balanceOf account))).resume
  | .nativeTransfer target amount => do
    moveNative frame.contractId target amount
    return pure ⟨⟩
  | .call target calldata retOffset retSize => do
    let code := (← ledgerModel.look).contents.contractCode[target]?.getD []
    if code = [] then return (Metered.finishCall [] retOffset retSize).resume
    else if frame.remaining = 0 then reject .outOfGas
    else
      let child ← check (callFrame env.context code frame.remaining frame.contractId target
        calldata)
      let child ← nested (depth + 1) child
      return do
        Resuming.addChildGas child.gasUsed
        (Metered.mergeLogs child.logs).resume
        (Metered.finishCall (child.returnData.getD []) retOffset retSize).resume
  | .create2 salt bytecode => applyInTxCreate2 env nested depth frame salt bytecode

/-- The interpreter loop: until the frame halts or its code ends, or the fuel is used up. -/
def runLoopUntil (exhausted : VmFault) (env : CallEnv) :
    (fuel depth : ℕ) → Frame → Quiet VmFault Frame
  | 0, _, _ => Within.fail exhausted
  | fuel + 1, depth, frame =>
    if frame.pc ≥ frame.code.length then pure frame
    else match (Instruction.step env.context env.registry depth).run frame with
      | .error reason _ => reject reason
      | .ok .halt frame => pure frame
      | .ok .next frame => runLoopUntil exhausted env fuel depth frame
      | .ok (.ask request) frame => do
        let resume ← serve env (fun depth frame => runLoopUntil exhausted env fuel depth frame)
          depth frame request
        match resume.run frame with
        | .error reason _ => reject reason
        | .ok _ frame => runLoopUntil exhausted env fuel depth frame

/-- Runs a frame of the transaction itself, with an amount of fuel. -/
def runNestedUntil (exhausted : VmFault) (fuel : ℕ) (env : CallEnv) (code : Bytes)
    (gasLimit : ℕ) (callerId contractId : AccountId) (calldata : Bytes) (callValue : ℕ := 0) :
    Quiet VmFault Frame := do
  let frame ← check (callFrame env.context code gasLimit callerId contractId calldata callValue)
  runLoopUntil exhausted env fuel 0 frame

/-- Runs a frame of the transaction itself. -/
def runNested (env : CallEnv) (code : Bytes) (gasLimit : ℕ) (callerId contractId : AccountId)
    (calldata : Bytes) (callValue : ℕ := 0) : Quiet VmFault Frame :=
  runNestedUntil (.error .outOfGas) (gasLimit + 1) env code gasLimit callerId contractId calldata
    callValue

/-! ## Fuel -/

theorem check_bind_congr {Value Next : Type} {result : Except VmError Value}
    {next other : Value → Quiet VmFault Next}
    (same : ∀ value, result = .ok value → next value = other value) :
    (check result >>= next) = check result >>= other := by
  cases result with
  | error => rfl
  | ok value => exact same value rfl

theorem serve_congr {nested other : Nested}
    (agree : ∀ depth (child : Frame), child.IsBounded → child.remaining ≤ frame.remaining →
      nested depth child = other depth child) (bounded : frame.IsBounded) (request : HostRequest) :
    serve env nested depth frame request = serve env other depth frame request := by
  have child : ∀ {code calldata callerId contractId child}, callFrame env.context code
      frame.remaining callerId contractId calldata = .ok child →
        nested (depth + 1) child = other (depth + 1) child := by
    intro _ _ _ _ child called
    obtain ⟨limit, spent⟩ := callFrame_gas called
    have childBounded : child.IsBounded := by
      rw [Frame.IsBounded, limit]
      exact (Nat.sub_le _ _).trans_lt bounded
    exact agree (depth + 1) child childBounded (spent childBounded)
  cases request with
  | call target calldata retOffset retSize =>
    apply bind_congr
    intro view
    dsimp only
    split
    · rfl
    split
    · rfl
    apply check_bind_congr
    intro frame called
    rw [child called]
  | create2 salt bytecode =>
    simp only [serve, applyInTxCreate2]
    split
    · rfl
    apply bind_congr
    intro _
    apply bind_congr
    intro _
    split
    · split
      · rfl
      apply check_bind_congr
      intro frame called
      rw [child called]
    · rfl
  | _ => rfl

theorem runLoopUntil_eq {other : VmFault} (bounded : frame.IsBounded)
    (enough : frame.remaining < fuel) (more : ℕ) :
    runLoopUntil exhausted env (fuel + more) depth frame =
      runLoopUntil other env fuel depth frame := by
  induction fuel generalizing depth frame with
  | zero => exact absurd enough (Nat.not_lt_zero _)
  | succ fuel ih =>
    rw [Nat.add_right_comm, runLoopUntil, runLoopUntil]
    split
    · rfl
    cases ran : (Instruction.step env.context env.registry depth).run frame with
    | error => rfl
    | ok progress next =>
      have law := Command.done_of_run _ ran
      -- After an instruction that does not halt, the fuel still exceeds the gas.
      have continues : progress ≠ .halt → next.IsBounded ∧ next.remaining < fuel := by
        intro goesOn
        have burns := (law.2 goesOn).1
        have decreases := burns.less bounded
        exact ⟨bounded.of_eq burns.limit, by omega⟩
      cases progress with
      | halt => rfl
      | next =>
        obtain ⟨nextBounded, nextEnough⟩ := continues nofun
        exact ih nextBounded nextEnough
      | ask request =>
        obtain ⟨nextBounded, nextEnough⟩ := continues nofun
        dsimp only
        rw [serve_congr (fun _ child childBounded less =>
          ih childBounded (less.trans_lt nextEnough)) nextBounded]
        apply bind_congr
        intro resume
        cases resumed : resume.run next with
        | error => rfl
        | ok _ after =>
          have stays := Command.done_of_run _ resumed
          exact ih (nextBounded.of_eq stays.limit)
            ((stays.less nextBounded).trans_lt nextEnough)

/-- A frame of the transaction ends as it would with any larger fuel. -/
theorem runNestedUntil_eq (bounded : gasLimit < 2 ^ 64 - 1) (enough : gasLimit < fuel) :
    runNestedUntil exhausted fuel env code gasLimit callerId contractId calldata callValue =
      runNested env code gasLimit callerId contractId calldata callValue := by
  apply check_bind_congr
  intro frame called
  obtain ⟨limit, spent⟩ := callFrame_gas called
  have frameBounded : frame.IsBounded := by
    rw [Frame.IsBounded, limit]
    exact bounded
  obtain ⟨more, rfl⟩ := Nat.exists_eq_add_of_le (Nat.succ_le_of_lt enough)
  exact runLoopUntil_eq frameBounded (Nat.lt_succ_of_le (spent frameBounded)) more

/-! ## Gas -/

/-- The frame goes on paid when its request was served. -/
def Resuming.KeepsPaid (resume : Resuming PUnit) (frame : Frame) : Prop :=
  (Command.run resume).Ends frame (fun _ => True) fun _ after => after.IsPaid

omit [Platform] in
theorem Metered.keepsPaid_resume (computation : Metered PUnit) (paid : frame.IsPaid) :
    computation.resume.KeepsPaid frame :=
  (Command.ensures computation frame).imp
    fun _ _ spends => Frame.Spends.paid spends.2 paid

omit [Platform] in
theorem Resuming.KeepsPaid.bind {first second : Resuming PUnit} (kept : first.KeepsPaid frame)
    (next : ∀ after, after.IsPaid → second.KeepsPaid after) :
    Resuming.KeepsPaid (do first; second) frame := by
  change EStateM.Ends (Command.run first >>= fun _ => Command.run second) _ _ _
  rw [EStateM.ends_bind]
  exact kept.imp fun _ after paid => next after paid

omit [Platform] in
theorem Resuming.keepsPaid_addChildGas {child : Frame} (paid : frame.IsPaid)
    (childPaid : child.IsPaid) (limit : child.gasLimit = frame.remaining) :
    (Resuming.addChildGas child.gasUsed).KeepsPaid frame := by
  change (frame.spent child.gasUsed).IsPaid
  simp only [Frame.IsPaid, Frame.remaining, Frame.spent, saturatingAdd] at *
  omega

theorem returns_check {Value : Type} {result : Except VmError Value} :
    (check result : Quiet VmFault Value).Returns fun value => result = .ok value := by
  cases result with
  | error => exact .fail
  | ok value => exact .pure rfl

omit [Platform] in
theorem callFrame_paid
    (called : callFrame context code gasLimit callerId contractId calldata callValue = .ok frame) :
    frame.IsPaid ∧ frame.gasLimit = gasLimit :=
  ⟨(callFrame_spends called).paid (Nat.zero_le _), (callFrame_spends called).limit⟩

theorem serve_keepsPaid {nested : Nested}
    (childPaid : ∀ depth (child : Frame), child.IsPaid → (nested depth child).Returns child.Pays)
    (paid : frame.IsPaid) (request : HostRequest) :
    (serve env nested depth frame request).Returns fun resume => resume.KeepsPaid frame := by
  -- A child frame of the remaining gas, run to its end.
  have child : ∀ {code calldata callerId contractId start},
      callFrame env.context code frame.remaining callerId contractId calldata = .ok start →
        (nested (depth + 1) start).Returns fun last =>
          last.IsPaid ∧ last.gasLimit = frame.remaining := by
    intro _ _ _ _ start called store
    obtain ⟨startPaid, limit⟩ := callFrame_paid called
    exact (childPaid (depth + 1) start startPaid store).imp
      fun _ _ pays => ⟨pays.2 startPaid, pays.1.trans limit⟩
  cases request with
  | sload key =>
    exact .andThen fun _ => .pure (Metered.keepsPaid_resume _ paid)
  | sstore key value =>
    exact .andThen fun _ => .pure paid
  | balance account =>
    exact .andThen fun _ => .pure (Metered.keepsPaid_resume _ paid)
  | nativeTransfer target amount =>
    exact .andThen fun _ => .pure paid
  | call target calldata retOffset retSize =>
    refine .andThen fun view => ?_
    dsimp only
    split
    · exact .pure (Metered.keepsPaid_resume _ paid)
    split
    · exact .fail
    refine returns_check.bind fun start called => (child called).bind fun last ended => .pure ?_
    refine (Resuming.keepsPaid_addChildGas paid ended.1 ended.2).bind fun added addedPaid => ?_
    exact (Metered.keepsPaid_resume _ addedPaid).bind fun merged mergedPaid =>
      Metered.keepsPaid_resume _ mergedPaid
  | create2 salt bytecode =>
    simp only [serve, applyInTxCreate2]
    split
    · exact .fail
    refine .andThen fun _ => .andThen fun _ => ?_
    split
    · split
      · exact .fail
      refine returns_check.bind fun start called => (child called).bind fun last ended => ?_
      refine .andThen fun logs => ?_
      have resumes : Resuming.KeepsPaid (do
          (Metered.setLogs logs).resume
          Resuming.addChildGas last.gasUsed
          (Metered.push (create2ContractAddress frame.contractId salt bytecode)).resume)
            frame := by
        change Resuming.KeepsPaid (do
          Resuming.addChildGas last.gasUsed
          (Metered.push (create2ContractAddress frame.contractId salt bytecode)).resume)
            { frame with logs := logs }
        refine Resuming.KeepsPaid.bind (Resuming.keepsPaid_addChildGas ?_ ended.1 ended.2) ?_
        · exact paid
        · exact fun after afterPaid => Metered.keepsPaid_resume _ afterPaid
      split
      · exact .andThen fun _ => .andThen fun _ => .pure resumes
      · exact .andThen fun _ => .pure resumes
    · exact .andThen fun _ => .pure (Metered.keepsPaid_resume _ paid)

theorem runLoopUntil_pays (paid : frame.IsPaid) :
    (runLoopUntil exhausted env fuel depth frame).Returns frame.Pays := by
  induction fuel generalizing depth frame with
  | zero => exact .fail
  | succ fuel ih =>
    have later : ∀ {next : Frame}, frame.Pays next →
        (runLoopUntil exhausted env fuel depth next).Returns frame.Pays :=
      fun pays store => (ih (pays.2 paid) store).imp
        fun _ _ rest => pays.trans rest
    rw [runLoopUntil]
    split
    · exact .pure ⟨rfl, id⟩
    cases ran : (Instruction.step env.context env.registry depth).run frame with
    | error => exact .fail
    | ok progress next =>
      obtain ⟨pays, _⟩ := Command.done_of_run _ ran
      cases progress with
      | halt => exact .pure pays
      | next => exact later pays
      | ask request =>
        refine (serve_keepsPaid (fun _ _ childPaid => ih childPaid)
          (pays.2 paid) request).bind fun resume kept => ?_
        cases resumed : resume.run next with
        | error => exact .fail
        | ok _ after =>
          have stays := Command.done_of_run _ resumed
          have afterPaid := EStateM.ends_of_ok kept resumed
          exact later (pays.trans ⟨stays.limit, fun _ => afterPaid⟩)

theorem runNested_gasUsed_le :
    (runNested env code gasLimit callerId contractId calldata callValue).Returns fun frame =>
      frame.gasUsed ≤ gasLimit := by
  refine returns_check.bind fun frame called store => ?_
  obtain ⟨paid, limit⟩ := callFrame_paid called
  apply (runLoopUntil_pays paid store).imp
  intro last _ pays
  have within : last.gasUsed ≤ last.gasLimit := pays.2 paid
  rw [pays.1, limit] at within
  exact within

end Loop

end BoingNetwork
