import BoingNetwork.Execution.Bytecode

/-!
# Operands that are narrowed to machine words

Jump targets, memory offsets and sizes are taken from the low eight bytes of their word, and
only then checked.  Words that agree in these bytes are therefore the same operand, under
every rule: an instruction that accepts its operands also accepts words beyond 64 bits.
-/

namespace BoingNetwork

/-- Which operands of an opcode are narrowed, from the top of the stack. -/
def Opcode.narrows : Opcode → List Bool
  | .jump | .jumpI | .mLoad | .mStore => [true]
  | .return | .blake3 | .log0 | .log1 | .log2 | .log3 | .log4 => [true, true]
  | .call => [true, true, true, true]
  | .create2 => [false, true, true]
  | _ => []

variable {narrows : List Bool}

namespace Operands

/-- Stacks that differ in the high bytes of narrowed operands only. -/
def Alike : List Bool → List Word → List Word → Prop
  | narrowed :: narrows, word :: stack, other :: rest =>
    (if narrowed then word.size = other.size else word = other) ∧ Alike narrows stack rest
  | _ :: _, [], [] => True
  | [], stack, rest => stack = rest
  | _, _, _ => False

/-- Every narrowed operand is a machine word. -/
def Representable : List Bool → List Word → Prop
  | narrowed :: narrows, word :: stack =>
    (narrowed = true → word.toNat < 2 ^ 64) ∧ Representable narrows stack
  | _, _ => True

def Untouched : List Bool → List Word → Prop
  | narrowed :: narrows, _ :: stack => narrowed = false ∧ Untouched narrows stack
  | _, _ => True

section Stacks

variable {stack rest : List Word}

theorem Alike.eq_of_representable (alike : Alike narrows stack rest)
    (isWords : Representable narrows stack) (areWords : Representable narrows rest) :
    stack = rest := by
  induction narrows generalizing stack rest with
  | nil => exact alike
  | cons narrowed narrows ih =>
    rcases stack with _ | ⟨word, stack⟩ <;> rcases rest with _ | ⟨other, rest⟩
    · rfl
    · exact alike.elim
    · exact alike.elim
    · have sameWord : word = other := by
        cases narrowed with
        | false => exact alike.1
        | true =>
          apply BitVec.eq_of_toNat_eq
          have small := isWords.1 rfl
          have otherSmall := areWords.1 rfl
          rw [← Nat.mod_eq_of_lt small, ← Nat.mod_eq_of_lt otherSmall]
          exact alike.1
      rw [sameWord, ih alike.2 isWords.2 areWords.2]

theorem Alike.untouched (alike : Alike narrows stack rest) (untouched : Untouched narrows rest) :
    Representable narrows stack ∧ Representable narrows rest := by
  induction narrows generalizing stack rest with
  | nil => exact ⟨trivial, trivial⟩
  | cons narrowed narrows ih =>
    rcases stack with _ | ⟨word, stack⟩ <;> rcases rest with _ | ⟨other, rest⟩
    · exact ⟨trivial, trivial⟩
    · exact alike.elim
    · exact alike.elim
    · obtain ⟨rfl, untouched⟩ := untouched
      obtain ⟨isWords, areWords⟩ := ih alike.2 untouched
      exact ⟨⟨fun narrowed => absurd narrowed Bool.false_ne_true, isWords⟩,
        ⟨fun narrowed => absurd narrowed Bool.false_ne_true, areWords⟩⟩

theorem Alike.refl (narrows : List Bool) (stack : List Word) : Alike narrows stack stack := by
  induction narrows generalizing stack with
  | nil => exact rfl
  | cons narrowed narrows ih =>
    rcases stack with _ | ⟨word, stack⟩
    · trivial
    · exact ⟨by split <;> rfl, ih stack⟩

/-- A narrowed operand has the low bytes of a word beyond 64 bits. -/
theorem exists_alike_of_not_untouched (touched : ¬Untouched narrows stack) :
    ∃ other, Alike narrows other stack ∧ ¬Representable narrows other := by
  induction narrows generalizing stack with
  | nil => exact absurd trivial touched
  | cons narrowed narrows ih =>
    rcases stack with _ | ⟨word, stack⟩
    · exact absurd trivial touched
    · cases narrowed with
      | true =>
        have isNumber : (BitVec.ofNat 256 (word.size + 2 ^ 64)).toNat = word.size + 2 ^ 64 := by
          rw [BitVec.toNat_ofNat, Nat.mod_eq_of_lt]
          unfold Word.size
          omega
        refine ⟨BitVec.ofNat 256 (word.size + 2 ^ 64) :: stack, ⟨?_, .refl narrows stack⟩, ?_⟩
        · change BitVec.toNat _ % 2 ^ 64 = word.size
          rw [isNumber, Nat.add_mod_right]
          exact Nat.mod_mod _ _
        · intro isWords
          have small := isWords.1 rfl
          omega
      | false =>
        obtain ⟨other, alike, wide⟩ := ih fun untouched =>
          touched ⟨rfl, untouched⟩
        exact ⟨word :: other, ⟨rfl, alike⟩, fun isWords => wide isWords.2⟩

end Stacks

/-! ## Computations -/

def outcome {Value : Type} (computation : EStateM VmError Frame Value) (frame : Frame) :
    Except VmError (Value × Frame) :=
  match computation frame with
  | .ok value after => .ok (value, after)
  | .error error _ => .error error

/-- Alike stacks are not told apart. -/
def Indistinct {Value : Type} (narrows : List Bool) (computation : EStateM VmError Frame Value) :
    Prop :=
  ∀ (frame : Frame) (stack rest : List Word), Alike narrows stack rest →
    outcome computation { frame with stack } = outcome computation { frame with stack := rest }

namespace Indistinct

open Instruction Metered

variable {Value Next : Type} {next : Word → EStateM VmError Frame Value}

theorem of_nil (computation : EStateM VmError Frame Value) : Indistinct [] computation := by
  intro frame stack rest alike
  rw [show stack = rest from alike]

theorem fail (error : VmError) : Indistinct narrows (throw error : EStateM VmError Frame Value) :=
  fun _ _ _ _ => rfl

theorem spend {amount : ℕ} {next : PUnit → EStateM VmError Frame Value}
    (indistinct : Indistinct narrows (next ⟨⟩)) :
    Indistinct narrows (spendGasRun amount >>= next) := by
  intro frame stack rest alike
  have run : ∀ stack, (spendGasRun amount >>= next) { frame with stack } =
      (if (frame.spent amount).gasUsed > (frame.spent amount).gasLimit then throw .outOfGas
        else next ⟨⟩ : EStateM VmError Frame Value) { frame.spent amount with stack } := by
    intro stack
    change ((if (frame.spent amount).gasUsed > (frame.spent amount).gasLimit then throw .outOfGas
      else pure ⟨⟩ : EStateM VmError Frame PUnit) >>= next) { frame.spent amount with stack } = _
    split <;> rfl
  by_cases exceeded : (frame.spent amount).gasUsed > (frame.spent amount).gasLimit
  · rw [outcome, outcome, run, run, if_pos exceeded]
    rfl
  · rw [outcome, outcome, run, run, if_neg exceeded]
    exact indistinct (frame.spent amount) stack rest alike

theorem pop_run_cons (frame : Frame) (word : Word) (stack : List Word)
    (next : Word → EStateM VmError Frame Value) :
    (pop.run >>= next) { frame with stack := word :: stack } = next word { frame with stack } :=
  rfl

/-- What follows depends on the low bytes of a narrowed operand only. -/
theorem popOperand {narrowed : Bool}
    (narrow : ∀ word other : Word, (if narrowed then word.size = other.size else word = other) →
      next word = next other)
    (indistinct : ∀ word, Indistinct narrows (next word)) :
    Indistinct (narrowed :: narrows) (pop.run >>= next) := by
  intro frame stack rest alike
  rcases stack with _ | ⟨word, stack⟩ <;> rcases rest with _ | ⟨other, rest⟩
  · rfl
  · exact alike.elim
  · exact alike.elim
  · have popped := indistinct word frame stack rest alike.2
    unfold outcome at popped ⊢
    rw [pop_run_cons, pop_run_cons, popped, narrow word other alike.1]

theorem choose {condition : Prop} [Decidable condition]
    {done : Value → Frame → Frame → Prop} {first second : Command frameConduct VmError Value done}
    (chosen : Indistinct narrows first.run) (otherwise : Indistinct narrows second.run) :
    Indistinct narrows (if condition then first else second).run := by
  split
  · exact chosen
  · exact otherwise

theorem assoc {Middle : Type} {first : EStateM VmError Frame Middle}
    {second : Middle → EStateM VmError Frame Next} {third : Next → EStateM VmError Frame Value}
    (indistinct : Indistinct narrows (first >>= fun value => second value >>= third)) :
    Indistinct narrows (first >>= second >>= third) := by
  rw [bind_assoc]
  exact indistinct

end Indistinct

section Execute

open Instruction

variable [Crypto] (context : VmExecutionContext) (registry : RuleRegistry) (depth : ℕ)

omit [Crypto] in
theorem indistinct_logWithTopics (count : ℕ) :
    Indistinct [true, true] (logWithTopics context count).run := by
  refine .assoc (.popOperand ?_ fun _ => .assoc (.popOperand ?_ fun _ => .of_nil _))
  all_goals exact fun _ _ (same : _ = _) => by simp only [same]

theorem indistinct_execute (opcode : Opcode) :
    Indistinct opcode.narrows (execute context registry depth opcode).run := by
  cases opcode
  case jump | jumpI | mLoad | mStore =>
    refine .spend (.popOperand ?_ fun _ => .of_nil _)
    exact fun _ _ (same : _ = _) => by simp only [same]
  case log0 | log1 | log2 | log3 | log4 => exact indistinct_logWithTopics context _
  case «return» =>
    refine .assoc (.spend (.assoc (.popOperand ?_ fun _ => .assoc (.popOperand ?_ fun _ =>
      .of_nil _))))
    all_goals exact fun _ _ (same : _ = _) => by simp only [same]
  case blake3 =>
    refine .choose (.spend (.popOperand ?_ fun _ => .popOperand ?_ fun _ => .of_nil _)) (.fail _)
    all_goals exact fun _ _ (same : _ = _) => by simp only [same]
  case call =>
    refine .choose (.fail _) (.spend (.popOperand ?_ fun _ => .popOperand ?_ fun _ =>
      .popOperand ?_ fun _ => .popOperand ?_ fun _ => .of_nil _))
    all_goals exact fun _ _ (same : _ = _) => by simp only [same]
  case create2 =>
    refine .choose (.fail _) (.assoc (.popOperand ?_ fun _ => .assoc (.popOperand ?_ fun _ =>
      .assoc (.popOperand ?_ fun _ => .of_nil _))))
    all_goals exact fun _ _ (same : _ = _) => by simp only [same]
  all_goals exact .of_nil _

/-! ## Exactness -/

/-- The instruction is executed without a fault. -/
def Accepts (opcode : Opcode) (frame : Frame) : Prop :=
  (outcome (execute context registry depth opcode).run frame).isOk = true

/-- The instruction takes no operand of the frame for another one: stacks that are treated as
its stack are accepted only with machine words as operands, and only if they are the same. -/
structure ExactOperands (opcode : Opcode) (frame : Frame) : Prop where
  representable : ∀ stack, Alike opcode.narrows stack frame.stack →
    Accepts context registry depth opcode { frame with stack } →
    Representable opcode.narrows stack
  distinct : ∀ stack, Alike opcode.narrows stack frame.stack →
    Accepts context registry depth opcode { frame with stack } →
    Accepts context registry depth opcode frame → stack = frame.stack

/-- Operands are exact only where the instruction faults or has none that is narrowed. -/
theorem exactOperands_iff (opcode : Opcode) (frame : Frame) :
    ExactOperands context registry depth opcode frame ↔
      ¬Accepts context registry depth opcode frame ∨ Untouched opcode.narrows frame.stack := by
  have same : ∀ stack, Alike opcode.narrows stack frame.stack →
      (Accepts context registry depth opcode { frame with stack } ↔
        Accepts context registry depth opcode frame) := by
    intro stack alike
    unfold Accepts
    rw [indistinct_execute context registry depth opcode frame stack frame.stack alike]
  constructor
  · intro exact
    by_contra neither
    obtain ⟨accepted, touched⟩ := not_or.mp neither
    obtain ⟨other, alike, wide⟩ := exists_alike_of_not_untouched touched
    exact wide (exact.representable other alike ((same other alike).mpr (not_not.mp accepted)))
  · rintro (faults | untouched)
    · exact ⟨fun stack alike accepted => absurd ((same stack alike).mp accepted) faults,
        fun stack alike accepted => absurd ((same stack alike).mp accepted) faults⟩
    · refine ⟨fun stack alike _ => (alike.untouched untouched).1, fun stack alike _ _ => ?_⟩
      obtain ⟨isWords, areWords⟩ := alike.untouched untouched
      exact alike.eq_of_representable isWords areWords

end Execute

section Wrapped

open Checksum

/-- Under the strict rules, a jump to 2^64 is a jump to the start of the code. -/
theorem jump_target_wraps :
    let context : VmExecutionContext := ⟨1, 0, true, true, true, true, true⟩
    let frame : Frame :=
      { code := [0x56], pc := 1, stack := [BitVec.ofNat 256 (2 ^ 64)], gasLimit := 100 }
    outcome (Instruction.execute context {} 0 .jump).run frame =
        .ok (.next, { frame with pc := 0, stack := [], gasUsed := 8 }) ∧
      ¬ExactOperands context {} 0 .jump frame := by
  intro context frame
  have ran : outcome (Instruction.execute context {} 0 .jump).run frame =
      .ok (.next, { frame with pc := 0, stack := [], gasUsed := 8 }) := by decide
  refine ⟨ran, fun exact => ?_⟩
  have accepted : Accepts context {} 0 .jump frame := by
    rfl
  exact absurd ((exact.representable _ (.refl _ _) accepted).1 rfl) (by decide)

end Wrapped

end Operands

end BoingNetwork
