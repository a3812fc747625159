import Mathlib.Logic.Basic

/-!
# Effects of stateful computations

A computation over a state ends with a value or with an error, and in both cases it
leaves a state behind.  `Ends` says where one run of it ends.
-/

universe u

/-- Why a computation stopped: it returned an error, or it panicked. -/
inductive Fault (Error : Type u) where
  | error (reason : Error)
  | panic

namespace EStateM

variable {Error OtherError State Value Next Item : Type u} {computation : EStateM Error State Value}
  {describe : Error → OtherError} {after before : State} {error : Error} {update : State → State}
  {value : Value}

/-- The state that a run leaves behind. -/
def Result.state : Result Error State Value → State
  | .ok _ state => state
  | .error _ state => state

def Result.returned : Result Error State Value → Except Error Value
  | .ok value _ => .ok value
  | .error reason _ => .error reason

def Ends (computation : EStateM Error State Value) (before : State) (failed : State → Prop)
    (done : Value → State → Prop) : Prop :=
  match computation before with
  | .ok value after => done value after
  | .error _ after => failed after

section Ends

variable {failed : State → Prop}

variable {next : Value → EStateM Error State Next} {done : Value → State → Prop} {state : State}

theorem ends_of_ok (ends : computation.Ends before failed done)
    (ran : computation before = .ok value after) : done value after := by
  rw [Ends, ran] at ends
  exact ends

@[simp]
theorem ends_pure :
    (pure value : EStateM Error State Value).Ends before failed done ↔ done value before := Iff.rfl

@[simp]
theorem ends_throw :
    (throw error : EStateM Error State Value).Ends before failed done ↔ failed before := Iff.rfl

@[simp]
theorem ends_get {done : State → State → Prop} :
    (get : EStateM Error State State).Ends before failed done ↔ done before before := Iff.rfl

@[simp]
theorem ends_set {next : State} {done : PUnit → State → Prop} :
    (set next : EStateM Error State PUnit).Ends before failed done ↔ done ⟨⟩ next := Iff.rfl

@[simp]
theorem ends_modify {done : PUnit → State → Prop} :
    (modify update : EStateM Error State PUnit).Ends before failed done ↔
      done ⟨⟩ (update before) := Iff.rfl

@[simp]
theorem ends_bind {done : Next → State → Prop} : (computation >>= next).Ends before failed done ↔
      computation.Ends before failed fun value after => (next value).Ends after failed done := by
  unfold Ends
  change (match EStateM.bind computation next before with
    | .ok value after => done value after
    | .error _ after => failed after) ↔ _
  unfold EStateM.bind
  cases computation before <;> rfl

@[simp]
theorem ends_adaptExcept : (computation.adaptExcept describe).Ends before failed done ↔
      computation.Ends before failed done := by
  unfold Ends adaptExcept
  cases computation before <;> rfl

theorem Ends.mono {weaker : Value → State → Prop} {weakerFailed : State → Prop}
    (ends : computation.Ends before failed done)
    (onError : ∀ after, failed after → weakerFailed after)
    (onOk : ∀ value after, done value after → weaker value after) :
    computation.Ends before weakerFailed weaker := by
  unfold Ends at ends ⊢
  cases ran : computation before with
  | ok value after =>
    rw [ran] at ends
    exact onOk value after ends
  | error error after =>
    rw [ran] at ends
    exact onError after ends

/-- What follows from the success alone. -/
theorem Ends.imp {weaker : Value → State → Prop} (ends : computation.Ends before failed done)
    (onOk : ∀ value after, done value after → weaker value after) :
    computation.Ends before (fun _ => True) weaker :=
  ends.mono (fun _ _ => trivial) onOk

def Returns (computation : EStateM Error State Value) (known : Value → Prop) : Prop :=
  ∀ before, computation.Ends before (fun _ => True) fun value _ => known value

theorem Returns.known {known : Value → Prop} (returns : computation.Returns known)
    (ran : computation before = .ok value after) : known value := by
  have ends := returns before
  rw [Ends, ran] at ends
  exact ends

theorem Returns.pure {known : Value → Prop} (isKnown : known value) :
    (pure value : EStateM Error State Value).Returns known :=
  fun _ => isKnown

theorem Returns.throw {known : Value → Prop} :
    (throw error : EStateM Error State Value).Returns known :=
  fun _ => trivial

theorem Returns.bind {known : Value → Prop} {result : Next → Prop}
    (first : computation.Returns known)
    (continues : ∀ value, known value → (next value).Returns result) :
    (computation >>= next).Returns result := by
  intro before
  apply ends_bind.mpr
  apply (first before).imp
  intro value after isKnown
  exact continues value isKnown after

/-- Nothing need be known of the first value. -/
theorem Returns.andThen {result : Next → Prop} (continues : ∀ value, (next value).Returns result) :
    (computation >>= next).Returns result := by
  refine @Returns.bind _ _ _ _ _ _ (fun _ => True) _ (fun before => ?_)
    fun value _ => continues value
  unfold Ends
  cases computation before <;> trivial

theorem modify_bind {next : PUnit → EStateM Error State Value} :
    (modify update >>= next) state = next ⟨⟩ (update state) := rfl

theorem get_bind {next : State → EStateM Error State Value} :
    (get >>= next) state = next state state := rfl

theorem bind_of_ok {middle : State} (ran : computation before = .ok value middle) :
    (computation >>= next) before = next value middle := by
  change EStateM.bind computation next before = _
  rw [EStateM.bind, ran]

/-- A sequence that succeeds is two runs that succeed. -/
theorem bind_eq_ok {value : Next} :
    (computation >>= next) before = .ok value after ↔ ∃ first middle,
      computation before = .ok first middle ∧ next first middle = .ok value after := by
  change EStateM.bind computation next before = .ok value after ↔ _
  unfold EStateM.bind
  cases computation before with
  | ok first middle =>
    constructor
    · intro ran
      exact ⟨first, middle, rfl, ran⟩
    · rintro ⟨_, _, ⟨⟩, ran⟩
      exact ran
  | error => simp

def Succeeds (computation : EStateM Error State Value) (before : State) : Prop :=
  ∃ value after, computation before = .ok value after

instance (computation : EStateM Error State Value) (before : State) :
    Decidable (computation.Succeeds before) :=
  match ran : computation before with
  | .ok value after => .isTrue ⟨value, after, ran⟩
  | .error _ _ => .isFalse fun ⟨_, _, succeeded⟩ => by
    rw [ran] at succeeded
    cases succeeded

@[simp]
theorem succeeds_pure :
    (pure value : EStateM Error State Value).Succeeds before := ⟨value, before, rfl⟩

@[simp]
theorem not_succeeds_throw : ¬(throw error : EStateM Error State Value).Succeeds before := nofun

@[simp]
theorem succeeds_set {next : State} :
    (set next : EStateM Error State PUnit).Succeeds before := ⟨⟨⟩, next, rfl⟩

theorem succeeds_bind : (computation >>= next).Succeeds before ↔
      ∃ value middle, computation before = .ok value middle ∧ (next value).Succeeds middle := by
  unfold Succeeds
  simp only [bind_eq_ok]
  grind

theorem succeeds_bind_iff : (computation >>= next).Succeeds before ↔ computation.Succeeds before ∧
      ∀ value middle, computation before = .ok value middle → (next value).Succeeds middle := by
  rw [succeeds_bind]
  constructor
  · rintro ⟨value, middle, ran, continues⟩
    refine ⟨⟨value, middle, ran⟩, fun other otherMiddle otherRan => ?_⟩
    cases ran.symm.trans otherRan
    exact continues
  · rintro ⟨⟨value, middle, ran⟩, continues⟩
    exact ⟨value, middle, ran, continues value middle ran⟩

@[simp]
theorem succeeds_get_bind {next : State → EStateM Error State Value} :
    (get >>= next).Succeeds before ↔ (next before).Succeeds before := Iff.rfl

@[simp]
theorem succeeds_adaptExcept :
    (computation.adaptExcept describe).Succeeds before ↔ computation.Succeeds before := by
  unfold Succeeds adaptExcept
  cases computation before <;> simp

end Ends

def Calm (computation : EStateM (Fault Error) State Value) (before : State) : Prop :=
  ∀ after, computation before ≠ .error .panic after

section Calm

@[simp]
theorem calm_pure : (pure value : EStateM (Fault Error) State Value).Calm before := nofun

@[simp]
theorem calm_throw {fault : Fault Error} :
    (throw fault : EStateM (Fault Error) State Value).Calm before ↔ fault ≠ .panic := by
  constructor
  · rintro calm rfl
    exact calm before rfl
  · rintro notPanic after ⟨⟩
    exact notPanic rfl

theorem calm_bind {computation : EStateM (Fault Error) State Value}
    {next : Value → EStateM (Fault Error) State Next} :
    (computation >>= next).Calm before ↔ computation.Calm before ∧
      ∀ value middle, computation before = .ok value middle → (next value).Calm middle := by
  unfold Calm
  change (∀ after, EStateM.bind computation next before ≠ .error .panic after) ↔ _
  unfold EStateM.bind
  cases computation before <;> simp

theorem calm_adaptExcept_of_ne {describe : Error → Fault OtherError}
    (errors : ∀ reason, describe reason ≠ .panic) :
    (computation.adaptExcept describe).Calm before := by
  intro after
  unfold adaptExcept
  cases computation before with
  | ok => nofun
  | error reason state =>
    intro failed
    injection failed with isPanic
    exact errors reason isPanic

end Calm

end EStateM
