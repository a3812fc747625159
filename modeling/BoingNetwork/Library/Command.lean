import BoingNetwork.Library.Effects

/-!
# Lawful commands

A command is a stateful computation together with what it may do.  Its conduct is shared
by all commands over a state: a preorder that relates the two states of every run, failed
or not, and relations of states that no command tells apart.  Its effect relates the two
states of a successful run.  Sequencing composes both, so a program that is written with
commands needs no proof of its own.
-/

universe u

namespace EStateM

variable {Error OtherError State Value Next : Type u} {computation : EStateM Error State Value}
  {same : State → State → Prop}

def Alike (same : State → State → Prop) :
    Result Error State Value → Result Error State Value → Prop
  | .ok value left, .ok other right => value = other ∧ same left right
  | .error error left, .error other right => error = other ∧ same left right
  | _, _ => False

section

variable {left right : Result Error State Value} (alike : Alike same left right)

include alike

theorem Alike.state : same left.state right.state := by
  cases left <;> cases right
  · exact alike.2
  · exact alike.elim
  · exact alike.elim
  · exact alike.2

theorem Alike.returned : left.returned = right.returned := by
  cases left <;> cases right
  · exact congrArg Except.ok alike.1
  · exact alike.elim
  · exact alike.elim
  · exact congrArg Except.error alike.1

theorem Alike.strengthen {stronger : State → State → Prop}
    (known : same left.state right.state → stronger left.state right.state) :
    Alike stronger left right := by
  have related := alike.state
  cases left <;> cases right
  · exact ⟨alike.1, known related⟩
  · exact alike.elim
  · exact alike.elim
  · exact ⟨alike.1, known related⟩

theorem Alike.mono {weaker : State → State → Prop}
    (follows : ∀ first second, same first second → weaker first second) : Alike weaker left right :=
  alike.strengthen (follows _ _)

end

/-- The computation does not tell related states apart. -/
def Respects (same : State → State → Prop) (computation : EStateM Error State Value) : Prop :=
  ∀ left right, same left right → Alike same (computation left) (computation right)

section Respects

theorem Respects.pure (value : Value) : (pure value : EStateM Error State Value).Respects same :=
  fun _ _ related => ⟨rfl, related⟩

theorem Respects.throw (error : Error) : (throw error : EStateM Error State Value).Respects same :=
  fun _ _ related => ⟨rfl, related⟩

theorem Respects.bind {next : Value → EStateM Error State Next} (runs : computation.Respects same)
    (continues : ∀ value, (next value).Respects same) : (computation >>= next).Respects same := by
  intro left right related
  have alike := runs left right related
  change Alike same (EStateM.bind computation next left) (EStateM.bind computation next right)
  unfold EStateM.bind
  cases leftRun : computation left with
  | ok value after =>
    cases rightRun : computation right with
    | ok other otherAfter =>
      rw [leftRun, rightRun] at alike
      obtain ⟨rfl, afterRelated⟩ := alike
      exact continues value after otherAfter afterRelated
    | error =>
      rw [leftRun, rightRun] at alike
      exact alike.elim
  | error error after =>
    cases rightRun : computation right with
    | ok =>
      rw [leftRun, rightRun] at alike
      exact alike.elim
    | error other otherAfter =>
      rw [leftRun, rightRun] at alike
      exact alike

theorem Respects.get_bind {body : State → EStateM Error State Value}
    (alike : ∀ left right, same left right → Alike same (body left left) (body right right)) :
    (get >>= body : EStateM Error State Value).Respects same :=
  alike

theorem Respects.modify {update : State → State}
    (keeps : ∀ left right, same left right → same (update left) (update right)) :
    (modify update : EStateM Error State PUnit).Respects same :=
  fun left right related => ⟨rfl, keeps left right related⟩

theorem Respects.adaptExcept (describe : Error → OtherError)
    (respects : computation.Respects same) :
    (computation.adaptExcept describe).Respects same := by
  intro left right related
  have alike := respects left right related
  unfold EStateM.adaptExcept
  cases leftRun : computation left <;> cases rightRun : computation right <;>
    rw [leftRun, rightRun] at alike
  · exact alike
  · exact alike
  · exact alike
  · exact ⟨congrArg describe alike.1, alike.2⟩

end Respects

end EStateM

/-- How closely states are compared: exactly, or by what commands see of them. -/
inductive Sight where
  | exact
  | seen

/-- What all commands over a state share. -/
structure Conduct (State : Type u) where
  always : State → State → Prop
  refl : ∀ state, always state state
  trans : ∀ {start middle finish}, always start middle → always middle finish → always start finish
  same : Sight → State → State → Prop

/-- What a successful run may do, closed under sequencing. -/
structure Effect (State : Type u) where
  rel : State → State → Prop
  refl : ∀ state, rel state state
  trans : ∀ {start middle finish}, rel start middle → rel middle finish → rel start finish

/-- No promise beyond the conduct. -/
def Effect.free (State : Type u) : Effect State where
  rel _ _ := True
  refl _ := trivial
  trans _ _ := trivial

variable {State Error OtherError Value Next : Type u}

/-- A computation with its proof that it keeps the conduct and that its successful runs
relate their value and states by `done`. -/
structure Command (conduct : Conduct State) (Error Value : Type u)
    (done : Value → State → State → Prop) where
  run : EStateM Error State Value
  ensures : ∀ before, run.Ends before (conduct.always before)
    fun value after => conduct.always before after ∧ done value before after
  respects : ∀ sight, run.Respects (conduct.same sight)

namespace Command

variable {conduct : Conduct State} {done weaker firstDone : Value → State → State → Prop}
  (command : Command conduct Error Value done)

def andThen {nextDone : Value → Next → State → State → Prop}
    {bothDone : Next → State → State → Prop}
    (first : Command conduct Error Value firstDone)
    (next : ∀ value, Command conduct Error Next (nextDone value))
    (compose : ∀ {value result start middle finish}, firstDone value start middle →
      nextDone value result middle finish → bothDone result start finish) :
    Command conduct Error Next bothDone where
  run := first.run >>= fun value => (next value).run
  ensures before := by
    rw [EStateM.ends_bind]
    apply (first.ensures before).mono
    · intro after kept
      exact kept
    · intro value middle kept
      apply ((next value).ensures middle).mono
      · intro after alsoKept
        exact conduct.trans kept.1 alsoKept
      · intro result after alsoKept
        exact ⟨conduct.trans kept.1 alsoKept.1, compose kept.2 alsoKept.2⟩
  respects sight := (first.respects sight).bind fun value => (next value).respects sight

def refuse (error : Error) : Command conduct Error Value done where
  run := throw error
  ensures before := conduct.refl before
  respects _ := .throw error

def select {Part : Type u} (part : State → Part)
    (agree : ∀ {sight left right}, conduct.same sight left right → part left = part right)
    {chosenDone : Part → Value → State → State → Prop}
    (body : ∀ seen, Command conduct Error Value (chosenDone seen)) :
    Command conduct Error Value fun value before after =>
      chosenDone (part before) value before after where
  run before := (body (part before)).run before
  ensures before := (body (part before)).ensures before
  respects sight left right same := by
    change EStateM.Alike _ ((body (part left)).run left) ((body (part right)).run right)
    rw [agree same]
    exact (body (part right)).respects sight left right same

def weaken (command : Command conduct Error Value done)
    (follows : ∀ {value start finish}, conduct.always start finish → done value start finish →
      weaker value start finish) :
    Command conduct Error Value weaker where
  run := command.run
  ensures before := (command.ensures before).mono (fun _ kept => kept)
    fun _ _ kept => ⟨kept.1, follows kept.1 kept.2⟩
  respects := command.respects

/-- A promise that was proved of the successful runs. -/
def strengthen (command : Command conduct Error Value done)
    (holds : ∀ before, command.run.Ends before (fun _ => True) fun value after =>
      weaker value before after) :
    Command conduct Error Value weaker where
  run := command.run
  ensures before := by
    have ends := command.ensures before
    have also := holds before
    unfold EStateM.Ends at ends also ⊢
    cases ran : command.run before with
    | ok value after =>
      rw [ran] at ends also
      exact ⟨ends.1, also⟩
    | error error after =>
      rw [ran] at ends
      exact ends
  respects := command.respects

/-- The command whose promise names the run itself. -/
def recalling (command : Command conduct Error Value done) :
    Command conduct Error Value fun value before after =>
      done value before after ∧ command.run before = .ok value after :=
  command.strengthen fun before => by
    have ends := command.ensures before
    unfold EStateM.Ends at ends ⊢
    cases ran : command.run before with
    | ok value after =>
      rw [ran] at ends
      exact ⟨ends.2, rfl⟩
    | error => trivial

def mapError (describe : Error → OtherError) (command : Command conduct Error Value done) :
    Command conduct OtherError Value done where
  run := command.run.adaptExcept describe
  ensures before := EStateM.ends_adaptExcept.mpr (command.ensures before)
  respects sight := (command.respects sight).adaptExcept describe

theorem done_of_run {before after : State} {value : Value}
    (ran : command.run before = .ok value after) : done value before after :=
  (EStateM.ends_of_ok (command.ensures before) ran).2

theorem always_state (before : State) : conduct.always before (command.run before).state := by
  have ends := command.ensures before
  unfold EStateM.Ends at ends
  cases ran : command.run before with
  | ok value after =>
    rw [ran] at ends
    exact ends.1
  | error reason after =>
    rw [ran] at ends
    exact ends

end Command

def Within (conduct : Conduct State) (effect : Effect State) (Error Value : Type u) : Type u :=
  Command conduct Error Value fun _ => effect.rel

def Command.attempt {conduct : Conduct State} {done : Value → State → State → Prop}
    (command : Command conduct Error Value done) :
    Within conduct (.free State) OtherError PUnit where
  run before := .ok ⟨⟩ (command.run before).state
  ensures before := ⟨command.always_state before, trivial⟩
  respects sight left right same := ⟨rfl, (command.respects sight left right same).state⟩

namespace Within

variable {conduct : Conduct State} {effect : Effect State}
  {program : Within conduct effect Error Value} {next : Value → Within conduct effect Error Next}
  {before : State} {describe : Error → OtherError} {value : Value}

instance : Monad (Within conduct effect Error) where
  pure value :=
    { run := pure value
      ensures := fun before => ⟨conduct.refl before, effect.refl before⟩
      respects := fun _ => .pure value }
  bind first next := first.andThen next effect.trans

/-- Ends the program with an error. -/
def fail (error : Error) : Within conduct effect Error Value where
  run := throw error
  ensures before := conduct.refl before
  respects _ := .throw error

def mapError (describe : Error → OtherError) (program : Within conduct effect Error Value) :
    Within conduct effect OtherError Value :=
  Command.mapError describe program

theorem mapError_succeeds :
    (program.mapError describe).run.Succeeds before ↔ (Command.run program).Succeeds before :=
  EStateM.succeeds_adaptExcept

/-- The program without a promise about its effect. -/
def forget (program : Within conduct effect Error Value) :
    Within conduct (.free State) Error Value :=
  Command.weaken program fun _ _ => trivial

def ofExcept (describe : OtherError → Error) :
    Except OtherError Value → Within conduct effect Error Value
  | .ok value => pure value
  | .error error => fail (describe error)

theorem bind_succeeds : (Command.run (program >>= next)).Succeeds before ↔
      (Command.run program).Succeeds before ∧ ∀ value middle, Command.run program before =
        .ok value middle → (Command.run (next value)).Succeeds middle :=
  EStateM.succeeds_bind_iff

theorem pure_calm :
    (Command.run (pure value : Within conduct effect (Fault Error) Value)).Calm before :=
  EStateM.calm_pure

theorem fail_calm {reason : Error} :
    (Command.run (fail (.error reason) : Within conduct effect (Fault Error) Value)).Calm before :=
  EStateM.calm_throw.mpr nofun

theorem bind_calm {program : Within conduct effect (Fault Error) Value}
    {next : Value → Within conduct effect (Fault Error) Next} :
    (Command.run (program >>= next)).Calm before ↔ (Command.run program).Calm before ∧
      ∀ value middle, Command.run program before = .ok value middle →
        (Command.run (next value)).Calm middle :=
  EStateM.calm_bind

/-- The program never fails. -/
def Total (program : Within conduct effect Error Value) : Prop :=
  ∀ before, (Command.run program).Succeeds before

namespace Total

theorem pure (value : Value) : Total (Pure.pure value : Within conduct effect Error Value) :=
  fun _ => EStateM.succeeds_pure

theorem bind (first : program.Total) (second : ∀ value, (next value).Total) :
    (program >>= next).Total :=
  fun before => bind_succeeds.mpr ⟨first before, fun value middle _ => second value middle⟩

end Total

/-- Every value that the program returns has the property, whatever the state. -/
def Returns (program : Within conduct effect Error Value) (holds : Value → Prop) : Prop :=
  ∀ before, Command.run program |>.Ends before (fun _ => True) fun value _ => holds value

namespace Returns

variable {holds : Value → Prop} {holdsNext : Next → Prop}

theorem pure (known : holds value) :
    Returns (Pure.pure value : Within conduct effect Error Value) holds :=
  fun _ => known

theorem fail {error : Error} : Returns (fail error : Within conduct effect Error Value) holds :=
  fun _ => trivial

theorem bind (first : program.Returns holds)
    (second : ∀ value, holds value → (next value).Returns holdsNext) :
    (program >>= next).Returns holdsNext := by
  intro before
  change EStateM.Ends (Command.run program >>= fun value => Command.run (next value)) _ _ _
  rw [EStateM.ends_bind]
  exact (first before).imp fun value after known => second value known after

theorem andThen (second : ∀ value, (next value).Returns holdsNext) :
    (program >>= next).Returns holdsNext := by
  have unknown : program.Returns fun _ => True := by
    intro before
    unfold EStateM.Ends
    split <;> trivial
  exact unknown.bind fun value _ => second value

theorem mapError (returns : program.Returns holds) : (program.mapError describe).Returns holds :=
  fun before => EStateM.ends_adaptExcept.mpr (returns before)

end Returns

end Within

/-! ## Commands that write -/

section Writes

variable {Write View : Type u} {choose : View → Except Error Value × List Write}
  {before right left : State}

/-- How writes change a state, what commands see of it, and which states are the same. -/
structure WriteModel (State Write View : Type u) where
  apply : State → Write → State
  view : State → View
  exactly : State → State → Prop
  view_eq : ∀ {left right}, exactly left right → view left = view right
  apply_exactly : ∀ {left right}, exactly left right → ∀ write,
    exactly (apply left write) (apply right write)

namespace WriteModel

variable (model : WriteModel State Write View)

def conduct : Conduct State where
  always before after := ∃ writes : List Write, after = writes.foldl model.apply before
  refl _ := ⟨[], rfl⟩
  trans := by
    rintro start _ _ ⟨first, rfl⟩ ⟨second, rfl⟩
    exact ⟨first ++ second, (List.foldl_append ..).symm⟩
  same sight left right := match sight with
    | .exact => model.exactly left right
    | .seen => model.view left = model.view right

variable {model} in
theorem view_eq_of_same {sight : Sight} (same : model.conduct.same sight left right) :
    model.view left = model.view right :=
  match sight with
  | .exact => model.view_eq same
  | .seen => same

def Uniform (write : Write) : Prop :=
  ∀ left right, model.view left = model.view right →
    model.view (model.apply left write) = model.view (model.apply right write)

theorem view_foldl_apply {writes : List Write} (uniform : ∀ write ∈ writes, model.Uniform write)
    (same : model.view left = model.view right) :
    model.view (writes.foldl model.apply left) = model.view (writes.foldl model.apply right) := by
  induction writes generalizing left right with
  | nil => exact same
  | cons write writes ih =>
    apply ih
    · intro other member
      exact uniform other (List.mem_cons_of_mem _ member)
    · exact uniform write List.mem_cons_self _ _ same

theorem exactly_foldl_apply (writes : List Write) (same : model.exactly left right) :
    model.exactly (writes.foldl model.apply left) (writes.foldl model.apply right) := by
  induction writes generalizing left right with
  | nil => exact same
  | cons write writes ih =>
    exact ih (model.apply_exactly same write)

variable {effect : Effect State} {uniform : ∀ view, ∀ write ∈ (choose view).2, model.Uniform write}

/-- What the commands see of the state. -/
def look : Within model.conduct effect Error View where
  run before := .ok (model.view before) before
  ensures before := ⟨model.conduct.refl before, effect.refl before⟩
  respects _ _ _ same := ⟨view_eq_of_same same, same⟩

def decide (choose : View → Except Error Value × List Write)
    (uniform : ∀ view, ∀ write ∈ (choose view).2, model.Uniform write) :
    Within model.conduct (.free State) Error Value where
  run before := match choose (model.view before) with
    | (.ok value, writes) => .ok value (writes.foldl model.apply before)
    | (.error error, writes) => .error error (writes.foldl model.apply before)
  ensures before := by
    cases chosen : choose (model.view before) with
    | mk result writes =>
      cases result with
      | error error =>
        simp only [EStateM.Ends, chosen]
        exact ⟨writes, rfl⟩
      | ok value =>
        simp only [EStateM.Ends, chosen]
        exact ⟨⟨writes, rfl⟩, trivial⟩
  respects sight left right same := by
    have seen := view_eq_of_same same
    have agree : model.conduct.same sight
        ((choose (model.view right)).2.foldl model.apply left)
        ((choose (model.view right)).2.foldl model.apply right) :=
      match sight with
      | .exact => model.exactly_foldl_apply _ same
      | .seen => model.view_foldl_apply (uniform (model.view right)) same
    simp only [seen]
    cases chosen : choose (model.view right) with
    | mk result writes =>
      rw [chosen] at agree
      cases result with
      | error error => exact ⟨rfl, agree⟩
      | ok value => exact ⟨rfl, agree⟩

theorem look_bind_succeeds {next : View → Within model.conduct effect Error Value} :
    (Command.run (model.look >>= next)).Succeeds before ↔
      (next (model.view before)).run.Succeeds before := Iff.rfl

theorem look_bind_calm {next : View → Within model.conduct effect (Fault Error) Value} :
    (Command.run (model.look >>= next)).Calm before ↔
      (next (model.view before)).run.Calm before := Iff.rfl

theorem decide_succeeds : (model.decide choose uniform).run.Succeeds before ↔
      ∃ value writes, choose (model.view before) = (.ok value, writes) := by
  unfold EStateM.Succeeds decide
  dsimp only
  cases choose (model.view before) with
  | mk result writes => cases result <;> simp

theorem decide_total (always : ∀ view, ∃ value writes, choose view = (.ok value, writes)) :
    (model.decide choose uniform).Total :=
  fun _ => model.decide_succeeds.mpr (always _)

end WriteModel

end Writes
