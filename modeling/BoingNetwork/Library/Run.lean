import Mathlib.Data.List.Induction

/-!
# Runs of a deterministic machine

A machine is a total step function over a state and an event type.  A run is the
fold of the step function over a list of events; a run is *allowed* when every
step meets a condition on the event and the state in which the event is taken.
Invariants are proved for one step and lifted to runs by `Run.invariant`.
-/

namespace Run

universe u v w

variable {State : Type u} {Event : Type v}

variable {step : State → Event → State} {allowed : State → Event → Prop}
  {start state finish : State} {events : List Event} {Invariant : State → Prop} {Other : Type w}

/-- The state after taking the events in order. -/
def run (step : State → Event → State) (start : State) (events : List Event) : State :=
  events.foldl step start

@[simp]
theorem run_nil (step : State → Event → State) (start : State) : run step start [] = start := rfl

@[simp]
theorem run_cons (step : State → Event → State) (start : State) (event : Event)
    (events : List Event) :
    run step start (event :: events) = run step (step start event) events := rfl

theorem run_append (step : State → Event → State) (start : State) (before after : List Event) :
    run step start (before ++ after) = run step (run step start before) after :=
  List.foldl_append

/-- Every step of the run meets `allowed` in the state in which it is taken. -/
def Allowed (step : State → Event → State) (allowed : State → Event → Prop) :
    State → List Event → Prop
  | _, [] => True
  | state, event :: events => allowed state event ∧ Allowed step allowed (step state event) events

instance decidableAllowed (step : State → Event → State) (allowed : State → Event → Prop)
    [decision : ∀ state event, Decidable (allowed state event)] :
    ∀ (state : State) (events : List Event), Decidable (Allowed step allowed state events)
  | _, [] => isTrue trivial
  | state, event :: events =>
    have := decidableAllowed step allowed (step state event) events
    inferInstanceAs (Decidable (allowed state event ∧ _))

theorem Allowed.append_right {before after : List Event}
    (whole : Allowed step allowed state (before ++ after)) :
    Allowed step allowed (run step state before) after := by
  induction before generalizing state with
  | nil => exact whole
  | cons event events ih => exact ih whole.2

theorem Allowed.and {first second : State → Event → Prop}
    (meetsFirst : Allowed step first state events)
    (meetsSecond : Allowed step second state events) :
    Allowed step (fun state event => first state event ∧ second state event) state events := by
  induction events generalizing state with
  | nil => trivial
  | cons event events ih =>
    exact ⟨⟨meetsFirst.1, meetsSecond.1⟩, ih meetsFirst.2 meetsSecond.2⟩

theorem allowed_of_forall (always : ∀ event ∈ events, ∀ state, allowed state event)
    (state : State) :
    Allowed step allowed state events := by
  induction events generalizing state with
  | nil => trivial
  | cons event events ih =>
    refine ⟨always event List.mem_cons_self state, ?_⟩
    exact ih (fun other inRest => always other (List.mem_cons_of_mem _ inRest)) _

/-- The condition is met in front of every event. -/
theorem allowed_iff : Allowed step allowed start events ↔
      ∀ before event after, events = before ++ event :: after →
        allowed (run step start before) event := by
  induction events generalizing start with
  | nil =>
    refine ⟨fun _ before event after split => ?_, fun _ => trivial⟩
    cases before <;> cases split
  | cons first events ih =>
    rw [Allowed, ih]
    constructor
    · rintro ⟨here, later⟩ before event after split
      cases before with
      | nil =>
        cases split
        exact here
      | cons _ before =>
        cases split
        exact later before event after rfl
    · intro everywhere
      refine ⟨everywhere [] first events rfl, fun before event after split => ?_⟩
      exact everywhere (first :: before) event after (by rw [split, List.cons_append])

theorem invariant
    (preserved : ∀ state event, Invariant state → allowed state event →
      Invariant (step state event)) (initial : Invariant start)
    (guarded : Allowed step allowed start events) : Invariant (run step start events) := by
  induction events generalizing start with
  | nil => exact initial
  | cons event events ih =>
    exact ih (preserved start event initial guarded.1) guarded.2

theorem invariant_of_forall
    (preserved : ∀ state event, Invariant state → Invariant (step state event))
    (initial : Invariant start) (events : List Event) : Invariant (run step start events) := by
  induction events generalizing start with
  | nil => exact initial
  | cons event events ih =>
    exact ih (preserved start event initial)

theorem simulation {otherStep : Other → Event → Other} {Related : State → Other → Prop}
    (preserved : ∀ state other event, Related state other →
      Related (step state event) (otherStep other event)) {otherStart : Other}
    (initial : Related start otherStart) (events : List Event) :
    Related (run step start events) (run otherStep otherStart events) := by
  induction events generalizing start otherStart with
  | nil => exact initial
  | cons event events ih =>
    exact ih (preserved start otherStart event initial)

/-- An invariant that also speaks about the events taken so far. -/
theorem history_invariant {Invariant : List Event → State → Prop} (initial : Invariant [] start)
    (preserved : ∀ past state event, Invariant past state →
      Invariant (past ++ [event]) (step state event)) (events : List Event) :
    Invariant events (run step start events) := by
  induction events using List.reverseRecOn with
  | nil => exact initial
  | append_singleton past event ih =>
    rw [run_append]
    exact preserved past _ event ih

/-! ## Steps of a relation -/

section Steps

variable {Item : Type v} {step weaker : Item → State → State → Prop} {items : List Item}
  {item : Item}

def Steps (step : Item → State → State → Prop) : List Item → State → State → Prop
  | [], start, finish => finish = start
  | item :: items, start, finish =>
    ∃ middle, step item start middle ∧ Steps step items middle finish

theorem Steps.single (taken : step item start finish) :
    Steps step [item] start finish := ⟨finish, taken, rfl⟩

theorem steps_append {first second : List Item} : Steps step (first ++ second) start finish ↔
      ∃ middle, Steps step first start middle ∧ Steps step second middle finish := by
  induction first generalizing start with
  | nil =>
    constructor
    · intro steps
      exact ⟨start, rfl, steps⟩
    · rintro ⟨_, rfl, steps⟩
      exact steps
  | cons item items ih =>
    simp only [List.cons_append, Steps, ih]
    constructor
    · rintro ⟨middle, taken, between, steps, rest⟩
      exact ⟨between, ⟨middle, taken, steps⟩, rest⟩
    · rintro ⟨between, ⟨middle, taken, steps⟩, rest⟩
      exact ⟨middle, taken, between, steps, rest⟩

theorem steps_map {label : Other → Item} {items : List Other} :
    Steps step (items.map label) start finish ↔
      Steps (fun item => step (label item)) items start finish := by
  induction items generalizing start with
  | nil => exact Iff.rfl
  | cons item items ih =>
    exact exists_congr fun _ => and_congr_right fun _ => ih

theorem Steps.mono
    (follows : ∀ item ∈ items, ∀ before after, step item before after → weaker item before after)
    (steps : Steps step items start finish) : Steps weaker items start finish := by
  induction items generalizing start with
  | nil => exact steps
  | cons item items ih =>
    obtain ⟨middle, taken, rest⟩ := steps
    refine ⟨middle, follows item List.mem_cons_self start middle taken, ?_⟩
    exact ih
      (fun other inRest => follows other (List.mem_cons_of_mem _ inRest)) rest

def Remembers (step : Item → State → State → Prop) (entry : Item × State) (before after : State) :
    Prop :=
  entry.2 = before ∧ step entry.1 before after

/-- Every item was taken somewhere. -/
theorem Steps.exists_of_mem (steps : Steps step items start finish) (member : item ∈ items) :
    ∃ before after, step item before after := by
  obtain ⟨first, second, rfl⟩ := List.append_of_mem member
  obtain ⟨middle, -, next, taken, -⟩ := steps_append.mp steps
  exact ⟨middle, next, taken⟩

theorem Steps.head_eq {entries : List (Item × State)} {entry : Item × State}
    (steps : Steps (Remembers step) entries start finish) (isHead : entries.head? = some entry) :
    entry.2 = start := by
  cases entries with
  | nil => cases isHead
  | cons first rest =>
    obtain ⟨_, ⟨same, _⟩, _⟩ := steps
    cases isHead
    exact same

theorem Steps.remembered (steps : Steps step items start finish) :
    ∃ entries : List (Item × State), entries.map Prod.fst = items ∧
      Steps (Remembers step) entries start finish := by
  induction items generalizing start with
  | nil => exact ⟨[], rfl, steps⟩
  | cons item items ih =>
    obtain ⟨middle, taken, rest⟩ := steps
    obtain ⟨entries, isItems, remembered⟩ := ih rest
    exact ⟨(item, start) :: entries, by rw [List.map_cons, isItems], middle, ⟨rfl, taken⟩,
      remembered⟩

end Steps

/-! ## Histories -/

/-- Every entry of a history, the latest first, is related to those before it. -/
def Follows {Entry : Type u} (related : List Entry → Entry → Prop) : List Entry → Prop
  | [] => True
  | latest :: past => related past latest ∧ Follows related past

end Run
