import BoingNetwork.Library.Run
import BoingNetwork.State.Governance

/-!
# Phases of governance proposals

Every value that the engine hands out for execution was proposed, met its quorum when its
cooling period began, cooled down for the whole period and was taken inside its window.  The
history of an engine lists the calls that returned, the latest first; each entry holds the
registry before and after the call, so that the quorum can be read at the moment it counted.
-/

namespace BoingNetwork

open EStateM Std

inductive GovernanceCall where
  | proposeAt (targetKey : String) (targetValue : Bytes) (now : ℕ)
  | castVote (id : ℕ) (voter : AccountId) (approve : Bool) (weight : ℕ)
  | advanceToCooling (id now : ℕ)
  | advanceToExecution (id now : ℕ)
  | execute (id now : ℕ)

inductive GovernanceReply where
  | proposed (id : ℕ)
  | done
  | executed (targetKey : String) (targetValue : Bytes)
  | refused (reason : GovernanceError)

namespace GovernanceCall

def now? : GovernanceCall → Option ℕ
  | proposeAt _ _ now | advanceToCooling _ now | advanceToExecution _ now | execute _ now =>
    some now
  | castVote _ _ _ _ => none

def perform : GovernanceCall → EStateM (Fault GovernanceError) GovernanceRegistry GovernanceReply
  | proposeAt targetKey targetValue now => do
    let id ← (GovernanceRegistry.proposeAt targetKey targetValue now).adaptExcept .error
    return .proposed id
  | castVote id voter approve weight => do
    (GovernanceRegistry.castVote id voter approve weight).adaptExcept .error
    return .done
  | advanceToCooling id now => do
    GovernanceRegistry.advanceToCooling id now
    return .done
  | advanceToExecution id now => do
    GovernanceRegistry.advanceToExecution id now
    return .done
  | execute id now => do
    let (targetKey, targetValue) ← (GovernanceRegistry.execute id now).adaptExcept .error
    return .executed targetKey targetValue

end GovernanceCall

variable {id now : ℕ}

namespace GovernanceRegistry

variable {registry after : GovernanceRegistry} {reply : GovernanceReply}

def withProposal (registry : GovernanceRegistry) (id : ℕ) (proposal : Proposal) :
    GovernanceRegistry :=
  { registry with proposals := registry.proposals.insert id proposal }

/-- What a call does that is not refused. -/
inductive Performs : GovernanceCall → GovernanceReply → GovernanceRegistry → GovernanceRegistry →
    Prop
  | proposed {registry : GovernanceRegistry} (targetKey : String) (targetValue : Bytes) (now : ℕ) :
      Performs (.proposeAt targetKey targetValue now) (.proposed registry.nextId) registry
        { registry with
          nextId := (registry.nextId + 1) % 2 ^ 64
          proposals := registry.proposals.insert registry.nextId
            ⟨registry.nextId, targetKey, targetValue, .proposal, now, none, none, ∅⟩ }
  | voted {registry : GovernanceRegistry} {id weight : ℕ} {voter : AccountId} {approve : Bool}
      {proposal : Proposal} (found : registry.proposals[id]? = some proposal)
      (isProposal : proposal.phase = .proposal) :
      Performs (.castVote id voter approve weight) .done registry
        (registry.withProposal id { proposal with
          votes := proposal.votes.insert (hexEncode (bytes32 voter)) ⟨approve, weight⟩ })
  | cooled {registry : GovernanceRegistry} {id now : ℕ} {proposal : Proposal}
      (found : registry.proposals[id]? = some proposal) (isProposal : proposal.phase = .proposal)
      (quorum : registry.strictQuorum → registry.quorumMet id = .ok true) :
      Performs (.advanceToCooling id now) .done registry
        (registry.withProposal id { proposal with
          phase := .cooling
          coolingEndsAt := some (now + registry.coolingPeriod) })
  | opened {registry : GovernanceRegistry} {id now coolingEnds : ℕ} {proposal : Proposal}
      (found : registry.proposals[id]? = some proposal) (isCooling : proposal.phase = .cooling)
      (ends : proposal.coolingEndsAt = some coolingEnds) (hasCooled : coolingEnds ≤ now) :
      Performs (.advanceToExecution id now) .done registry
        (registry.withProposal id { proposal with
          phase := .execution
          executionEndsAt := some (now + registry.executionWindow) })
  | executed {registry : GovernanceRegistry} {id now executionEnds : ℕ} {proposal : Proposal}
      (found : registry.proposals[id]? = some proposal) (isExecution : proposal.phase = .execution)
      (ends : proposal.executionEndsAt = some executionEnds) (inWindow : now ≤ executionEnds) :
      Performs (.execute id now) (.executed proposal.targetKey proposal.targetValue) registry
        { registry with proposals := registry.proposals.erase id }

theorem addSeconds_eq_some {time duration sum : ℕ} (added : addSeconds time duration = some sum) :
    sum = time + duration := by
  rw [addSeconds] at added
  split at added
  · exact (Option.some.inj added).symm
  · cases added

theorem perform_ends (call : GovernanceCall) (registry : GovernanceRegistry) :
    call.perform.Ends registry (fun after => after = registry)
      (fun reply after => Performs call reply registry after) := by
  cases call with
  | proposeAt targetKey targetValue now =>
    simp only [GovernanceCall.perform, proposeAt, ends_bind, ends_adaptExcept, ends_get]
    split
    · rfl
    · split
      · rfl
      · exact .proposed targetKey targetValue now
  | castVote id voter approve weight =>
    simp only [GovernanceCall.perform, castVote, ends_bind, ends_adaptExcept, ends_get]
    split
    · rfl
    · split
      · rfl
      next proposal found =>
        split
        · rfl
        next isProposal => exact .voted found (not_not.mp isProposal)
  | advanceToCooling id now =>
    simp only [GovernanceCall.perform, advanceToCooling, ends_bind, ends_get]
    split
    · rfl
    · rfl
    next quorum =>
      split
      · rfl
      next proposal found =>
        split
        · rfl
        next isProposal =>
          split
          · rfl
          next coolingEnds added =>
            obtain rfl := addSeconds_eq_some added
            refine .cooled found (not_not.mp isProposal) fun strict => ?_
            rwa [if_pos strict] at quorum
  | advanceToExecution id now =>
    simp only [GovernanceCall.perform, advanceToExecution, ends_bind, ends_get]
    split
    · rfl
    next proposal found =>
      split
      · rfl
      next isCooling =>
        split
        · rfl
        next coolingEnds ends =>
          split
          · rfl
          next hasCooled =>
            split
            · rfl
            next executionEnds added =>
              obtain rfl := addSeconds_eq_some added
              exact .opened found (not_not.mp isCooling) ends (Nat.not_lt.mp hasCooled)
  | execute id now =>
    simp only [GovernanceCall.perform, execute, ends_bind, ends_adaptExcept, ends_get]
    split
    · rfl
    next proposal found =>
      split
      · rfl
      next isExecution =>
        split
        · rfl
        · split
          · rfl
          next window ends =>
            split
            · rfl
            next inWindow =>
              exact .executed found (not_not.mp isExecution) ends (Nat.not_lt.mp inWindow)

end GovernanceRegistry

/-! ## Histories -/

structure GovernanceEvent where
  before : GovernanceRegistry
  call : GovernanceCall
  reply : GovernanceReply
  after : GovernanceRegistry

def ProposalPhase.rank : ProposalPhase → ℕ
  | .proposal => 0
  | .cooling => 1
  | .execution => 2

namespace GovernanceEvent

def proposedId? (event : GovernanceEvent) : Option ℕ :=
  match event.reply with
  | .proposed id => some id
  | _ => none

def executedId? (event : GovernanceEvent) : Option ℕ :=
  match event.reply, event.call with
  | .executed _ _, .execute id _ => some id
  | _, _ => none

def Proposes (event : GovernanceEvent) (id : ℕ) (targetKey : String) (targetValue : Bytes) : Prop :=
  (∃ now, event.call = .proposeAt targetKey targetValue now) ∧ event.reply = .proposed id

def Cools (event : GovernanceEvent) (id now : ℕ) : Prop :=
  event.call = .advanceToCooling id now ∧ event.reply = .done ∧
    event.before.quorumMet id = .ok true

/-- The execution window begins. -/
def Opens (event : GovernanceEvent) (id now : ℕ) : Prop :=
  event.call = .advanceToExecution id now ∧ event.reply = .done

def Executes (event : GovernanceEvent) (id now : ℕ) (targetKey : String) (targetValue : Bytes) :
    Prop :=
  event.call = .execute id now ∧ event.reply = .executed targetKey targetValue

/-- No phase moves backwards, and a proposal that was not there has just been made. -/
def Forward (event : GovernanceEvent) : Prop :=
  ∀ (id : ℕ) (proposal : Proposal), event.after.proposals[id]? = some proposal →
    match event.before.proposals[id]? with
    | some earlier => earlier.phase.rank ≤ proposal.phase.rank
    | none => event.reply = .proposed id

end GovernanceEvent

/-- An engine with the calls that returned, the latest first. -/
structure GovernanceHistory where
  events : List GovernanceEvent
  registry : GovernanceRegistry

variable (event : GovernanceEvent) (events : List GovernanceEvent) (registry : GovernanceRegistry)

namespace GovernanceHistory

/-- A panic ends the process, so it leaves nothing in the history. -/
def step (history : GovernanceHistory) (call : GovernanceCall) : GovernanceHistory :=
  match call.perform history.registry with
  | .ok reply after => ⟨⟨history.registry, call, reply, after⟩ :: history.events, after⟩
  | .error (.error reason) after =>
    ⟨⟨history.registry, call, .refused reason, after⟩ :: history.events, after⟩
  | .error .panic _ => history

def ofCalls (start : GovernanceRegistry) (calls : List GovernanceCall) : GovernanceHistory :=
  Run.run step ⟨[], start⟩ calls

def proposedIds (history : GovernanceHistory) : List ℕ :=
  history.events.filterMap (·.proposedId?)

def executedIds (history : GovernanceHistory) : List ℕ :=
  history.events.filterMap (·.executedId?)

def clocks (history : GovernanceHistory) : List ℕ := history.events.filterMap (·.call.now?)

theorem step_cases (history : GovernanceHistory) (call : GovernanceCall) :
    history.step call = history ∨
      ∃ event : GovernanceEvent, event.before = history.registry ∧ event.call = call ∧
        history.step call = ⟨event :: history.events, event.after⟩ ∧
        ((∃ reason, event.reply = .refused reason) ∧ event.after = event.before ∨
          GovernanceRegistry.Performs call event.reply event.before event.after) := by
  have ends := GovernanceRegistry.perform_ends call history.registry
  rw [step]
  unfold Ends at ends
  cases ran : call.perform history.registry with
  | ok reply after =>
    rw [ran] at ends
    exact .inr ⟨⟨_, call, reply, after⟩, rfl, rfl, rfl, .inr ends⟩
  | error fault after =>
    rw [ran] at ends
    cases fault with
    | error reason =>
      exact .inr ⟨⟨_, call, .refused reason, after⟩, rfl, rfl, rfl, .inl ⟨⟨reason, rfl⟩, ends⟩⟩
    | panic => exact .inl rfl

/-- Fewer proposals than ids, and clocks that do not go back. -/
structure Admissible (history : GovernanceHistory) : Prop where
  few : history.proposedIds.length < 2 ^ 64
  ordered : history.clocks.Pairwise (· ≥ ·)

theorem Admissible.of_cons {event : GovernanceEvent} {events : List GovernanceEvent}
    {before after : GovernanceRegistry}
    (admissible : Admissible ⟨event :: events, after⟩) : Admissible ⟨events, before⟩ where
  few := by
    have sublist : (events.filterMap (·.proposedId?)).Sublist
        ((event :: events).filterMap (·.proposedId?)) :=
      (List.sublist_cons_self event events).filterMap _
    exact sublist.length_le.trans_lt admissible.few
  ordered := admissible.ordered.sublist ((List.sublist_cons_self event events).filterMap _)

theorem proposedIds_cons : proposedIds ⟨event :: events, registry⟩ =
      event.proposedId?.toList ++ events.filterMap (·.proposedId?) := by
  rw [proposedIds, List.filterMap_cons]
  cases event.proposedId? <;> rfl

theorem executedIds_cons : executedIds ⟨event :: events, registry⟩ =
      event.executedId?.toList ++ events.filterMap (·.executedId?) := by
  rw [executedIds, List.filterMap_cons]
  cases event.executedId? <;> rfl

end GovernanceHistory

def Proposal.Traced (settings : GovernanceRegistry) (past : List GovernanceEvent) (id : ℕ)
    (proposal : Proposal) : Prop :=
  ∃ proposed : GovernanceEvent,
    proposed.Proposes id proposal.targetKey proposal.targetValue ∧
    match proposal.phase with
    | .proposal => [proposed].Sublist past
    | .cooling => ∃ cooled : GovernanceEvent, ∃ began,
        cooled.Cools id began ∧ [cooled, proposed].Sublist past ∧
          proposal.coolingEndsAt = some (began + settings.coolingPeriod)
    | .execution => ∃ opened cooled : GovernanceEvent, ∃ openedAt began,
        opened.Opens id openedAt ∧ cooled.Cools id began ∧ [opened, cooled, proposed].Sublist past ∧
          began + settings.coolingPeriod ≤ openedAt ∧
          proposal.executionEndsAt = some (openedAt + settings.executionWindow)

variable {proposal : Proposal}

theorem Proposal.Traced.cons {settings : GovernanceRegistry} {past : List GovernanceEvent}
    (traced : proposal.Traced settings past id) (event : GovernanceEvent) :
    proposal.Traced settings (event :: past) id := by
  obtain ⟨proposed, proposes, reached⟩ := traced
  refine ⟨proposed, proposes, ?_⟩
  split at reached
  · exact reached.cons event
  · obtain ⟨cooled, began, cools, sublist, ends⟩ := reached
    exact ⟨cooled, began, cools, sublist.cons event, ends⟩
  · obtain ⟨opened, cooled, openedAt, began, opens, cools, sublist, rest⟩ := reached
    exact ⟨opened, cooled, openedAt, began, opens, cools, sublist.cons event, rest⟩

/-- An executed value was proposed, met its quorum when it began to cool down, cooled down for
the whole period, and is taken inside its window. -/
def GovernanceEvent.Due (settings : GovernanceRegistry) (past : List GovernanceEvent)
    (event : GovernanceEvent) : Prop :=
  ∀ id now targetKey targetValue, event.Executes id now targetKey targetValue →
    ∃ opened cooled proposed : GovernanceEvent, ∃ openedAt began,
      [opened, cooled, proposed].Sublist past ∧ opened.Opens id openedAt ∧
        cooled.Cools id began ∧ proposed.Proposes id targetKey targetValue ∧
        began + settings.coolingPeriod ≤ openedAt ∧ openedAt ≤ now ∧
        now ≤ openedAt + settings.executionWindow

namespace GovernanceHistory

/-- What the calls keep. -/
structure Tracked (settings : GovernanceRegistry) (history : GovernanceHistory) : Prop where
  cooling : history.registry.coolingPeriod = settings.coolingPeriod
  window : history.registry.executionWindow = settings.executionWindow
  strict : history.registry.strictQuorum = true
  nextId : history.registry.nextId = (1 + history.proposedIds.length) % 2 ^ 64
  below : ∀ id ∈ history.proposedIds, id ≤ history.proposedIds.length
  nodup : history.proposedIds.Nodup
  traced : ∀ (id : ℕ) (proposal : Proposal), history.registry.proposals[id]? = some proposal →
    proposal.Traced settings history.events id
  gone : ∀ id ∈ history.executedIds, id ≤ history.proposedIds.length ∧
    history.registry.proposals[id]? = none
  once : history.executedIds.Nodup
  due : Run.Follows (GovernanceEvent.Due settings) history.events
  forward : ∀ event ∈ history.events, event.Forward

variable {settings start : GovernanceRegistry} {history : GovernanceHistory}
  {event : GovernanceEvent}

theorem mem_proposedIds_of_traced (traced : proposal.Traced settings history.events id) :
    id ∈ history.proposedIds := by
  obtain ⟨proposed, ⟨-, replied⟩, reached⟩ := traced
  have member : proposed ∈ history.events := by
    split at reached
    · exact reached.subset (by simp)
    · obtain ⟨cooled, began, cools, sublist, ends⟩ := reached
      exact sublist.subset (by simp)
    · obtain ⟨opened, cooled, openedAt, began, opens, cools, sublist, rest⟩ := reached
      exact sublist.subset (by simp)
  exact List.mem_filterMap.mpr ⟨proposed, member, by rw [GovernanceEvent.proposedId?, replied]⟩

section

variable (tracked : history.Tracked settings) (isBefore : event.before = history.registry)

include tracked isBefore

theorem Tracked.keep (quiet : event.proposedId? = none ∧ event.executedId? = none)
    (proposals : ExtTreeMap ℕ Proposal)
    (isAfter : event.after = { event.before with proposals })
    (same : ∀ id : ℕ, event.before.proposals[id]? = none → proposals[id]? = none)
    (traced : ∀ (id : ℕ) (proposal : Proposal), proposals[id]? = some proposal →
      proposal.Traced settings (event :: history.events) id) (forward : event.Forward) :
    Tracked settings ⟨event :: history.events, event.after⟩ := by
  obtain ⟨noProposal, noExecution⟩ := quiet
  have sameIds : proposedIds ⟨event :: history.events, event.after⟩ = history.proposedIds := by
    rw [proposedIds_cons, noProposal]
    rfl
  have sameExecuted : executedIds ⟨event :: history.events, event.after⟩ = history.executedIds := by
    rw [executedIds_cons, noExecution]
    rfl
  rw [isBefore] at isAfter same
  constructor
  · rw [isAfter]
    exact tracked.cooling
  · rw [isAfter]
    exact tracked.window
  · rw [isAfter]
    exact tracked.strict
  · rw [sameIds, isAfter]
    exact tracked.nextId
  · rw [sameIds]
    exact tracked.below
  · rw [sameIds]
    exact tracked.nodup
  · rw [isAfter]
    exact traced
  · rw [sameExecuted, sameIds, isAfter]
    intro id executed
    exact ⟨(tracked.gone id executed).1, same id (tracked.gone id executed).2⟩
  · rw [sameExecuted]
    exact tracked.once
  · refine ⟨?_, tracked.due⟩
    rintro id now targetKey targetValue ⟨isCall, isReply⟩
    rw [GovernanceEvent.executedId?, isCall, isReply] at noExecution
    cases noExecution
  · intro other member
    rcases List.mem_cons.mp member with rfl | earlier
    · exact forward
    · exact tracked.forward other earlier

theorem Tracked.replace (isDone : event.reply = .done) {earlier later : Proposal}
    (found : event.before.proposals[id]? = some earlier)
    (isAfter : event.after = event.before.withProposal id later)
    (forward : earlier.phase.rank ≤ later.phase.rank)
    (traced : later.Traced settings (event :: history.events) id) :
    Tracked settings ⟨event :: history.events, event.after⟩ := by
  have atOther : ∀ {other : ℕ}, other ≠ id →
      (event.before.proposals.insert id later)[other]? = event.before.proposals[other]? := by
    intro other differs
    rw [ExtTreeMap.getElem?_insert, if_neg (by simpa using differs.symm)]
  refine tracked.keep isBefore ⟨?_, ?_⟩ _ isAfter ?_ ?_ ?_
  · rw [GovernanceEvent.proposedId?, isDone]
  · rw [GovernanceEvent.executedId?, isDone]
  · intro other absent
    rw [atOther, absent]
    rintro rfl
    rw [found] at absent
    cases absent
  · intro other proposal isProposal
    by_cases same : other = id
    · subst same
      rw [ExtTreeMap.getElem?_insert_self] at isProposal
      exact Option.some.inj isProposal ▸ traced
    · rw [atOther same, isBefore] at isProposal
      exact (tracked.traced other proposal isProposal).cons event
  · intro other proposal isProposal
    rw [isAfter, GovernanceRegistry.withProposal] at isProposal
    by_cases same : other = id
    · subst same
      rw [ExtTreeMap.getElem?_insert_self] at isProposal
      rw [found, ← Option.some.inj isProposal]
      exact forward
    · rw [atOther same] at isProposal
      rw [isProposal]

theorem Tracked.propose {targetKey : String} {targetValue : Bytes}
    (isCall : event.call = .proposeAt targetKey targetValue now)
    (isReply : event.reply = .proposed event.before.nextId)
    (isAfter : event.after = { event.before with
      nextId := (event.before.nextId + 1) % 2 ^ 64
      proposals := event.before.proposals.insert event.before.nextId
        ⟨event.before.nextId, targetKey, targetValue, .proposal, now, none, none, ∅⟩ })
    (few : (proposedIds ⟨event :: history.events, event.after⟩).length < 2 ^ 64) :
    Tracked settings ⟨event :: history.events, event.after⟩ := by
  have ids : proposedIds ⟨event :: history.events, event.after⟩ =
      event.before.nextId :: history.proposedIds := by
    rw [proposedIds_cons, GovernanceEvent.proposedId?, isReply]
    rfl
  have sameExecuted : executedIds ⟨event :: history.events, event.after⟩ = history.executedIds := by
    rw [executedIds_cons, GovernanceEvent.executedId?, isReply]
    rfl
  rw [ids, List.length_cons] at few
  have isId : event.before.nextId = history.proposedIds.length + 1 := by
    rw [isBefore, tracked.nextId, Nat.add_comm, Nat.mod_eq_of_lt few]
  have fresh : ∀ id ≤ history.proposedIds.length, id ≠ event.before.nextId := by
    intro id small
    omega
  have atOther : ∀ {other : ℕ} {proposal : Proposal}, other ≠ event.before.nextId →
      (event.before.proposals.insert event.before.nextId proposal)[other]? =
        event.before.proposals[other]? := by
    intro other proposal differs
    rw [ExtTreeMap.getElem?_insert, if_neg (by simpa using differs.symm)]
  constructor
  · rw [isAfter, isBefore]
    exact tracked.cooling
  · rw [isAfter, isBefore]
    exact tracked.window
  · rw [isAfter, isBefore]
    exact tracked.strict
  · rw [ids, isAfter, isId, List.length_cons, Nat.add_comm 1]
  · rw [ids, List.length_cons, List.forall_mem_cons, isId]
    exact ⟨le_rfl, fun id member => (tracked.below id member).trans (Nat.le_succ _)⟩
  · rw [ids, List.nodup_cons]
    exact ⟨fun member => fresh _ (tracked.below _ member) rfl, tracked.nodup⟩
  · intro id proposal isProposal
    rw [isAfter] at isProposal
    by_cases same : id = event.before.nextId
    · subst same
      rw [ExtTreeMap.getElem?_insert_self] at isProposal
      obtain rfl := Option.some.inj isProposal
      exact ⟨event, ⟨⟨now, isCall⟩, isReply⟩, List.singleton_sublist.mpr List.mem_cons_self⟩
    · rw [atOther same, isBefore] at isProposal
      exact (tracked.traced id proposal isProposal).cons event
  · rw [sameExecuted, ids, List.length_cons]
    intro id executed
    obtain ⟨small, absent⟩ := tracked.gone id executed
    refine ⟨small.trans (Nat.le_succ _), ?_⟩
    rw [isAfter, atOther (fresh id small), isBefore, absent]
  · rw [sameExecuted]
    exact tracked.once
  · refine ⟨?_, tracked.due⟩
    rintro id _ _ _ ⟨isExecute, -⟩
    rw [isCall] at isExecute
    cases isExecute
  · rw [List.forall_mem_cons]
    refine ⟨?_, tracked.forward⟩
    intro id proposal isProposal
    rw [isAfter] at isProposal
    by_cases same : id = event.before.nextId
    · rw [same, isId, isBefore]
      cases occupied : history.registry.proposals[history.proposedIds.length + 1]? with
      | some earlier =>
        have member := mem_proposedIds_of_traced (tracked.traced _ _ occupied)
        have small := tracked.below _ member
        omega
      | none => rw [isReply, isId]
    · rw [atOther same] at isProposal
      rw [isProposal]

theorem Tracked.execute {executionEnds : ℕ} (isCall : event.call = .execute id now)
    (isReply : event.reply = .executed proposal.targetKey proposal.targetValue)
    (found : event.before.proposals[id]? = some proposal)
    (isExecution : proposal.phase = .execution)
    (ends : proposal.executionEndsAt = some executionEnds) (inWindow : now ≤ executionEnds)
    (isAfter : event.after = { event.before with proposals := event.before.proposals.erase id })
    (ordered : (clocks ⟨event :: history.events, event.after⟩).Pairwise (· ≥ ·)) :
    Tracked settings ⟨event :: history.events, event.after⟩ := by
  have sameIds : proposedIds ⟨event :: history.events, event.after⟩ = history.proposedIds := by
    rw [proposedIds_cons, GovernanceEvent.proposedId?, isReply]
    rfl
  have executed : executedIds ⟨event :: history.events, event.after⟩ =
      id :: history.executedIds := by
    rw [executedIds_cons, GovernanceEvent.executedId?, isCall, isReply]
    rfl
  have traced : proposal.Traced settings history.events id :=
    tracked.traced id proposal (isBefore ▸ found)
  have remaining : ∀ {other : ℕ} {left : Proposal}, event.after.proposals[other]? = some left →
      event.before.proposals[other]? = some left := by
    intro other left isLeft
    rw [isAfter, ExtTreeMap.getElem?_erase] at isLeft
    split at isLeft
    · cases isLeft
    · exact isLeft
  constructor
  · rw [isAfter, isBefore]
    exact tracked.cooling
  · rw [isAfter, isBefore]
    exact tracked.window
  · rw [isAfter, isBefore]
    exact tracked.strict
  · rw [sameIds, isAfter, isBefore]
    exact tracked.nextId
  · rw [sameIds]
    exact tracked.below
  · rw [sameIds]
    exact tracked.nodup
  · intro other left isLeft
    have isLeft := remaining isLeft
    rw [isBefore] at isLeft
    exact (tracked.traced other left isLeft).cons event
  · rw [executed, sameIds, List.forall_mem_cons, isAfter]
    refine ⟨⟨tracked.below id (mem_proposedIds_of_traced traced),
      ExtTreeMap.getElem?_erase_self⟩, ?_⟩
    intro other isExecuted
    obtain ⟨small, absent⟩ := tracked.gone other isExecuted
    refine ⟨small, ?_⟩
    rw [ExtTreeMap.getElem?_erase, isBefore, absent, ite_self]
  · rw [executed, List.nodup_cons]
    refine ⟨fun isExecuted => ?_, tracked.once⟩
    have absent := (tracked.gone id isExecuted).2
    rw [← isBefore, found] at absent
    cases absent
  · refine ⟨?_, tracked.due⟩
    rintro _ _ _ _ ⟨sameCall, sameReply⟩
    rw [isCall] at sameCall
    rw [isReply] at sameReply
    cases sameCall
    cases sameReply
    obtain ⟨proposed, proposes, reached⟩ := traced
    rw [isExecution] at reached
    obtain ⟨opened, cooled, openedAt, began, opens, cools, sublist, hasCooled, windowEnds⟩ :=
      reached
    rw [ends, Option.some.injEq] at windowEnds
    have inPast : openedAt ∈ history.events.filterMap (·.call.now?) :=
      List.mem_filterMap.mpr ⟨opened, sublist.subset List.mem_cons_self, by rw [opens.1]; rfl⟩
    rw [clocks, List.filterMap_cons, isCall] at ordered
    exact ⟨opened, cooled, proposed, openedAt, began, sublist, opens, cools, proposes, hasCooled,
      List.rel_of_pairwise_cons ordered inPast, by omega⟩
  · rw [List.forall_mem_cons]
    refine ⟨?_, tracked.forward⟩
    intro other left isLeft
    rw [remaining isLeft]

end

theorem Tracked.step (tracked : history.Tracked settings) (call : GovernanceCall)
    (admissible : (history.step call).Admissible) : (history.step call).Tracked settings := by
  rcases history.step_cases call with unchanged | ⟨event, isBefore, isCall, isStep, acts⟩
  · rwa [unchanged]
  rw [isStep] at admissible ⊢
  obtain ⟨before, _, reply, after⟩ := event
  dsimp only at isBefore isCall acts
  subst isCall
  rcases acts with ⟨⟨reason, rfl⟩, rfl⟩ | performs
  · refine tracked.keep isBefore ⟨rfl, rfl⟩ after.proposals rfl (fun _ absent => absent) ?_ ?_
    · intro id proposal isProposal
      rw [isBefore] at isProposal
      exact (tracked.traced id proposal isProposal).cons _
    · intro id proposal isProposal
      rw [isProposal]
  · cases performs with
    | proposed targetKey targetValue now =>
      exact tracked.propose isBefore rfl rfl rfl admissible.few
    | voted found isProposal =>
      refine tracked.replace isBefore rfl found rfl le_rfl ?_
      rw [isBefore] at found
      exact (tracked.traced _ _ found).cons _
    | cooled found isProposal quorum =>
      refine tracked.replace isBefore rfl found rfl ?_ ?_
      · rw [isProposal]
        exact Nat.zero_le 1
      · have isMet := quorum (by rw [isBefore]; exact tracked.strict)
        have sameCooling : before.coolingPeriod = settings.coolingPeriod :=
          isBefore ▸ tracked.cooling
        rw [isBefore] at found
        obtain ⟨proposed, proposes, reached⟩ := tracked.traced _ _ found
        rw [isProposal] at reached
        exact ⟨proposed, proposes, _, _, ⟨rfl, rfl, isMet⟩, reached.cons_cons _,
          by rw [sameCooling]⟩
    | opened found isCooling ends hasCooled =>
      refine tracked.replace isBefore rfl found rfl ?_ ?_
      · rw [isCooling]
        exact Nat.le_succ 1
      · have sameWindow : before.executionWindow = settings.executionWindow :=
          isBefore ▸ tracked.window
        rw [isBefore] at found
        obtain ⟨proposed, proposes, reached⟩ := tracked.traced _ _ found
        rw [isCooling] at reached
        obtain ⟨cooled, began, cools, sublist, coolingEndsAt⟩ := reached
        rw [ends, Option.some.injEq] at coolingEndsAt
        exact ⟨proposed, proposes, _, cooled, _, began, ⟨rfl, rfl⟩, cools, sublist.cons_cons _,
          by omega, by rw [sameWindow]⟩
    | executed found isExecution ends inWindow =>
      exact tracked.execute isBefore rfl rfl found isExecution ends inWindow rfl
        admissible.ordered

theorem admissible_of_step {call : GovernanceCall}
    (admissible : (history.step call).Admissible) : history.Admissible := by
  rcases history.step_cases call with unchanged | ⟨event, -, -, isStep, -⟩
  · rwa [unchanged] at admissible
  · rw [isStep] at admissible
    exact admissible.of_cons

structure IsNew (start : GovernanceRegistry) : Prop where
  noProposals : start.proposals = ∅
  firstId : start.nextId = 1
  strict : start.strictQuorum = true

theorem IsNew.tracked (isNew : IsNew start) : Tracked start ⟨[], start⟩ where
  cooling := rfl
  window := rfl
  strict := isNew.strict
  nextId := isNew.firstId
  below := by simp [proposedIds]
  nodup := List.nodup_nil
  traced id proposal isProposal := by
    rw [isNew.noProposals] at isProposal
    simp at isProposal
  gone := by simp [executedIds]
  once := List.nodup_nil
  due := trivial
  forward := by simp

def TracksAdmissibly (start : GovernanceRegistry) (history : GovernanceHistory) : Prop :=
  history.Admissible → history.Tracked start

theorem tracksAdmissibly_ofCalls (isNew : IsNew start) (calls : List GovernanceCall) :
    TracksAdmissibly start (ofCalls start calls) := by
  refine Run.invariant_of_forall ?_ (fun _ => isNew.tracked) calls
  intro history call ih stepAdmissible
  exact (ih (admissible_of_step stepAdmissible)).step call stepAdmissible

def Records (calls : List GovernanceCall) (history : GovernanceHistory) : Prop :=
  (history.events.map (·.call)).Sublist calls.reverse

theorem records_ofCalls (start : GovernanceRegistry) (calls : List GovernanceCall) :
    Records calls (ofCalls start calls) := by
  refine Run.history_invariant ?_ ?_ calls
  · exact .slnil
  · intro past history call ih
    rw [Records, List.reverse_append, List.reverse_singleton, List.singleton_append]
    rcases history.step_cases call with unchanged | ⟨event, -, isCall, isStep, -⟩
    · rw [unchanged]
      exact ih.cons call
    · rw [isStep, List.map_cons, isCall]
      exact ih.cons_cons call

theorem length_proposedIds_le (start : GovernanceRegistry) (calls : List GovernanceCall) :
    (ofCalls start calls).proposedIds.length ≤ calls.length := by
  have recorded := (records_ofCalls start calls).length_le
  rw [List.length_map, List.length_reverse] at recorded
  exact (List.length_filterMap_le _ _).trans recorded

end GovernanceHistory

/-- Over every sequence of calls with clocks that do not go back, and with fewer proposals than
ids: no id is given out twice, no value is handed out twice, each one only when it is due, and
phases only move forward. -/
theorem governance_phases_safe (start : GovernanceRegistry)
    (isNew : GovernanceHistory.IsNew start) (calls : List GovernanceCall)
    (ordered : (calls.filterMap (·.now?)).Pairwise (· ≤ ·))
    (few : (GovernanceHistory.ofCalls start calls).proposedIds.length < 2 ^ 64) :
    (GovernanceHistory.ofCalls start calls).proposedIds.Nodup ∧
      (GovernanceHistory.ofCalls start calls).executedIds.Nodup ∧
      Run.Follows (GovernanceEvent.Due start) (GovernanceHistory.ofCalls start calls).events ∧
      ∀ event ∈ (GovernanceHistory.ofCalls start calls).events, event.Forward := by
  have clocks : (GovernanceHistory.ofCalls start calls).clocks.Pairwise (· ≥ ·) := by
    have sublist := (GovernanceHistory.records_ofCalls start calls).filterMap (·.now?)
    rw [List.filterMap_map, List.filterMap_reverse] at sublist
    exact (List.pairwise_reverse.mpr ordered).sublist sublist
  have tracked := GovernanceHistory.tracksAdmissibly_ofCalls isNew calls ⟨few, clocks⟩
  exact ⟨tracked.nodup, tracked.once, tracked.due, tracked.forward⟩

/-! ## Concrete engines -/

/-- An engine that cools proposals down for ten seconds and opens windows of five. -/
def shortEngine : GovernanceRegistry := { coolingPeriod := 10, executionWindow := 5 }

def wholeLife : List GovernanceCall :=
  [.proposeAt "qa_registry" [1] 0, .castVote 1 7 true 5, .advanceToCooling 1 1,
    .advanceToExecution 1 11, .execute 1 12]

theorem wholeLife_safe :
    (GovernanceHistory.ofCalls shortEngine wholeLife).executedIds = [1] ∧
      (GovernanceHistory.ofCalls shortEngine wholeLife).executedIds.Nodup ∧
      Run.Follows (GovernanceEvent.Due shortEngine)
        (GovernanceHistory.ofCalls shortEngine wholeLife).events := by
  have few := (GovernanceHistory.length_proposedIds_le shortEngine wholeLife).trans_lt
    (by decide : wholeLife.length < 2 ^ 64)
  obtain ⟨-, once, due, -⟩ := governance_phases_safe shortEngine ⟨rfl, rfl, rfl⟩ wholeLife
    (by decide) few
  exact ⟨by decide +kernel, once, due⟩

def proposals (count : ℕ) : List GovernanceCall :=
  List.replicate count (.proposeAt "qa_registry" [1] 0)

theorem proposals_ofCalls (count : ℕ) :
    (GovernanceHistory.ofCalls shortEngine (proposals count)).proposedIds =
        ((List.range count).map fun index => (1 + index) % 2 ^ 64).reverse ∧
      (GovernanceHistory.ofCalls shortEngine (proposals count)).registry.nextId =
        (1 + count) % 2 ^ 64 := by
  induction count with
  | zero => exact ⟨rfl, rfl⟩
  | succ count ih =>
    obtain ⟨ids, next⟩ := ih
    have isStep : GovernanceHistory.ofCalls shortEngine (proposals (count + 1)) =
        (GovernanceHistory.ofCalls shortEngine (proposals count)).step
          (.proposeAt "qa_registry" [1] 0) := by
      rw [proposals, List.replicate_succ', GovernanceHistory.ofCalls, Run.run_append]
      rfl
    rw [isStep]
    generalize GovernanceHistory.ofCalls shortEngine (proposals count) = history at ids next ⊢
    constructor
    · rw [List.range_succ, List.map_append, List.reverse_append, ← ids, List.map_singleton, ← next]
      rfl
    · rw [← Nat.add_assoc, ← Nat.mod_add_mod, ← next]
      rfl

/-- After as many proposals as there are ids, the first id is given out again. -/
theorem proposal_ids_reused :
    GovernanceHistory.IsNew shortEngine ∧
      ((proposals (2 ^ 64 + 1)).filterMap (·.now?)).Pairwise (· ≤ ·) ∧
      ¬ (GovernanceHistory.ofCalls shortEngine (proposals (2 ^ 64 + 1))).proposedIds.Nodup := by
  refine ⟨⟨rfl, rfl, rfl⟩, ?_, ?_⟩
  · have isNow : GovernanceCall.now? (.proposeAt "qa_registry" [1] 0) = some 0 := rfl
    rw [proposals, List.filterMap_replicate_of_some isNow]
    exact List.pairwise_replicate.mpr (.inr le_rfl)
  · rw [(proposals_ofCalls _).1, List.nodup_reverse]
    intro distinct
    have injective := List.inj_on_of_nodup_map distinct
    have same : (0 : ℕ) = 2 ^ 64 := injective (by simp) (by simp) (by norm_num)
    norm_num at same

end BoingNetwork
