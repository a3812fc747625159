import BoingNetwork.State.Atomic

/-!
# Runs that are known exactly

Where the contents of a store decide what a computation returns and which contents it
leaves, its runs are known exactly.  Such runs compose, and they stay known under a
checkpoint.
-/

namespace BoingNetwork

section Exact

variable [Crypto] {Error OtherError Value Next : Type}
  {done : Value → StateStore → StateStore → Prop}
  {command : Command ledgerModel.conduct Error Value done}
  {computation : EStateM Error StateStore Value} {update : AccountState → Value × AccountState}

def Yields (computation : EStateM Error StateStore Value) (before : Contents) (value : Value)
    (after : Contents) : Prop :=
  ∀ store : StateStore, store.toContents = before →
    ∃ next, computation store = .ok value next ∧ next.toContents = after

namespace Yields

variable {before middle after : Contents} {value : Value} {result : Next} {id : AccountId}

theorem of_leads
    (succeeds : ∀ store : StateStore, store.toContents = before → command.run.Succeeds store)
    (leads : Leads command before fun reached contents => reached = value ∧ contents = after) :
    Yields command.run before value after := by
  intro store isBefore
  obtain ⟨reached, next, ran⟩ := succeeds store isBefore
  have ends := EStateM.ends_of_ok (leads store isBefore) ran
  exact ⟨next, ran.trans (by rw [ends.1]), ends.2⟩

theorem leads (yields : Yields command.run before value after) :
    Leads command before fun reached contents => reached = value ∧ contents = after := by
  intro store isBefore
  obtain ⟨next, ran, isAfter⟩ := yields store isBefore
  rw [EStateM.Ends, ran]
  exact ⟨rfl, isAfter⟩

theorem pure : Yields (pure value : EStateM Error StateStore Value) before value before :=
  fun store isBefore => ⟨store, rfl, isBefore⟩

theorem bind {next : Value → EStateM Error StateStore Next}
    (first : Yields computation before value middle)
    (second : Yields (next value) middle result after) :
    Yields (computation >>= next) before result after := by
  intro store isBefore
  obtain ⟨between, ran, isMiddle⟩ := first store isBefore
  obtain ⟨final, continued, isAfter⟩ := second between isMiddle
  exact ⟨final, EStateM.bind_eq_ok.mpr ⟨value, between, ran, continued⟩, isAfter⟩

theorem map (transform : Value → Next) (yields : Yields computation before value after) :
    Yields (computation >>= fun value => Pure.pure (transform value)) before (transform value)
      after :=
  yields.bind pure

theorem adaptExcept {describe : Error → OtherError}
    (yields : Yields computation before value after) :
    Yields (computation.adaptExcept describe) before value after := by
  intro store isBefore
  obtain ⟨next, ran, isAfter⟩ := yields store isBefore
  refine ⟨next, ?_, isAfter⟩
  rw [EStateM.adaptExcept, ran]

theorem withAccount {missing : Error} {body : EStateM Error AccountState Value}
    {account next : AccountState} (found : before.accounts[id]? = some account)
    (ran : body account = .ok value next) :
    Yields (Act.withAccount id missing body).run before value
      (before.write (.account id) (some next)) := by
  apply of_leads
  · rintro store rfl
    exact Act.withAccount_succeeds.mpr ⟨account, found, value, next, ran⟩
  · refine .withAccount fun other result changed isOther alsoRan => ?_
    cases found.symm.trans isOther
    cases ran.symm.trans alsoRan
    exact ⟨rfl, rfl⟩

theorem place {placed : Option AccountState → AccountState} :
    Yields (Act.place id placed : Act Error PUnit).run before ⟨⟩
      (before.write (.account id) (some (placed before.accounts[id]?))) :=
  of_leads (fun store _ => Act.place_total id placed store) (.place ⟨rfl, rfl⟩)

theorem alter_of_absent (absent : before.accounts[id]? = none) :
    Yields (Act.alter id update : Act Error (Option Value)).run before none before := by
  refine of_leads (fun store _ => Act.alter_total id update store) (.alter ?_ ?_)
  · intro _
    exact ⟨rfl, rfl⟩
  · intro account found
    rw [absent] at found
    cases found

theorem alter_of_present {account : AccountState} (found : before.accounts[id]? = some account) :
    Yields (Act.alter id update : Act Error (Option Value)).run before (some (update account).1)
      (before.write (.account id) (some (update account).2)) := by
  refine of_leads (fun store _ => Act.alter_total id update store) (.alter ?_ ?_)
  · intro absent
    rw [found] at absent
    cases absent
  · intro other isOther
    cases found.symm.trans isOther
    exact ⟨rfl, rfl⟩

/-- An error would be passed over, but there is none. -/
theorem attempt (yields : Yields command.run before value after) :
    Yields (command.attempt : Act OtherError PUnit).run before ⟨⟩ after := by
  intro store isBefore
  obtain ⟨next, ran, isAfter⟩ := yields store isBefore
  refine ⟨next, ?_, isAfter⟩
  change EStateM.Result.ok _ (command.run store).state = _
  rw [ran]
  rfl

theorem atomically {computation : EStateM (Fault Error) StateStore Value}
    (yields : Yields computation before value after) :
    Yields (BlockCommand.atomicallyRun computation : EStateM (Fault OtherError) StateStore _)
      before (.ok value) after := by
  rintro store rfl
  obtain ⟨next, ran, isAfter⟩ := yields store.checkpoint.2 store.checkpoint_toContents
  refine ⟨next.release, ?_, isAfter⟩
  rw [BlockCommand.atomicallyRun, ran]

end Yields

end Exact

end BoingNetwork
