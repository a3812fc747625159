import BoingNetwork.Library.Command
import BoingNetwork.Library.MapTotal
import BoingNetwork.State.Session

/-!
# Commands over the state store

What block execution does to a store, as lawful commands.  A command changes the store by
writes only, and it does not see the two fields that the encoding of the registries
loses, nor the caches and the journal.
-/

namespace BoingNetwork

/-! ## What commands see -/

/-- The registry without its derived data, and with the slash id that it would allocate. -/
def RegistryId.settled : (id : RegistryId) → id.Carrier → id.Carrier
  | openValidators, registry => { registry with lastJail := ∅ }
  | slashAppeals, registry => { registry with nextSlashId := registry.peekNextSlashId }
  | names, registry | sampleOffers, registry | sampleServe, registry | governance, registry
  | qaPolicy, registry => registry

theorem SlashAppealRegistry.peekNextSlashId_settled (registry : SlashAppealRegistry) :
    SlashAppealRegistry.peekNextSlashId
      { registry with nextSlashId := registry.peekNextSlashId } = registry.peekNextSlashId := by
  simp only [peekNextSlashId, MachineInt.saturatingAdd, MachineInt.maxValue]
  split <;> split <;> omega

@[simp]
theorem RegistryId.settled_settled (id : RegistryId) (registry : id.Carrier) :
    id.settled (id.settled registry) = id.settled registry := by
  cases id with
  | slashAppeals =>
    simp only [settled]
    rw [SlashAppealRegistry.peekNextSlashId_settled]
  | _ => rfl

/-- An entry of one of the maps; registries are written as a whole. -/
def Slot.IsEntry : Slot → Prop
  | .registry _ => False
  | _ => True

variable (contents : Contents)

namespace Contents

def settled (contents : Contents) : Contents :=
  { contents with
    openValidators := RegistryId.openValidators.settled contents.openValidators
    slashAppeals := RegistryId.slashAppeals.settled contents.slashAppeals }

theorem registry_settled (id : RegistryId) :
    contents.settled.registry id = id.settled (contents.registry id) := by
  cases id <;> rfl

theorem settled_setRegistry (id : RegistryId) (registry : id.Carrier) :
    (contents.setRegistry id registry).settled =
      contents.settled.setRegistry id (id.settled registry) := by
  cases id <;> rfl

theorem settled_write {slot : Slot} (entry : slot.IsEntry) (value : slot.Value) :
    (contents.write slot value).settled = contents.settled.write slot value := by
  cases slot with
  | registry => exact entry.elim
  | _ => rfl

@[simp]
theorem settled_settled : contents.settled.settled = contents.settled := by
  have appeals := RegistryId.slashAppeals.settled_settled contents.slashAppeals
  simp only [settled] at appeals ⊢
  rw [appeals]
  rfl

end Contents

/-- Configuration of the node that the store carries; no write changes it. -/
structure LedgerConfig where
  openValidatorParams : Option OpenValidatorParams
  nameRegistryParams : Option NameRegistryParams
  slashAppealResolvers : Option (List AccountId)

/-- Since when and whether the trees of the root are routed by all bits. -/
structure TreeLayout where
  storageTreeV2From : Option ℕ
  storageTreeDeep : Bool
  accountTreeV3From : Option ℕ
  accountTreeDeep : Bool
deriving DecidableEq

/-- What commands see of a store. -/
structure LedgerView where
  contents : Contents
  config : LedgerConfig

section Writes

variable [Crypto] (store : StateStore) (write : StoreWrite) (slot : Slot) (id : AccountId)

namespace StateStore

def config (store : StateStore) : LedgerConfig :=
  ⟨store.openValidatorParams, store.nameRegistryParams, store.slashAppealResolvers⟩

def view (store : StateStore) : LedgerView := ⟨store.toContents.settled, store.config⟩

def layout (store : StateStore) : TreeLayout :=
  ⟨store.storageTreeV2From, store.storageTreeDeep, store.accountTreeV3From, store.accountTreeDeep⟩

/-- What writes and reverts leave alone. -/
def settings (store : StateStore) : LedgerConfig × TreeLayout := (store.config, store.layout)

theorem record_settings : (store.record slot).settings = store.settings := by
  obtain ⟨_, _, _, marked⟩ := store.mark_eq slot
  by_cases alive : 0 < store.handles
  · rw [record_of_alive alive, marked]
    rfl
  · rw [record_of_idle alive, marked]
    rfl

theorem put_settings (value : slot.Value) :
    (store.put slot value).settings = store.settings := store.record_settings slot

theorem getMut_settings (update : AccountState → AccountState) :
    (store.getMut id update).settings = store.settings := by
  unfold getMut
  split
  next => exact put_settings ..
  next => rfl

theorem registryMut_settings (id : RegistryId) (update : id.Carrier → id.Carrier) :
    (store.registryMut id update).settings = store.settings := by
  by_cases alive : 0 < store.handles
  · rw [registryMut, recordRegistry_of_alive alive]
    split <;> rfl
  · rw [registryMut, recordRegistry_of_idle alive]
    rfl

theorem foldl_settings {Item : Type*} {step : StateStore → Item → StateStore}
    (kept : ∀ store item, (step store item).settings = store.settings) (items : List Item)
    (store : StateStore) : (items.foldl step store).settings = store.settings := by
  induction items generalizing store with
  | nil => rfl
  | cons item items ih => exact (ih _).trans (kept store item)

theorem redenominate_settings (factor : ℕ) :
    (store.redenominate factor).settings = store.settings := by
  have accounts : (store.redenominateAccounts factor).settings = store.settings :=
    foldl_settings (fun store id => store.getMut_settings id _) _ store
  unfold redenominate
  split
  next => exact (registryMut_settings ..).trans accounts
  next => exact accounts

theorem loadQaPending_settings (items : List (Hash × QaPendingRecord)) :
    (store.loadQaPending items).settings = store.settings := by
  by_cases alive : 0 < store.handles
  · simp only [loadQaPending, journaling, if_pos alive]
    exact foldl_settings (fun store subject => store.record_settings (.qaPending subject)) _ store
  · simp only [loadQaPending, journaling, if_neg alive]
    rfl

theorem applyWrite_settings : (store.applyWrite write).settings = store.settings := by
  cases write with
  | insert | setContractCode | mergeContractStorage | insertQaPending => exact put_settings ..
  | getMut => exact getMut_settings ..
  | qaPendingMut =>
    simp only [applyWrite, qaPendingMut]
    split
    next => exact put_settings ..
    next => rfl
  | removeQaPending =>
    simp only [applyWrite, removeQaPending]
    split
    next => exact put_settings ..
    next => rfl
  | loadQaPending => exact loadQaPending_settings ..
  | registryMut => exact registryMut_settings ..
  | redenominate => exact redenominate_settings ..

theorem applyWrite_config : (store.applyWrite write).config = store.config :=
  congrArg Prod.fst (store.applyWrite_settings write)

theorem foldl_applyWrite_toContents (writes : List StoreWrite) (store : StateStore) :
    (writes.foldl applyWrite store).toContents =
      writes.foldl StoreWrite.effect store.toContents := by
  induction writes generalizing store with
  | nil => rfl
  | cons write writes ih =>
    rw [List.foldl_cons, ih, applyWrite_toContents, List.foldl_cons]

theorem applyWrite_view : (store.applyWrite write).view =
      ⟨(write.effect store.toContents).settled, store.config⟩ := by
  rw [view, applyWrite_toContents, applyWrite_config]

end StateStore

def ledgerModel : WriteModel StateStore StoreWrite LedgerView where
  apply := StateStore.applyWrite
  view := StateStore.view
  exactly left right := left.toContents = right.toContents ∧ left.config = right.config
  view_eq same := by rw [StateStore.view, StateStore.view, same.1, same.2]
  apply_exactly same write := by
    rw [StateStore.applyWrite_toContents, StateStore.applyWrite_toContents, same.1,
      StateStore.applyWrite_config, StateStore.applyWrite_config]
    exact ⟨rfl, same.2⟩

theorem ledgerModel_uniform {write : StoreWrite}
    (settles : ∀ contents : Contents,
      (write.effect contents).settled = (write.effect contents.settled).settled) :
    ledgerModel.Uniform write := by
  intro left right same
  have contents : left.toContents.settled = right.toContents.settled :=
    congrArg LedgerView.contents same
  have config : left.config = right.config := congrArg LedgerView.config same
  change (left.applyWrite write).view = (right.applyWrite write).view
  rw [StateStore.applyWrite_view, StateStore.applyWrite_view, settles left.toContents,
    settles right.toContents, contents, config]

theorem ledgerModel_uniform_entry {write : StoreWrite} (entry : slot.IsEntry)
    {value : Contents → slot.Value}
    (isWrite : ∀ contents, write.effect contents = contents.write slot (value contents))
    (sees : ∀ contents : Contents, value contents.settled = value contents) :
    ledgerModel.Uniform write := by
  apply ledgerModel_uniform
  intro contents
  rw [isWrite, isWrite, sees, Contents.settled_write _ entry, Contents.settled_write _ entry,
    Contents.settled_settled]

def RegistryId.Settles (id : RegistryId) {Error Value : Type}
    (operation : EStateM Error id.Carrier Value) : Prop :=
  operation.Respects fun left right => id.settled left = id.settled right

/-- Commands of the ledger without a promise about their effect. -/
abbrev Act (Error Value : Type) : Type := Within ledgerModel.conduct (.free StateStore) Error Value

namespace Act

variable {Error Value : Type}

/-- Operates on a mutable borrow of an account; what an error leaves behind is kept. -/
def withAccount (id : AccountId) (missing : Error) (body : EStateM Error AccountState Value) :
    Act Error Value :=
  ledgerModel.decide (fun view => match view.contents.accounts[id]? with
    | none => (.error missing, [])
    | some account => ((body account).returned, [.getMut id fun account => (body account).state]))
    fun view write member => by
      split at member
      next => cases member
      next =>
        rw [List.mem_singleton.mp member]
        exact ledgerModel_uniform_entry (.account id) trivial (fun _ => rfl) fun _ => rfl

/-- Changes an account if it exists. -/
def alter (id : AccountId) (update : AccountState → Value × AccountState) :
    Act Error (Option Value) :=
  ledgerModel.decide (fun view => match view.contents.accounts[id]? with
    | none => (.ok none, [])
    | some account =>
      (.ok (some (update account).1), [.getMut id fun account => (update account).2]))
    fun view write member => by
      split at member
      next => cases member
      next =>
        rw [List.mem_singleton.mp member]
        exact ledgerModel_uniform_entry (.account id) trivial (fun _ => rfl) fun _ => rfl

theorem alter_total (update : AccountState → Value × AccountState) :
    (alter id update : Act Error (Option Value)).Total := by
  apply ledgerModel.decide_total
  intro view
  cases view.contents.accounts[id]? with
  | none => exact ⟨_, _, rfl⟩
  | some account => exact ⟨_, _, rfl⟩

def writeEntry (write : StoreWrite) (uniform : ledgerModel.Uniform write) : Act Error PUnit :=
  ledgerModel.decide (fun _ => (.ok ⟨⟩, [write])) fun _ _ member => by
    rw [List.mem_singleton.mp member]
    exact uniform

theorem writeEntry_total (uniform : ledgerModel.Uniform write) :
    (writeEntry write uniform : Act Error PUnit).Total :=
  ledgerModel.decide_total fun _ => ⟨_, _, rfl⟩

def insertAccount (id : AccountId) (account : AccountState) : Act Error PUnit :=
  writeEntry (.insert id account)
    (ledgerModel_uniform_entry (.account id) trivial (fun _ => rfl) fun _ => rfl)

def onRegistry (id : RegistryId) (operation : EStateM Error id.Carrier Value)
    (settles : id.Settles operation) : Act Error Value :=
  ledgerModel.decide (fun view => ((operation (view.contents.registry id)).returned,
    [.registryMut id fun registry => (operation registry).state])) fun _ _ member => by
      rw [List.mem_singleton.mp member]
      apply ledgerModel_uniform
      intro contents
      have alike := settles (contents.registry id) (id.settled (contents.registry id))
        (id.settled_settled _).symm
      simp only [StoreWrite.effect]
      rw [Contents.settled_setRegistry, Contents.settled_setRegistry, Contents.settled_settled,
        Contents.registry_settled, alike.state]

theorem withAccount_succeeds {id : AccountId} {missing : Error}
    {body : EStateM Error AccountState Value} {store : StateStore} :
    (withAccount id missing body).run.Succeeds store ↔
      ∃ account, store.accounts[id]? = some account ∧ body.Succeeds account := by
  rw [withAccount, WriteModel.decide_succeeds]
  have seen : (ledgerModel.view store).contents.accounts[id]? = store.accounts[id]? := rfl
  rw [seen]
  cases store.accounts[id]? with
  | none => simp
  | some account =>
    unfold EStateM.Succeeds
    cases ran : body account <;> simp [EStateM.Result.returned, ran]

theorem onRegistry_succeeds {id : RegistryId} {operation : EStateM Error id.Carrier Value}
    {settles : id.Settles operation} {store : StateStore} :
    (onRegistry id operation settles).run.Succeeds store ↔
      operation.Succeeds (store.toContents.registry id) := by
  rw [onRegistry, WriteModel.decide_succeeds]
  have alike := settles (store.toContents.settled.registry id) (store.toContents.registry id) (by
    rw [Contents.registry_settled]
    exact id.settled_settled _)
  have seen : (ledgerModel.view store).contents = store.toContents.settled := rfl
  rw [seen, alike.returned]
  unfold EStateM.Succeeds
  cases operation (store.toContents.registry id) <;> simp [EStateM.Result.returned]

end Act

end Writes

end BoingNetwork
