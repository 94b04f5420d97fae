import OpenGuard.Service.Response
import OpenGuard.Storage.PersistenceDiff
import OpenGuard.Windows.PersistenceIds

/-!
# Requests for the inventory

The service answers from its cache, or it collects the inventory, compares it with what is stored
for the client and keeps it.

* `persistenceInventory`: the request; `inventory_step`: it changes nothing, or it compares.
* `own_ids_iff`: the registrations have ids of their own, and one more is reported as added, just
  when the names differ within each source.
-/

namespace OpenGuard.Service

open OpenGuard.Lib OpenGuard.Domain OpenGuard.Storage OpenGuard.Windows

/-- The stored items and the timeline. -/
abbrev InventoryTables := PersistenceItems × RowTable TimelineRow

/-- A request for the inventory, and what the environment chooses for it: the folders of the client,
the machine, the second, and the outcome of the call to the database. -/
structure InventoryRequest where
  refresh : Bool
  userProfile : String
  localAppData : String
  roamingAppData : String
  machine : StartupMachine
  observedAt : String
  fault : Fault
  order : IterOrder String PersistenceRow

/-- What the service keeps of the inventories. -/
structure InventoryState where
  tables : InventoryTables
  cache : Table String PersistenceInventory

/-- Source: `main.rs`, `ServiceState::persistence_inventory` -/
def InventoryRequest.context (ownerSid : String) (request : InventoryRequest) :
    PersistenceContext :=
  ⟨ownerSid, request.userProfile, request.localAppData, request.roamingAppData⟩

section inventory

-- the first 12 bytes of the SHA-256 of a text, as hexadecimal
variable (digest : String → String) (ownerSid : String)

/-- The inventory that is collected. -/
def InventoryRequest.inventory (request : InventoryRequest) : PersistenceInventory :=
  collectPersistence digest (request.context ownerSid) request.machine request.observedAt

/-- What answers the request without a collection. -/
def InventoryRequest.cached (request : InventoryRequest) (state : InventoryState) :
    Option PersistenceInventory :=
  if request.refresh then none else state.cache.lookup ownerSid

/-- Source: `main.rs`, `ServiceState::persistence_inventory` -/
def persistenceInventory (request : InventoryRequest) (state : InventoryState) :
    Except ApiError PersistenceInventory × InventoryState :=
  match request.cached ownerSid state with
  | some cached => (.ok cached, state)
  | none =>
      let inventory := request.inventory digest ownerSid
      match syncPersistenceInventory request.fault request.order ownerSid inventory.items
          inventory.collectedAt state.tables with
      | (.error error, tables) =>
          (.error (storageApiError "Persist persistence inventory" error), { state with tables })
      | (.ok _, tables) => (.ok inventory, ⟨tables, state.cache.insert ownerSid inventory⟩)

end inventory

/-- The rows of the timeline that are there after but not before. -/
def rowsWritten (before after : InventoryTables) : List TimelineRow :=
  (after.2.rows.drop before.2.rows.length).map Prod.snd

/-! ## A request -/

section step

variable {digest : String → String} {ownerSid : String} {request : InventoryRequest}
  {state : InventoryState} {observedAt : String} {context : PersistenceContext}
  {machine : StartupMachine}

theorem mem_inventory_of_mem {item : PersistenceItem}
    (h : item ∈ (collectPersistence digest context machine observedAt).items) :
    item ∈ collectedItems digest context machine observedAt :=
  (List.mem_insertionSort _).mp (List.mem_of_mem_take h)

/-- The ids in the inventory differ if those of the registrations do. -/
theorem nodup_inventory
    (h : ((collectedItems digest context machine observedAt).map PersistenceItem.id).Nodup) :
    ((collectPersistence digest context machine observedAt).items.map
      PersistenceItem.id).Nodup := by
  have hsorted := ((List.perm_insertionSort listedNoLater
    (collectedItems digest context machine observedAt)).map PersistenceItem.id).nodup_iff.mpr h
  exact hsorted.sublist ((List.take_sublist _ _).map _)

theorem rowsWritten_self (tables : InventoryTables) : rowsWritten tables tables = [] := by
  unfold rowsWritten
  rw [List.drop_length, List.map_nil]

theorem rowsWritten_of_exactDiff {items : List PersistenceItem} {before after : InventoryTables}
    {changes : List TimelineEvent} (h : ExactDiff ownerSid items observedAt before after changes) :
    rowsWritten before after = changes.map (TimelineRow.ofEvent ownerSid) := by
  obtain ⟨new, hrows, hnew⟩ := h.written
  unfold rowsWritten
  rw [hrows, List.drop_left, hnew]

/-- The comparison that a commit reports. -/
theorem exactDiff_of_ok {order : IterOrder String PersistenceRow} {items : List PersistenceItem}
    {before after : InventoryTables} {changes : List TimelineEvent}
    (hdistinct : (items.map PersistenceItem.id).Nodup)
    (hsync : syncPersistenceInventory none order ownerSid items observedAt before =
      (.ok changes, after)) :
    ExactDiff ownerSid items observedAt before after changes := by
  have hcommit : ∃ changes after, syncPersistenceInventory none order ownerSid items observedAt
      (before.1, before.2) = (.ok changes, after) ∧
      ExactDiff ownerSid items observedAt (before.1, before.2) after changes :=
    exactDiff_of_commit hdistinct
  obtain ⟨found, last, hfound, hdiff⟩ := hcommit
  obtain ⟨hchanges, hafter⟩ := Prod.mk_inj.mp (hfound.symm.trans hsync)
  cases hchanges
  cases hafter
  exact hdiff

/-- A request that is not answered from the cache compares, if the database works. -/
theorem inventory_commit (hcached : request.cached ownerSid state = none)
    (hfault : request.fault = none)
    (hdistinct : ((request.inventory digest ownerSid).items.map PersistenceItem.id).Nodup) :
    ∃ changes, ExactDiff ownerSid (request.inventory digest ownerSid).items request.observedAt
      state.tables (persistenceInventory digest ownerSid request state).2.tables changes := by
  unfold persistenceInventory
  rw [hcached, hfault]
  exact ⟨_, exactDiff_of_ok hdistinct rfl⟩

/-- **A request** changes no table, or it compares the inventory with what is stored. -/
theorem inventory_step
    (hdistinct : ((request.inventory digest ownerSid).items.map PersistenceItem.id).Nodup) :
    (persistenceInventory digest ownerSid request state).2.tables = state.tables ∨
      ∃ changes, ExactDiff ownerSid (request.inventory digest ownerSid).items request.observedAt
        state.tables (persistenceInventory digest ownerSid request state).2.tables changes := by
  cases hcached : request.cached ownerSid state with
  | some cached =>
      refine .inl ?_
      unfold persistenceInventory
      rw [hcached]
  | none =>
      cases hfault : request.fault with
      | none => exact .inr (inventory_commit hcached hfault hdistinct)
      | some error =>
          refine .inl ?_
          unfold persistenceInventory
          rw [hcached, hfault]
          rfl

/-! ## Ids of their own -/

/-- The registrations have different ids, and of a machine to which some were added since the first
inventory of an owner, a second one reports each of these as added. -/
structure OwnIds (digest : String → String) (context : PersistenceContext)
    (machine : StartupMachine) : Prop where
  distinct : ∀ observedAt,
    ((collectedItems digest context machine observedAt).map PersistenceItem.id).Nodup
  added : ∀ earlier new,
    (registrations context machine).Perm (registrations context earlier ++ new) →
    ∀ order again first second timeline changes between later after,
      syncPersistenceInventory none order context.ownerSid
        (collectPersistence digest context earlier first).items first (∅, timeline) =
          (.ok changes, between) →
      syncPersistenceInventory none again context.ownerSid
        (collectPersistence digest context machine second).items second between =
          (.ok later, after) →
      ∀ item ∈ (collectPersistence digest context machine second).items,
        item.id ∈ new.map (Registration.id digest) →
        (changesOf item.id second later).map TimelineEvent.action = ["added"]

theorem added_of_distinct
    (hdistinct : ∀ observedAt,
      ((collectedItems digest context machine observedAt).map PersistenceItem.id).Nodup) :
    OwnIds digest context machine := by
  refine ⟨hdistinct, ?_⟩
  intro earlier new hperm order again first second timeline changes between later after hfirst
    hsecond item hitem hnew
  have hids := hdistinct second
  rw [ids_collectedItems, (hperm.map (Registration.id digest)).nodup_iff, List.map_append,
    List.nodup_append] at hids
  obtain ⟨hearlier, -, hapart⟩ := hids
  -- the first comparison has stored no item with the id
  have hfirstIds : (registrations context earlier).map (Registration.id digest) =
      (collectedItems digest context earlier first).map PersistenceItem.id :=
    ids_collectedItems.symm
  rw [hfirstIds] at hearlier hapart
  have hgone :
      listedItem (collectPersistence digest context earlier first).items item.id = none := by
    refine listedItem_eq_none.mpr fun other hother hsame => ?_
    exact hapart _ (List.mem_map_of_mem (mem_inventory_of_mem hother)) _ hnew hsame
  have hunknown := (exactDiff_of_ok (nodup_inventory hearlier) hfirst).gone item.id hgone
  have hactions := (exactDiff_of_ok (nodup_inventory (hdistinct second)) hsecond).actions item.id
  rw [hunknown, listedItem_of_mem (nodup_inventory (hdistinct second)) hitem] at hactions
  exact hactions

/-- **Ids of their own**: the registrations have them just when the names differ within each
source. -/
theorem own_ids_iff (hdigest : Function.Injective digest) (context : PersistenceContext)
    (machine : StartupMachine) : OwnIds digest context machine ↔ SeparateNames machine := by
  constructor
  · intro hown
    exact (nodup_ids_iff hdigest "").mp (hown.distinct "")
  · intro hseparate
    exact added_of_distinct fun observedAt => (nodup_ids_iff hdigest observedAt).mpr hseparate

end step

/-- A machine on which nothing is registered, and everything can be read. -/
def bareMachine : StartupMachine where
  services := ⟨[], true⟩
  userRun _ := ⟨[], true⟩
  machineRun _ _ := ⟨[], true⟩
  powershell := none
  tasksError := none
  wmiError := none
  tasks := []
  commandLineConsumers := []
  activeScriptConsumers := []
  edge := ⟨[], true⟩
  chrome := ⟨[], true⟩
  firefox := ⟨[], true⟩

theorem separateNames_bareMachine : SeparateNames bareMachine := by
  constructor <;> simp [bareMachine, serviceRegistrations, listedServices, runPaths, runNames,
    listedTasks, listedCommandLines, listedActiveScripts, foundExtensions, foundAddons, Access.read,
    Access.readAll]

theorem own_ids_iff_bare : OwnIds id default bareMachine :=
  (own_ids_iff Function.injective_id default bareMachine).mpr separateNames_bareMachine

/-- Two permanent consumers of command lines. -/
def twoConsumers : StartupMachine :=
  { bareMachine with
    commandLineConsumers :=
      [⟨"Updater", "C:\\Windows\\System32\\cscript.exe", "update.js"⟩,
        ⟨"Helper", "C:\\Users\\Public\\helper.exe", "-q"⟩] }

/-- **Two consumers of one class have the same id.** -/
theorem consumers_share_id : ¬OwnIds id default twoConsumers := by
  intro hown
  have hseparate := (nodup_ids_iff Function.injective_id "").mp (hown.distinct "")
  exact absurd hseparate.commandLines (by decide)

end OpenGuard.Service
