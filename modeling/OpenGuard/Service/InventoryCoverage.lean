import OpenGuard.Service.Inventory

/-!
# Coverage and removals

A source that cannot be read gives no items, or fewer, and the comparison takes every stored item
that is not in the inventory for removed.

* `registeredItems`: what an inventory would hold if everything could be read and nothing was cut
  off.
* `Covered`: what is stored and still registered is read, and the rest belongs to sources that are
  open.
* `removals_covered`: in a run of such requests only what is gone from a covered source is reported
  as removed, and what is there all along is not reported at all.
* `timeout_removes`: a script that times out removes the tasks.
-/

namespace OpenGuard.Service

open OpenGuard.Lib OpenGuard.Domain OpenGuard.Storage OpenGuard.Windows

/-! ## What is registered -/

section granted

/-- The folder, all of it readable. -/
def grantedFolder (folder : ExtensionFolder) : ExtensionFolder :=
  { folder with
    versions := folder.versions.granted (List.map (Access.granted fun version =>
      { version with manifest := version.manifest.granted id })) }

/-- The profile, all of it readable. -/
def grantedProfile (profile : FirefoxProfile) : FirefoxProfile :=
  { profile with extensions := profile.extensions.granted id }

/-- The profiles of a browser, all of them readable. -/
def grantedProfiles (profiles : Access (List (Access BrowserProfile))) :
    Access (List (Access BrowserProfile)) :=
  profiles.granted (List.map (Access.granted (Access.granted (List.map
    (Access.granted grantedFolder)))))

/-- The machine, if everything could be read. -/
def grantedMachine (machine : StartupMachine) : StartupMachine :=
  { machine with
    services := machine.services.granted (List.map (Access.granted id))
    userRun := fun path => (machine.userRun path).granted (List.map (Access.granted id))
    machineRun := fun path view =>
      (machine.machineRun path view).granted (List.map (Access.granted id))
    powershell := none
    tasksError := none
    wmiError := none
    activeScriptConsumers := machine.activeScriptConsumers.map (Access.granted id)
    edge := grantedProfiles machine.edge
    chrome := grantedProfiles machine.chrome
    firefox := machine.firefox.granted (List.map (Access.granted grantedProfile)) }

end granted

section coverage

-- the first 12 bytes of the SHA-256 of a text, as hexadecimal
variable (digest : String → String) (context : PersistenceContext) (machine : StartupMachine)
  (observedAt : String)

/-- The keys of services that are read and would be listed without a bound. -/
def readServices : List ServiceKey :=
  match machine.services.read with
  | none => []
  | some keys => (Access.readAll keys).filter ServiceKey.isListed

/-- The items of everything that is read. -/
def readItems : List PersistenceItem :=
  (readServices machine).map (serviceItem digest observedAt) ++
    (collectRunKeys digest context machine observedAt).1 ++
    (collectTasksAndWmi digest machine observedAt).1 ++
    (collectBrowserExtensions digest context machine observedAt).1

/-- The items of everything that is registered. -/
def registeredItems : List PersistenceItem :=
  readItems digest context (grantedMachine machine) observedAt

/-- The source of the items of a category, as the coverage names it. -/
def coverageSource (category : String) : String :=
  if category ∈ ["driver", "service"] then "services_and_drivers"
  else if category ∈ ["run_key_user", "run_key_machine"] then "run_and_runonce"
  else if category = "scheduled_task" then "scheduled_tasks"
  else if category = "wmi_consumer" then "wmi_persistence"
  else "browser_extensions"

/-- The first read of the source of a category succeeds: the key of the services, one Run key, the
script and its command, or the search for the folders of the client. -/
def SourceOpen (category : String) : Prop :=
  if category ∈ ["driver", "service"] then machine.services.readable = true
  else if category ∈ ["run_key_user", "run_key_machine"] then
    ∃ key ∈ runKeys context.ownerSid machine, key.2.2.readable = true
  else if category = "scheduled_task" then
    machine.powershell = none ∧ machine.tasksError.getD "" = ""
  else if category = "wmi_consumer" then
    machine.powershell = none ∧ machine.wmiError.getD "" = ""
  else context.localAppData ≠ ""

/-- The inventory says that a source was covered. -/
def ReportedActive (inventory : PersistenceInventory) (source : String) : Prop :=
  ∃ note ∈ inventory.coverage, note.source = source ∧ note.state = .active

end coverage

section reported

variable {digest : String → String} {context : PersistenceContext} {machine : StartupMachine}
  {observedAt : String} {category : String}

theorem services_reported (digest : String → String) (observedAt : String)
    {services : Access (List (Access ServiceKey))} (h : services.readable = true) :
    ∃ note ∈ (collectServices digest services observedAt).2,
      note.source = "services_and_drivers" ∧ note.state = .active := by
  have hread : services.read = some services.content := if_pos h
  unfold collectServices
  rw [hread]
  exact ⟨_, List.mem_singleton_self _, rfl, rfl⟩

theorem runKeys_reported (digest : String → String) (observedAt : String)
    {category location : String} {key : RunKey}
    (hkey : (category, location, key) ∈ runKeys context.ownerSid machine)
    (h : key.readable = true) :
    ∃ note ∈ (collectRunKeys digest context machine observedAt).2,
      note.source = "run_and_runonce" ∧ note.state = .active := by
  refine ⟨_, List.mem_singleton_self _, rfl, if_neg fun hnone => ?_⟩
  have hread : key.read = some key.content := if_pos h
  have hempty := List.filterMap_eq_nil_iff.mp (List.eq_nil_of_length_eq_zero hnone) _ hkey
  dsimp only at hempty
  rw [hread] at hempty
  cases hempty

theorem script_reported (digest : String → String) (observedAt : String)
    (hpowershell : machine.powershell = none) :
    (machine.tasksError.getD "" = "" →
      ∃ note ∈ (collectTasksAndWmi digest machine observedAt).2,
        note.source = "scheduled_tasks" ∧ note.state = .active) ∧
    (machine.wmiError.getD "" = "" →
      ∃ note ∈ (collectTasksAndWmi digest machine observedAt).2,
        note.source = "wmi_persistence" ∧ note.state = .active) := by
  unfold collectTasksAndWmi runPowershellJson
  rw [hpowershell]
  constructor
  · intro h
    exact ⟨_, List.mem_cons_self, rfl, if_pos h⟩
  · intro h
    exact ⟨_, List.mem_cons_of_mem _ List.mem_cons_self, rfl, if_pos h⟩

/-- The inventory says of an open source that it was covered. -/
theorem reportedActive_of_open (h : SourceOpen context machine category) :
    ReportedActive (collectPersistence digest context machine observedAt)
      (coverageSource category) := by
  unfold SourceOpen at h
  unfold coverageSource ReportedActive collectPersistence
  simp only [List.mem_append]
  split_ifs at h ⊢
  · obtain ⟨note, hnote, hactive⟩ := services_reported digest observedAt h
    exact ⟨note, .inl (.inl (.inl hnote)), hactive⟩
  · obtain ⟨⟨_, _, key⟩, hkey, hreadable⟩ := h
    obtain ⟨note, hnote, hactive⟩ := runKeys_reported digest observedAt hkey hreadable
    exact ⟨note, .inl (.inl (.inr hnote)), hactive⟩
  · obtain ⟨note, hnote, hactive⟩ := (script_reported digest observedAt h.1).1 h.2
    exact ⟨note, .inl (.inr hnote), hactive⟩
  · obtain ⟨note, hnote, hactive⟩ := (script_reported digest observedAt h.1).2 h.2
    exact ⟨note, .inl (.inr hnote), hactive⟩
  · exact ⟨_, .inr (List.mem_singleton_self _), rfl, if_neg h⟩

/-- Where no more than 10,000 items are read, none is cut off. -/
theorem inventory_perm
    (h : (readItems digest context machine observedAt).length ≤ maxPersistenceItems) :
    (collectPersistence digest context machine observedAt).items.Perm
      (readItems digest context machine observedAt) := by
  have hservices : (collectServices digest machine.services observedAt).1 =
      (readServices machine).map (serviceItem digest observedAt) := by
    unfold readItems readServices at h
    unfold collectServices readServices
    cases hread : machine.services.read with
    | none => rfl
    | some keys =>
        rw [hread] at h
        simp only [List.length_append, List.length_map] at h
        refine congrArg (List.map _) (List.take_of_length_le ?_)
        omega
  have hcollected : collectedItems digest context machine observedAt =
      readItems digest context machine observedAt := by
    unfold collectedItems readItems
    rw [hservices]
  have hsorted := List.perm_insertionSort listedNoLater
    (collectedItems digest context machine observedAt)
  unfold collectPersistence
  dsimp only
  rw [List.take_of_length_le (by rw [hsorted.length_eq, hcollected]; exact h), ← hcollected]
  exact hsorted

end reported

/-! ## A request -/

section request

variable (digest : String → String) (ownerSid : String)

/-- What the request reads, and what is registered when it does. -/
def InventoryRequest.read (request : InventoryRequest) : List PersistenceItem :=
  readItems digest (request.context ownerSid) request.machine request.observedAt

def InventoryRequest.registered (request : InventoryRequest) : List PersistenceItem :=
  registeredItems digest (request.context ownerSid) request.machine request.observedAt

/-- The item is stored for the owner and counts as present. -/
def StoredActive (state : InventoryState) (id : String) (row : PersistenceRow) : Prop :=
  state.tables.1.lookup (ownerSid, id) = some row ∧ row.active = true

/-- Of the items that are stored as present, those that are still registered are read and not cut
off, and the others belong to open sources; and the names of the registrations differ. -/
structure Covered (state : InventoryState) (request : InventoryRequest) : Prop where
  uncut : ∀ id row, StoredActive ownerSid state id row →
    (request.read digest ownerSid).length ≤ maxPersistenceItems
  read : ∀ id row, StoredActive ownerSid state id row →
    ∀ item ∈ request.registered digest ownerSid, item.id = id →
      item ∈ request.read digest ownerSid
  opened : ∀ id row, StoredActive ownerSid state id row →
    (∀ item ∈ request.registered digest ownerSid, item.id ≠ id) →
      SourceOpen (request.context ownerSid) request.machine row.category
  separate : SeparateNames request.machine

/-- Each row that reports a removal is about an item that was stored as present, whose source was
covered, when nothing was cut off, and that is not in the inventory. -/
def RemovalsCovered (before after : InventoryState) (request : InventoryRequest) : Prop :=
  ∀ row ∈ rowsWritten before.tables after.tables, row.action = "removed" →
    ∃ id stored, row.correlationId = changeId id request.observedAt ∧
      StoredActive ownerSid before id stored ∧
      ReportedActive (request.inventory digest ownerSid) (coverageSource stored.category) ∧
      (request.inventory digest ownerSid).items.Perm (request.read digest ownerSid) ∧
      ∀ item ∈ (request.inventory digest ownerSid).items, item.id ≠ id

/-- The item is registered, with this command and state. -/
def Registered (request : InventoryRequest) (id command state : String) : Prop :=
  ∃ item ∈ request.registered digest ownerSid,
    item.id = id ∧ item.command = command ∧ item.state = state

/-- The item is stored as present, with this command and state. -/
def StoredAs (state : InventoryState) (id command start : String) : Prop :=
  ∃ row, StoredActive ownerSid state id row ∧ row.command = command ∧ row.state = start

/-- No row is about the item. -/
def Unreported (before after : InventoryState) (request : InventoryRequest) (id : String) : Prop :=
  ∀ row ∈ rowsWritten before.tables after.tables,
    row.correlationId ≠ changeId id request.observedAt

end request

section step

variable {digest : String → String} {ownerSid : String} {state : InventoryState}
  {request : InventoryRequest}

theorem expectedChange_removed {stored : Option PersistenceRow} {listed : Option PersistenceItem}
    (h : expectedChange stored listed = some "removed") :
    listed = none ∧ ∃ row, stored = some row ∧ row.active = true := by
  cases stored with
  | none => cases listed <;> simp [expectedChange] at h
  | some row =>
      cases listed with
      | none => exact ⟨rfl, row, rfl, by simpa [expectedChange] using h⟩
      | some item => simp [expectedChange] at h

/-- A row that a comparison writes is about an item and its change. -/
theorem change_of_written {items : List PersistenceItem} {before after : InventoryTables}
    {changes : List TimelineEvent} {observedAt : String} {row : TimelineRow}
    (h : ExactDiff ownerSid items observedAt before after changes)
    (hrow : row ∈ rowsWritten before after) :
    ∃ id, row.correlationId = changeId id observedAt ∧
      expectedChange (before.1.lookup (ownerSid, id)) (listedItem items id) = some row.action := by
  rw [rowsWritten_of_exactDiff h] at hrow
  obtain ⟨event, hevent, rfl⟩ := List.mem_map.mp hrow
  obtain ⟨id, hid⟩ := h.named event hevent
  refine ⟨id, hid, ?_⟩
  have hmem : event.action ∈ (changesOf id observedAt changes).map TimelineEvent.action :=
    List.mem_map_of_mem (List.mem_filter.mpr ⟨hevent, decide_eq_true hid⟩)
  rw [h.actions, Option.mem_toList] at hmem
  exact hmem

variable (hdigest : Function.Injective digest)
  (hcovered : request.cached ownerSid state = none → Covered digest ownerSid state request)

include hdigest hcovered

/-- What a request does that is covered: nothing, or an exact comparison. -/
theorem covered_step :
    (persistenceInventory digest ownerSid request state).2.tables = state.tables ∨
    Covered digest ownerSid state request ∧
      ((request.inventory digest ownerSid).items.map PersistenceItem.id).Nodup ∧
      ∃ changes, ExactDiff ownerSid (request.inventory digest ownerSid).items request.observedAt
        state.tables (persistenceInventory digest ownerSid request state).2.tables changes := by
  cases hcached : request.cached ownerSid state with
  | some cached =>
      refine .inl ?_
      unfold persistenceInventory
      rw [hcached]
  | none =>
      have hdistinct : ((request.inventory digest ownerSid).items.map PersistenceItem.id).Nodup :=
        nodup_inventory ((nodup_ids_iff hdigest request.observedAt).mpr (hcovered hcached).separate)
      rcases inventory_step hdistinct with hsame | hdiff
      · exact .inl hsame
      · exact .inr ⟨hcovered hcached, hdistinct, hdiff⟩

/-- **A covered request** reports as removed what is gone from a covered source. -/
theorem removals_of_covered : RemovalsCovered digest ownerSid state
    (persistenceInventory digest ownerSid request state).2 request := by
  intro row hrow hremoved
  rcases covered_step hdigest hcovered with hsame | ⟨hcovered, -, changes, hdiff⟩
  · rw [hsame, rowsWritten_self] at hrow
    cases hrow
  obtain ⟨id, hid, hchange⟩ := change_of_written hdiff hrow
  rw [hremoved] at hchange
  obtain ⟨hlisted, stored, hstored⟩ := expectedChange_removed hchange
  have hgone := listedItem_eq_none.mp hlisted
  have hperm := inventory_perm (hcovered.uncut id stored hstored)
  refine ⟨id, stored, hid, hstored, reportedActive_of_open ?_, hperm, hgone⟩
  refine hcovered.opened id stored hstored fun item hitem hsame => ?_
  exact hgone item (hperm.mem_iff.mpr (hcovered.read id stored hstored item hitem hsame)) hsame

/-- **A covered request** does not report what is there as it was, and keeps it. -/
theorem unreported_of_covered {id command start : String}
    (hstored : StoredAs ownerSid state id command start)
    (hregistered : Registered digest ownerSid request id command start) :
    Unreported state (persistenceInventory digest ownerSid request state).2 request id ∧
      StoredAs ownerSid (persistenceInventory digest ownerSid request state).2 id command
        start := by
  rcases covered_step hdigest hcovered with hsame | ⟨hcovered, hdistinct, changes, hdiff⟩
  · refine ⟨fun row hrow => ?_, ?_⟩
    · rw [hsame, rowsWritten_self] at hrow
      cases hrow
    · unfold StoredAs StoredActive
      rw [hsame]
      exact hstored
  obtain ⟨row, hactive, rfl, rfl⟩ := hstored
  obtain ⟨item, hitem, rfl, hcommand, hstate⟩ := hregistered
  have hread := hcovered.read item.id row hactive item hitem rfl
  have hin := (inventory_perm (hcovered.uncut item.id row hactive)).mem_iff.mpr hread
  refine ⟨fun written hwritten hsame => ?_, ?_⟩
  · obtain ⟨id, hid, hchange⟩ := change_of_written hdiff hwritten
    rw [changeId_inj (hid.symm.trans hsame), hactive.1, listedItem_of_mem hdistinct hin] at hchange
    -- the stored row has the command and the state of the item
    have hnone : expectedChange (some row) (some item) = none := by
      refine if_neg fun hchanged => ?_
      rcases hchanged with hinactive | hother | hother
      · exact Bool.false_ne_true (hinactive.symm.trans hactive.2)
      · exact hother hcommand.symm
      · exact hother hstate.symm
    rw [hnone] at hchange
    cases hchange
  · exact ⟨_, ⟨hdiff.listed item hin, rfl⟩, hcommand, hstate⟩

end step

/-! ## Runs -/

section runs

variable {digest : String → String} {ownerSid : String}

/-- The state after some requests of the owner. -/
def afterRequests (digest : String → String) (ownerSid : String) (state : InventoryState)
    (requests : List InventoryRequest) : InventoryState :=
  requests.foldl (fun state request => (persistenceInventory digest ownerSid request state).2) state

/-- In a run, what is reported as removed is gone from a covered source, and what is registered all
along, once it is stored, is not reported. -/
structure CoverageKept (digest : String → String) (ownerSid : String) (state : InventoryState)
    (requests : List InventoryRequest) : Prop where
  removals : ∀ past request later, requests = past ++ request :: later →
    RemovalsCovered digest ownerSid (afterRequests digest ownerSid state past)
      (afterRequests digest ownerSid state (past ++ [request])) request
  present : ∀ past since request later, requests = past ++ since ++ request :: later →
    ∀ id command start,
      StoredAs ownerSid (afterRequests digest ownerSid state past) id command start →
      (∀ other ∈ since ++ [request], Registered digest ownerSid other id command start) →
      Unreported (afterRequests digest ownerSid state (past ++ since))
        (afterRequests digest ownerSid state (past ++ since ++ [request])) request id

theorem afterRequests_concat (state : InventoryState) (requests : List InventoryRequest)
    (request : InventoryRequest) :
    afterRequests digest ownerSid state (requests ++ [request]) =
      (persistenceInventory digest ownerSid request
        (afterRequests digest ownerSid state requests)).2 :=
  List.foldl_append

/-- **Coverage and removals**: a run of requests that are covered, but for those that are answered
from the cache, reports only removals from covered sources, and nothing of what is there all
along. -/
theorem removals_covered (hdigest : Function.Injective digest) (ownerSid : String)
    (state : InventoryState) (requests : List InventoryRequest)
    (hcovered : ∀ past request later, requests = past ++ request :: later →
      request.cached ownerSid (afterRequests digest ownerSid state past) = none →
        Covered digest ownerSid (afterRequests digest ownerSid state past) request) :
    CoverageKept digest ownerSid state requests := by
  refine ⟨fun past request later hsplit => ?_, ?_⟩
  · rw [afterRequests_concat]
    exact removals_of_covered hdigest (hcovered past request later hsplit)
  intro past since request later hsplit id command start hstored hregistered
  -- the item stays stored as it is, request by request
  have hkept : ∀ done rest, since = done ++ rest →
      StoredAs ownerSid (afterRequests digest ownerSid state (past ++ done)) id command start := by
    intro done
    induction done using List.reverseRecOn with
    | nil =>
        intro rest _
        rw [List.append_nil]
        exact hstored
    | append_singleton done next ih =>
        intro rest hsince
        rw [List.append_assoc, List.singleton_append] at hsince
        have hnext : Registered digest ownerSid next id command start := by
          apply hregistered
          rw [hsince]
          simp
        rw [← List.append_assoc, afterRequests_concat]
        refine (unreported_of_covered hdigest (hcovered (past ++ done) next
          (rest ++ request :: later) ?_) (ih _ hsince) hnext).2
        rw [hsplit, hsince]
        simp
  rw [afterRequests_concat]
  refine (unreported_of_covered hdigest (hcovered (past ++ since) request later hsplit)
    (hkept since [] (List.append_nil since).symm) (hregistered request ?_)).1
  exact List.mem_append_right _ List.mem_cons_self

end runs

/-! ## A script that fails -/

/-- A task that is ready, on a machine that has no other registration. -/
def updaterTask : ScheduledTask := ⟨"\\", "Updater", [("C:\\Updater\\update.exe", "")], .ready⟩

/-- A request for a fresh inventory of a machine with the task; the script fails with an error, if
there is one. -/
def updaterRequest (powershell : Option String) : InventoryRequest where
  refresh := true
  userProfile := "C:\\Users\\Ann"
  localAppData := "C:\\Users\\Ann\\AppData\\Local"
  roamingAppData := "C:\\Users\\Ann\\AppData\\Roaming"
  machine := { bareMachine with tasks := [updaterTask], powershell }
  observedAt := "unix:1"
  fault := none
  order := .stored

/-- The item of the task. -/
def updaterItem : PersistenceItem := powerShellItem id "unix:1" (taskEntry updaterTask)

/-- Nothing is stored. -/
def emptyInventory : InventoryState := ⟨(∅, .empty), ∅⟩

theorem read_updaterRequest :
    (updaterRequest none).read id "S-1" = [updaterItem] ∧
      ∀ error, (updaterRequest (some error)).read id "S-1" = [] :=
  ⟨rfl, fun _ => rfl⟩

theorem separateNames_updaterRequest (powershell : Option String) :
    SeparateNames (updaterRequest powershell).machine := by
  refine ⟨separateNames_bareMachine.services, separateNames_bareMachine.userRun,
    separateNames_bareMachine.machineRun, ?_, ?_, ?_, separateNames_bareMachine.edge,
    separateNames_bareMachine.chrome, separateNames_bareMachine.firefox⟩
  all_goals cases powershell <;> simp [updaterRequest, bareMachine, listedTasks,
    listedCommandLines, listedActiveScripts, Access.readAll]

/-- The first request stores the task. -/
theorem exactDiff_updater (powershell : Option String) (state : InventoryState) :
    ∃ changes, ExactDiff "S-1" ((updaterRequest powershell).inventory id "S-1").items "unix:1"
      state.tables
      (persistenceInventory id "S-1" (updaterRequest powershell) state).2.tables changes :=
  inventory_commit rfl rfl (nodup_inventory
    ((nodup_ids_iff Function.injective_id "unix:1").mpr (separateNames_updaterRequest powershell)))

theorem items_updaterRequest :
    ((updaterRequest none).inventory id "S-1").items = [updaterItem] ∧
      ∀ error, ((updaterRequest (some error)).inventory id "S-1").items = [] :=
  ⟨rfl, fun _ => rfl⟩

theorem stored_updater {key : String} {row : PersistenceRow}
    (h : StoredActive "S-1" (afterRequests id "S-1" emptyInventory [updaterRequest none]) key row) :
    key = updaterItem.id ∧ row.category = "scheduled_task" := by
  obtain ⟨changes, hdiff⟩ := exactDiff_updater none emptyInventory
  rw [items_updaterRequest.1] at hdiff
  have hlookup := h.1
  by_cases hkey : updaterItem.id = key
  · subst hkey
    have hrow := hlookup.symm.trans (hdiff.listed updaterItem List.mem_cons_self)
    rw [Option.some.inj hrow]
    exact ⟨rfl, rfl⟩
  · have hgone : listedItem [updaterItem] key = none :=
      listedItem_eq_none.mpr fun item hitem => by rwa [List.mem_singleton.mp hitem]
    have hrow := hlookup.symm.trans (hdiff.gone key hgone)
    cases hrow

/-- **A task that is read twice** is not reported as removed. -/
theorem removals_covered_updater :
    CoverageKept id "S-1" emptyInventory [updaterRequest none, updaterRequest none] := by
  refine removals_covered Function.injective_id "S-1" emptyInventory _ ?_
  intro past request later hsplit _
  have hrequest : request = updaterRequest none := by
    have hmem : request ∈ [updaterRequest none, updaterRequest none] := by
      rw [hsplit]
      exact List.mem_append_right _ List.mem_cons_self
    simpa using hmem
  subst hrequest
  have hopen : ∀ key row,
      StoredActive "S-1" (afterRequests id "S-1" emptyInventory past) key row →
        row.category = "scheduled_task" := by
    intro key row hrow
    cases past with
    | nil => cases hrow.1
    | cons first past =>
        obtain ⟨rfl, hrest⟩ := List.cons.inj hsplit
        cases past with
        | nil => exact (stored_updater hrow).2
        | cons second past => cases past <;> simp at hrest
  refine ⟨fun _ _ _ => ?_, fun _ _ _ item hitem _ => hitem, fun key row hrow _ => ?_,
    separateNames_updaterRequest none⟩
  · rw [read_updaterRequest.1]
    simp [maxPersistenceItems]
  · rw [hopen key row hrow]
    exact ⟨rfl, rfl⟩

/-- A script that timed out. -/
def timedOut : InventoryRequest :=
  updaterRequest (some "persistence inventory timed out after 15 seconds")

theorem not_reportedActive_timedOut :
    ¬ReportedActive (timedOut.inventory id "S-1") "scheduled_tasks" := by
  rintro ⟨note, hnote, hsource, hactive⟩
  have hcoverage : (timedOut.inventory id "S-1").coverage =
      [⟨"services_and_drivers", .active,
          "Inventoried " ++ toString 0 ++ " enabled service and driver registrations"⟩,
        ⟨"run_and_runonce", .active, "Read " ++ toString 6 ++
          " visible Run/RunOnce keys and found " ++ toString 0 ++ " values"⟩,
        unavailable "scheduled_tasks" "persistence inventory timed out after 15 seconds",
        unavailable "wmi_persistence" "persistence inventory timed out after 15 seconds",
        ⟨"browser_extensions", .active,
          "Inventoried " ++ toString 0 ++ " Chrome, Edge, and Firefox extension registrations"⟩] :=
    rfl
  rw [hcoverage] at hnote
  simp only [List.mem_cons, List.not_mem_nil, or_false] at hnote
  rcases hnote with rfl | rfl | rfl | rfl | rfl
  · exact absurd hsource (by simp)
  · exact absurd hsource (by simp)
  · cases hactive
  · cases hactive
  · exact absurd hsource (by simp)

/-- **A script that times out**: the task is reported as removed, although the inventory says that
the tasks were not covered. -/
theorem timeout_removes :
    ¬CoverageKept id "S-1" emptyInventory [updaterRequest none, timedOut] := by
  intro hkept
  have hremovals := hkept.removals [updaterRequest none] timedOut [] rfl
  obtain ⟨first, hfirst⟩ := exactDiff_updater none emptyInventory
  obtain ⟨changes, hdiff⟩ := exactDiff_updater
    (some "persistence inventory timed out after 15 seconds")
    (afterRequests id "S-1" emptyInventory [updaterRequest none])
  rw [items_updaterRequest.1] at hfirst
  -- the second comparison has one change of the task
  have hactions := hdiff.actions updaterItem.id
  have hstored := hfirst.listed updaterItem List.mem_cons_self
  rw [items_updaterRequest.2] at hactions
  have hchange : expectedChange ((afterRequests id "S-1" emptyInventory
      [updaterRequest none]).tables.1.lookup ("S-1", updaterItem.id)) (listedItem [] updaterItem.id) =
      some "removed" := (congrArg (fun row => expectedChange row none) hstored).trans rfl
  rw [hchange] at hactions
  obtain ⟨event, hevent, hremoved⟩ : ∃ event ∈ changesOf updaterItem.id "unix:1" changes,
      event.action = "removed" := by
    apply List.mem_map.mp
    rw [hactions]
    exact List.mem_singleton_self _
  have hrow : TimelineRow.ofEvent "S-1" event ∈
      rowsWritten (afterRequests id "S-1" emptyInventory [updaterRequest none]).tables
        (afterRequests id "S-1" emptyInventory ([updaterRequest none] ++ [timedOut])).tables := by
    rw [afterRequests_concat, timedOut, rowsWritten_of_exactDiff hdiff]
    exact List.mem_map_of_mem (List.mem_of_mem_filter hevent)
  obtain ⟨key, row, -, hactive, hreported, -⟩ := hremovals _ hrow hremoved
  rw [(stored_updater hactive).2] at hreported
  exact not_reportedActive_timedOut hreported

end OpenGuard.Service
