import OpenGuard.Windows.Persistence

/-!
# The ids of the registrations

The id of an item is made of its category and a digest of the category and one text, which each
source takes from another part of the registration.

* `registrations`: these categories and texts, in the order of the collection.
* `stableId_inj`: the ids separate them up to the case of their letters, if the digest is injective.
* `SeparateNames`: what has to differ within each source; `nodup_ids_iff`: all ids differ just then.
-/

namespace OpenGuard.Windows

open OpenGuard.Lib OpenGuard.Domain

/-! ## The texts -/

/-- The category and the text from which an id is made. -/
abbrev Registration := String × String

/-- What an id keeps of a registration. -/
def Registration.key (registration : Registration) : String × String :=
  (registration.1, toAsciiLowercase registration.2)

section registrations

variable (context : PersistenceContext) (machine : StartupMachine)

/-- The services and drivers that are listed. -/
def serviceRegistrations : List Registration :=
  match machine.services.read with
  | none => []
  | some keys => (listedServices keys).map fun key => (key.category, key.name)

/-- The names of the values of a Run key that are texts. -/
def runNames (key : RunKey) : List String :=
  match key.read with
  | none => []
  | some values =>
      (Access.readAll values).filterMap fun value => value.command.map fun _ => value.name

/-- The values of a Run key. -/
def keyRegistrations (category location : String) (key : RunKey) : List Registration :=
  (runNames key).map fun name => (category, location ++ "|" ++ name)

def runRegistrations : List Registration :=
  (runKeys context.ownerSid machine).flatMap fun (category, location, key) =>
    keyRegistrations category location key

/-- The tasks that the script lists. -/
def listedTasks : List ScheduledTask :=
  if machine.powershell.isNone && machine.tasksError.isNone then machine.tasks else []

/-- The consumers of command lines that the script lists. -/
def listedCommandLines : List CommandLineConsumer :=
  if machine.powershell.isNone && machine.wmiError.isNone then machine.commandLineConsumers else []

/-- The consumers of scripts that the script lists. -/
def listedActiveScripts : List ActiveScriptConsumer :=
  if machine.powershell.isNone && machine.wmiError.isNone then
    Access.readAll machine.activeScriptConsumers
  else []

def taskRegistrations : List Registration :=
  (listedTasks machine).map fun task => ("scheduled_task", task.taskPath ++ task.taskName)

def commandLineRegistrations : List Registration :=
  (listedCommandLines machine).map fun _ =>
    ("wmi_consumer", "root/subscription:CommandLineEventConsumer")

def activeScriptRegistrations : List Registration :=
  (listedActiveScripts machine).map fun _ =>
    ("wmi_consumer", "root/subscription:ActiveScriptEventConsumer")

/-- The extensions of a browser of which a manifest is found, over all of its profiles. -/
def foundExtensions (profiles : Access (List (Access BrowserProfile))) : List ExtensionFolder :=
  match profiles.read with
  | none => []
  | some profiles =>
      (Access.readAll profiles).flatMap fun profile =>
        match profile.read with
        | none => []
        | some folders =>
            (Access.readAll folders).filter fun folder => (foundManifest folder).isSome

def browserRegistrations (category : String) (profiles : Access (List (Access BrowserProfile))) :
    List Registration :=
  (foundExtensions profiles).map fun folder => (category, folder.name)

/-- The ids of the active add-ons of Firefox, over all of its profiles. -/
def foundAddons (profiles : Access (List (Access FirefoxProfile))) : List String :=
  match profiles.read with
  | none => []
  | some profiles =>
      (Access.readAll profiles).flatMap fun profile =>
        match profile.extensions.read with
        | none => []
        | some document => (activeAddons document).map addonId

def firefoxRegistrations : List Registration :=
  (foundAddons machine.firefox).map fun id => ("firefox_extension", id)

/-- All registrations that are collected. -/
def registrations : List Registration :=
  serviceRegistrations machine ++ runRegistrations context machine ++
    (taskRegistrations machine ++ commandLineRegistrations machine ++
      activeScriptRegistrations machine) ++
    (browserRegistrations "edge_extension" machine.edge ++
      browserRegistrations "chrome_extension" machine.chrome ++ firefoxRegistrations machine)

end registrations

/-! ## The ids -/

section ids

variable {digest : String → String} {context : PersistenceContext} {machine : StartupMachine}
  {observedAt : String}

/-- The id of a registration. -/
def Registration.id (digest : String → String) (registration : Registration) : String :=
  stableId digest registration.1 registration.2

theorem ids_collectServices :
    (collectServices digest machine.services observedAt).1.map PersistenceItem.id =
      (serviceRegistrations machine).map (Registration.id digest) := by
  unfold collectServices serviceRegistrations
  cases machine.services.read with
  | none => rfl
  | some keys =>
      rw [List.map_map, List.map_map]
      rfl

theorem ids_collectRunKeys :
    (collectRunKeys digest context machine observedAt).1.map PersistenceItem.id =
      (runRegistrations context machine).map (Registration.id digest) := by
  unfold collectRunKeys runRegistrations
  dsimp only
  induction runKeys context.ownerSid machine with
  | nil => rfl
  | cons key keys ih =>
      obtain ⟨category, location, key⟩ := key
      rw [List.flatMap_cons, List.map_append, ← ih, keyRegistrations, runNames]
      cases hread : key.read with
      | none =>
          rw [List.filterMap_cons_none (by rw [hread]; rfl)]
          rfl
      | some values =>
          rw [List.filterMap_cons_some (by rw [hread]; rfl), List.flatMap_cons, List.map_append]
          refine congrArg (· ++ _) ?_
          rw [collectRunValues, List.map_filterMap, List.map_map, List.map_filterMap]
          refine List.filterMap_congr fun value _ => ?_
          cases value.command <;> rfl

theorem ids_collectTasksAndWmi :
    (collectTasksAndWmi digest machine observedAt).1.map PersistenceItem.id =
      (taskRegistrations machine ++ commandLineRegistrations machine ++
        activeScriptRegistrations machine).map (Registration.id digest) := by
  unfold collectTasksAndWmi runPowershellJson taskRegistrations commandLineRegistrations
    activeScriptRegistrations listedTasks listedCommandLines listedActiveScripts
  cases machine.powershell with
  | some error => rfl
  | none =>
      unfold inventoryScript
      simp only [List.map_append, List.append_assoc]
      refine congrArg₂ _ ?_ ?_
      · cases machine.tasksError with
        | some error => rfl
        | none =>
            simp only [Option.isNone_none, Bool.and_self, if_true, List.map_map]
            rfl
      · cases machine.wmiError with
        | some error => rfl
        | none =>
            simp only [Option.isNone_none, Bool.and_self, if_true, List.map_append, List.map_map]
            rfl

theorem ids_browserItems {category : String} {profiles : Access (List (Access BrowserProfile))} :
    (browserItems digest category observedAt profiles).map PersistenceItem.id =
      (browserRegistrations category profiles).map (Registration.id digest) := by
  unfold browserItems browserRegistrations foundExtensions
  cases profiles.read with
  | none => rfl
  | some profiles =>
      rw [List.map_flatMap, List.map_map, List.map_flatMap]
      refine List.flatMap_congr fun profile _ => ?_
      cases profile.read with
      | none => rfl
      | some folders =>
          rw [List.map_filterMap, ← List.filterMap_eq_map, List.filterMap_filter]
          refine List.filterMap_congr fun folder _ => ?_
          cases foundManifest folder <;> rfl

theorem ids_firefoxItems : (firefoxItems digest observedAt machine.firefox).map PersistenceItem.id =
    (firefoxRegistrations machine).map (Registration.id digest) := by
  unfold firefoxItems firefoxRegistrations foundAddons
  cases machine.firefox.read with
  | none => rfl
  | some profiles =>
      rw [List.map_flatMap, List.map_map, List.map_flatMap]
      refine List.flatMap_congr fun profile _ => ?_
      cases profile.extensions.read with
      | none => rfl
      | some document =>
          rw [List.map_map, List.map_map]
          rfl

/-- The ids of the items are those of the registrations. -/
theorem ids_collectedItems :
    (collectedItems digest context machine observedAt).map PersistenceItem.id =
      (registrations context machine).map (Registration.id digest) := by
  unfold collectedItems registrations collectBrowserExtensions
  dsimp only
  simp only [List.map_append]
  rw [ids_collectServices, ids_collectRunKeys, ids_collectTasksAndWmi, ids_browserItems,
    ids_browserItems, ids_firefoxItems]
  simp only [List.map_append]

end ids

/-! ## The categories -/

section categories

variable {digest : String → String} {context : PersistenceContext} {machine : StartupMachine}
  {registration : Registration}

/-- The categories of the registrations. -/
def categories : List String :=
  ["driver", "service", "run_key_user", "run_key_machine", "scheduled_task", "wmi_consumer",
    "edge_extension", "chrome_extension", "firefox_extension"]

theorem dash_not_mem_categories : ∀ category ∈ categories, '-' ∉ category.toList := by decide

theorem category_service (h : registration ∈ serviceRegistrations machine) :
    registration.1 ∈ ["driver", "service"] := by
  unfold serviceRegistrations at h
  cases hread : machine.services.read with
  | none =>
      rw [hread] at h
      cases h
  | some keys =>
      rw [hread] at h
      obtain ⟨key, -, rfl⟩ := List.mem_map.mp h
      show (if _ then "driver" else "service") ∈ _
      split_ifs
      · exact List.mem_cons_self
      · exact List.mem_cons_of_mem _ List.mem_cons_self

theorem category_keyRegistrations {category location : String} {key : RunKey}
    (h : registration ∈ keyRegistrations category location key) : registration.1 = category := by
  obtain ⟨name, -, rfl⟩ := List.mem_map.mp h
  rfl

theorem category_run (h : registration ∈ runRegistrations context machine) :
    registration.1 ∈ ["run_key_user", "run_key_machine"] := by
  obtain ⟨⟨category, location, key⟩, hkey, hmem⟩ := List.mem_flatMap.mp h
  obtain ⟨path, -, hkey⟩ := List.mem_flatMap.mp hkey
  have hcategory := category_keyRegistrations hmem
  simp only [List.mem_cons, Prod.mk.injEq, List.not_mem_nil, or_false] at hkey
  rcases hkey with ⟨rfl, -⟩ | ⟨rfl, -⟩ | ⟨rfl, -⟩ <;> simp [hcategory]

theorem category_task (h : registration ∈ taskRegistrations machine) :
    registration.1 = "scheduled_task" := by
  obtain ⟨task, -, rfl⟩ := List.mem_map.mp h
  rfl

theorem commandLine_eq (h : registration ∈ commandLineRegistrations machine) :
    registration = ("wmi_consumer", "root/subscription:CommandLineEventConsumer") := by
  obtain ⟨consumer, -, rfl⟩ := List.mem_map.mp h
  rfl

theorem activeScript_eq (h : registration ∈ activeScriptRegistrations machine) :
    registration = ("wmi_consumer", "root/subscription:ActiveScriptEventConsumer") := by
  obtain ⟨consumer, -, rfl⟩ := List.mem_map.mp h
  rfl

theorem category_browser {category : String} {profiles : Access (List (Access BrowserProfile))}
    (h : registration ∈ browserRegistrations category profiles) : registration.1 = category := by
  obtain ⟨folder, -, rfl⟩ := List.mem_map.mp h
  rfl

theorem category_firefox (h : registration ∈ firefoxRegistrations machine) :
    registration.1 = "firefox_extension" := by
  obtain ⟨id, -, rfl⟩ := List.mem_map.mp h
  rfl

theorem category_script (h : registration ∈ taskRegistrations machine ++
    commandLineRegistrations machine ++ activeScriptRegistrations machine) :
    registration.1 ∈ ["scheduled_task", "wmi_consumer"] := by
  rw [List.mem_append, List.mem_append] at h
  rcases h with (h | h) | h
  · simp [category_task h]
  · simp [commandLine_eq h]
  · simp [activeScript_eq h]

theorem category_extension (h : registration ∈ browserRegistrations "edge_extension" machine.edge ++
    browserRegistrations "chrome_extension" machine.chrome ++ firefoxRegistrations machine) :
    registration.1 ∈ ["edge_extension", "chrome_extension", "firefox_extension"] := by
  rw [List.mem_append, List.mem_append] at h
  rcases h with (h | h) | h
  · simp [category_browser h]
  · simp [category_browser h]
  · simp [category_firefox h]

theorem category_mem_categories (h : registration ∈ registrations context machine) :
    registration.1 ∈ categories := by
  unfold registrations at h
  rw [List.mem_append, List.mem_append, List.mem_append] at h
  have hparts : ["driver", "service"] ⊆ categories ∧
      ["run_key_user", "run_key_machine"] ⊆ categories ∧
      ["scheduled_task", "wmi_consumer"] ⊆ categories ∧
      ["edge_extension", "chrome_extension", "firefox_extension"] ⊆ categories := by decide
  rcases h with ((h | h) | h) | h
  · exact hparts.1 (category_service h)
  · exact hparts.2.1 (category_run h)
  · exact hparts.2.2.1 (category_script h)
  · exact hparts.2.2.2 (category_extension h)

/-- Ids that are the same are made of the same category and, but for the case of the letters, of the
same text. -/
theorem stableId_inj (hdigest : Function.Injective digest) {category category' text text' : String}
    (hcategory : category ∈ categories) (hcategory' : category' ∈ categories) :
    stableId digest category text = stableId digest category' text' ↔
      category = category' ∧ toAsciiLowercase text = toAsciiLowercase text' := by
  constructor
  · intro h
    unfold stableId at h
    have hchars := congrArg String.toList h
    simp only [String.toList_append, List.append_assoc] at hchars
    obtain ⟨hsame, hdigits⟩ := split_at_separator (dash_not_mem_categories _ hcategory)
      (dash_not_mem_categories _ hcategory') hchars
    have hcategories : category = category' := String.toList_inj.mp hsame
    have htexts := hdigest (String.toList_inj.mp hdigits)
    rw [hcategories] at htexts
    exact ⟨hcategories, (String.append_right_inj _).mp htexts⟩
  · rintro ⟨rfl, htext⟩
    unfold stableId
    rw [htext]

/-- The ids differ when the keys do. -/
theorem nodup_ids_iff_keys (hdigest : Function.Injective digest) :
    ((registrations context machine).map (Registration.id digest)).Nodup ↔
      ((registrations context machine).map Registration.key).Nodup := by
  rw [List.Nodup, List.Nodup, List.pairwise_map, List.pairwise_map]
  refine List.Pairwise.iff_of_mem fun hfirst hsecond => not_congr ?_
  exact (stableId_inj hdigest (category_mem_categories hfirst)
    (category_mem_categories hsecond)).trans Prod.mk_inj.symm

end categories

/-! ## What has to differ -/

/-- Within each source, what the ids are made of differs by more than the case of letters. -/
structure SeparateNames (machine : StartupMachine) : Prop where
  services : ((serviceRegistrations machine).map Registration.key).Nodup
  userRun : ∀ path ∈ runPaths, ((runNames (machine.userRun path)).map toAsciiLowercase).Nodup
  machineRun : ∀ path ∈ runPaths,
    ((runNames (machine.machineRun path .wow64) ++ runNames (machine.machineRun path .wow32)).map
      toAsciiLowercase).Nodup
  tasks : ((listedTasks machine).map fun task =>
    toAsciiLowercase (task.taskPath ++ task.taskName)).Nodup
  commandLines : (listedCommandLines machine).length ≤ 1
  activeScripts : (listedActiveScripts machine).length ≤ 1
  edge : ((foundExtensions machine.edge).map fun folder => toAsciiLowercase folder.name).Nodup
  chrome : ((foundExtensions machine.chrome).map fun folder => toAsciiLowercase folder.name).Nodup
  firefox : ((foundAddons machine.firefox).map toAsciiLowercase).Nodup

section separate

variable {context : PersistenceContext} {machine : StartupMachine}

/-- Lists without a common element. -/
theorem nodup_append_of_ne {α : Type*} {l m : List α} (h : ∀ a ∈ l, ∀ b ∈ m, a ≠ b) :
    (l ++ m).Nodup ↔ l.Nodup ∧ m.Nodup := by
  rw [List.nodup_append]
  exact ⟨fun hall => ⟨hall.1, hall.2.1⟩, fun hall => ⟨hall.1, hall.2, h⟩⟩

/-- Registrations of other categories. -/
theorem nodup_keys_append {first second : List Registration} (own other : List String)
    (hfirst : ∀ registration ∈ first, registration.1 ∈ own)
    (hsecond : ∀ registration ∈ second, registration.1 ∈ other)
    (hdisjoint : ∀ category ∈ own, category ∉ other) :
    ((first ++ second).map Registration.key).Nodup ↔
      (first.map Registration.key).Nodup ∧ (second.map Registration.key).Nodup := by
  rw [List.map_append]
  refine nodup_append_of_ne fun key hkey key' hkey' hsame => ?_
  obtain ⟨registration, hmem, rfl⟩ := List.mem_map.mp hkey
  obtain ⟨registration', hmem', rfl⟩ := List.mem_map.mp hkey'
  have hcategory : registration.1 = registration'.1 := (Prod.mk_inj.mp hsame).1
  refine hdisjoint _ (hfirst _ hmem) ?_
  rw [hcategory]
  exact hsecond _ hmem'

/-- Registrations of one category. -/
theorem nodup_keys_map {α : Type*} {l : List α} {category : String} {text : α → String} :
    ((l.map fun a => (category, text a)).map Registration.key).Nodup ↔
      (l.map fun a => toAsciiLowercase (text a)).Nodup := by
  rw [List.map_map, List.Nodup, List.Nodup, List.pairwise_map, List.pairwise_map]
  refine List.Pairwise.iff_of_mem fun _ _ => not_congr ?_
  exact Prod.mk_inj.trans (and_iff_right rfl)

/-- Registrations of one category whose texts continue one text. -/
theorem nodup_keys_iff_names {category front : String} {names : List String} :
    ((names.map fun name => (category, front ++ name)).map Registration.key).Nodup ↔
      (names.map toAsciiLowercase).Nodup := by
  rw [nodup_keys_map]
  unfold List.Nodup
  rw [List.pairwise_map, List.pairwise_map]
  refine List.Pairwise.iff_of_mem fun _ _ => not_congr ?_
  rw [toAsciiLowercase_append, toAsciiLowercase_append]
  exact String.append_right_inj _

theorem nodup_replicate_keys {α : Type*} {l : List α} {registration : Registration} :
    ((l.map fun _ => registration).map Registration.key).Nodup ↔ l.length ≤ 1 := by
  rw [List.map_map]
  exact (iff_of_eq (congrArg List.Nodup (List.map_const' ..))).trans List.nodup_replicate

/-- The values of the Run keys of a path: those of the user, and those of the machine in both
views. -/
def userRegistrations (ownerSid : String) (machine : StartupMachine) (path : String) :
    List Registration :=
  (runNames (machine.userRun path)).map fun name =>
    ("run_key_user", "HKU\\" ++ ownerSid ++ "\\" ++ path ++ "|" ++ name)

def machineRegistrations (machine : StartupMachine) (path : String) : List Registration :=
  (runNames (machine.machineRun path .wow64) ++ runNames (machine.machineRun path .wow32)).map
    fun name => ("run_key_machine", "HKLM\\" ++ path ++ "|" ++ name)

theorem runRegistrations_eq : runRegistrations context machine = runPaths.flatMap fun path =>
    userRegistrations context.ownerSid machine path ++ machineRegistrations machine path := by
  unfold runRegistrations runKeys
  rw [List.flatMap_assoc]
  refine List.flatMap_congr fun path _ => ?_
  rw [List.flatMap_cons, List.flatMap_cons, List.flatMap_cons, List.flatMap_nil, List.append_nil,
    machineRegistrations, List.map_append]
  rfl

/-- Values below the two paths have different texts. -/
theorem runOnce_text_ne {front run once name name' : String}
    (hlower : toAsciiLowercase once = toAsciiLowercase run ++ "once") :
    toAsciiLowercase (front ++ run ++ "|" ++ name) ≠
      toAsciiLowercase (front ++ once ++ "|" ++ name') := by
  intro hsame
  rw [toAsciiLowercase_append, toAsciiLowercase_append, toAsciiLowercase_append,
    toAsciiLowercase_append, toAsciiLowercase_append, toAsciiLowercase_append, hlower] at hsame
  have hchars := congrArg String.toList hsame
  simp only [String.toList_append, List.append_assoc] at hchars
  have hnext := List.append_cancel_left (List.append_cancel_left hchars)
  have hhead := congrArg List.head? hnext
  revert hhead
  simp [toAsciiLowercase]

/-- The registrations of the Run keys have different keys when the values have different names,
those of the machine over both views. -/
theorem nodup_run_iff : ((runRegistrations context machine).map Registration.key).Nodup ↔
    (∀ path ∈ runPaths, ((runNames (machine.userRun path)).map toAsciiLowercase).Nodup) ∧
    ∀ path ∈ runPaths,
      ((runNames (machine.machineRun path .wow64) ++
        runNames (machine.machineRun path .wow32)).map toAsciiLowercase).Nodup := by
  obtain ⟨run, once, hpaths, hlower⟩ : ∃ run once, runPaths = [run, once] ∧
      toAsciiLowercase once = toAsciiLowercase run ++ "once" := ⟨_, _, rfl, by decide⟩
  have hpath : ∀ path, ((userRegistrations context.ownerSid machine path ++
      machineRegistrations machine path).map Registration.key).Nodup ↔
      ((runNames (machine.userRun path)).map toAsciiLowercase).Nodup ∧
        ((runNames (machine.machineRun path .wow64) ++
          runNames (machine.machineRun path .wow32)).map toAsciiLowercase).Nodup := by
    intro path
    refine (nodup_keys_append ["run_key_user"] ["run_key_machine"] ?_ ?_ (by decide)).trans
      (and_congr nodup_keys_iff_names nodup_keys_iff_names)
    · intro registration hmem
      obtain ⟨name, -, rfl⟩ := List.mem_map.mp hmem
      exact List.mem_cons_self
    · intro registration hmem
      obtain ⟨name, -, rfl⟩ := List.mem_map.mp hmem
      exact List.mem_cons_self
  rw [runRegistrations_eq, hpaths, List.flatMap_cons, List.flatMap_cons, List.flatMap_nil,
    List.append_nil, List.map_append, nodup_append_of_ne, hpath, hpath]
  · rw [List.forall_mem_cons, List.forall_mem_singleton, List.forall_mem_cons,
      List.forall_mem_singleton]
    exact and_and_and_comm
  · -- a value below one path and a value below the other
    intro key hkey key' hkey' hsame
    obtain ⟨registration, hmem, rfl⟩ := List.mem_map.mp hkey
    obtain ⟨registration', hmem', rfl⟩ := List.mem_map.mp hkey'
    obtain ⟨hcategory, htext⟩ := Prod.mk_inj.mp hsame
    rcases List.mem_append.mp hmem with hmem | hmem <;>
      rcases List.mem_append.mp hmem' with hmem' | hmem' <;>
      obtain ⟨name, -, rfl⟩ := List.mem_map.mp hmem <;>
      obtain ⟨name', -, rfl⟩ := List.mem_map.mp hmem'
    · exact runOnce_text_ne hlower htext
    · exact absurd hcategory (by simp)
    · exact absurd hcategory (by simp)
    · exact runOnce_text_ne hlower htext

/-- The keys of the tasks differ when their paths do, and of the consumers of a class all keys are
the same. -/
theorem nodup_script_iff :
    ((taskRegistrations machine ++ commandLineRegistrations machine ++
        activeScriptRegistrations machine).map Registration.key).Nodup ↔
      (((listedTasks machine).map fun task =>
          toAsciiLowercase (task.taskPath ++ task.taskName)).Nodup ∧
        (listedCommandLines machine).length ≤ 1) ∧ (listedActiveScripts machine).length ≤ 1 := by
  have htasks : ((taskRegistrations machine).map Registration.key).Nodup ↔
      ((listedTasks machine).map fun task =>
        toAsciiLowercase (task.taskPath ++ task.taskName)).Nodup := nodup_keys_map
  rw [List.map_append, nodup_append_of_ne,
    nodup_keys_append ["scheduled_task"] ["wmi_consumer"], htasks]
  · exact and_congr (and_congr_right fun _ => nodup_replicate_keys) nodup_replicate_keys
  · intro registration hmem
    rw [category_task hmem]
    exact List.mem_cons_self
  · intro registration hmem
    rw [commandLine_eq hmem]
    exact List.mem_cons_self
  · decide
  · intro key hkey key' hkey'
    obtain ⟨registration, hmem, rfl⟩ := List.mem_map.mp hkey
    obtain ⟨registration', hmem', rfl⟩ := List.mem_map.mp hkey'
    rw [activeScript_eq hmem']
    rcases List.mem_append.mp hmem with hmem | hmem
    · intro hsame
      have hcategory := (Prod.mk_inj.mp hsame).1
      rw [category_task hmem] at hcategory
      exact absurd hcategory (by simp)
    · rw [commandLine_eq hmem]
      decide

/-- The keys of the extensions differ when the names of their folders or their ids do. -/
theorem nodup_extensions_iff :
    ((browserRegistrations "edge_extension" machine.edge ++
        browserRegistrations "chrome_extension" machine.chrome ++
        firefoxRegistrations machine).map Registration.key).Nodup ↔
      (((foundExtensions machine.edge).map fun folder => toAsciiLowercase folder.name).Nodup ∧
        ((foundExtensions machine.chrome).map fun folder => toAsciiLowercase folder.name).Nodup) ∧
      ((foundAddons machine.firefox).map toAsciiLowercase).Nodup := by
  rw [nodup_keys_append ["edge_extension", "chrome_extension"] ["firefox_extension"],
    nodup_keys_append ["edge_extension"] ["chrome_extension"]]
  · exact and_congr (and_congr nodup_keys_map nodup_keys_map) nodup_keys_map
  · intro registration hmem
    rw [category_browser hmem]
    exact List.mem_cons_self
  · intro registration hmem
    rw [category_browser hmem]
    exact List.mem_cons_self
  · decide
  · intro registration hmem
    rcases List.mem_append.mp hmem with hmem | hmem
    · rw [category_browser hmem]
      exact List.mem_cons_self
    · rw [category_browser hmem]
      exact List.mem_cons_of_mem _ List.mem_cons_self
  · intro registration hmem
    rw [category_firefox hmem]
    exact List.mem_cons_self
  · decide

/-- All keys differ when they differ within each source. -/
theorem nodup_keys_iff : ((registrations context machine).map Registration.key).Nodup ↔
    SeparateNames machine := by
  unfold registrations
  rw [nodup_keys_append
      ["driver", "service", "run_key_user", "run_key_machine", "scheduled_task", "wmi_consumer"]
      ["edge_extension", "chrome_extension", "firefox_extension"],
    nodup_keys_append ["driver", "service", "run_key_user", "run_key_machine"]
      ["scheduled_task", "wmi_consumer"],
    nodup_keys_append ["driver", "service"] ["run_key_user", "run_key_machine"], nodup_run_iff,
    nodup_script_iff, nodup_extensions_iff]
  · constructor
    · rintro ⟨⟨⟨services, userRun, machineRun⟩, ⟨tasks, commandLines⟩, activeScripts⟩,
        ⟨edge, chrome⟩, firefox⟩
      exact ⟨services, userRun, machineRun, tasks, commandLines, activeScripts, edge, chrome,
        firefox⟩
    · intro h
      exact ⟨⟨⟨h.services, h.userRun, h.machineRun⟩, ⟨h.tasks, h.commandLines⟩, h.activeScripts⟩,
        ⟨h.edge, h.chrome⟩, h.firefox⟩
  · exact fun registration => category_service
  · exact fun registration => category_run
  · decide
  · intro registration hmem
    rcases List.mem_append.mp hmem with hmem | hmem
    · exact List.mem_append_left ["run_key_user", "run_key_machine"] (category_service hmem)
    · exact List.mem_append_right ["driver", "service"] (category_run hmem)
  · exact fun registration => category_script
  · decide
  · intro registration hmem
    rcases List.mem_append.mp hmem with hmem | hmem
    · rcases List.mem_append.mp hmem with hmem | hmem
      · exact List.mem_append_left ["run_key_user", "run_key_machine", "scheduled_task",
          "wmi_consumer"] (category_service hmem)
      · exact List.mem_append_right ["driver", "service"]
          (List.mem_append_left ["scheduled_task", "wmi_consumer"] (category_run hmem))
    · exact List.mem_append_right ["driver", "service", "run_key_user", "run_key_machine"]
        (category_script hmem)
  · exact fun registration => category_extension
  · decide

/-- **The ids of the items differ** just when the names differ within each source. -/
theorem nodup_ids_iff {digest : String → String} (hdigest : Function.Injective digest)
    (observedAt : String) :
    ((collectedItems digest context machine observedAt).map PersistenceItem.id).Nodup ↔
      SeparateNames machine := by
  rw [ids_collectedItems, nodup_ids_iff_keys hdigest, nodup_keys_iff]

end separate

end OpenGuard.Windows
