import OpenGuard.Service.Content
import OpenGuard.Updates.Signature

/-!
# Runs of the content in force

The content of the service over its starts, installations and rollbacks, whatever fails in them.

* `activateVersion_cases`: an activation fails and changes nothing, or all the copies are switched.
* `content_in_force`: a signed content is the active version of the database, and its scanner and
  feed are those of the directory of that version.
* `rollback_returns`: the previous version on record was installed, as long as no rollback leaves
  the bundled content.
-/

namespace OpenGuard.Service

open OpenGuard.Lib OpenGuard.Lib.FileTree OpenGuard.Domain OpenGuard.Storage OpenGuard.Detection
  OpenGuard.Updates OpenGuard.Windows

/-! ## The activation -/

section activation

variable {setup : ContentSetup} {texts : ActivationTexts} {faults : ActivationFaults}
  {version : String} {previous : Option String} {disk : Option FileTree} {metadata : Metadata}
  {state : ContentState} {scanner : FileScanner} {reputation : ReputationFeed}

theorem orFault_eq_ok {ε α : Type} {fault : Option ε} {result : Except ε α} {a : α} :
    orFault fault result = .ok a ↔ fault = none ∧ result = .ok a := by
  cases fault <;> simp [orFault]

/-- The scanner and the feed of a version that is loaded are those of its directory. -/
theorem loadVersion_eq_some :
    loadVersion setup faults disk version = some (scanner, reputation) ↔
      faults.scanner = none ∧ faults.reputation = none ∧
        Loaded setup.crates setup.names setup.shown disk version scanner reputation := by
  unfold loadVersion
  constructor
  · intro h
    split at h
    · cases h
    · next hscanner =>
        split at h
        · cases h
        · next hreputation =>
            cases h
            obtain ⟨hscanner, hloaded⟩ := orFault_eq_ok.mp hscanner
            obtain ⟨hreputation, hfeed⟩ := orFault_eq_ok.mp hreputation
            exact ⟨hscanner, hreputation, hloaded, hfeed⟩
  · rintro ⟨hscanner, hreputation, hloaded⟩
    rw [hscanner, hreputation, orFault, hloaded.scanner, orFault, hloaded.feed]

/-- The rows of the table after the activation of a version. -/
def activatedRows (version : String) (previous : Option String) (metadata : Metadata) : Metadata :=
  (metadata.insert activeKey version).insert previousKey (previous.getD "")

@[simp] theorem lookup_active_activatedRows :
    (activatedRows version previous metadata).lookup activeKey = some version := by
  rw [activatedRows, AList.lookup_insert_ne (by decide), AList.lookup_insert]

@[simp] theorem lookup_previous_activatedRows :
    (activatedRows version previous metadata).lookup previousKey = some (previous.getD "") := by
  rw [activatedRows, AList.lookup_insert]

/-- An activation fails and changes nothing, or it switches the database, the service and what is
sent to the monitor. -/
theorem activateVersion_cases (setup : ContentSetup) (texts : ActivationTexts)
    (faults : ActivationFaults) (version : String) (previous : Option String)
    (disk : Option FileTree) (metadata : Metadata) (state : ContentState) :
    (∃ error, (loadVersion setup faults disk version = none ∨ faults.activate.isSome) ∧
        activateVersion setup texts faults version previous disk metadata state =
          (.failed error, metadata, state)) ∨
      ∃ scanner reputation answer,
        loadVersion setup faults disk version = some (scanner, reputation) ∧
        faults.activate = none ∧
        activateVersion setup texts faults version previous disk metadata state =
          (.committed answer, activatedRows version previous metadata,
            state.activated version scanner reputation) := by
  unfold activateVersion loadVersion
  cases orFault faults.scanner (scannerForVersion setup.crates setup.names (storeTree disk) version)
  with
  | error error => exact .inl ⟨_, .inl rfl, rfl⟩
  | ok scanner =>
      cases orFault faults.reputation
        (reputationForVersion setup.crates setup.names setup.shown (storeTree disk) version) with
      | error error => exact .inl ⟨_, .inl rfl, rfl⟩
      | ok reputation =>
          cases hactivate : faults.activate with
          | some error => exact .inl ⟨_, .inr rfl, rfl⟩
          | none => exact .inr ⟨scanner, reputation, _, rfl, rfl, rfl⟩

end activation

/-! ## The calls -/

section calls

variable {setup : ContentSetup} {choices : InstallChoices} {world after : ContentWorld}
  {state : ContentState} {error : ApiError}

/-- An installation keeps what is among the versions. -/
theorem kept_installOfficial (setup : ContentSetup) (choices : InstallChoices)
    (disk : Option FileTree) :
    Kept setup.names disk (installOfficial setup choices disk).2 := by
  unfold installOfficial
  cases choices.manifest with
  | error error => exact .refl disk
  | ok manifestBytes => exact kept_installRun setup.crates setup.names manifestBytes _ disk _

/-- What an installation leaves of the service. -/
inductive Installed (setup : ContentSetup) (choices : InstallChoices) (world : ContentWorld)
    (state : ContentState) (disk : Option FileTree) : Option CallOutcome × ContentWorld → Prop
  | stopped : Installed setup choices world state disk
      (none, { world with disk, service := none })
  | refused (error : ApiError) : Installed setup choices world state disk
      (some (.failed error), { world with disk })
  | current (answer : Except ApiError ContentStatus) : Installed setup choices world state disk
      (some (.current answer),
        { world with disk, installed := world.installed ++ [state.contentVersion] })
  | failed (version : String) (error : ApiError) : Installed setup choices world state disk
      (some (.failed error), { world with disk, installed := world.installed ++ [version] })
  | activated {version : String} {scanner : FileScanner} {reputation : ReputationFeed}
      (answer : Except ApiError ContentStatus)
      (h : loadVersion setup choices.activation disk version = some (scanner, reputation)) :
      Installed setup choices world state disk
        (some (.committed answer),
          { disk
            metadata := activatedRows version
              (if state.contentSource = "signed_update" then some state.contentVersion else none)
              world.metadata
            service := some (state.activated version scanner reputation)
            installed := world.installed ++ [version] })

/-- All that an installation can do. -/
theorem installed_installContentUpdate (setup : ContentSetup) (choices : InstallChoices)
    (hservice : world.service = some state) :
    Installed setup choices world state (installOfficial setup choices world.disk).2
      (installContentUpdate setup choices world state) := by
  unfold installContentUpdate
  rcases installOfficial setup choices world.disk with ⟨_ | error | version, disk⟩
  · exact .stopped
  · exact .refused _
  · by_cases hversion : version = state.contentVersion
    · rw [hversion]
      simp only [if_true]
      exact .current _
    · simp only [if_neg hversion]
      obtain ⟨error, -, hfailed⟩ | ⟨scanner, reputation, answer, hload, -, hactivated⟩ :=
        activateVersion_cases setup installTexts choices.activation version
          (if state.contentSource = "signed_update" then some state.contentVersion else none)
          disk world.metadata state
      · rw [hfailed]
        have hsame : Installed setup choices world state disk
            (some (.failed error),
              { world with disk, installed := world.installed ++ [version] }) :=
          .failed version error
        rwa [hservice] at hsame
      · rw [hactivated]
        exact .activated answer hload

theorem rollbackTarget_eq_ok {fault : Fault} {metadata : Metadata} {previous : String} :
    rollbackTarget fault metadata = .ok previous ↔
      fault = none ∧ metadata.lookup previousKey = some previous ∧ previous ≠ "" := by
  unfold rollbackTarget
  rw [bind_eq_ok]
  constructor
  · rintro ⟨found, hfound, hprevious⟩
    rw [okOr_eq_ok, Option.filter_eq_some_iff] at hprevious
    rw [mapError_eq_ok] at hfound
    cases fault with
    | some error => cases hfound
    | none =>
        obtain ⟨rfl, hnonempty⟩ := hprevious
        exact ⟨rfl, Except.ok.inj hfound, of_decide_eq_true hnonempty⟩
  · rintro ⟨rfl, hlookup, hnonempty⟩
    refine ⟨some previous, ?_, ?_⟩
    · rw [getMetadata, call_none, hlookup]
      rfl
    · exact okOr_eq_ok.mpr (Option.filter_eq_some_iff.mpr ⟨rfl, decide_eq_true hnonempty⟩)

/-- A rollback fails and changes nothing, or it goes to the previous version on record, which is
then the version before it. -/
theorem rollbackContentUpdate_cases (setup : ContentSetup) (faults : RollbackFaults)
    (hservice : world.service = some state) :
    (∃ error, rollbackContentUpdate setup faults world state = (.failed error, world)) ∨
      ∃ previous scanner reputation answer,
        faults.getMetadata = none ∧ world.metadata.lookup previousKey = some previous ∧
        previous ≠ "" ∧
        loadVersion setup faults.activation world.disk previous = some (scanner, reputation) ∧
        faults.activation.activate = none ∧
        rollbackContentUpdate setup faults world state =
          (.committed answer,
            { world with
              metadata := activatedRows previous (some state.contentVersion) world.metadata
              service := some (state.activated previous scanner reputation) }) := by
  unfold rollbackContentUpdate
  cases htarget : rollbackTarget faults.getMetadata world.metadata with
  | error error => exact .inl ⟨error, rfl⟩
  | ok previous =>
      obtain ⟨hfault, hlookup, hnonempty⟩ := rollbackTarget_eq_ok.mp htarget
      obtain ⟨error, -, hfailed⟩ | ⟨scanner, reputation, answer, hload, hactivate, hactivated⟩ :=
        activateVersion_cases setup rollbackTexts faults.activation previous
          (some state.contentVersion) world.disk world.metadata state
      · refine .inl ⟨error, ?_⟩
        simp only [hfailed, ← hservice]
      · refine .inr ⟨previous, scanner, reputation, answer, hfault, hlookup, hnonempty, hload,
          hactivate, ?_⟩
        simp only [hactivated]

variable (world state) in
/-- An installation of another version that can be loaded puts it in force. -/
theorem installContentUpdate_activates {version : String} {disk : Option FileTree}
    {scanner : FileScanner} {reputation : ReputationFeed}
    (hinstall : installOfficial setup choices world.disk = (some (.ok version), disk))
    (hversion : version ≠ state.contentVersion)
    (hload : loadVersion setup choices.activation disk version = some (scanner, reputation))
    (hactivate : choices.activation.activate = none) :
    (installContentUpdate setup choices world state).2 =
      { disk
        metadata := activatedRows version
          (if state.contentSource = "signed_update" then some state.contentVersion else none)
          world.metadata
        service := some (state.activated version scanner reputation)
        installed := world.installed ++ [version] } := by
  unfold installContentUpdate
  rw [hinstall]
  simp only [if_neg hversion]
  obtain ⟨error, hfails, -⟩ | ⟨_, _, answer, hloaded, -, hactivated⟩ :=
    activateVersion_cases setup installTexts choices.activation version
      (if state.contentSource = "signed_update" then some state.contentVersion else none)
      disk world.metadata state
  · rw [hload, hactivate] at hfails
    simp at hfails
  · cases hload.symm.trans hloaded
    rw [hactivated]

variable (setup world state) in
/-- A rollback to a version that can be loaded puts it in force. -/
theorem rollbackContentUpdate_activates (faults : RollbackFaults) {previous : String}
    {scanner : FileScanner} {reputation : ReputationFeed}
    (htarget : rollbackTarget faults.getMetadata world.metadata = .ok previous)
    (hload : loadVersion setup faults.activation world.disk previous = some (scanner, reputation))
    (hactivate : faults.activation.activate = none) :
    ∃ answer, rollbackContentUpdate setup faults world state =
      (.committed answer,
        { world with
          metadata := activatedRows previous (some state.contentVersion) world.metadata
          service := some (state.activated previous scanner reputation) }) := by
  unfold rollbackContentUpdate
  rw [htarget]
  obtain ⟨error, hfails, -⟩ | ⟨_, _, answer, hloaded, -, hactivated⟩ :=
    activateVersion_cases setup rollbackTexts faults.activation previous
      (some state.contentVersion) world.disk world.metadata state
  · rw [hload, hactivate] at hfails
    simp at hfails
  · cases hload.symm.trans hloaded
    exact ⟨answer, by simp only [hactivated]⟩

variable (setup world state) in
/-- A rollback to a version whose rules cannot be loaded fails. -/
theorem rollbackContentUpdate_unloadable (faults : RollbackFaults) {previous : String}
    {failure : UpdateError}
    (htarget : rollbackTarget faults.getMetadata world.metadata = .ok previous)
    (hfault : faults.activation.scanner = none)
    (hscanner : scannerForVersion setup.crates setup.names (storeTree world.disk) previous =
      .error failure) :
    (rollbackContentUpdate setup faults world state).1 =
      .failed ⟨.conflict,
        "Validate rollback security content: " ++ failure.display setup.crates.ioText, false⟩ := by
  have hfails : orFault faults.activation.scanner
      (scannerForVersion setup.crates setup.names (storeTree world.disk) previous) =
        .error failure := by
    rw [hfault]
    exact hscanner
  unfold rollbackContentUpdate activateVersion
  simp only [htarget, hfails, rollbackTexts]

/-- The service starts with the active version of the database, loaded from its directory, or with
the bundled content; its monitor starts with the same. -/
theorem createState_cases {faults : StartFaults} {disk : Option FileTree} {metadata : Metadata}
    (h : createState setup faults disk metadata = some state) :
    state.protectionMonitor = some ⟨state.scanner, state.reputation, []⟩ ∧
      (state.contentSource = "bundled" ∨
        metadata.lookup activeKey = some state.contentVersion ∧
          Loaded setup.crates setup.names setup.shown disk state.contentVersion state.scanner
            state.reputation) := by
  unfold createState at h
  cases hfault : faults.getMetadata with
  | some error =>
      rw [hfault] at h
      cases h
  | none =>
      rw [hfault, getMetadata, call_none] at h
      cases hactive : metadata.lookup activeKey with
      | none =>
          simp only [hactive, Option.bind_none, Option.getD_none] at h
          split at h
          · cases h
            exact ⟨rfl, .inl rfl⟩
          · cases h
      | some version =>
          cases hload : loadVersion setup faults.load disk version with
          | none =>
              simp only [hactive, Option.bind_some, hload, Option.map_none, Option.getD_none] at h
              split at h
              · cases h
                exact ⟨rfl, .inl rfl⟩
              · cases h
          | some loaded =>
              obtain ⟨scanner, reputation⟩ := loaded
              simp only [hactive, Option.bind_some, hload, Option.map_some, Option.getD_some] at h
              split at h
              · cases h
                exact ⟨rfl, .inr ⟨rfl, (loadVersion_eq_some.mp hload).2.2⟩⟩
              · cases h

end calls

/-! ## One version in force -/

/-- What the monitor uses once it has taken the contents that were sent to it. -/
def ProtectionMonitor.settled (monitor : ProtectionMonitor) : FileScanner × ReputationFeed :=
  monitor.commands.getLastD (monitor.scanner, monitor.reputation)

/-- The version of the service is the active one of the database, the scanner and the feed are those
of its directory, and the monitor has both as soon as it has taken what was sent to it. -/
structure InForce (setup : ContentSetup) (world : ContentWorld) (state : ContentState) : Prop where
  active : world.metadata.lookup activeKey = some state.contentVersion
  loaded : Loaded setup.crates setup.names setup.shown world.disk state.contentVersion
    state.scanner state.reputation
  monitor : ∀ monitor, state.protectionMonitor = some monitor →
    monitor.settled = (state.scanner, state.reputation)

/-- A signed content is in force; the monitor follows the service also with the bundled content. -/
def ContentAgrees (setup : ContentSetup) (world : ContentWorld) : Prop :=
  ∀ state, world.service = some state →
    (∀ monitor, state.protectionMonitor = some monitor →
      monitor.settled = (state.scanner, state.reputation)) ∧
    (state.contentSource = "signed_update" → InForce setup world state)

section agreement

variable {setup : ContentSetup} {world after : ContentWorld} {state : ContentState}
  {version : String} {previous : Option String} {scanner : FileScanner}
  {reputation : ReputationFeed}

theorem settled_updateContent (monitor : ProtectionMonitor) :
    (monitor.updateContent scanner reputation).settled = (scanner, reputation) := by
  rw [ProtectionMonitor.updateContent, ProtectionMonitor.settled, List.getLastD_eq_getLast?,
    List.getLast?_concat]
  rfl

theorem settled_take {monitor taken : ProtectionMonitor} (h : monitor.take = some taken) :
    taken.settled = monitor.settled := by
  unfold ProtectionMonitor.take at h
  split at h
  · cases h
  · next scanner reputation commands hcommands =>
      cases h
      rw [ProtectionMonitor.settled, ProtectionMonitor.settled, hcommands, List.getLastD_cons]

/-- What an activation leaves is in force. -/
theorem inForce_activated {disk : Option FileTree} {metadata : Metadata} {installed : List String}
    {service : Option ContentState}
    (hloaded : Loaded setup.crates setup.names setup.shown disk version scanner reputation) :
    InForce setup ⟨disk, activatedRows version previous metadata, service, installed⟩
      (state.activated version scanner reputation) where
  active := lookup_active_activatedRows
  loaded := hloaded
  monitor := by
    intro monitor hmonitor
    obtain ⟨before, -, rfl⟩ := Option.map_eq_some_iff.mp hmonitor
    exact settled_updateContent before

/-- The disk may get more versions, and the table other rows. -/
theorem InForce.of_kept (h : InForce setup world state)
    (hkept : Kept setup.names world.disk after.disk)
    (hactive : after.metadata.lookup activeKey = world.metadata.lookup activeKey) :
    InForce setup after state :=
  ⟨hactive.trans h.active, hkept.loaded h.loaded, h.monitor⟩

theorem ContentAgrees.of_kept (h : ContentAgrees setup world)
    (hkept : Kept setup.names world.disk after.disk)
    (hactive : after.metadata.lookup activeKey = world.metadata.lookup activeKey)
    (hservice : after.service = world.service) : ContentAgrees setup after := by
  intro state hstate
  obtain ⟨hfollows, hsigned⟩ := h state (hservice.symm.trans hstate)
  exact ⟨hfollows, fun hsource => (hsigned hsource).of_kept hkept hactive⟩

theorem contentAgrees_of_inForce
    (h : ∀ state, after.service = some state → InForce setup after state) :
    ContentAgrees setup after :=
  fun state hstate => ⟨(h state hstate).monitor, fun _ => h state hstate⟩

theorem contentAgrees_install (h : ContentAgrees setup world)
    (hservice : world.service = some state)
    (choices : InstallChoices) :
    ContentAgrees setup (installContentUpdate setup choices world state).2 := by
  have hkept := kept_installOfficial setup choices world.disk
  have hinstalled := installed_installContentUpdate setup choices hservice
  generalize installContentUpdate setup choices world state = run at hinstalled
  generalize (installOfficial setup choices world.disk).2 = disk at hkept hinstalled
  cases hinstalled with
  | stopped => exact nofun
  | refused error => exact h.of_kept hkept rfl rfl
  | current answer => exact h.of_kept hkept rfl rfl
  | failed version error => exact h.of_kept hkept rfl rfl
  | activated answer hload =>
      apply contentAgrees_of_inForce
      rintro state ⟨⟩
      exact inForce_activated (loadVersion_eq_some.mp hload).2.2

theorem contentAgrees_rollback (h : ContentAgrees setup world)
    (hservice : world.service = some state) (faults : RollbackFaults) :
    ContentAgrees setup (rollbackContentUpdate setup faults world state).2 := by
  obtain ⟨error, hfailed⟩ | ⟨previous, scanner, reputation, answer, -, -, -, hload, -, hrollback⟩ :=
    rollbackContentUpdate_cases setup faults hservice
  · rwa [hfailed]
  · rw [hrollback]
    apply contentAgrees_of_inForce
    rintro state ⟨⟩
    exact inForce_activated (loadVersion_eq_some.mp hload).2.2

/-- Every step keeps the copies in agreement. -/
theorem contentAgrees_step {action : ContentAction} (h : ContentAgrees setup world)
    (hstep : contentStep setup world action = some after) : ContentAgrees setup after := by
  cases action with
  | start faults =>
      simp only [contentStep] at hstep
      split at hstep
      · cases hstep
      · cases hstep
        intro state hstate
        obtain ⟨hmonitor, hsource⟩ := createState_cases hstate
        have hfollows : ∀ monitor, state.protectionMonitor = some monitor →
            monitor.settled = (state.scanner, state.reputation) := by
          intro monitor hsome
          obtain rfl := Option.some.inj (hmonitor.symm.trans hsome)
          rfl
        refine ⟨hfollows, fun hsigned => ?_⟩
        obtain hbundled | ⟨hactive, hloaded⟩ := hsource
        · exact absurd (hbundled.symm.trans hsigned) (by decide)
        · exact ⟨hactive, hloaded, hfollows⟩
  | stop =>
      obtain ⟨state, -, rfl⟩ := Option.map_eq_some_iff.mp hstep
      exact nofun
  | install choices =>
      obtain ⟨state, hservice, rfl⟩ := Option.map_eq_some_iff.mp hstep
      exact contentAgrees_install h hservice choices
  | rollback faults =>
      obtain ⟨state, hservice, rfl⟩ := Option.map_eq_some_iff.mp hstep
      exact contentAgrees_rollback h hservice faults
  | monitorTakes =>
      obtain ⟨state, hservice, htake⟩ := Option.bind_eq_some_iff.mp hstep
      obtain ⟨monitor, hmonitor, htake⟩ := Option.bind_eq_some_iff.mp htake
      obtain ⟨taken, htaken, hafter⟩ := Option.bind_eq_some_iff.mp htake
      cases hafter
      obtain ⟨hfollows, hsigned⟩ := h state hservice
      have hsettled := (settled_take htaken).trans (hfollows monitor hmonitor)
      rintro state ⟨⟩
      refine ⟨?_, fun hsource => ⟨(hsigned hsource).active, (hsigned hsource).loaded, ?_⟩⟩
      all_goals
        rintro monitor ⟨⟩
        exact hsettled
  | monitorEnds =>
      obtain ⟨state, hservice, hafter⟩ := Option.bind_eq_some_iff.mp hstep
      cases hafter
      obtain ⟨-, hsigned⟩ := h state hservice
      rintro state ⟨⟩
      exact ⟨nofun, fun hsource => ⟨(hsigned hsource).active, (hsigned hsource).loaded, nofun⟩⟩
  | setMetadata fault key value =>
      simp only [contentStep] at hstep
      split at hstep
      · cases hstep
      · next hkey =>
          cases hstep
          obtain ⟨hactive, -⟩ := not_or.mp hkey
          refine h.of_kept (.refl _) ?_ rfl
          cases fault with
          | some error => rfl
          | none => exact AList.lookup_insert_ne (Ne.symm hactive)

/-- Every run keeps the copies in agreement. -/
theorem contentAgrees_run {disk : Option FileTree} {metadata : Metadata}
    {actions : List ContentAction}
    (hrun : run (contentStep setup) ⟨disk, metadata, none, []⟩ actions = some world) :
    ContentAgrees setup world := by
  have hstart : ContentAgrees setup ⟨disk, metadata, none, []⟩ := by
    rintro state ⟨⟩
  exact run_invariant (fun _ _ _ hagrees hstep => contentAgrees_step hagrees hstep) hstart hrun

end agreement

/-- **One content is in force** in every run, whatever fails, and a call that fails before the
database has committed it changes neither the database nor the service. -/
theorem content_in_force (setup : ContentSetup) (disk : Option FileTree) (metadata : Metadata)
    (actions : List ContentAction) (world : ContentWorld)
    (hrun : run (contentStep setup) ⟨disk, metadata, none, []⟩ actions = some world)
    (state : ContentState) (hservice : world.service = some state) :
    (state.contentSource = "signed_update" → InForce setup world state) ∧
    (∀ choices error after,
      installContentUpdate setup choices world state = (some (.failed error), after) →
        after.metadata = world.metadata ∧ after.service = world.service) ∧
    ∀ faults error after,
      rollbackContentUpdate setup faults world state = (.failed error, after) → after = world := by
  refine ⟨(contentAgrees_run hrun state hservice).2, fun choices error after hfails => ?_,
    fun faults error after hfails => ?_⟩
  · have hinstalled := installed_installContentUpdate setup choices hservice
    rw [hfails] at hinstalled
    cases hinstalled <;> exact ⟨rfl, rfl⟩
  · obtain ⟨error', hfailed⟩ | ⟨_, _, _, answer, -, -, -, -, -, hrollback⟩ :=
      rollbackContentUpdate_cases setup faults hservice
    · exact (Prod.ext_iff.mp (hfails.symm.trans hfailed)).2
    · cases hfails.symm.trans hrollback

/-! ### Two versions -/

/-- A feed without entries. -/
def sampleFeed : Json := .object [("schema", .int 1), ("entries", .array [])]

/-- Its text. -/
def sampleFeedText : List UInt8 := utf8 sampleFeed.render

/-- The file of the feed. -/
def feedItem : ContentFile :=
  ⟨"reputation.json", "https://updates.example/reputation.json",
    "67882a98d433b4b18b208eba450291a9a2a38d813ffdb2b68cd50826aa0dc0af", 25⟩

/-- A manifest of a rule and a feed. -/
def feedManifest (version signature : String) : ContentManifest :=
  ⟨1, version, "2026-08-06T00:00:00Z", [firstItem "rules/a.yar", feedItem], signature⟩

/-- The first version. -/
def firstManifest : ContentManifest :=
  feedManifest "1.0"
    "jyTd1xjuuUU2FpafZii5KFeE4K8as48NhImKKwbcS+kVqnPYiI2tts3Di/kFNgf4wY0tF7suEwe6viNoQcDzCw=="

/-- The second version. -/
def secondManifest : ContentManifest :=
  feedManifest "2.0"
    "CULI35cAbdxbXDMoxxlt6RY8jZXOyntJYbOyuo3G3SM73gOuVITZwzRtaGa7DztMq4A7CK/q90mP3AoXRAx+Dg=="

/-- Its signature. -/
def firstSignature : List UInt8 :=
  [143, 36, 221, 215, 24, 238, 185, 69, 54, 22, 150, 159, 102, 40, 185, 40, 87, 132, 224, 175, 26,
    179, 143, 13, 132, 137, 138, 43, 6, 220, 75, 233, 21, 170, 115, 216, 136, 141, 173, 182, 205,
    195, 139, 249, 5, 54, 7, 248, 193, 141, 45, 23, 187, 46, 19, 7, 186, 190, 35, 104, 65, 192, 243,
    11]

/-- Its signature. -/
def secondSignature : List UInt8 :=
  [9, 66, 200, 223, 151, 0, 109, 220, 91, 92, 51, 40, 199, 25, 109, 233, 22, 60, 141, 149, 206, 202,
    123, 73, 97, 179, 178, 186, 141, 198, 221, 35, 59, 222, 3, 174, 84, 132, 217, 195, 52, 109, 104,
    102, 187, 15, 59, 76, 171, 128, 59, 8, 175, 234, 247, 73, 143, 220, 10, 23, 68, 12, 126, 14]

/-- Functions that are those of the other crates on both manifests and on the feed. -/
def feedCrates : Crates :=
  { sampleCrates firstManifest firstSignature with
    parseJson := fun text => .ok <|
      if text = sampleFeedText then sampleFeed
      else if text = manifestText firstManifest then manifestJson firstManifest
      else manifestJson secondManifest
    base64 := fun text =>
      if text = firstManifest.signature then some firstSignature
      else if text = secondManifest.signature then some secondSignature
      else none
    verifyStrict := fun _ given => given = firstSignature ∨ given = secondSignature
    sha256 := fun data =>
      if data = utf8 firstRule then (firstItem "").sha256 else feedItem.sha256 }

/-- The disk of the sample. -/
def feedNames : StoreNames :=
  { sampleNames with
    rules_ne_versions := by decide
    reputation_ne_versions := by decide }

/-- A service with two bundled rules. -/
def feedSetup : ContentSetup where
  crates := feedCrates
  names := feedNames
  contentRoot := "C:\\ProgramData\\OpenGuard\\SecurityContent"
  bundledScanner := ⟨[firstRule, secondRule], [], defaultMaximumBytes⟩
  bundledFeed := ⟨"bundled", []⟩

/-- A manifest is not a feed. -/
theorem manifestText_ne_feed (manifest : ContentManifest) :
    manifestText manifest ≠ sampleFeedText := by
  intro h
  have hfeed : Json.NoFloat sampleFeed := ⟨trivial, trivial, trivial⟩
  have hjson := Json.render_injective (noFloat_manifestJson manifest) hfeed (utf8_injective h)
  simp [manifestJson, sampleFeed] at hjson

theorem parse_first :
    feedCrates.parseJson (manifestText firstManifest) = .ok (manifestJson firstManifest) := by
  simp only [feedCrates, manifestText_ne_feed, ↓reduceIte]

theorem parse_second :
    feedCrates.parseJson (manifestText secondManifest) = .ok (manifestJson secondManifest) := by
  have hne : manifestText secondManifest ≠ manifestText firstManifest := by
    intro h
    have hjson := Json.render_injective (noFloat_manifestJson _) (noFloat_manifestJson _)
      (utf8_injective h)
    simp [manifestJson, secondManifest, firstManifest, feedManifest] at hjson
  simp only [feedCrates, manifestText_ne_feed, hne, ↓reduceIte]

theorem first_verified :
    verifyManifest feedCrates (manifestText firstManifest) = .ok firstManifest := by
  have hbase64 : feedCrates.base64 firstManifest.signature = some firstSignature := by
    simp only [feedCrates, ↓reduceIte]
  apply verifyManifest_manifestText ((length_manifestText_le _).trans (by decide +kernel))
    parse_first hbase64 ⟨rfl, by simp [feedCrates]⟩
  decide +kernel

theorem second_verified :
    verifyManifest feedCrates (manifestText secondManifest) = .ok secondManifest := by
  have hbase64 : feedCrates.base64 secondManifest.signature = some secondSignature := by
    decide +kernel
  apply verifyManifest_manifestText ((length_manifestText_le _).trans (by decide +kernel))
    parse_second hbase64 ⟨rfl, by simp [feedCrates]⟩
  decide +kernel

/-- The directory of a version, as an installation leaves it. -/
def versionTree (manifest : ContentManifest) : FileTree :=
  .directory
    [("rules", .directory [("a.yar", .file (utf8 firstRule))]),
      ("reputation.json", .file sampleFeedText), ("manifest.json", .file (manifestText manifest))]

/-- A disk on which both versions were installed before. -/
def storedTree : FileTree :=
  .directory
    [("versions", .directory
      [("1.0", versionTree firstManifest), ("2.0", versionTree secondManifest)])]

/-- An installation in which every call of the disk works. -/
def feedChoices (manifest : ContentManifest) : InstallChoices where
  manifest := .ok (manifestText manifest)
  uuid := "0"
  calls := [.works, .works, .works]
  activation := .never

/-- The files of a version are those of its manifest. -/
theorem holdsSigned_versionTree (version signature : String) :
    HoldsSigned feedCrates feedNames (feedManifest version signature).files
      (some (versionTree (feedManifest version signature))) := by
  have hrule : validateContentBytes feedCrates (firstItem "rules/a.yar") (utf8 firstRule) =
      .ok () := by
    decide +kernel
  have hfeed : validateContentBytes feedCrates feedItem sampleFeedText = .ok () := by
    decide +kernel
  refine List.forall_mem_cons.mpr
    ⟨⟨_, utf8 firstRule, rfl, rfl, validateContentBytes_eq_ok.mp hrule⟩, ?_⟩
  exact List.forall_mem_singleton.mpr
    ⟨_, sampleFeedText, rfl, rfl, validateContentBytes_eq_ok.mp hfeed⟩

/-- A version on the disk is found and taken as it is. -/
theorem installOfficial_stored {version signature : String}
    (hverified : verifyManifest feedCrates (manifestText (feedManifest version signature)) =
      .ok (feedManifest version signature))
    (hfound : lookup feedNames (versionPath version) (some storedTree) =
      some (versionTree (feedManifest version signature)))
    (hdirectory : validateContentDirectory feedCrates feedNames
      (some (versionTree (feedManifest version signature))) = .ok ()) :
    installOfficial feedSetup (feedChoices (feedManifest version signature)) (some storedTree) =
      (some (.ok version), some storedTree) := by
  have hexists : pathExists feedNames (versionPath version) (some storedTree) := by
    rw [pathExists, hfound]
    rfl
  have hvalid : validateInstalled feedCrates feedNames
      (lookup feedNames (versionPath version) (some storedTree))
        (feedManifest version signature) = .ok () := by
    rw [hfound]
    exact bind_eq_ok.mpr
      ⟨(), validateItems_eq_ok.mpr (holdsSigned_versionTree version signature), hdirectory⟩
  have hrun := installRun_found "0" (some storedTree) hverified rfl hexists hvalid
  simp only [installOfficial, feedChoices, feedSetup, hrun]
  rfl

/-- Each of the versions has one rule and the feed. -/
theorem stored_loaded (version : String) (h : version ∈ ["1.0", "2.0"]) :
    ∃ scanner, scanner.rules.length = 1 ∧
      Loaded feedCrates feedNames feedSetup.shown (some storedTree) version scanner ⟨"", []⟩ := by
  have hscanner : ∀ version ∈ ["1.0", "2.0"],
      (scannerForVersion feedCrates feedNames storedTree version).map (·.rules.length) = .ok 1 := by
    decide +kernel
  have hfeed : ∀ version ∈ ["1.0", "2.0"],
      reputationForVersion feedCrates feedNames feedSetup.shown storedTree version =
        .ok ⟨"", []⟩ := by
    decide +kernel
  obtain ⟨scanner, hloaded, hlength⟩ := map_eq_ok.mp (hscanner version h)
  exact ⟨scanner, hlength, hloaded, hfeed version h⟩

/-- The service on that disk, after it has started with a new database. -/
def startedState : ContentState where
  scanner := feedSetup.bundledScanner
  reputation := feedSetup.bundledFeed
  contentVersion := bundledVersion
  contentSource := "bundled"
  protectionMonitor := some ⟨feedSetup.bundledScanner, feedSetup.bundledFeed, []⟩

/-- The service starts and installs the first version. -/
theorem run_first {scanner : FileScanner}
    (hloaded : Loaded feedCrates feedNames feedSetup.shown (some storedTree) "1.0" scanner
      ⟨"", []⟩) :
    run (contentStep feedSetup) ⟨some storedTree, ∅, none, []⟩
        [.start .never, .install (feedChoices firstManifest)] =
      some ⟨some storedTree, activatedRows "1.0" none ∅,
        some (startedState.activated "1.0" scanner ⟨"", []⟩), ["1.0"]⟩ := by
  have hstart : contentStep feedSetup ⟨some storedTree, ∅, none, []⟩ (.start .never) =
      some ⟨some storedTree, ∅, some startedState, []⟩ := rfl
  have hinstall := installOfficial_stored first_verified rfl (by decide +kernel)
  have hload : loadVersion feedSetup (feedChoices firstManifest).activation (some storedTree)
      "1.0" = some (scanner, ⟨"", []⟩) := loadVersion_eq_some.mpr ⟨rfl, rfl, hloaded⟩
  refine run_cons_eq_some.mpr ⟨_, hstart, run_cons_eq_some.mpr ⟨_, ?_, rfl⟩⟩
  exact congrArg some (installContentUpdate_activates
    ⟨some storedTree, ∅, some startedState, []⟩ startedState hinstall (by decide) hload rfl)

/-- What the service has in force after that run. -/
theorem content_in_force_installed : ∃ scanner,
    InForce feedSetup
      ⟨some storedTree, activatedRows "1.0" none ∅,
        some (startedState.activated "1.0" scanner ⟨"", []⟩), ["1.0"]⟩
      (startedState.activated "1.0" scanner ⟨"", []⟩) := by
  obtain ⟨scanner, -, hloaded⟩ := stored_loaded "1.0" (by simp)
  exact ⟨scanner, (content_in_force feedSetup (some storedTree) ∅ _ _ (run_first hloaded) _ rfl).1
    rfl⟩

/-- Right after an installation the monitor still has the scanner that it was started with, which is
not that of the version. -/
theorem monitor_behind : ∃ world state monitor,
    run (contentStep feedSetup) ⟨some storedTree, ∅, none, []⟩
      [.start .never, .install (feedChoices firstManifest)] = some world ∧
    world.service = some state ∧ state.contentSource = "signed_update" ∧
    state.protectionMonitor = some monitor ∧
    ∀ feed, ¬Loaded feedCrates feedNames feedSetup.shown world.disk state.contentVersion
      monitor.scanner feed := by
  obtain ⟨scanner, hlength, hloaded⟩ := stored_loaded "1.0" (by simp)
  refine ⟨_, _, _, run_first hloaded, rfl, rfl, rfl, fun feed hbehind => ?_⟩
  have hscanner : feedSetup.bundledScanner = scanner :=
    Except.ok.inj (hbehind.scanner.symm.trans hloaded.scanner)
  rw [← hscanner] at hlength
  exact absurd hlength (by decide)

end OpenGuard.Service
