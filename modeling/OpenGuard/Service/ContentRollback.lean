import OpenGuard.Service.ContentRuns

/-!
# The target of a rollback

An installation records the version before it only when that is a signed one. A rollback records the
version in force, whatever it is: after a start that could not load the active version this is the
bundled content, which has no directory to go back to.

* `Recorded`: the versions in the database and a signed version in force were installed.
* `rollback_returns`: in the runs without a rollback from the bundled content, the previous version
  was installed, and a second rollback leads back.
* `rollback_to_bundled`: a run in which it does not.
-/

namespace OpenGuard.Service

open OpenGuard.Lib OpenGuard.Domain OpenGuard.Storage OpenGuard.Detection OpenGuard.Updates
  OpenGuard.Windows

/-- The previous version on record is none, or a version that was installed. -/
def PreviousInstalled (world : ContentWorld) : Prop :=
  ∀ previous, world.metadata.lookup previousKey = some previous →
    previous = "" ∨ previous ∈ world.installed

/-- A rollback that is not made from a signed version comes to nothing: there is no version on
record, it cannot be loaded, or the database fails. -/
def SignedRollback (setup : ContentSetup) (world : ContentWorld) : ContentAction → Prop
  | .rollback faults => ∀ state, world.service = some state →
      state.contentSource = "signed_update" ∨
        ∀ previous, world.metadata.lookup previousKey = some previous → previous ≠ "" →
          faults.getMetadata = none → faults.activation.activate = none →
            loadVersion setup faults.activation world.disk previous = none
  | _ => True

/-- All versions on record and a signed version in force were installed. -/
structure Recorded (world : ContentWorld) : Prop where
  active : ∀ version, world.metadata.lookup activeKey = some version → version ∈ world.installed
  previous : PreviousInstalled world
  inForce : ∀ state, world.service = some state → state.contentSource = "signed_update" →
    state.contentVersion ∈ world.installed

section recorded

variable {setup : ContentSetup} {world after : ContentWorld} {state : ContentState}

/-- More versions may be installed, as long as the rows and the version in force stay. -/
theorem Recorded.of_subset (h : Recorded world) (hinstalled : world.installed ⊆ after.installed)
    (hactive : after.metadata.lookup activeKey = world.metadata.lookup activeKey)
    (hprevious : after.metadata.lookup previousKey = world.metadata.lookup previousKey)
    (hservice : ∀ state, after.service = some state → state.contentSource = "signed_update" →
      state.contentVersion ∈ after.installed) : Recorded after where
  active := fun version hversion => hinstalled (h.active version (hactive.symm.trans hversion))
  previous := fun version hversion =>
    (h.previous version (hprevious.symm.trans hversion)).imp id fun hmem => hinstalled hmem
  inForce := hservice

/-- What an activation leaves is recorded, when both versions were installed. -/
theorem recorded_activated {disk : Option FileTree} {metadata : Metadata} {version : String}
    {previous : Option String} {scanner : FileScanner} {reputation : ReputationFeed}
    {installed : List String} (hversion : version ∈ installed)
    (hprevious : ∀ before, previous = some before → before ∈ installed) :
    Recorded ⟨disk, activatedRows version previous metadata,
      some (state.activated version scanner reputation), installed⟩ where
  active := by
    intro active hactive
    rw [lookup_active_activatedRows] at hactive
    rwa [← Option.some.inj hactive]
  previous := by
    intro before hbefore
    rw [lookup_previous_activatedRows] at hbefore
    cases previous with
    | none => exact .inl (Option.some.inj hbefore).symm
    | some previous => exact .inr (hprevious before hbefore)
  inForce := by
    rintro state ⟨⟩ -
    exact hversion

theorem recorded_install (h : Recorded world) (hservice : world.service = some state)
    (choices : InstallChoices) :
    Recorded (installContentUpdate setup choices world state).2 := by
  have hinstalled := installed_installContentUpdate setup choices hservice
  generalize installContentUpdate setup choices world state = run at hinstalled
  generalize (installOfficial setup choices world.disk).2 = disk at hinstalled
  cases hinstalled with
  | stopped => exact h.of_subset (List.Subset.refl _) rfl rfl nofun
  | refused error => exact h.of_subset (List.Subset.refl _) rfl rfl h.inForce
  | current answer =>
      exact h.of_subset (List.subset_append_left _ _) rfl rfl fun state hstate hsigned =>
        List.mem_append_left _ (h.inForce state hstate hsigned)
  | failed version error =>
      exact h.of_subset (List.subset_append_left _ _) rfl rfl fun state hstate hsigned =>
        List.mem_append_left _ (h.inForce state hstate hsigned)
  | activated answer hload =>
      refine recorded_activated (List.mem_append_right _ (List.mem_singleton_self _)) ?_
      intro before hbefore
      split_ifs at hbefore with hsigned
      · cases hbefore
        exact List.mem_append_left _ (h.inForce state hservice hsigned)

/-- A rollback from a signed version records that one. -/
theorem recorded_rollback (h : Recorded world) (hservice : world.service = some state)
    {faults : RollbackFaults} (hsigned : SignedRollback setup world (.rollback faults)) :
    Recorded (rollbackContentUpdate setup faults world state).2 := by
  obtain ⟨error, hfailed⟩ | ⟨previous, scanner, reputation, answer, hfault, hlookup, hnonempty,
    hload, hactivate, hrollback⟩ := rollbackContentUpdate_cases setup faults hservice
  · rwa [hfailed]
  · rw [hrollback]
    obtain hsource | hnone := hsigned state hservice
    · refine recorded_activated ((h.previous previous hlookup).resolve_left hnonempty) ?_
      rintro before ⟨⟩
      exact h.inForce state hservice hsource
    · rw [hnone previous hlookup hnonempty hfault hactivate] at hload
      cases hload

/-- Every step keeps the records, but a rollback from the bundled content. -/
theorem recorded_step {action : ContentAction} (h : Recorded world)
    (hsigned : SignedRollback setup world action)
    (hstep : contentStep setup world action = some after) : Recorded after := by
  cases action with
  | start faults =>
      simp only [contentStep] at hstep
      split at hstep
      · cases hstep
      · cases hstep
        refine h.of_subset (List.Subset.refl _) rfl rfl fun state hstate hsource => ?_
        obtain ⟨-, hbundled | ⟨hactive, -⟩⟩ := createState_cases hstate
        · exact absurd (hbundled.symm.trans hsource) (by decide)
        · exact h.active _ hactive
  | stop =>
      obtain ⟨state, -, rfl⟩ := Option.map_eq_some_iff.mp hstep
      refine h.of_subset (List.Subset.refl _) rfl rfl ?_
      rintro state' ⟨⟩
  | install choices =>
      obtain ⟨state, hservice, rfl⟩ := Option.map_eq_some_iff.mp hstep
      exact recorded_install h hservice choices
  | rollback faults =>
      obtain ⟨state, hservice, rfl⟩ := Option.map_eq_some_iff.mp hstep
      exact recorded_rollback h hservice hsigned
  | monitorTakes =>
      obtain ⟨state, hservice, htake⟩ := Option.bind_eq_some_iff.mp hstep
      obtain ⟨monitor, -, htake⟩ := Option.bind_eq_some_iff.mp htake
      obtain ⟨taken, -, hafter⟩ := Option.bind_eq_some_iff.mp htake
      cases hafter
      refine h.of_subset (List.Subset.refl _) rfl rfl ?_
      rintro state' ⟨⟩
      exact h.inForce state hservice
  | monitorEnds =>
      obtain ⟨state, hservice, hafter⟩ := Option.bind_eq_some_iff.mp hstep
      cases hafter
      refine h.of_subset (List.Subset.refl _) rfl rfl ?_
      rintro state' ⟨⟩
      exact h.inForce state hservice
  | setMetadata fault key value =>
      simp only [contentStep] at hstep
      split at hstep
      · cases hstep
      · next hkey =>
          cases hstep
          obtain ⟨hactive, hprevious⟩ := not_or.mp hkey
          cases fault with
          | some error => exact h.of_subset (List.Subset.refl _) rfl rfl h.inForce
          | none =>
              exact h.of_subset (List.Subset.refl _) (AList.lookup_insert_ne (Ne.symm hactive))
                (AList.lookup_insert_ne (Ne.symm hprevious)) h.inForce

end recorded

/-! ## The way back -/

/-- Neither an installation nor a rollback. -/
def Quiet : ContentAction → Prop
  | .install _ => False
  | .rollback _ => False
  | _ => True

/-- A rollback in which nothing fails says that there is no previous version, or leads to this
one. -/
def LeadsTo (setup : ContentSetup) (world : ContentWorld) (state : ContentState)
    (version : String) : Prop :=
  (rollbackContentUpdate setup .never world state).1 =
      .failed ⟨.notFound, "No previous signed content version is available", false⟩ ∨
    ∃ answer after returned,
      rollbackContentUpdate setup .never world state = (.committed answer, after) ∧
      after.service = some returned ∧ returned.contentVersion = version

section back

variable {setup : ContentSetup} {world after : ContentWorld} {state : ContentState}

/-- The disk and the previous version on record stay as they are. -/
theorem quiet_step {action : ContentAction} (hquiet : Quiet action)
    (hstep : contentStep setup world action = some after) :
    after.disk = world.disk ∧
      after.metadata.lookup previousKey = world.metadata.lookup previousKey := by
  cases action with
  | start faults =>
      simp only [contentStep] at hstep
      split at hstep
      · cases hstep
      · cases hstep
        exact ⟨rfl, rfl⟩
  | stop =>
      obtain ⟨state, -, rfl⟩ := Option.map_eq_some_iff.mp hstep
      exact ⟨rfl, rfl⟩
  | install choices => exact hquiet.elim
  | rollback faults => exact hquiet.elim
  | monitorTakes =>
      obtain ⟨state, -, htake⟩ := Option.bind_eq_some_iff.mp hstep
      obtain ⟨monitor, -, htake⟩ := Option.bind_eq_some_iff.mp htake
      obtain ⟨taken, -, hafter⟩ := Option.bind_eq_some_iff.mp htake
      cases hafter
      exact ⟨rfl, rfl⟩
  | monitorEnds =>
      obtain ⟨state, -, hafter⟩ := Option.bind_eq_some_iff.mp hstep
      cases hafter
      exact ⟨rfl, rfl⟩
  | setMetadata fault key value =>
      simp only [contentStep] at hstep
      split at hstep
      · cases hstep
      · next hkey =>
          cases hstep
          cases fault with
          | some error => exact ⟨rfl, rfl⟩
          | none => exact ⟨rfl, AList.lookup_insert_ne (Ne.symm (not_or.mp hkey).2)⟩

theorem quiet_run {actions : List ContentAction} (hquiet : ∀ action ∈ actions, Quiet action)
    (hrun : run (contentStep setup) world actions = some after) :
    after.disk = world.disk ∧
      after.metadata.lookup previousKey = world.metadata.lookup previousKey := by
  induction actions generalizing world with
  | nil =>
      rw [run_nil, Option.some_inj] at hrun
      rw [hrun]
      exact ⟨rfl, rfl⟩
  | cons action actions ih =>
      obtain ⟨between, hstep, hrun⟩ := run_cons_eq_some.mp hrun
      obtain ⟨hfirst, hrest⟩ := List.forall_mem_cons.mp hquiet
      obtain ⟨hdisk, hprevious⟩ := quiet_step hfirst hstep
      obtain ⟨hdisk', hprevious'⟩ := ih hrest hrun
      exact ⟨hdisk'.trans hdisk, hprevious'.trans hprevious⟩

/-- A rollback leads to the version on record, when it can be loaded. -/
theorem leadsTo_of_loaded {version : String} {scanner : FileScanner} {reputation : ReputationFeed}
    (hprevious : world.metadata.lookup previousKey = some version)
    (hloaded : Loaded setup.crates setup.names setup.shown world.disk version scanner reputation) :
    LeadsTo setup world state version := by
  by_cases hempty : version = ""
  · left
    have htarget : rollbackTarget none world.metadata =
        .error ⟨.notFound, "No previous signed content version is available", false⟩ := by
      rw [rollbackTarget, getMetadata, call_none, hprevious, hempty]
      rfl
    unfold rollbackContentUpdate
    rw [RollbackFaults.never, htarget]
  · right
    obtain ⟨answer, hrollback⟩ := rollbackContentUpdate_activates setup world state .never
      (rollbackTarget_eq_ok.mpr ⟨rfl, hprevious, hempty⟩)
      (loadVersion_eq_some.mpr ⟨rfl, rfl, hloaded⟩) rfl
    exact ⟨answer, _, _, hrollback, rfl, rfl⟩

/-- After a rollback from a version in force a second one leads back to it. -/
theorem leadsTo_of_rollback (hforce : InForce setup world state)
    (hservice : world.service = some state) {faults : RollbackFaults}
    {answer : Except ApiError ContentStatus}
    (hrollback : rollbackContentUpdate setup faults world state = (.committed answer, after))
    {actions : List ContentAction} {last : ContentWorld} (state' : ContentState)
    (hquiet : ∀ action ∈ actions, Quiet action)
    (hrun : run (contentStep setup) after actions = some last) :
    LeadsTo setup last state' state.contentVersion := by
  obtain ⟨hdisk, hprevious⟩ := quiet_run hquiet hrun
  obtain ⟨error, hfailed⟩ | ⟨_, _, _, _, -, -, -, -, -, hcommitted⟩ :=
    rollbackContentUpdate_cases setup faults hservice
  · cases hrollback.symm.trans hfailed
  · cases hrollback.symm.trans hcommitted
    rw [lookup_previous_activatedRows] at hprevious
    have hloaded := hforce.loaded
    rw [← hdisk] at hloaded
    exact leadsTo_of_loaded hprevious hloaded

end back

/-- After a rollback that is committed in this world, and any steps without an installation or a
rollback, a second one leads back to the version that the first one was made from. -/
def RollbackReturns (setup : ContentSetup) (world : ContentWorld)
    (faults : RollbackFaults) : Prop :=
  ∀ state answer after, world.service = some state →
    rollbackContentUpdate setup faults world state = (.committed answer, after) →
    ∀ actions last state', (∀ action ∈ actions, Quiet action) →
      run (contentStep setup) after actions = some last → last.service = some state' →
      LeadsTo setup last state' state.contentVersion

/-- Nothing is on record in a new database. -/
theorem recorded_start {disk : Option FileTree} {metadata : Metadata}
    (hactive : metadata.lookup activeKey = none) (hprevious : metadata.lookup previousKey = none) :
    Recorded ⟨disk, metadata, none, []⟩ := by
  refine ⟨fun version hversion => ?_, fun version hversion => ?_, ?_⟩
  · rw [hactive] at hversion
    cases hversion
  · rw [hprevious] at hversion
    cases hversion
  · rintro state ⟨⟩

/-- **Rollback has a target** in every run in which no rollback leaves the bundled content: the
previous version on record is none or was installed, and a second rollback leads back to where the
first one was made. -/
theorem rollback_returns (setup : ContentSetup) (disk : Option FileTree) (metadata : Metadata)
    (hactive : metadata.lookup activeKey = none) (hprevious : metadata.lookup previousKey = none)
    (actions : List ContentAction) (world : ContentWorld)
    (hsigned : StepsMeet (SignedRollback setup) (contentStep setup) ⟨disk, metadata, none, []⟩
      actions)
    (hrun : run (contentStep setup) ⟨disk, metadata, none, []⟩ actions = some world) :
    PreviousInstalled world ∧
      ∀ faults, SignedRollback setup world (.rollback faults) →
        RollbackReturns setup world faults := by
  have hrecorded : Recorded world :=
    run_invariant_of_meets (fun _ _ _ => recorded_step) (recorded_start hactive hprevious) hsigned
      hrun
  refine ⟨hrecorded.previous, fun faults hmeets state answer after hservice hrollback actions last
    state' hquiet hafter _ => ?_⟩
  obtain hsource | hnone := hmeets state hservice
  · have hforce := (contentAgrees_run hrun state hservice).2 hsource
    exact leadsTo_of_rollback hforce hservice hrollback state' hquiet hafter
  · obtain ⟨error, hfailed⟩ |
        ⟨previous, _, _, _, hfault, hlookup, hnonempty, hload, hactivate, -⟩ :=
      rollbackContentUpdate_cases setup faults hservice
    · cases hrollback.symm.trans hfailed
    · rw [hnone previous hlookup hnonempty hfault hactivate] at hload
      cases hload

/-! ## A rollback from the bundled content -/

/-- The start of a service that cannot read the rules of the active version. -/
def unreadableStart : StartFaults :=
  { StartFaults.never with load := { ActivationFaults.never with scanner := some (.io .notFound) } }

section sample

variable {first second : FileScanner}

/-- The database after both versions were installed. -/
def installedRows : Metadata := activatedRows "2.0" (some "1.0") (activatedRows "1.0" none ∅)

/-- The service after both versions were installed. -/
def installedState (first second : FileScanner) : ContentState :=
  (startedState.activated "1.0" first ⟨"", []⟩).activated "2.0" second ⟨"", []⟩

/-- Both versions are installed one after the other. -/
theorem run_both
    (hfirst : Loaded feedCrates feedNames feedSetup.shown (some storedTree) "1.0" first ⟨"", []⟩)
    (hsecond : Loaded feedCrates feedNames feedSetup.shown (some storedTree) "2.0" second
      ⟨"", []⟩) :
    run (contentStep feedSetup) ⟨some storedTree, ∅, none, []⟩
        ([.start .never, .install (feedChoices firstManifest)] ++
          [.install (feedChoices secondManifest)]) =
      some ⟨some storedTree, installedRows, some (installedState first second),
        ["1.0", "2.0"]⟩ := by
  have hinstall := installOfficial_stored second_verified rfl (by decide +kernel)
  have hload : loadVersion feedSetup (feedChoices secondManifest).activation (some storedTree)
      "2.0" = some (second, ⟨"", []⟩) := loadVersion_eq_some.mpr ⟨rfl, rfl, hsecond⟩
  refine run_append_eq_some.mpr ⟨_, run_first hfirst, run_cons_eq_some.mpr ⟨_, ?_, rfl⟩⟩
  exact congrArg some (installContentUpdate_activates
    ⟨some storedTree, activatedRows "1.0" none ∅,
      some (startedState.activated "1.0" first ⟨"", []⟩), ["1.0"]⟩
    (startedState.activated "1.0" first ⟨"", []⟩)
    hinstall (show "2.0" ≠ "1.0" by decide) hload rfl)

end sample

/-- After both versions were installed, a rollback leads to the first one and back. -/
theorem rollback_returns_installed : ∃ world,
    PreviousInstalled world ∧ RollbackReturns feedSetup world .never ∧
      world.metadata.lookup previousKey = some "1.0" := by
  obtain ⟨first, -, hfirst⟩ := stored_loaded "1.0" (by simp)
  obtain ⟨second, -, hsecond⟩ := stored_loaded "2.0" (by simp)
  obtain ⟨hprevious, hreturns⟩ := rollback_returns feedSetup (some storedTree) ∅ rfl rfl _ _
    (StepsMeet.of_forall (by simp [SignedRollback])) (run_both hfirst hsecond)
  refine ⟨_, hprevious, hreturns .never fun state hstate => .inl ?_,
    lookup_previous_activatedRows⟩
  cases hstate
  rfl

/-- Both versions are installed, the service starts again and cannot load the second one, and a
rollback goes to the first: the version on record is then that of the bundled content, which was
never installed, and the next rollback fails. -/
theorem rollback_to_bundled : ∃ world state,
    run (contentStep feedSetup) ⟨some storedTree, ∅, none, []⟩
      (([.start .never, .install (feedChoices firstManifest)] ++
        [.install (feedChoices secondManifest)]) ++
          [.stop, .start unreadableStart, .rollback .never]) = some world ∧
    world.service = some state ∧ state.contentVersion = "1.0" ∧
    world.installed = ["1.0", "2.0"] ∧
    world.metadata.lookup previousKey = some bundledVersion ∧
    ¬PreviousInstalled world ∧ ¬LeadsTo feedSetup world state bundledVersion := by
  obtain ⟨first, -, hfirst⟩ := stored_loaded "1.0" (by simp)
  obtain ⟨second, -, hsecond⟩ := stored_loaded "2.0" (by simp)
  have hstart : contentStep feedSetup ⟨some storedTree, installedRows, none, ["1.0", "2.0"]⟩
      (.start unreadableStart) =
        some ⟨some storedTree, installedRows, some startedState, ["1.0", "2.0"]⟩ := rfl
  obtain ⟨answer, hrollback⟩ := rollbackContentUpdate_activates feedSetup
    ⟨some storedTree, installedRows, some startedState, ["1.0", "2.0"]⟩ startedState .never
    (rollbackTarget_eq_ok.mpr ⟨rfl, lookup_previous_activatedRows, by decide⟩)
    (loadVersion_eq_some.mpr ⟨rfl, rfl, hfirst⟩) rfl
  have hmissing : scannerForVersion feedCrates feedNames storedTree bundledVersion =
      .error (.content "read rules directory: ") := by
    decide +kernel
  refine ⟨_, _, run_append_eq_some.mpr ⟨_, run_both hfirst hsecond, run_cons_eq_some.mpr
    ⟨_, rfl, run_cons_eq_some.mpr ⟨_, hstart, run_cons_eq_some.mpr
      ⟨_, congrArg some (congrArg Prod.snd hrollback), rfl⟩⟩⟩⟩,
    rfl, rfl, rfl, lookup_previous_activatedRows, fun hprevious => ?_, fun hleads => ?_⟩
  · have hnever : ¬(bundledVersion = "" ∨ bundledVersion ∈ ["1.0", "2.0"]) := by decide
    exact hnever (hprevious _ lookup_previous_activatedRows)
  · have hfails := rollbackContentUpdate_unloadable feedSetup
      ⟨some storedTree, activatedRows "1.0" (some bundledVersion) installedRows,
        some (startedState.activated "1.0" first ⟨"", []⟩), ["1.0", "2.0"]⟩
      (startedState.activated "1.0" first ⟨"", []⟩) .never
      (rollbackTarget_eq_ok.mpr ⟨rfl, lookup_previous_activatedRows, by decide⟩) rfl hmissing
    obtain hfailed | ⟨answer, after, returned, hcommitted, -⟩ := hleads
    · cases hfails.symm.trans hfailed
    · cases hfails.symm.trans (congrArg Prod.fst hcommitted)

end OpenGuard.Service
