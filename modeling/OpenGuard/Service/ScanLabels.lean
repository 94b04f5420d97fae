import OpenGuard.Service.ScanResults

/-!
# What scans are called

A job has an id and a label, for as long as it is there; and the id of a job that is started is new.

* `Keyed`: the table of the jobs has each one under its id.
* `Called`: all jobs of an id, of which there are some, have a label.
-/

namespace OpenGuard.Service

open OpenGuard.Lib OpenGuard.Domain OpenGuard.Storage

/-- The label of a scan.
Source: `main.rs`, `ServiceState::start_scan` -/
def requestLabel (request : StartRequest) : String := (startedStatus "" request).target

/-- A status is of the same job. -/
def SameJob (before after : ScanJobStatus) : Prop :=
  after.scanId = before.scanId ∧ after.target = before.target

/-- The table has each job under its id. -/
def Keyed (world : JobsWorld) : Prop :=
  ∀ scanId job shared, world.scanJobs.lookup scanId = some job →
    world.shared[job.shared]? = some shared → shared.status.scanId = scanId

/-- There is a job of this id, and each has this label. -/
structure Called (world : JobsWorld) (scanId label : String) : Prop where
  there : ∃ (index : ℕ) (shared : SharedJob), world.shared[index]? = some shared ∧
    shared.status.scanId = scanId
  label : ∀ (index : ℕ) shared, world.shared[index]? = some shared →
    shared.status.scanId = scanId → shared.status.target = label

/-- The id of a scan that is started is new.
Source: `main.rs`, `ServiceState::start_scan` -/
def FreshId (world : JobsWorld) (choice : StartChoice) : Prop :=
  ∀ shared ∈ world.shared, shared.status.scanId ≠ choice.uuid

section labels

variable {ioText : IoError → String} {world : JobsWorld} {shared after : SharedJob} {index : ℕ}
  {action : JobsAction} {scanId label : String}

theorem sameJob_apply (status : ScanJobStatus) (c : StatusChange) :
    SameJob status (c.apply status) := by
  cases c <;> exact ⟨rfl, rfl⟩

/-- A call of a worker leaves its job the same one. -/
theorem sameJob_workerAnswer (ownerSid : String) (op : ScanOp) (choice : WorkerChoice)
    (world : ScanWorld) :
    SameJob world.status (workerAnswer ownerSid op choice world).2.status := by
  cases op with
  | change c => exact sameJob_apply world.status c
  | collectScanTargets roots =>
      simp only [workerAnswer]
      split <;> exact ⟨rfl, rfl⟩
  | scanFile target =>
      simp only [workerAnswer]
      split
      · split <;> exact ⟨rfl, rfl⟩
      · exact ⟨rfl, rfl⟩
  | recordScan finding =>
      simp only [workerAnswer]
      split <;> exact ⟨rfl, rfl⟩
  | _ => exact ⟨rfl, rfl⟩

theorem sameJob_work (shared : SharedJob) (tables : ScanTables) (choice : WorkerChoice) :
    SameJob shared.status (shared.work tables choice).1.status := by
  obtain hsame | ⟨thread, op, next, -, -, hafter⟩ := shared.work_cases tables choice
  · rw [hsame]
    exact ⟨rfl, rfl⟩
  · rw [hafter]
    exact sameJob_workerAnswer thread.ownerSid op _ (thread.world shared.status tables)

variable (ioText) in
/-- Every job stays, as the same one. -/
theorem sameJob_jobsNext (action : JobsAction) (hshared : world.shared[index]? = some shared) :
    ∃ after : SharedJob, (jobsNext ioText world action).shared[index]? = some after ∧
      SameJob shared.status after.status := by
  obtain ⟨cancelled, hsame⟩ | ⟨choice, hwork⟩ := shared_jobsNext_cases action hshared
  · exact ⟨_, hsame, rfl, rfl⟩
  · exact ⟨_, hwork, sameJob_work shared world.tables choice⟩

/-- Where a job comes from: it was there before, or it has just been registered. -/
theorem shared_jobsNext_origin
    (hafter : (jobsNext ioText world action).shared[index]? = some after) :
    (∃ shared : SharedJob, world.shared[index]? = some shared ∧
      SameJob shared.status after.status) ∨
      ∃ request choice, action = .startScan request choice ∧ index = world.shared.length ∧
        after.status = startedStatus choice.uuid request := by
  cases hshared : world.shared[index]? with
  | some shared =>
      obtain ⟨same, hsame, hjob⟩ := sameJob_jobsNext ioText action hshared
      obtain rfl : same = after := Option.some.inj (hsame.symm.trans hafter)
      exact .inl ⟨shared, rfl, hjob⟩
  | none =>
      have hnew := List.getElem?_eq_none_iff.mp hshared
      by_cases haction : ∃ request choice, action = .startScan request choice
      · obtain ⟨request, choice, rfl⟩ := haction
        obtain ⟨-, hindex, -, hstatus⟩ := shared_startScan_new hnew hafter
        exact .inr ⟨request, choice, rfl, hindex, hstatus⟩
      · have hlength := @length_jobsNext ioText world _
          fun request choice hsame => haction ⟨request, choice, hsame⟩
        obtain ⟨hindex, -⟩ := List.getElem?_eq_some_iff.mp hafter
        omega

/-- Every action leaves the jobs under their ids. -/
theorem Keyed.jobsNext (h : Keyed world) : Keyed (jobsNext ioText world action) := by
  intro scanId job after hjob hafter
  have hstill : world.scanJobs.lookup scanId = some job → after.status.scanId = scanId := by
    intro hbefore
    have hshared := List.getElem?_eq_getElem (world.registered scanId job hbefore)
    obtain ⟨same, hsame, hid, -⟩ := sameJob_jobsNext ioText action hshared
    obtain rfl : same = after := Option.some.inj (hsame.symm.trans hafter)
    exact hid.trans (h scanId job _ hbefore hshared)
  by_cases haction : ∃ request choice, action = .startScan request choice
  · obtain ⟨request, choice, rfl⟩ := haction
    rcases lookup_startScan hjob with hbefore | ⟨rfl, rfl⟩
    · exact hstill hbefore
    · obtain ⟨-, -, -, hstatus⟩ := shared_startScan_new le_rfl hafter
      rw [hstatus]
      rfl
  · rw [scanJobs_jobsNext fun request choice hsame => haction ⟨request, choice, hsame⟩] at hjob
    exact hstill hjob

theorem keyed_initial (tables : ScanTables) : Keyed (.initial tables) := by
  intro scanId job shared hjob
  cases hjob

/-- What a client is told is of a job of that id. -/
theorem Called.told {ownerSid : String} {status : ScanJobStatus} (h : Called world scanId label)
    (hkeyed : Keyed world) (hstatus : scanStatus scanId ownerSid world = .ok status) :
    status.target = label := by
  obtain ⟨job, shared, hjob, -, hshared, rfl⟩ := scanStatus_eq_ok.mp hstatus
  exact h.label job.shared shared hshared (hkeyed scanId job shared hjob hshared)

/-- No other job gets the id. -/
theorem Called.jobsNext (h : Called world scanId label)
    (hfresh : ∀ request choice, action = .startScan request choice → FreshId world choice) :
    Called (jobsNext ioText world action) scanId label where
  there := by
    obtain ⟨index, shared, hshared, hid⟩ := h.there
    obtain ⟨after, hafter, hsame, -⟩ := sameJob_jobsNext ioText action hshared
    exact ⟨index, after, hafter, hsame.trans hid⟩
  label index after hafter hid := by
    obtain ⟨shared, hshared, hsame, htarget⟩ | ⟨request, choice, haction, -, hstatus⟩ :=
      shared_jobsNext_origin hafter
    · exact htarget.trans (h.label index shared hshared (hsame.symm.trans hid))
    · obtain ⟨place, shared, hshared, hbefore⟩ := h.there
      refine absurd ?_ (hfresh request choice haction shared (List.mem_of_getElem? hshared))
      rw [hbefore, ← hid, hstatus]
      rfl

/-- The job of a scan that has been started has its label, and is the only one of its id. -/
theorem called_startScan {request : StartRequest} {choice : StartChoice} {started : JobsWorld}
    (hstart : startScan ioText request choice world = (.ok scanId, started))
    (hfresh : FreshId world choice) : Called started scanId (requestLabel request) := by
  have hstarted := started_startScan ioText request choice world
  have hnext : started = Service.jobsNext ioText world (.startScan request choice) := by
    rw [Service.jobsNext, hstart]
  have hnew : scanId = choice.uuid ∧ world.shared.length < started.shared.length := by
    rw [hstart] at hstarted
    cases hstarted with
    | runs roots h =>
        refine ⟨rfl, ?_⟩
        rw [JobsWorld.spawnLast, JobsWorld.modifyShared, List.length_modify, register_shared,
          shared_pruneFinishedScans, List.length_append, List.length_singleton]
        exact Nat.lt_succ_self _
  obtain ⟨rfl, hlength⟩ := hnew
  have hlast := List.getElem?_eq_getElem hlength
  subst hnext
  refine ⟨⟨world.shared.length, _, hlast, ?_⟩, fun index after hafter hid => ?_⟩
  · obtain ⟨-, -, -, hstatus⟩ := shared_startScan_new le_rfl hlast
    rw [hstatus]
    rfl
  · obtain ⟨shared, hshared, hsame, -⟩ | ⟨other, choice', haction, -, hstatus⟩ :=
      shared_jobsNext_origin hafter
    · refine absurd ?_ (hfresh shared (List.mem_of_getElem? hshared))
      exact hsame.symm.trans hid
    · cases haction
      rw [hstatus]
      rfl

end labels

end OpenGuard.Service
