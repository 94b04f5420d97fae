import OpenGuard.Lib.Fair
import OpenGuard.Service.ScanJobs

/-!
# Jobs without a worker

A job is registered before its worker is started, and stays when that fails. It is then running for
ever, and takes its place in the table.

* `EndsJob`: what a worker has left to do ends the job, whatever the tables hold by then.
* `failed_start_iff`: a start that fails leaves no job, and so all jobs end and the table is full
  only of running ones, just when it fails before the job is registered.
-/

namespace OpenGuard.Service

open Filter OpenGuard.Lib OpenGuard.Lib.Program OpenGuard.Domain OpenGuard.Storage
  OpenGuard.Detection

/-! ## A worker ends its job -/

section worker

variable {α : Type} {ownerSid : String} {ioText : IoError → String} {state : ScanJobState}
  {post : α → ScanJobState → Prop}

/-- The state of a job alone. Everything else that a call reads may change before it. -/
def stateAnswer (ownerSid : String) :
    Handler ScanOp ScanOp.Answer ScanJobState (ScanWorld × WorkerChoice)
  | op, (world, choice), state =>
      let (answer, after) := workerAnswer ownerSid op choice
        { world with status := { world.status with state } }
      (answer, after.status.state)

/-- Every call is made while the job is running. -/
def SafeState (ownerSid : String) (post : α → ScanJobState → Prop) (p : ScanProgram α)
    (state : ScanJobState) : Prop :=
  Safe (stateAnswer ownerSid) (fun _ _ => True) (fun _ state => state = .running) post p state

/-- What is left of a worker ends the job. -/
def EndsJob (ownerSid : String) (left : ScanProgram Unit) (state : ScanJobState) : Prop :=
  SafeState ownerSid (fun _ state => HasEnded state) left state

/-- A change of the status. -/
def ScanOp.isChange : ScanOp → Bool
  | .change _ => true
  | _ => false

/-- Only the changes of the status change the state. -/
theorem stateAnswer_state {op : ScanOp} (hop : op.isChange = false)
    (choice : ScanWorld × WorkerChoice) : (stateAnswer ownerSid op choice state).2 = state := by
  cases op with
  | change c => cases hop
  | collectScanTargets roots =>
      simp only [stateAnswer, workerAnswer]
      split <;> rfl
  | scanFile target =>
      simp only [stateAnswer, workerAnswer]
      split
      · split <;> rfl
      · rfl
  | recordScan finding =>
      simp only [stateAnswer, workerAnswer]
      split <;> rfl
  | _ => rfl

/-- Before any other call than a change. -/
theorem safeState_ask {op : ScanOp} {f : op.Answer → ScanProgram α}
    (hop : op.isChange = false)
    (hf : ∀ answer, SafeState ownerSid post (f answer) .running) :
    SafeState ownerSid post (ask op >>= f) .running := by
  refine ⟨rfl, fun choice _ => ?_⟩
  rw [stateAnswer_state hop]
  exact hf _

/-- Before a change of the status that does not end the job. -/
theorem safeState_change {c : StatusChange} {f : Unit → ScanProgram α}
    (hstate : ∀ status : ScanJobStatus, (c.apply status).state = status.state)
    (hf : SafeState ownerSid post (f ()) .running) :
    SafeState ownerSid post (change c >>= f) .running := by
  refine ⟨rfl, fun choice _ => ?_⟩
  have hsame : (stateAnswer ownerSid (.change c) choice .running).2 = .running := hstate _
  rw [hsame]
  exact hf

/-- A change that ends the job, and nothing after it. -/
theorem safeState_end {c : StatusChange} {value : α}
    (hended : ∀ status, HasEnded (c.apply status).state)
    (hpost : ∀ state, HasEnded state → post value state) :
    SafeState ownerSid post (change c >>= fun _ => pure value) .running :=
  ⟨rfl, fun _ _ => hpost _ (hended _)⟩

/-- The job goes on, or it has ended. -/
def GoesOn (more : Bool) (state : ScanJobState) : Prop :=
  if more then state = .running else HasEnded state

theorem hasEnded_failed (message : String) (status : ScanJobStatus) :
    HasEnded ((StatusChange.failed message).apply status).state := .inr (.inl rfl)

theorem safeState_counted (finding : ScanFinding) (singleFile : Bool) :
    SafeState ownerSid GoesOn (change (.counted finding singleFile) >>= fun _ => pure true)
      .running :=
  safeState_change (fun _ => rfl) rfl

theorem safeState_writeFinding (finding : ScanFinding) (singleFile : Bool) :
    SafeState ownerSid GoesOn (writeFinding finding singleFile) .running := by
  refine safeState_ask rfl fun answer => ?_
  cases answer with
  | error error => exact safeState_end (hasEnded_failed _) fun _ h => h
  | ok id =>
      simp only
      split_ifs
      · exact safeState_ask rfl fun _ => safeState_counted finding singleFile
      · exact safeState_counted finding singleFile

theorem safeState_recordFinding (finding : ScanFinding) (singleFile : Bool) :
    SafeState ownerSid GoesOn (recordFinding finding singleFile) .running := by
  unfold recordFinding
  split_ifs
  · exact safeState_writeFinding finding singleFile
  · refine safeState_ask rfl fun answer => ?_
    rcases answer with error | _ | label
    · exact safeState_end (hasEnded_failed _) fun _ h => h
    · exact safeState_writeFinding finding singleFile
    · exact safeState_writeFinding (allowedFinding label finding) singleFile

theorem safeState_scanTarget (target : String) (singleFile : Bool) :
    SafeState ownerSid GoesOn (scanTarget ioText target singleFile) .running := by
  refine safeState_ask rfl fun key => safeState_ask rfl fun excluded => ?_
  rcases excluded with error | _ | _
  · exact safeState_end (hasEnded_failed _) fun _ h => h
  · refine safeState_ask rfl fun answer => ?_
    rcases answer with error | error | finding
    · exact safeState_end (hasEnded_failed _) fun _ h => h
    · cases error with
      | cancelled => exact safeState_end (fun _ => .inr (.inr rfl)) fun _ h => h
      | _ => exact safeState_change (fun _ => rfl) rfl
    · exact safeState_recordFinding finding singleFile
  · exact safeState_ask rfl fun file =>
      safeState_recordFinding (excludedFinding target file) singleFile

theorem endsJob_scanTargets (singleFile : Bool) (targets : List String) :
    EndsJob ownerSid (scanTargets ioText singleFile targets) .running := by
  induction targets with
  | nil => exact ⟨rfl, fun _ _ => .inl rfl⟩
  | cons target targets ih =>
      refine safeState_ask rfl fun cancelled => ?_
      cases cancelled with
      | true => exact ⟨rfl, fun _ _ => .inr (.inr rfl)⟩
      | false =>
          refine safeState_change (fun _ => rfl) ?_
          refine (safeState_scanTarget target singleFile).bind fun more state hstate => ?_
          cases more with
          | false => exact hstate
          | true =>
              rw [show state = .running from hstate]
              exact ih

/-- The targets are known, or the job has ended. -/
theorem safeState_collectTargets (roots : List String) :
    SafeState ownerSid (fun targets state => GoesOn targets.isSome state) (collectTargets roots)
      .running := by
  refine safeState_ask rfl fun answer => ?_
  rcases answer with error | error | targets
  · exact safeState_end (hasEnded_failed _) fun _ h => h
  · refine safeState_ask rfl fun cancelled => safeState_end (fun _ => ?_) fun _ h => h
    cases cancelled with
    | true => exact .inr (.inr rfl)
    | false => exact .inr (.inl rfl)
  · simp only
    split_ifs
    · exact safeState_change (fun _ => rfl) rfl
    · exact safeState_end (hasEnded_failed _) fun _ h => h

/-- **The worker ends its job.** -/
theorem endsJob_scanWorker (roots : List String) :
    EndsJob ownerSid (scanWorker ioText roots) .running := by
  refine (safeState_collectTargets roots).bind fun targets state hstate => ?_
  cases targets with
  | none => exact hstate
  | some targets =>
      rw [show state = .running from hstate]
      exact endsJob_scanTargets _ targets

end worker

/-! ## Starts -/

section start

variable {ioText : IoError → String} {request : StartRequest} {choice : StartChoice}
  {world : JobsWorld}

/-- A start fails before the job is registered, or it does not fail. -/
def LeavesNoJob (request : StartRequest) (choice : StartChoice) (world : JobsWorld) : Prop :=
  (∃ error, resolveScanRoots request.client request.target request.profile choice.roots =
    .error error) ∨
  128 ≤ (world.pruneFinishedScans choice.order).scanJobs.size ∨
  duplicateToken request.client choice.duplicateToken = .ok () ∧ choice.spawn = none

/-- If the start fails, no job is in the table that was not there before. -/
def FailsCleanly (ioText : IoError → String) (request : StartRequest) (choice : StartChoice)
    (world : JobsWorld) : Prop :=
  ∀ error, (startScan ioText request choice world).1 = .error error →
    ∀ scanId job, (startScan ioText request choice world).2.scanJobs.lookup scanId = some job →
      world.scanJobs.lookup scanId = some job

theorem lookup_pruneFinishedScans {order : IterOrder String ScanJob} {scanId : String}
    {job : ScanJob} (h : (world.pruneFinishedScans order).scanJobs.lookup scanId = some job) :
    world.scanJobs.lookup scanId = some job := by
  unfold JobsWorld.pruneFinishedScans at h
  split_ifs at h with hsmall
  · exact h
  · exact lookup_removeFinished h

@[simp] theorem shared_pruneFinishedScans (order : IterOrder String ScanJob) :
    (world.pruneFinishedScans order).shared = world.shared := by
  unfold JobsWorld.pruneFinishedScans
  split_ifs <;> rfl

/-- What a start can do. -/
inductive Started (ioText : IoError → String) (request : StartRequest) (choice : StartChoice)
    (world : JobsWorld) : Except ApiError String × JobsWorld → Prop
  | refused {error : ApiError}
      (h : resolveScanRoots request.client request.target request.profile choice.roots =
        .error error) :
      Started ioText request choice world (.error error, world)
  | busy (h : 128 ≤ (world.pruneFinishedScans choice.order).scanJobs.size) :
      Started ioText request choice world
        (.error tooManyScans, world.pruneFinishedScans choice.order)
  | failed (error : ApiError) (h : ¬LeavesNoJob request choice world) (hcode : error.code ≠ .busy) :
      Started ioText request choice world
        (.error error, (world.pruneFinishedScans choice.order).register choice.uuid
          request.client.sid (startedStatus choice.uuid request))
  | runs (roots : List String)
      (h : duplicateToken request.client choice.duplicateToken = .ok () ∧ choice.spawn = none) :
      Started ioText request choice world
        (.ok choice.uuid, ((world.pruneFinishedScans choice.order).register choice.uuid
          request.client.sid (startedStatus choice.uuid request)).spawnLast ioText
            request.client.sid roots)

theorem started_startScan (ioText : IoError → String) (request : StartRequest)
    (choice : StartChoice) (world : JobsWorld) :
    Started ioText request choice world (startScan ioText request choice world) := by
  unfold startScan
  cases hroots : resolveScanRoots request.client request.target request.profile choice.roots with
  | error error => exact .refused hroots
  | ok roots =>
      simp only
      split_ifs with hbusy
      · exact .busy hbusy
      · have hleaves : LeavesNoJob request choice world ↔
            duplicateToken request.client choice.duplicateToken = .ok () ∧
              choice.spawn = none := by
          simp only [LeavesNoJob, hroots, hbusy, reduceCtorEq, exists_const, false_or]
        cases hduplicate : duplicateToken request.client choice.duplicateToken with
        | error error =>
            refine .failed _ (fun h => ?_) nofun
            rw [hduplicate] at hleaves
            cases (hleaves.mp h).1
        | ok _ =>
            cases hspawn : choice.spawn with
            | some error =>
                refine .failed _ (fun h => ?_) nofun
                rw [hspawn] at hleaves
                cases (hleaves.mp h).2
            | none => exact .runs roots ⟨hduplicate, hspawn⟩

/-- **A failed start leaves no job** just when it fails before the job is registered, or not at
all. -/
theorem failsCleanly_iff :
    FailsCleanly ioText request choice world ↔ LeavesNoJob request choice world := by
  have hstarted := started_startScan ioText request choice world
  unfold FailsCleanly
  generalize startScan ioText request choice world = result at hstarted ⊢
  constructor
  · intro hclean
    cases hstarted with
    | refused h => exact .inl ⟨_, h⟩
    | busy h => exact .inr (.inl h)
    | failed error h hcode =>
        exfalso
        have hnew := hclean error rfl choice.uuid ⟨request.client.sid, world.shared.length⟩ (by
          rw [JobsWorld.register, AList.lookup_insert, shared_pruneFinishedScans])
        exact (world.registered _ _ hnew).false
    | runs roots h => exact .inr (.inr h)
  · intro hleaves error herror scanId job hjob
    cases hstarted with
    | refused h => exact hjob
    | busy h => exact lookup_pruneFinishedScans hjob
    | failed error h hcode => exact absurd hleaves h
    | runs roots h => cases herror

end start

/-! ## Jobs that have a worker -/

section jobs

variable {ioText : IoError → String} {world : JobsWorld} {shared : SharedJob} {index : ℕ}

/-- A worker has been started, and what it has left to do ends the job. -/
def Attended (shared : SharedJob) : Prop :=
  ∃ thread, shared.thread = some thread ∧
    EndsJob thread.ownerSid thread.left shared.status.state

/-- All jobs in the table have a worker. -/
def AllAttended (world : JobsWorld) : Prop :=
  ∀ scanId job, world.scanJobs.lookup scanId = some job →
    ∃ shared, world.shared[job.shared]? = some shared ∧ Attended shared

/-- Every call of the worker leaves less to do. -/
theorem attended_call {thread : ScanThread} {op : ScanOp} {next : op.Answer → ScanProgram Unit}
    (hthread : shared.thread = some thread) (hleft : thread.left = .call op next)
    (hends : EndsJob thread.ownerSid thread.left shared.status.state) (tables : ScanTables)
    (choice : WorkerChoice) :
    ∃ after, (shared.work tables choice).1.thread = some after ∧
      LeftOf after.left thread.left ∧
      EndsJob after.ownerSid after.left (shared.work tables choice).1.status.state := by
  rw [hleft] at hends ⊢
  have hnext := hends.2 (thread.world shared.status tables,
    { choice with cancelled := shared.cancelled }) trivial
  unfold SharedJob.work
  rw [hthread]
  simp only [hleft]
  exact ⟨_, rfl, .answered op next _, hnext⟩

theorem Attended.work (h : Attended shared) (tables : ScanTables) (choice : WorkerChoice) :
    Attended (shared.work tables choice).1 := by
  obtain ⟨thread, hthread, hends⟩ := h
  cases hleft : thread.left with
  | ret value =>
      have hsame : (shared.work tables choice).1 = shared := by
        unfold SharedJob.work
        rw [hthread]
        simp only [hleft]
      rw [hsame]
      exact ⟨thread, hthread, hends⟩
  | call op next =>
      obtain ⟨after, hafter, -, hends⟩ := attended_call hthread hleft hends tables choice
      exact ⟨after, hafter, hends⟩

theorem shared_modifyShared (f : SharedJob → SharedJob) (other : ℕ) :
    (world.modifyShared index f).shared[other]? =
      if index = other then world.shared[other]?.map f else world.shared[other]? := by
  rw [JobsWorld.modifyShared, List.getElem?_modify]
  split_ifs <;> simp

theorem register_shared (scanId ownerSid : String) (status : ScanJobStatus) :
    (world.register scanId ownerSid status).shared = world.shared ++ [⟨false, status, none⟩] :=
  rfl

theorem shared_register {scanId ownerSid : String} {status : ScanJobStatus}
    (h : index < world.shared.length) :
    (world.register scanId ownerSid status).shared[index]? = world.shared[index]? :=
  List.getElem?_append_left h

theorem shared_spawnLast {ownerSid : String} {roots : List String}
    (h : index + 1 < world.shared.length) :
    (world.spawnLast ioText ownerSid roots).shared[index]? = world.shared[index]? := by
  rw [JobsWorld.spawnLast, shared_modifyShared, if_neg (by omega)]

/-- A request for a scan changes nothing of the jobs before. -/
theorem shared_startScan (request : StartRequest) (choice : StartChoice)
    (h : index < world.shared.length) :
    (startScan ioText request choice world).2.shared[index]? = world.shared[index]? := by
  have hstarted := started_startScan ioText request choice world
  generalize startScan ioText request choice world = result at hstarted ⊢
  have hpruned : index < (world.pruneFinishedScans choice.order).shared.length := by
    rwa [shared_pruneFinishedScans]
  cases hstarted with
  | refused _ => rfl
  | busy _ => rw [shared_pruneFinishedScans]
  | failed error _ _ => rw [shared_register hpruned, shared_pruneFinishedScans]
  | runs roots _ =>
      rw [shared_spawnLast, shared_register hpruned, shared_pruneFinishedScans]
      rw [JobsWorld.register, List.length_append, List.length_singleton]
      exact Nat.succ_lt_succ hpruned

variable (ioText) in
/-- Only the flag of a job may change, unless the action is a call of its worker. -/
theorem shared_jobsNext {action : JobsAction} (hshared : world.shared[index]? = some shared)
    (haction : ∀ choice, action ≠ .work index choice) :
    ∃ cancelled, (jobsNext ioText world action).shared[index]? =
      some { shared with cancelled } := by
  cases action with
  | startScan request choice =>
      refine ⟨shared.cancelled, ?_⟩
      rw [jobsNext, shared_startScan request choice (List.getElem?_eq_some_iff.mp hshared).1,
        hshared]
  | cancelScan scanId ownerSid =>
      simp only [jobsNext, cancelScan]
      split
      · exact ⟨_, hshared⟩
      · split
        · exact ⟨_, hshared⟩
        · simp only [shared_modifyShared, hshared, Option.map_some]
          split_ifs
          · exact ⟨true, rfl⟩
          · exact ⟨_, rfl⟩
  | work other choice =>
      have hother : other ≠ index := by
        rintro rfl
        exact haction choice rfl
      refine ⟨shared.cancelled, ?_⟩
      simp only [jobsNext, JobsWorld.work]
      split
      · exact hshared
      · rw [shared_modifyShared, if_neg hother, hshared]
  | write tables => exact ⟨_, hshared⟩

theorem shared_work {choice : WorkerChoice} (hshared : world.shared[index]? = some shared) :
    (jobsNext ioText world (.work index choice)).shared[index]? =
      some (shared.work world.tables choice).1 := by
  simp only [jobsNext, JobsWorld.work, hshared]
  rw [shared_modifyShared, if_pos rfl, hshared]
  rfl

/-- A job that has a worker keeps it. -/
theorem attended_jobsNext (hshared : world.shared[index]? = some shared) (h : Attended shared)
    (action : JobsAction) :
    ∃ after, (jobsNext ioText world action).shared[index]? = some after ∧ Attended after := by
  by_cases haction : ∃ choice, action = .work index choice
  · obtain ⟨choice, rfl⟩ := haction
    exact ⟨_, shared_work hshared, h.work world.tables choice⟩
  · obtain ⟨cancelled, hafter⟩ :=
      shared_jobsNext ioText hshared (not_exists.mp haction)
    exact ⟨_, hafter, h⟩

/-- A request that does not leave a job behind. -/
def JobsAction.LeavesNoJob (world : JobsWorld) : JobsAction → Prop
  | .startScan request choice => Service.LeavesNoJob request choice world
  | _ => True

/-- A job that is new in the table has just been given a worker. -/
theorem attended_started {request : StartRequest} {choice : StartChoice} {scanId : String}
    {job : ScanJob} (hleaves : LeavesNoJob request choice world)
    (hjob : (startScan ioText request choice world).2.scanJobs.lookup scanId = some job) :
    world.scanJobs.lookup scanId = some job ∨
      ∃ shared, (startScan ioText request choice world).2.shared[job.shared]? = some shared ∧
        Attended shared := by
  have hstarted := started_startScan ioText request choice world
  generalize startScan ioText request choice world = result at hstarted hjob ⊢
  cases hstarted with
  | refused h => exact .inl hjob
  | busy h => exact .inl (lookup_pruneFinishedScans hjob)
  | failed error h hcode => exact absurd hleaves h
  | runs roots h =>
      rcases Table.lookup_insert_eq_some_iff.mp hjob with ⟨-, rfl⟩ | ⟨-, hbefore⟩
      · right
        refine ⟨⟨false, startedStatus choice.uuid request,
          some ⟨request.client.sid, scanWorker ioText roots, [], [], []⟩⟩, ?_,
          _, rfl, endsJob_scanWorker roots⟩
        rw [JobsWorld.spawnLast, shared_modifyShared, if_pos]
        · rw [JobsWorld.register, List.getElem?_concat_length]
          rfl
        · rw [JobsWorld.register, List.length_append, List.length_singleton]
          rfl
      · exact .inl (lookup_pruneFinishedScans hbefore)

theorem scanJobs_jobsNext {action : JobsAction} (haction : ∀ request choice,
      action ≠ .startScan request choice) :
    (jobsNext ioText world action).scanJobs = world.scanJobs := by
  cases action with
  | startScan request choice => exact absurd rfl (haction request choice)
  | cancelScan scanId ownerSid =>
      simp only [jobsNext, cancelScan]
      split
      · rfl
      · split <;> rfl
  | work index choice =>
      simp only [jobsNext, JobsWorld.work]
      split <;> rfl
  | write tables => rfl

/-- Every action keeps a worker for every job, but a start that leaves a job behind. -/
theorem allAttended_jobsNext {action : JobsAction} (h : AllAttended world)
    (hleaves : action.LeavesNoJob world) : AllAttended (jobsNext ioText world action) := by
  intro scanId job hjob
  have hstill : world.scanJobs.lookup scanId = some job →
      ∃ shared, (jobsNext ioText world action).shared[job.shared]? = some shared ∧
        Attended shared := by
    intro hbefore
    obtain ⟨shared, hshared, hattended⟩ := h scanId job hbefore
    exact attended_jobsNext hshared hattended action
  by_cases haction : ∃ request choice, action = .startScan request choice
  · obtain ⟨request, choice, rfl⟩ := haction
    obtain hbefore | hnew := attended_started hleaves hjob
    · exact hstill hbefore
    · exact hnew
  · rw [scanJobs_jobsNext fun request choice haction' => haction ⟨request, choice, haction'⟩]
      at hjob
    exact hstill hjob

/-- A job that has a worker is running or has ended. -/
theorem Attended.state (h : Attended shared) :
    (shared.status.state = .running ∧
      ∃ thread, shared.thread = some thread ∧ thread.left.result? = none) ∨
    HasEnded shared.status.state := by
  obtain ⟨thread, hthread, hends⟩ := h
  cases hleft : thread.left with
  | ret value =>
      rw [hleft] at hends
      exact .inr hends
  | call op next =>
      rw [hleft] at hends
      exact .inl ⟨hends.1, thread, hthread, by rw [hleft]; rfl⟩

/-- What the worker of a job has left to do. -/
def WorkLeft (index : ℕ) (left : ScanProgram Unit) (world : JobsWorld) : Prop :=
  ∃ shared thread, world.shared[index]? = some shared ∧ shared.thread = some thread ∧
    thread.left = left ∧ EndsJob thread.ownerSid left shared.status.state

/-- The job has ended. -/
def EndedAt (index : ℕ) (world : JobsWorld) : Prop :=
  ∃ shared, world.shared[index]? = some shared ∧ HasEnded shared.status.state

/-- **A job that has a worker ends**, when its worker goes on again and again, whatever else
happens. -/
theorem ends_of_attended (hshared : world.shared[index]? = some shared) (h : Attended shared)
    {actions : ℕ → JobsAction}
    (hfair : ∃ᶠ n in atTop, ∃ choice, actions n = .work index choice) :
    ∃ n, EndedAt index (stateAt (jobsNext ioText) world actions n) := by
  have hother : ∀ left world action, WorkLeft index left world →
      (¬∃ choice, action = JobsAction.work index choice) →
      WorkLeft index left (jobsNext ioText world action) := by
    rintro left world action ⟨shared, thread, hshared, hthread, rfl, hends⟩ hother
    obtain ⟨cancelled, hafter⟩ :=
      shared_jobsNext ioText hshared (not_exists.mp hother)
    exact ⟨_, thread, hafter, hthread, rfl, hends⟩
  have hcall : ∀ left world, WorkLeft index left world → EndedAt index world ∨
      ∀ action, (∃ choice, action = JobsAction.work index choice) →
        ∃ less, LeftOf less left ∧ WorkLeft index less (jobsNext ioText world action) := by
    rintro left world ⟨shared, thread, hshared, hthread, rfl, hends⟩
    cases hleft : thread.left with
    | ret value =>
        rw [hleft] at hends
        exact .inl ⟨shared, hshared, hends⟩
    | call op next =>
        right
        rintro action ⟨choice, rfl⟩
        obtain ⟨after, hthread', hless, hends'⟩ :=
          attended_call hthread hleft hends world.tables choice
        rw [← hleft]
        exact ⟨after.left, hless, _, after, shared_work hshared, hthread', rfl, hends'⟩
  obtain ⟨thread, hthread, hends⟩ := h
  exact eventually_of_descent wellFounded_leftOf hother hcall
    ⟨shared, thread, hshared, hthread, rfl, hends⟩ hfair

/-- When many jobs are left, all the finished ones are gone. -/
theorem lookup_removeFinished_of_mem {finished : List String} {jobs : Table String ScanJob}
    (hmany : 96 ≤ (removeFinished finished jobs).size) {scanId : String}
    (h : scanId ∈ finished) : (removeFinished finished jobs).lookup scanId = none := by
  induction finished generalizing jobs with
  | nil => cases h
  | cons first finished ih =>
      rw [removeFinished] at hmany ⊢
      split_ifs at hmany ⊢ with hfew
      · omega
      · rcases List.mem_cons.mp h with rfl | h
        · cases hlookup : (removeFinished finished (jobs.erase scanId)).lookup scanId with
          | none => rfl
          | some job =>
              have herased := lookup_removeFinished hlookup
              rw [AList.lookup_erase] at herased
              cases herased
        · exact ih hmany h

/-- When the table is full, a job is running. -/
theorem running_of_busy (h : AllAttended world) {order : IterOrder String ScanJob}
    (hbusy : 128 ≤ (world.pruneFinishedScans order).scanJobs.size) :
    ∃ scanId job, world.scanJobs.lookup scanId = some job ∧
      world.stateOf job = some .running := by
  obtain ⟨scanId, job, hjob⟩ : ∃ scanId job,
      (world.pruneFinishedScans order).scanJobs.lookup scanId = some job := by
    obtain ⟨entry, hentry⟩ := List.exists_mem_of_length_pos
      (Nat.lt_of_lt_of_le (by decide) hbusy)
    exact ⟨entry.1, entry.2, AList.mem_lookup_iff.mpr hentry⟩
  have hbefore := lookup_pruneFinishedScans hjob
  obtain ⟨shared, hshared, hattended⟩ := h scanId job hbefore
  have hstate : world.stateOf job = some shared.status.state := by
    rw [JobsWorld.stateOf, hshared]
    rfl
  refine ⟨scanId, job, hbefore, ?_⟩
  obtain ⟨hrunning, -⟩ | hended := hattended.state
  · rw [hstate, hrunning]
  · exfalso
    have hfinished : scanId ∈ world.finishedScans order := by
      refine List.mem_map.mpr ⟨⟨scanId, job⟩, List.mem_filter.mpr ⟨?_, ?_⟩, rfl⟩
      · exact order.mem_entries.mpr (AList.mem_lookup_iff.mp hbefore)
      · rw [JobsWorld.isFinished, hstate]
        rcases hended with hended | hended | hended <;> rw [hended] <;> rfl
    unfold JobsWorld.pruneFinishedScans at hjob hbusy
    split_ifs at hjob hbusy with hsmall
    · omega
    · have hmany : 96 ≤ (removeFinished (world.finishedScans order) world.scanJobs).size :=
        le_trans (by decide) hbusy
      have hgone := lookup_removeFinished_of_mem hmany hfinished
      rw [hgone] at hjob
      cases hjob

end jobs

/-! ## Runs -/

/-- One action of a run. -/
def jobsStep (ioText : IoError → String) (world : JobsWorld) (action : JobsAction) :
    Option JobsWorld :=
  some (jobsNext ioText world action)

/-- Every running job has a worker with something left to do, which ends it; and when a start is
refused because the table is full, a job is running. -/
structure JobsEnd (ioText : IoError → String) (world : JobsWorld) : Prop where
  worker : ∀ scanId job, world.scanJobs.lookup scanId = some job →
    world.stateOf job = some .running →
      ∃ shared thread, world.shared[job.shared]? = some shared ∧
        shared.thread = some thread ∧ thread.left.result? = none
  ends : ∀ scanId job, world.scanJobs.lookup scanId = some job →
    ∀ actions : ℕ → JobsAction, (∃ᶠ n in atTop, ∃ choice, actions n = .work job.shared choice) →
      ∃ n, EndedAt job.shared (stateAt (jobsNext ioText) world actions n)
  busy : ∀ request choice error, (startScan ioText request choice world).1 = .error error →
    error.code = .busy →
      ∃ scanId job, world.scanJobs.lookup scanId = some job ∧
        world.stateOf job = some .running

/-- The error is another one than that of a full table. -/
def NotBusy {α : Type} (result : Except ApiError α) : Prop :=
  ∀ error, result = .error error → error.code ≠ .busy

theorem NotBusy.bind {α β : Type} {result : Except ApiError α} {f : α → Except ApiError β}
    (h : NotBusy result) (hf : ∀ a, NotBusy (f a)) : NotBusy (result >>= f) := by
  cases result with
  | error error =>
      intro _ herror
      cases herror
      exact h error rfl
  | ok a => exact hf a

theorem notBusy_mapError {α : Type} {result : Except String α} {code : ErrorCode}
    {text : String → String} {retryable : Bool} (hcode : code ≠ .busy) :
    NotBusy (result.mapError fun error => (⟨code, text error, retryable⟩ : ApiError)) := by
  intro error herror
  cases result with
  | error message =>
      cases herror
      exact hcode
  | ok a => cases herror

theorem notBusy_checkRoots {metadata : String → Except String FileKind} (roots : List String) :
    NotBusy (checkRoots metadata roots) := by
  induction roots with
  | nil => exact nofun
  | cons root roots ih =>
      intro error herror
      unfold checkRoots at herror
      split at herror
      · cases herror
        exact nofun
      · cases herror
        exact nofun
      · exact ih error herror

theorem withClientImpersonation_cases {α : Type} (client : ClientContext) (error : Option String)
    (operation : α) :
    withClientImpersonation client error operation = .ok operation ∨
      ∃ text, withClientImpersonation client error operation = .error text := by
  unfold withClientImpersonation
  split
  · exact .inr ⟨_, rfl⟩
  · exact .inl rfl

/-- The roots are never refused because the table is full. -/
theorem notBusy_resolveScanRoots (client : ClientContext) (target : String)
    (profile : Option ScanProfile) (choice : RootsChoice) :
    NotBusy (resolveScanRoots client target profile choice) := by
  unfold resolveScanRoots
  extract_lets roots checked resolved
  have hchecked : NotBusy (checked ()) := by
    simp only [checked]
    obtain hvalue | ⟨error, hvalue⟩ :=
      withClientImpersonation_cases client choice.impersonation (checkRoots choice.metadata roots)
    · rw [hvalue]
      exact (notBusy_checkRoots roots).bind fun _ => nofun
    · rw [hvalue]
      intro _ herror
      cases herror
      exact nofun
  have hresolved : NotBusy (resolved ()) := by
    simp only [resolved]
    split_ifs
    · exact NotBusy.bind (fun error herror => by cases herror; exact nofun) fun _ => hchecked
    · exact hchecked
  split_ifs
  · exact NotBusy.bind (notBusy_mapError (by simp)) fun _ => hresolved
  · exact hresolved

section runs

variable {ioText : IoError → String} {world : JobsWorld}

theorem jobsEnd_of_allAttended (h : AllAttended world) : JobsEnd ioText world where
  worker scanId job hjob hrunning := by
    obtain ⟨shared, hshared, hattended⟩ := h scanId job hjob
    rw [JobsWorld.stateOf, hshared] at hrunning
    have hstate : shared.status.state = .running := Option.some.inj hrunning
    obtain ⟨-, thread, hthread, hleft⟩ | hended := hattended.state
    · exact ⟨shared, thread, hshared, hthread, hleft⟩
    · rw [hstate] at hended
      exact absurd hended (by simp [HasEnded])
  ends scanId job hjob actions hfair := by
    obtain ⟨shared, hshared, hattended⟩ := h scanId job hjob
    exact ends_of_attended hshared hattended hfair
  busy request choice error herror hcode := by
    have hstarted := started_startScan ioText request choice world
    generalize startScan ioText request choice world = result at hstarted herror
    cases hstarted with
    | refused hroots =>
        cases herror
        exact absurd hcode (notBusy_resolveScanRoots _ _ _ _ _ hroots)
    | busy hbusy => exact running_of_busy h hbusy
    | failed error' _ hnot =>
        cases herror
        exact absurd hcode hnot
    | runs roots _ => cases herror

end runs

/-- **Starts that fail.** A start that fails leaves no job just when it fails before the job is
registered, or not at all; and when all starts of a run are such, every running job has a worker
that ends it, and the table is never full without a running job. -/
theorem failed_start_leaves_no_job (ioText : IoError → String) (tables : ScanTables) :
    (∀ request choice world,
      FailsCleanly ioText request choice world ↔ LeavesNoJob request choice world) ∧
    ∀ actions world, run (jobsStep ioText) (.initial tables) actions = some world →
      StepsMeet (fun world action => action.LeavesNoJob world) (jobsStep ioText)
        (.initial tables) actions →
      JobsEnd ioText world := by
  refine ⟨fun request choice world => failsCleanly_iff, fun actions world hrun hmeets => ?_⟩
  apply jobsEnd_of_allAttended
  refine run_invariant_of_meets ?_ ?_ hmeets hrun
  · intro world action after hattended hleaves hstep
    cases hstep
    exact allAttended_jobsNext hattended hleaves
  · intro scanId job hjob
    cases hjob

/-! ## Threads that cannot be started -/

/-- Empty tables. -/
def emptyTables : ScanTables := ⟨∅, ∅, .empty, ⟨.empty, .empty⟩⟩

/-- A scan of a directory. -/
def directoryRequest : StartRequest := ⟨⟨"S-1", false⟩, "C:\\files", none⟩

/-- The directory can be read, and the thread is started or not. -/
def directoryChoice (scanId : String) (spawn : Option String) : StartChoice where
  roots := ⟨none, ⟨none, none, none, none, none⟩, fun _ => true, none, fun _ => .ok .directory⟩
  order := .stored
  uuid := scanId
  duplicateToken := none
  spawn

/-- The start of the scan under an id, for which there is no thread. -/
def failedStart (scanId : String) : JobsAction :=
  .startScan directoryRequest (directoryChoice scanId (some "not enough threads"))

theorem failed_start_leaves_no_job_directory :
    JobsEnd (fun _ => "") (jobsNext (fun _ => "") (.initial emptyTables)
      (.startScan directoryRequest (directoryChoice "0" none))) :=
  (failed_start_leaves_no_job (fun _ => "") emptyTables).2
    [.startScan directoryRequest (directoryChoice "0" none)] _ rfl
    ⟨.inr (.inr ⟨rfl, rfl⟩), fun _ _ => trivial⟩

section failed

variable {ioText : IoError → String} {world : JobsWorld} {scanIds : List String} {scanId : String}

/-- These jobs are running, and no thread works for any of them. -/
structure Abandoned (scanIds : List String) (world : JobsWorld) : Prop where
  keys : world.scanJobs.keys.Perm scanIds
  alone : ∀ shared ∈ world.shared, shared.status.state = .running ∧ shared.thread = none

theorem Abandoned.size (h : Abandoned scanIds world) : world.scanJobs.size = scanIds.length := by
  rw [Table.size_eq_length_keys, h.keys.length_eq]

/-- None of them is removed. -/
theorem Abandoned.prune (h : Abandoned scanIds world) (order : IterOrder String ScanJob) :
    (world.pruneFinishedScans order).scanJobs = world.scanJobs := by
  unfold JobsWorld.pruneFinishedScans
  split_ifs with hsmall
  · rfl
  · have hnone : world.finishedScans order = [] := by
      refine List.map_eq_nil_iff.mpr (List.filter_eq_nil_iff.mpr fun entry hentry => ?_)
      have hlookup := AList.mem_lookup_iff.mpr (order.mem_entries.mp hentry)
      have hshared := List.getElem?_eq_getElem (world.registered _ _ hlookup)
      have hrunning := (h.alone _ (List.getElem_mem (world.registered _ _ hlookup))).1
      rw [JobsWorld.isFinished, JobsWorld.stateOf, hshared, Option.map_some, hrunning]
      simp
    change removeFinished (world.finishedScans order) world.scanJobs = world.scanJobs
    rw [hnone]
    rfl

/-- When there is room in the table, the job is registered, although its thread is not started. -/
theorem startScan_failed (hroom : (world.pruneFinishedScans .stored).scanJobs.size < 128) :
    startScan ioText directoryRequest (directoryChoice scanId (some "not enough threads")) world =
      (.error ⟨.internal, "Start native scan worker: not enough threads", true⟩,
        (world.pruneFinishedScans .stored).register scanId "S-1"
          (startedStatus scanId directoryRequest)) := by
  have hroots : resolveScanRoots directoryRequest.client directoryRequest.target
      directoryRequest.profile (directoryChoice scanId (some "not enough threads")).roots =
        .ok ["C:\\files"] := rfl
  unfold startScan
  rw [hroots]
  exact if_neg (by simpa [directoryChoice] using hroom)

/-- One more start fails, and its job is abandoned. -/
theorem Abandoned.failedStart (h : Abandoned scanIds world) (hnew : scanId ∉ scanIds)
    (hroom : scanIds.length < 128) :
    Abandoned (scanIds ++ [scanId]) (jobsNext ioText world (failedStart scanId)) := by
  have hpruned := h.prune .stored
  have hnext : jobsNext ioText world (Service.failedStart scanId) =
      (world.pruneFinishedScans .stored).register scanId "S-1"
        (startedStatus scanId directoryRequest) :=
    congrArg Prod.snd (startScan_failed (by rwa [hpruned, h.size]))
  rw [hnext]
  constructor
  · rw [JobsWorld.register, AList.keys_insert, hpruned,
      List.erase_of_not_mem fun hmem => hnew (h.keys.mem_iff.mp hmem)]
    exact (h.keys.cons scanId).trans (List.perm_append_singleton scanId scanIds).symm
  · intro shared hshared
    rw [register_shared, shared_pruneFinishedScans] at hshared
    rcases List.mem_append.mp hshared with hbefore | hlast
    · exact h.alone shared hbefore
    · rw [List.mem_singleton.mp hlast]
      exact ⟨rfl, rfl⟩

variable (ioText) in
/-- Every start fails, and all the jobs are abandoned. -/
theorem run_failedStarts (hnodup : scanIds.Nodup) (hroom : scanIds.length ≤ 128) :
    ∃ world, run (jobsStep ioText) (.initial emptyTables) (scanIds.map failedStart) =
      some world ∧ Abandoned scanIds world := by
  induction scanIds using List.reverseRecOn with
  | nil =>
      have hnone : ∀ shared ∈ (JobsWorld.initial emptyTables).shared,
          shared.status.state = .running ∧ shared.thread = none := by
        intro shared hshared
        cases hshared
      exact ⟨.initial emptyTables, rfl, ⟨List.Perm.refl [], hnone⟩⟩
  | append_singleton scanIds scanId ih =>
      rw [List.length_append, List.length_singleton] at hroom
      obtain ⟨hnodup, -, hdisjoint⟩ := List.nodup_append.mp hnodup
      obtain ⟨world, hrun, habandoned⟩ := ih hnodup (by omega)
      rw [List.map_append]
      refine ⟨_, run_append_eq_some.mpr ⟨world, hrun, rfl⟩, ?_⟩
      refine habandoned.failedStart (fun hmem => ?_) (by omega)
      exact hdisjoint scanId hmem scanId (List.mem_singleton_self scanId) rfl

end failed

/-- As many ids as there is room in the table. -/
def manyIds : List String :=
  (List.range 128).map fun n => String.ofList (List.replicate n '0')

theorem nodup_manyIds : manyIds.Nodup := by
  refine List.Nodup.map (fun a b h => ?_) List.nodup_range
  have hlength := congrArg (fun id : String => id.toList.length) h
  simpa using hlength

/-- A start for which there is no thread leaves its job, which is running; and when 128 starts have
failed, the table is full, and there is no worker at all. -/
theorem failed_start_leaves_job :
    ¬FailsCleanly (fun _ => "") directoryRequest
        (directoryChoice "0" (some "not enough threads")) (.initial emptyTables) ∧
      ∃ world, run (jobsStep fun _ => "") (.initial emptyTables) (manyIds.map failedStart) =
          some world ∧
        (∀ shared ∈ world.shared, shared.status.state = .running ∧ shared.thread = none) ∧
        (startScan (fun _ => "") directoryRequest (directoryChoice "1" none) world).1 =
          .error tooManyScans := by
  obtain ⟨world, hrun, habandoned⟩ := run_failedStarts (fun _ => "") nodup_manyIds
    (by rw [manyIds, List.length_map, List.length_range])
  refine ⟨fun hclean => ?_, world, hrun, habandoned.alone, ?_⟩
  · cases hclean _ rfl "0" ⟨"S-1", 0⟩ rfl
  · have hroots : resolveScanRoots directoryRequest.client directoryRequest.target
        directoryRequest.profile (directoryChoice "1" none).roots = .ok ["C:\\files"] := rfl
    unfold startScan
    rw [hroots]
    have hfull :
        128 ≤ (world.pruneFinishedScans (directoryChoice "1" none).order).scanJobs.size := by
      rw [habandoned.prune, habandoned.size, manyIds, List.length_map, List.length_range]
    simp only [if_pos hfull]

end OpenGuard.Service
