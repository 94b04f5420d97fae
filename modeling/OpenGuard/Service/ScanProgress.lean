import OpenGuard.Service.ScanWorker

/-!
# The states of a scan job

However its calls end, and whenever it is cancelled, a scan job counts every target once, right
after it was handled, and ends in one state.

* `Progress`: what is counted and what was handled; `safe_scanWorker` shows that every call is made
  with it, while the job is running.
* `scan_job_states`: every state of every run.
-/

namespace OpenGuard.Service

open OpenGuard.Lib OpenGuard.Lib.Program OpenGuard.Domain OpenGuard.Storage OpenGuard.Detection

/-- The states in which a job has ended. -/
def HasEnded (state : ScanJobState) : Prop :=
  state = .completed ∨ state = .failed ∨ state = .cancelled

/-- The targets that were handled and are not counted yet when a call is made: the target of an
event, or the one that the call counts. -/
def pendingCount : ScanOp → ℕ
  | .recordEvent _ => 1
  | .change (.counted _ _) => 1
  | .change (.unreadable _) => 1
  | _ => 0

/-- The first targets were handled, of which the last `pending` ones are not counted yet, and the
total is unknown or the number of targets. -/
structure Progress (pending : ℕ) (world : ScanWorld) : Prop where
  total : world.status.totalFiles = 0 ∨ world.status.totalFiles.toNat = world.targets.length
  handled : world.handled <+: world.targets
  counted : world.status.filesScanned.toNat + pending = world.handled.length

/-- The job is running when a call is made. -/
def Fit (op : ScanOp) (world : ScanWorld) : Prop :=
  world.status.state = .running ∧ Progress (pendingCount op) world

/-- The job has ended, and it is completed only after all targets were handled. -/
structure Ended (world : ScanWorld) : Prop where
  state : HasEnded world.status.state
  progress : Progress 0 world
  completed : world.status.state = .completed →
    world.handled = world.targets ∧ world.status.totalFiles.toNat = world.targets.length ∧
      world.targets ≠ []

/-- The targets `done` were handled and counted, and `rest` is left. -/
structure Between (done rest : List String) (world : ScanWorld) : Prop where
  running : world.status.state = .running
  targets : world.targets = done ++ rest
  fits : (done ++ rest).length < 2 ^ 64
  total : world.status.totalFiles.toNat = (done ++ rest).length
  counted : world.status.filesScanned.toNat = done.length
  handled : world.handled = done

/-- Any choice of the environment. -/
def anyWorkerChoice (_ : ScanOp) (_ : WorkerChoice) : Prop := True

/-! ## One target -/

section target

variable {ownerSid target : String} {done rest : List String} {world : ScanWorld}
  {ioText : IoError → String} {finding : ScanFinding} {singleFile : Bool}

theorem toNat_saturatingNext {count : UInt64} (h : count.toNat < 2 ^ 64 - 1) :
    (saturatingNext count).toNat = count.toNat + 1 := by
  rw [saturatingNext, if_pos h, UInt64.toNat_add]
  exact Nat.mod_eq_of_lt (by simp; omega)

theorem Between.progress (h : Between done rest world) : Progress 0 world where
  total := by
    right
    rw [h.total, h.targets]
  handled := by
    rw [h.handled, h.targets]
    exact List.prefix_append done rest
  counted := by
    rw [h.counted, h.handled]
    rfl

theorem Between.fit (h : Between done rest world) {op : ScanOp} (hop : pendingCount op = 0) :
    Fit op world := by
  refine ⟨h.running, ?_⟩
  rw [hop]
  exact h.progress

/-- The tables and what is known of the targets play no part. -/
theorem Between.of_status (h : Between done rest world) (after : ScanWorld)
    (hstatus : after.status = world.status) (htargets : after.targets = world.targets)
    (hhandled : after.handled = world.handled) : Between done rest after where
  running := by rw [hstatus, h.running]
  targets := by rw [htargets, h.targets]
  fits := h.fits
  total := by rw [hstatus, h.total]
  counted := by rw [hstatus, h.counted]
  handled := by rw [hhandled, h.handled]

/-- The next target was handled, too, and is not counted yet. -/
structure Handled (done rest : List String) (target : String) (world : ScanWorld) : Prop where
  running : world.status.state = .running
  targets : world.targets = done ++ target :: rest
  fits : (done ++ target :: rest).length < 2 ^ 64
  total : world.status.totalFiles.toNat = (done ++ target :: rest).length
  counted : world.status.filesScanned.toNat = done.length
  handled : world.handled = done ++ [target]

theorem Handled.fit (h : Handled done rest target world) {op : ScanOp}
    (hop : pendingCount op = 1) : Fit op world := by
  refine ⟨h.running, ?_, ?_, ?_⟩
  · right
    rw [h.total, h.targets]
  · rw [h.handled, h.targets]
    exact ⟨rest, by simp⟩
  · rw [h.counted, h.handled, hop, List.length_append]
    rfl

theorem Handled.of_status (h : Handled done rest target world) (after : ScanWorld)
    (hstatus : after.status = world.status) (htargets : after.targets = world.targets)
    (hhandled : after.handled = world.handled) : Handled done rest target after where
  running := by rw [hstatus, h.running]
  targets := by rw [htargets, h.targets]
  fits := h.fits
  total := by rw [hstatus, h.total]
  counted := by rw [hstatus, h.counted]
  handled := by rw [hhandled, h.handled]

/-- The target is counted: the counter does not overflow. -/
theorem Handled.next (h : Handled done rest target world) {status : ScanJobStatus}
    (hstate : status.state = world.status.state)
    (htotal : status.totalFiles = world.status.totalFiles)
    (hcount : status.filesScanned = saturatingNext world.status.filesScanned) :
    Between (done ++ [target]) rest { world with status } where
  running := hstate.trans h.running
  targets := by
    rw [List.append_assoc]
    exact h.targets
  fits := by
    rw [List.append_assoc]
    exact h.fits
  total := by
    rw [List.append_assoc, htotal]
    exact h.total
  counted := by
    have hfits := h.fits
    rw [List.length_append, List.length_cons] at hfits
    rw [hcount, toNat_saturatingNext (by rw [h.counted]; omega), h.counted, List.length_append]
    rfl
  handled := h.handled

/-- A change with which the job ends before its last target. -/
def StatusChange.Ends : StatusChange → Prop
  | .failed _ => True
  | .cancelled => True
  | .stopped _ _ => True
  | _ => False

/-- A job that is ended keeps what it has counted. -/
theorem Progress.ended (h : Progress 0 world) {c : StatusChange} (hends : c.Ends) :
    Ended { world with status := c.apply world.status } := by
  cases c with
  | failed message => exact ⟨.inr (.inl rfl), ⟨h.total, h.handled, h.counted⟩, nofun⟩
  | cancelled => exact ⟨.inr (.inr rfl), ⟨h.total, h.handled, h.counted⟩, nofun⟩
  | stopped flag error =>
      refine ⟨?_, ⟨h.total, h.handled, h.counted⟩, ?_⟩
      · cases flag
        · exact .inr (.inl rfl)
        · exact .inr (.inr rfl)
      · cases flag <;> exact nofun
  | found total => exact hends.elim
  | started target => exact hends.elim
  | counted finding singleFile => exact hends.elim
  | unreadable error => exact hends.elim
  | completed => exact hends.elim

theorem pendingCount_of_ends {c : StatusChange} (hends : c.Ends) :
    pendingCount (.change c) = 0 := by
  cases c with
  | counted finding singleFile => exact hends.elim
  | unreadable error => exact hends.elim
  | _ => rfl

/-- What holds after a target: the next one can be scanned, or the job has ended. -/
def AfterTarget (done rest : List String) (more : Bool) (world : ScanWorld) : Prop :=
  if more then Between done rest world else Ended world

/-- The job is ended before its last target. -/
theorem safe_ends {next later : List String} (h : Between done rest world) {c : StatusChange}
    (hends : c.Ends) :
    Safe (workerAnswer ownerSid) anyWorkerChoice Fit (AfterTarget next later)
      (change c >>= fun _ => return false) world := by
  refine ⟨h.fit (pendingCount_of_ends hends), fun choice _ => ?_⟩
  exact h.progress.ended hends

/-- A target that was handled is counted. -/
theorem safe_counted (h : Handled done rest target world) :
    Safe (workerAnswer ownerSid) anyWorkerChoice Fit (AfterTarget (done ++ [target]) rest)
      (change (.counted finding singleFile) >>= fun _ => return true) world :=
  ⟨h.fit rfl, fun _ _ => h.next rfl rfl rfl⟩

/-- A row is written, and the target is handled, or the call fails. -/
theorem answer_recordScan_cases (ownerSid : String) (finding : ScanFinding) (choice : WorkerChoice)
    (world : ScanWorld) :
    (∃ error scanResults, workerAnswer ownerSid (.recordScan finding) choice world =
        (.error error, { world with scanResults })) ∨
      ∃ id scanResults, workerAnswer ownerSid (.recordScan finding) choice world =
        (.ok id, { world with
          scanResults
          handled := world.handled ++ [world.status.currentPath] }) := by
  rcases hrecord : recordScan choice.fault ownerSid finding world.scanResults with
    ⟨error | id, scanResults⟩
  · exact .inl ⟨error, scanResults, by simp only [workerAnswer, hrecord]⟩
  · exact .inr ⟨id, scanResults, by simp only [workerAnswer, hrecord]⟩

/-- A finding is written and counted, or the job fails. -/
theorem safe_writeFinding (h : Between done (target :: rest) world)
    (hpath : world.status.currentPath = target) :
    Safe (workerAnswer ownerSid) anyWorkerChoice Fit (AfterTarget (done ++ [target]) rest)
      (writeFinding finding singleFile) world := by
  refine ⟨h.fit rfl, fun choice _ => ?_⟩
  obtain ⟨error, scanResults, hanswer⟩ | ⟨id, scanResults, hanswer⟩ :=
    answer_recordScan_cases ownerSid finding choice world
  · rw [hanswer]
    exact safe_ends (c := .failed _) (h.of_status { world with scanResults } rfl rfl rfl) trivial
  · have hhandled : Handled done rest target { world with
        scanResults
        handled := world.handled ++ [world.status.currentPath] } :=
      ⟨h.running, h.targets, h.fits, h.total, h.counted, by rw [h.handled, hpath]⟩
    rw [hanswer]
    show Safe _ _ _ _ (if isDetection finding.verdict then _ else _) _
    split_ifs
    · exact ⟨hhandled.fit rfl, fun _ _ => safe_counted (hhandled.of_status _ rfl rfl rfl)⟩
    · exact safe_counted hhandled

theorem safe_recordFinding (h : Between done (target :: rest) world)
    (hpath : world.status.currentPath = target) :
    Safe (workerAnswer ownerSid) anyWorkerChoice Fit (AfterTarget (done ++ [target]) rest)
      (recordFinding finding singleFile) world := by
  unfold recordFinding
  split_ifs
  · exact safe_writeFinding h hpath
  · refine ⟨h.fit rfl, fun choice _ => ?_⟩
    show Safe _ _ _ _ (Program.bind _ (.ret (allowedHash choice.fault ownerSid finding.sha256
      world.hashAllowlist))) world
    rcases allowedHash choice.fault ownerSid finding.sha256 world.hashAllowlist with
      error | _ | label
    · exact safe_ends (c := .failed _) h trivial
    · exact safe_writeFinding h hpath
    · exact safe_writeFinding h hpath

/-- What a scan has found out is known, and the target is handled when it cannot be scanned; or the
client cannot be impersonated. -/
theorem answer_scanFile_cases (ownerSid target : String) (choice : WorkerChoice)
    (world : ScanWorld) :
    (∃ error, workerAnswer ownerSid (.scanFile target) choice world = (.error error, world)) ∨
    (∃ result, (∀ error, result = .error error → error = .cancelled) ∧
      workerAnswer ownerSid (.scanFile target) choice world =
        (.ok result, { world with
          outcomes := world.outcomes ++ [(target, .scanned result)] })) ∨
    ∃ error, error ≠ .cancelled ∧ workerAnswer ownerSid (.scanFile target) choice world =
      (.ok (.error error), { world with
        outcomes := world.outcomes ++ [(target, .scanned (.error error))]
        handled := world.handled ++ [target] }) := by
  simp only [workerAnswer, WorkerChoice.asClient]
  rcases choice.impersonation with _ | error
  · right
    rcases hscanned : choice.scanned with error | finding
    · by_cases hcancelled : error = .cancelled
      · refine .inl ⟨.error error, fun error' herror => ?_, ?_⟩
        · rw [← Except.error.inj herror, hcancelled]
        · rw [hcancelled]
      · refine .inr ⟨error, hcancelled, ?_⟩
        cases error <;> first | rfl | exact absurd rfl hcancelled
    · refine .inl ⟨.ok finding, ?_, rfl⟩
      rintro error ⟨⟩
  · exact .inl ⟨error, rfl⟩

/-- One target is handled and counted, or the job ends. -/
theorem safe_scanTarget (h : Between done (target :: rest) world)
    (hpath : world.status.currentPath = target) :
    Safe (workerAnswer ownerSid) anyWorkerChoice Fit (AfterTarget (done ++ [target]) rest)
      (scanTarget ioText target singleFile) world := by
  refine ⟨h.fit rfl, fun keyed _ => ⟨h.fit rfl, fun choice _ => ?_⟩⟩
  show Safe _ _ _ _ (Program.bind _ (.ret (pathExcluded choice.fault ownerSid keyed.key
    world.exclusions))) world
  rcases pathExcluded choice.fault ownerSid keyed.key world.exclusions with error | _ | _
  · exact safe_ends (c := .failed _) h trivial
  · refine ⟨h.fit rfl, fun scanning _ => ?_⟩
    obtain ⟨error, hanswer⟩ | ⟨result, hcancelled, hanswer⟩ | ⟨error, herror, hanswer⟩ :=
      answer_scanFile_cases ownerSid target scanning world
    · rw [hanswer]
      exact safe_ends (c := .failed _) h trivial
    · rw [hanswer]
      have hafter := h.of_status { world with
        outcomes := world.outcomes ++ [(target, .scanned result)] } rfl rfl rfl
      rcases result with error | finding
      · obtain rfl := hcancelled error rfl
        exact safe_ends (c := .cancelled) hafter trivial
      · exact safe_recordFinding hafter hpath
    · rw [hanswer]
      have hhandled : Handled done rest target { world with
          outcomes := world.outcomes ++ [(target, .scanned (.error error))]
          handled := world.handled ++ [target] } :=
        ⟨h.running, h.targets, h.fits, h.total, h.counted, by rw [h.handled]⟩
      cases error with
      | cancelled => exact absurd rfl herror
      | _ => exact ⟨hhandled.fit rfl, fun _ _ => hhandled.next rfl rfl rfl⟩
  · exact ⟨h.fit rfl, fun _ _ => safe_recordFinding (h.of_status _ rfl rfl rfl) hpath⟩

end target

/-! ## The whole job -/

/-- A job that was just started. -/
structure Created (world : ScanWorld) : Prop where
  running : world.status.state = .running
  filesScanned : world.status.filesScanned = 0
  totalFiles : world.status.totalFiles = 0
  targets : world.targets = []
  handled : world.handled = []

section job

variable {ownerSid : String} {done rest roots : List String} {world : ScanWorld}
  {ioText : IoError → String} {singleFile : Bool}

/-- The loop ends the job: it is completed after all targets. -/
theorem safe_scanTargets (h : Between done rest world) (hsome : done ++ rest ≠ []) :
    Safe (workerAnswer ownerSid) anyWorkerChoice Fit (fun _ after => Ended after)
      (scanTargets ioText singleFile rest) world := by
  induction rest generalizing done world with
  | nil =>
      refine ⟨h.fit rfl, fun _ _ => ⟨.inl rfl, ?_, fun _ => ⟨?_, ?_, ?_⟩⟩⟩
      · exact ⟨h.progress.total, h.progress.handled, h.progress.counted⟩
      · rw [List.append_nil] at hsome
        exact h.handled.trans (h.targets.trans (List.append_nil done)).symm
      · exact h.total.trans (congrArg List.length h.targets).symm
      · exact fun hnone => hsome (h.targets.symm.trans hnone)
  | cons target rest ih =>
      refine ⟨h.fit rfl, fun choice _ => ?_⟩
      show Safe _ _ _ _ (if choice.cancelled then _ else _) world
      split_ifs
      · exact ⟨h.fit rfl, fun _ _ => h.progress.ended (c := .cancelled) trivial⟩
      · refine ⟨h.fit rfl, fun _ _ => ?_⟩
        have hstarted : Between done (target :: rest)
            { world with status := (StatusChange.started target).apply world.status } :=
          ⟨h.running, h.targets, h.fits, h.total, h.counted, h.handled⟩
        refine (safe_scanTarget hstarted rfl).bind fun more after hafter => ?_
        cases more with
        | false => exact hafter
        | true =>
            refine ih hafter ?_
            rwa [List.append_assoc]

/-- The targets are found, or the job ends. -/
theorem safe_collectTargets (h : Created world) :
    Safe (workerAnswer ownerSid) anyWorkerChoice Fit (fun found after => match found with
        | none => Ended after
        | some targets => Between [] targets after ∧ targets ≠ [])
      (collectTargets roots) world := by
  have hprogress : ∀ targets, Progress 0 { world with targets } := fun targets =>
    ⟨.inl h.totalFiles, by rw [h.handled]; exact List.nil_prefix,
      by rw [h.filesScanned, h.handled]; rfl⟩
  have hfirst : Progress 0 world := by
    have hnone := hprogress []
    rwa [← h.targets] at hnone
  refine ⟨⟨h.running, hfirst⟩, fun choice _ => ?_⟩
  simp only [workerAnswer, WorkerChoice.asClient]
  rcases choice.impersonation with _ | error
  · rcases choice.collected with error | targets
    · refine ⟨⟨h.running, hfirst⟩, fun asked _ => ⟨⟨h.running, hfirst⟩, fun _ _ => ?_⟩⟩
      exact hfirst.ended (c := .stopped _ _) trivial
    · show Safe _ _ _ _ (if targets.paths ≠ [] then _ else _)
        { world with targets := targets.paths }
      split_ifs with hsome
      · refine ⟨⟨h.running, hprogress targets.paths⟩, fun _ _ => ⟨?_, hsome⟩⟩
        have hfits := targets.fits
        refine ⟨h.running, rfl, hfits, ?_, ?_, h.handled⟩
        · show (UInt64.ofNat (min targets.paths.length (2 ^ 64 - 1))).toNat = targets.paths.length
          rw [UInt64.toNat_ofNat_of_lt' (by simp)]
          omega
        · show world.status.filesScanned.toNat = 0
          rw [h.filesScanned]
          rfl
      · refine ⟨⟨h.running, hprogress targets.paths⟩, fun _ _ => ?_⟩
        exact (hprogress targets.paths).ended (c := .failed _) trivial
  · refine ⟨⟨h.running, hfirst⟩, fun _ _ => ?_⟩
    exact hfirst.ended (c := .failed _) trivial

/-- **Every call of the worker** is made while the job is running, and when the worker returns the
job has ended. -/
theorem safe_scanWorker (ioText : IoError → String) (ownerSid : String) (roots : List String)
    (h : Created world) :
    Safe (workerAnswer ownerSid) anyWorkerChoice Fit (fun _ after => Ended after)
      (scanWorker ioText roots) world := by
  refine (safe_collectTargets h).bind fun found after hafter => ?_
  cases found with
  | none => exact hafter
  | some targets => exact safe_scanTargets hafter.1 hafter.2

end job

/-- The targets that were handled and are not counted yet. -/
def pendingOf : ScanProgram Unit → ℕ
  | .call op _ => pendingCount op
  | .ret _ => 0

/-- A state of a run: what is left of the worker, and the job. -/
structure JobState (left : ScanProgram Unit) (world : ScanWorld) : Prop where
  total : world.status.totalFiles = 0 ∨ world.status.totalFiles.toNat = world.targets.length
  bounded : world.status.totalFiles ≠ 0 → world.status.filesScanned ≤ world.status.totalFiles
  handled : world.handled <+: world.targets
  counted : world.status.filesScanned.toNat + pendingOf left = world.handled.length
  running : left.result? = none → world.status.state = .running
  ended : left.result? ≠ none → HasEnded world.status.state
  completed : world.status.state = .completed →
    world.status.filesScanned = world.status.totalFiles ∧
    0 < world.status.totalFiles ∧ world.handled = world.targets

section states

variable {left : ScanProgram Unit} {world : ScanWorld}

/-- What is counted is at most the total. -/
theorem Progress.bounded {pending : ℕ} (h : Progress pending world)
    (hsome : world.status.totalFiles ≠ 0) :
    world.status.filesScanned ≤ world.status.totalFiles := by
  have hlength := h.handled.length_le
  have hcounted := h.counted
  rw [UInt64.le_iff_toNat_le, h.total.resolve_left hsome]
  omega

theorem jobState_of_fit {op : ScanOp} {next : op.Answer → ScanProgram Unit} (h : Fit op world) :
    JobState (.call op next) world where
  total := h.2.total
  bounded := h.2.bounded
  handled := h.2.handled
  counted := h.2.counted
  running _ := h.1
  ended hnone := absurd rfl hnone
  completed hstate := by
    rw [h.1] at hstate
    cases hstate

theorem jobState_of_ended {u : Unit} (h : Ended world) : JobState (.ret u) world where
  total := h.progress.total
  bounded := h.progress.bounded
  handled := h.progress.handled
  counted := h.progress.counted
  running hnone := nomatch hnone
  ended _ := h.state
  completed hstate := by
    obtain ⟨hall, htotal, hsome⟩ := h.completed hstate
    have hcounted := h.progress.counted
    rw [hall] at hcounted
    refine ⟨UInt64.toNat_inj.mp (hcounted.trans htotal.symm), ?_, hall⟩
    rw [UInt64.lt_iff_toNat_lt, htotal]
    exact List.length_pos_iff.mpr hsome

end states

/-- **The states of a scan job**, whatever its calls return and whenever it is cancelled: what is
counted was handled, the first targets in order; the job is running as long as the worker has
something left to do, comes to an end, and then stays as it is. -/
theorem scan_job_states (ioText : IoError → String) (ownerSid : String) (roots : List String)
    (world : ScanWorld) (hcreated : Created world) :
    (∀ choices, JobState
      (exec (workerAnswer ownerSid) (scanWorker ioText roots) world choices).1
      (exec (workerAnswer ownerSid) (scanWorker ioText roots) world choices).2) ∧
    (∀ choices more,
      HasEnded
          (exec (workerAnswer ownerSid) (scanWorker ioText roots) world choices).2.status.state →
        exec (workerAnswer ownerSid) (scanWorker ioText roots) world (choices ++ more) =
          exec (workerAnswer ownerSid) (scanWorker ioText roots) world choices) ∧
    ∀ stream : ℕ → WorkerChoice, ∃ n, HasEnded (exec (workerAnswer ownerSid)
      (scanWorker ioText roots) world ((List.range n).map stream)).2.status.state := by
  have hstates : ∀ choices, JobState
      (exec (workerAnswer ownerSid) (scanWorker ioText roots) world choices).1
      (exec (workerAnswer ownerSid) (scanWorker ioText roots) world choices).2 := by
    intro choices
    have hsafe := (safe_scanWorker ioText ownerSid roots hcreated).exec
      (allowed_of_forall (fun _ _ => trivial) _ _ choices)
    cases hleft : (exec (workerAnswer ownerSid) (scanWorker ioText roots) world choices).1 with
    | ret u =>
        rw [hleft] at hsafe
        exact jobState_of_ended hsafe
    | call op next =>
        rw [hleft] at hsafe
        exact jobState_of_fit hsafe.1
  refine ⟨hstates, fun choices more hended => ?_, fun stream => ?_⟩
  · have hstate := hstates choices
    rw [exec_append]
    cases hleft : (exec (workerAnswer ownerSid) (scanWorker ioText roots) world choices).1 with
    | ret u =>
        rw [exec_ret, ← hleft]
    | call op next =>
        rw [hstate.running (by rw [hleft]; rfl)] at hended
        exact absurd hended (by simp [HasEnded])
  · obtain ⟨n, u, hret⟩ := exec_finishes (workerAnswer ownerSid) (scanWorker ioText roots) world
      stream
    exact ⟨n, (hstates _).ended (by rw [hret]; exact Option.some_ne_none u)⟩

/-- A new job on empty tables. -/
def createdWorld : ScanWorld where
  status :=
    { scanId := "0", target := "C:\\files", state := .running, finding := none, findings := []
      filesScanned := 0, totalFiles := 0, currentPath := "", error := none }
  exclusions := ∅
  hashAllowlist := ∅
  scanResults := .empty
  history := ⟨.empty, .empty⟩
  targets := []
  outcomes := []
  handled := []

/-- The environment in which no path can be read in the name of the client. -/
def refusingChoice : WorkerChoice where
  fault := none
  impersonation := some "access denied"
  collected := .error "Scan cancelled"
  cancelled := false
  key := ""
  sizeBytes := 0
  time := "0"
  scanned := .error .cancelled

theorem scan_job_states_created : ∃ n,
    HasEnded (exec (workerAnswer "S-1") (scanWorker (fun _ => "") ["C:\\files"]) createdWorld
      ((List.range n).map fun _ => refusingChoice)).2.status.state :=
  (scan_job_states (fun _ => "") "S-1" ["C:\\files"] createdWorld
    ⟨rfl, rfl, rfl, rfl, rfl⟩).2.2 fun _ => refusingChoice

end OpenGuard.Service
