import OpenGuard.Service.ScanStart

/-!
# What a scan has found

A client asks for the status of its job until the job has ended. Other jobs, other clients and the
rest of the service go on meanwhile, and change the tables between any two calls of the worker.

* `scanStatus`: the request.
* `Found`: what the status of a job says of the files that were scanned.
* `results_final`: a completed job that a client is told of stays as it is, it has gone over all of
  its targets, and when it holds no findings, no file was found to be anything but clean.
-/

namespace OpenGuard.Service

open OpenGuard.Lib OpenGuard.Lib.Program OpenGuard.Domain OpenGuard.Storage OpenGuard.Detection

/-- Source: `main.rs`, `ServiceState::scan_status` -/
def scanStatus (scanId ownerSid : String) (world : JobsWorld) : Except ApiError ScanJobStatus :=
  match hjob : world.scanJobs.lookup scanId with
  | none => .error ⟨.notFound, "Scan job '" ++ scanId ++ "' was not found", false⟩
  | some job =>
      match authorizeScanOwner job ownerSid with
      | .error error => .error error
      | .ok () => .ok (world.shared.get ⟨job.shared, world.registered scanId job hjob⟩).status

/-! ## The files and the status -/

/-- The finding that is recorded for what was found out about a file. -/
inductive RecordedAs : Outcome → ScanFinding → Prop
  | excluded (file : ExcludedFile) {finding : ScanFinding} (h : finding.verdict = .skipped) :
      RecordedAs (.excluded file) finding
  | scanned (finding : ScanFinding) : RecordedAs (.scanned (.ok finding)) finding
  | allowed (finding : ScanFinding) {changed : ScanFinding} (h : changed.verdict = .skipped) :
      RecordedAs (.scanned (.ok finding)) changed

/-- The file was clean, or could not be read. -/
def Harmless : Outcome → Prop
  | .excluded _ => False
  | .scanned (.ok finding) => finding.verdict = .clean
  | .scanned (.error _) => True

theorem RecordedAs.harmless {outcome : Outcome} {finding : ScanFinding}
    (h : RecordedAs outcome finding) (hclean : finding.verdict = .clean) : Harmless outcome := by
  cases h with
  | excluded file hskipped => cases hclean.symm.trans hskipped
  | scanned => exact hclean
  | allowed other hskipped => cases hclean.symm.trans hskipped

/-- What the status says of these targets, which were scanned. -/
structure Found (targets : List String) (world : ScanWorld) : Prop where
  outcomes : world.outcomes.map Prod.fst = targets
  quiet : world.status.findings = [] → ∀ x ∈ world.outcomes, Harmless x.2
  single : ∀ finding, world.status.finding = some finding →
    ∃ target outcome, world.outcomes = [(target, outcome)] ∧ RecordedAs outcome finding

/-- The targets `done` were scanned, and `rest` is left. -/
structure Tally (done rest : List String) (world : ScanWorld) : Prop where
  running : world.status.state = .running
  targets : world.targets = done ++ rest
  found : Found done world
  unset : rest ≠ [] → world.status.finding = none

/-- The next target was scanned, too, and the status does not say so yet. -/
structure SeenTarget (done rest : List String) (target : String) (outcome : Outcome)
    (world : ScanWorld) : Prop where
  running : world.status.state = .running
  targets : world.targets = done ++ target :: rest
  outcomes : ∃ before, world.outcomes = before ++ [(target, outcome)] ∧
    before.map Prod.fst = done ∧ (world.status.findings = [] → ∀ x ∈ before, Harmless x.2)
  unset : world.status.finding = none

/-- The job has ended, and when it is completed, the status says what was found in all targets. -/
structure Concluded (world : ScanWorld) : Prop where
  state : HasEnded world.status.state
  completed : world.status.state = .completed → world.targets ≠ [] ∧ Found world.targets world

section status

variable {done rest : List String} {target : String} {outcome : Outcome} {world : ScanWorld}
  {finding : ScanFinding} {singleFile : Bool}

theorem Tally.seen (h : Tally done (target :: rest) world) (outcome : Outcome) (after : ScanWorld)
    (hstatus : after.status = world.status) (htargets : after.targets = world.targets)
    (houtcomes : after.outcomes = world.outcomes ++ [(target, outcome)]) :
    SeenTarget done rest target outcome after where
  running := by rw [hstatus, h.running]
  targets := by rw [htargets, h.targets]
  outcomes := by
    refine ⟨world.outcomes, houtcomes, h.found.outcomes, ?_⟩
    rw [hstatus]
    exact h.found.quiet
  unset := by rw [hstatus, h.unset (List.cons_ne_nil _ _)]

theorem keepFinding_eq_nil {findings : List ScanFinding}
    (h : keepFinding finding findings = []) : finding.verdict = .clean ∧ findings = [] := by
  unfold keepFinding at h
  split_ifs at h with hkept
  · cases List.append_ne_nil_of_right_ne_nil _ (List.cons_ne_nil _ _) h
  · refine ⟨?_, h⟩
    by_contra hclean
    refine hkept ⟨hclean, ?_⟩
    rw [h]
    decide

/-- The status says what was found. -/
theorem SeenTarget.counted (h : SeenTarget done rest target outcome world)
    (hrecorded : RecordedAs outcome finding)
    (hsingle : singleFile = true → done = [] ∧ rest = []) :
    Tally (done ++ [target]) rest
      { world with status := (StatusChange.counted finding singleFile).apply world.status } := by
  obtain ⟨before, houtcomes, hdone, hquiet⟩ := h.outcomes
  refine ⟨h.running, ?_, ⟨?_, fun hnone => ?_, fun kept hkept => ?_⟩, fun hrest => ?_⟩
  · rw [List.append_assoc]
    exact h.targets
  · dsimp only
    rw [houtcomes, List.map_append, hdone]
    rfl
  · obtain ⟨hclean, hbefore⟩ := keepFinding_eq_nil hnone
    dsimp only
    rw [houtcomes]
    intro x hx
    rcases List.mem_append.mp hx with hx | hx
    · exact hquiet hbefore x hx
    · rw [List.mem_singleton.mp hx]
      exact hrecorded.harmless hclean
  · cases singleFile with
    | false => cases h.unset.symm.trans hkept
    | true =>
        obtain rfl : finding = kept := Option.some.inj hkept
        obtain ⟨rfl, -⟩ := hsingle rfl
        rw [List.map_eq_nil_iff.mp hdone] at houtcomes
        exact ⟨target, outcome, houtcomes, hrecorded⟩
  · cases singleFile with
    | false => exact h.unset
    | true => exact absurd (hsingle rfl).2 hrest

/-- A file that cannot be read is counted. -/
theorem SeenTarget.unreadable {error : ScanError}
    (h : SeenTarget done rest target (.scanned (.error error)) world)
    (message : String) :
    Tally (done ++ [target]) rest
      { world with status := (StatusChange.unreadable message).apply world.status } := by
  obtain ⟨before, houtcomes, hdone, hquiet⟩ := h.outcomes
  refine ⟨h.running, ?_, ⟨?_, fun hnone => ?_, fun kept hkept => ?_⟩, fun _ => h.unset⟩
  · rw [List.append_assoc]
    exact h.targets
  · dsimp only
    rw [houtcomes, List.map_append, hdone]
    rfl
  · dsimp only
    rw [houtcomes]
    intro x hx
    rcases List.mem_append.mp hx with hx | hx
    · exact hquiet hnone x hx
    · rw [List.mem_singleton.mp hx]
      trivial
  · cases h.unset.symm.trans hkept

end status

/-! ## A worker among others -/

/-- The tables of the database are what others have made of them. -/
def ScanWorld.withTables (world : ScanWorld) (tables : ScanTables) : ScanWorld :=
  { world with
    exclusions := tables.exclusions
    hashAllowlist := tables.hashAllowlist
    scanResults := tables.scanResults
    history := tables.history }

/-- The calls of a worker, each of which finds the tables as they are by then. -/
def sharingAnswer (ownerSid : String) :
    Handler ScanOp ScanOp.Answer ScanWorld (ScanTables × WorkerChoice)
  | op, (tables, choice), world => workerAnswer ownerSid op choice (world.withTables tables)

/-- Every call is made while the job is running. -/
def SafeSharing (ownerSid : String) {α : Type} (post : α → ScanWorld → Prop) (p : ScanProgram α)
    (world : ScanWorld) : Prop :=
  Safe (sharingAnswer ownerSid) (fun _ _ => True)
    (fun _ world => world.status.state = .running) post p world

section sharing

variable {ownerSid : String} {ioText : IoError → String} {done rest roots : List String}
  {target : String} {outcome : Outcome} {world : ScanWorld} {finding : ScanFinding}
  {singleFile : Bool}

/-- What holds after a target: the next one can be scanned, or the job has ended. -/
def Continues (done rest : List String) (more : Bool) (world : ScanWorld) : Prop :=
  if more then Tally done rest world else Concluded world

theorem concluded_of_ends {c : StatusChange} (hends : c.Ends) :
    Concluded { world with status := c.apply world.status } := by
  cases c with
  | failed message => exact ⟨.inr (.inl rfl), nofun⟩
  | cancelled => exact ⟨.inr (.inr rfl), nofun⟩
  | stopped flag error =>
      cases flag with
      | true => exact ⟨.inr (.inr rfl), nofun⟩
      | false => exact ⟨.inr (.inl rfl), nofun⟩
  | found total => exact hends.elim
  | started target => exact hends.elim
  | counted finding singleFile => exact hends.elim
  | unreadable error => exact hends.elim
  | completed => exact hends.elim

/-- The job is ended before its last target. -/
theorem safeSharing_ends {α : Type} {post : α → ScanWorld → Prop} {value : α}
    (hrunning : world.status.state = .running) {c : StatusChange} (hends : c.Ends)
    (hpost : ∀ after, Concluded after → post value after) :
    SafeSharing ownerSid post (change c >>= fun _ => pure value) world :=
  ⟨hrunning, fun _ _ => hpost _ (concluded_of_ends hends)⟩

/-- The finding is counted. -/
theorem safeSharing_counted (h : SeenTarget done rest target outcome world)
    (hrecorded : RecordedAs outcome finding) (hsingle : singleFile = true → done = [] ∧ rest = []) :
    SafeSharing ownerSid (Continues (done ++ [target]) rest)
      (change (.counted finding singleFile) >>= fun _ => pure true) world :=
  ⟨h.running, fun _ _ =>
    SeenTarget.counted ⟨h.running, h.targets, h.outcomes, h.unset⟩ hrecorded hsingle⟩

theorem safeSharing_writeFinding (h : SeenTarget done rest target outcome world)
    (hrecorded : RecordedAs outcome finding) (hsingle : singleFile = true → done = [] ∧ rest = []) :
    SafeSharing ownerSid (Continues (done ++ [target]) rest) (writeFinding finding singleFile)
      world := by
  refine ⟨h.running, fun choice _ => ?_⟩
  obtain ⟨error, scanResults, hanswer⟩ | ⟨id, scanResults, hanswer⟩ :=
    answer_recordScan_cases ownerSid finding choice.2 (world.withTables choice.1)
  · rw [sharingAnswer, hanswer]
    exact safeSharing_ends h.running (c := .failed _) trivial fun _ => id
  · rw [sharingAnswer, hanswer]
    show SafeSharing _ _ (if isDetection finding.verdict then _ else _) _
    split_ifs
    · refine ⟨h.running, fun choice _ => safeSharing_counted ?_ hrecorded hsingle⟩
      exact ⟨h.running, h.targets, h.outcomes, h.unset⟩
    · refine safeSharing_counted ?_ hrecorded hsingle
      exact ⟨h.running, h.targets, h.outcomes, h.unset⟩

theorem safeSharing_recordFinding (h : SeenTarget done rest target outcome world)
    (hrecorded : RecordedAs outcome finding) (hsingle : singleFile = true → done = [] ∧ rest = [])
    (hallowed : ∀ label, RecordedAs outcome (allowedFinding label finding)) :
    SafeSharing ownerSid (Continues (done ++ [target]) rest) (recordFinding finding singleFile)
      world := by
  unfold recordFinding
  split_ifs
  · exact safeSharing_writeFinding h hrecorded hsingle
  · refine ⟨h.running, fun choice _ => ?_⟩
    show SafeSharing _ _ (Program.bind _ (.ret (allowedHash choice.2.fault ownerSid finding.sha256
      choice.1.hashAllowlist))) (world.withTables choice.1)
    have hseen : SeenTarget done rest target outcome (world.withTables choice.1) :=
      ⟨h.running, h.targets, h.outcomes, h.unset⟩
    rcases allowedHash choice.2.fault ownerSid finding.sha256 choice.1.hashAllowlist with
      error | _ | label
    · exact safeSharing_ends h.running (c := .failed _) trivial fun _ => id
    · exact safeSharing_writeFinding hseen hrecorded hsingle
    · exact safeSharing_writeFinding hseen (hallowed label) hsingle

theorem safeSharing_scanTarget (h : Tally done (target :: rest) world)
    (hsingle : singleFile = true → done = [] ∧ rest = []) :
    SafeSharing ownerSid (Continues (done ++ [target]) rest) (scanTarget ioText target singleFile)
      world := by
  refine ⟨h.running, fun keyed _ => ⟨h.running, fun asked _ => ?_⟩⟩
  show SafeSharing _ _ (Program.bind _ (.ret (pathExcluded asked.2.fault ownerSid keyed.2.key
    asked.1.exclusions))) ((world.withTables keyed.1).withTables asked.1)
  rcases pathExcluded asked.2.fault ownerSid keyed.2.key asked.1.exclusions with error | _ | _
  · exact safeSharing_ends h.running (c := .failed _) trivial fun _ => id
  · refine ⟨h.running, fun scanning _ => ?_⟩
    rw [sharingAnswer]
    obtain ⟨error, hanswer⟩ | ⟨result, hcancelled, hanswer⟩ | ⟨error, herror, hanswer⟩ :=
      answer_scanFile_cases ownerSid target scanning.2
        (((world.withTables keyed.1).withTables asked.1).withTables scanning.1)
    · rw [hanswer]
      exact safeSharing_ends h.running (c := .failed _) trivial fun _ => id
    · rw [hanswer]
      rcases result with error | finding
      · obtain rfl := hcancelled error rfl
        exact ⟨h.running, fun _ _ => concluded_of_ends (c := .cancelled) trivial⟩
      · exact safeSharing_recordFinding (h.seen (.scanned (.ok finding)) _ rfl rfl rfl)
          (.scanned finding) hsingle fun label => .allowed finding rfl
    · rw [hanswer]
      have hcounted : ∀ (message : String) (after : ScanWorld), after.status = world.status →
          after.targets = world.targets →
          after.outcomes = world.outcomes ++ [(target, .scanned (.error error))] →
            Tally (done ++ [target]) rest
              { after with status := (StatusChange.unreadable message).apply after.status } :=
        fun message after hstatus htargets houtcomes =>
          (h.seen _ after hstatus htargets houtcomes).unreadable message
      cases error with
      | cancelled => exact absurd rfl herror
      | _ => exact ⟨h.running, fun _ _ => hcounted _ (ScanWorld.withTables _ _) rfl rfl rfl⟩
  · exact ⟨h.running, fun scanning _ =>
      safeSharing_recordFinding (h.seen (.excluded _) _ rfl rfl rfl) (.excluded _ rfl) hsingle
        fun label => .excluded _ rfl⟩

theorem safeSharing_scanTargets (h : Tally done rest world) (hsome : done ++ rest ≠ [])
    (hsingle : singleFile = true → (done ++ rest).length = 1) :
    SafeSharing ownerSid (fun _ after => Concluded after) (scanTargets ioText singleFile rest)
      world := by
  induction rest generalizing done world with
  | nil =>
      refine ⟨h.running, fun _ _ => ⟨.inl rfl, fun _ => ?_⟩⟩
      have htargets : world.targets = done := h.targets.trans (List.append_nil done)
      rw [List.append_nil] at hsome
      refine ⟨fun hnone => hsome (htargets.symm.trans hnone), ?_⟩
      exact ⟨h.found.outcomes.trans htargets.symm, h.found.quiet, h.found.single⟩
  | cons target rest ih =>
      refine ⟨h.running, fun choice _ => ?_⟩
      show SafeSharing _ _ (if choice.2.cancelled then _ else _) (world.withTables choice.1)
      split_ifs
      · exact ⟨h.running, fun _ _ => concluded_of_ends (c := .cancelled) trivial⟩
      · refine ⟨h.running, fun started _ => ?_⟩
        have hstarted : Tally done (target :: rest)
            { world with status := (StatusChange.started target).apply world.status } :=
          ⟨h.running, h.targets, ⟨h.found.outcomes, h.found.quiet, h.found.single⟩, h.unset⟩
        have hone : singleFile = true → done = [] ∧ rest = [] := by
          intro hfile
          have hlength := hsingle hfile
          rw [List.length_append, List.length_cons] at hlength
          exact ⟨List.length_eq_zero_iff.mp (by omega), List.length_eq_zero_iff.mp (by omega)⟩
        show SafeSharing _ _ (scanTarget ioText target singleFile >>= _) _
        refine Safe.bind (safeSharing_scanTarget ?_ hone) fun more after hafter => ?_
        · exact ⟨hstarted.running, hstarted.targets, ⟨hstarted.found.outcomes,
            hstarted.found.quiet, hstarted.found.single⟩, hstarted.unset⟩
        · cases more with
          | false => exact hafter
          | true =>
              refine ih hafter ?_ ?_
              · rwa [List.append_assoc]
              · rwa [List.append_assoc]

/-- A job that was just started, of which nothing is known. -/
structure Unscanned (world : ScanWorld) : Prop where
  running : world.status.state = .running
  finding : world.status.finding = none
  outcomes : world.outcomes = []

/-- The targets are found, or the job ends. -/
theorem safeSharing_collectTargets (h : Unscanned world) :
    SafeSharing ownerSid (fun found after =>
        (found = none → Concluded after) ∧
          ∀ targets, found = some targets → Tally [] targets after ∧ targets ≠ [])
      (collectTargets roots) world := by
  refine ⟨h.running, fun choice _ => ?_⟩
  rw [sharingAnswer]
  simp only [workerAnswer, WorkerChoice.asClient]
  rcases choice.2.impersonation with _ | error
  · rcases choice.2.collected with error | targets
    · refine ⟨h.running, fun asked _ => ⟨h.running, fun _ _ =>
        ⟨fun _ => ?_, fun _ hnot => by cases hnot⟩⟩⟩
      exact concluded_of_ends (c := .stopped _ _) trivial
    · show SafeSharing _ _ (if targets.paths ≠ [] then _ else _)
        { world.withTables choice.1 with targets := targets.paths }
      split_ifs with hsome
      · refine ⟨h.running, fun _ _ => ⟨fun hnot => (by cases hnot), ?_⟩⟩
        rintro _ ⟨⟩
        have hnone : world.outcomes.map Prod.fst = [] := by rw [h.outcomes, List.map_nil]
        refine ⟨⟨h.running, rfl, ⟨hnone, fun _ x hx => ?_, fun finding hfinding => ?_⟩,
          fun _ => h.finding⟩, hsome⟩
        · have hbefore : x ∈ world.outcomes := hx
          rw [h.outcomes] at hbefore
          cases hbefore
        · cases h.finding.symm.trans hfinding
      · refine ⟨h.running, fun _ _ => ⟨fun _ => ?_, fun _ hnot => by cases hnot⟩⟩
        exact concluded_of_ends (c := .failed _) trivial
  · refine ⟨h.running, fun _ _ => ⟨fun _ => ?_, fun _ hnot => by cases hnot⟩⟩
    exact concluded_of_ends (c := .failed _) trivial

/-- **A worker among others**: every call is made while the job is running, and in the end the
status says what was found. -/
theorem safeSharing_scanWorker (h : Unscanned world) :
    SafeSharing ownerSid (fun _ after => Concluded after) (scanWorker ioText roots) world := by
  refine Safe.bind (safeSharing_collectTargets h) fun found after hafter => ?_
  cases found with
  | none => exact hafter.1 rfl
  | some targets =>
      obtain ⟨htally, hsome⟩ := hafter.2 targets rfl
      exact safeSharing_scanTargets htally hsome beq_iff_eq.mp

/-- The tables before a call make no difference. -/
theorem SafeSharing.withTables {α : Type} {post : α → ScanWorld → Prop} {p : ScanProgram α}
    (h : SafeSharing ownerSid post p world) (tables : ScanTables)
    (hpost : ∀ value, post value world → post value (world.withTables tables)) :
    SafeSharing ownerSid post p (world.withTables tables) := by
  cases p with
  | ret value => exact hpost value h
  | call op next => exact ⟨h.1, fun choice hchoice => h.2 choice hchoice⟩

end sharing

/-! ## All jobs -/

/-- A job without a worker is running, and what is left of a worker is safe among others. -/
structure SoundJob (shared : SharedJob) : Prop where
  idle : shared.thread = none → shared.status.state = .running
  works : ∀ thread, shared.thread = some thread → ∀ tables,
    SafeSharing thread.ownerSid (fun _ after => Concluded after) thread.left
      (thread.world shared.status tables)

/-- All jobs are sound, and each worker works for the owner of its job. -/
structure SoundJobs (world : JobsWorld) : Prop where
  jobs : ∀ (index : ℕ) shared, world.shared[index]? = some shared → SoundJob shared
  owner : ∀ scanId job shared thread, world.scanJobs.lookup scanId = some job →
    world.shared[job.shared]? = some shared → shared.thread = some thread →
      thread.ownerSid = job.ownerSid

section jobs

variable {ioText : IoError → String} {world : JobsWorld} {shared after : SharedJob} {index : ℕ}

/-- A call of a worker: nothing, or what is left of it, for the same owner. -/
theorem SharedJob.work_cases (shared : SharedJob) (tables : ScanTables) (choice : WorkerChoice) :
    (shared.work tables choice).1 = shared ∨
      ∃ thread op next, shared.thread = some thread ∧ thread.left = .call op next ∧
        let answered := workerAnswer thread.ownerSid op
          { choice with cancelled := shared.cancelled } (thread.world shared.status tables)
        (shared.work tables choice).1 =
          { shared with
            status := answered.2.status
            thread := some ⟨thread.ownerSid, next answered.1, answered.2.targets,
              answered.2.outcomes, answered.2.handled⟩ } := by
  unfold SharedJob.work
  cases hthread : shared.thread with
  | none => exact .inl rfl
  | some thread =>
      cases hleft : thread.left with
      | ret value =>
          left
          simp only [hleft]
      | call op next =>
          refine .inr ⟨thread, op, next, rfl, hleft, ?_⟩
          simp only [hleft]

theorem SoundJob.work (h : SoundJob shared) (tables : ScanTables) (choice : WorkerChoice) :
    SoundJob (shared.work tables choice).1 := by
  obtain hsame | ⟨thread, op, next, hthread, hleft, hafter⟩ := shared.work_cases tables choice
  · rw [hsame]
    exact h
  · rw [hafter]
    refine ⟨nofun, ?_⟩
    rintro _ ⟨⟩ later
    have hsafe := h.works thread hthread tables
    rw [hleft] at hsafe
    exact SafeSharing.withTables
      (hsafe.2 (tables, { choice with cancelled := shared.cancelled }) trivial) later
      fun _ hconcluded => ⟨hconcluded.state, fun hcompleted =>
        ⟨(hconcluded.completed hcompleted).1, (hconcluded.completed hcompleted).2.outcomes,
          (hconcluded.completed hcompleted).2.quiet, (hconcluded.completed hcompleted).2.single⟩⟩

theorem soundJob_cancelled (h : SoundJob shared) (cancelled : Bool) :
    SoundJob { shared with cancelled } := ⟨h.idle, h.works⟩

/-- A job that has just been registered. -/
theorem soundJob_registered (scanId : String) (request : StartRequest) :
    SoundJob ⟨false, startedStatus scanId request, none⟩ :=
  ⟨fun _ => rfl, nofun⟩

/-- A job whose worker has just been started. -/
theorem soundJob_started (scanId ownerSid : String) (request : StartRequest)
    (roots : List String) :
    SoundJob ⟨false, startedStatus scanId request,
      some ⟨ownerSid, scanWorker ioText roots, [], [], []⟩⟩ := by
  refine ⟨nofun, ?_⟩
  rintro _ ⟨⟩ tables
  exact safeSharing_scanWorker ⟨rfl, rfl, rfl⟩

/-- An action leaves a job as it is, but for the flag; or it is a call of its worker. -/
theorem shared_jobsNext_cases (action : JobsAction) (hshared : world.shared[index]? = some shared) :
    (∃ cancelled, (jobsNext ioText world action).shared[index]? = some { shared with cancelled }) ∨
      ∃ choice, (jobsNext ioText world action).shared[index]? =
        some (shared.work world.tables choice).1 := by
  by_cases haction : ∃ choice, action = .work index choice
  · obtain ⟨choice, rfl⟩ := haction
    exact .inr ⟨choice, shared_work hshared⟩
  · exact .inl (shared_jobsNext ioText hshared (not_exists.mp haction))

/-- What a start adds, and for whom. -/
theorem shared_startScan_new {request : StartRequest} {choice : StartChoice}
    (hnew : world.shared.length ≤ index)
    (hafter : (startScan ioText request choice world).2.shared[index]? = some after) :
    SoundJob after ∧ index = world.shared.length ∧
      (∀ thread, after.thread = some thread → thread.ownerSid = request.client.sid) ∧
        after.status = startedStatus choice.uuid request := by
  have hstarted := started_startScan ioText request choice world
  have hnone : world.shared[index]? = none := List.getElem?_eq_none hnew
  generalize startScan ioText request choice world = result at hstarted hafter
  -- the job that is registered is the last one
  have hlast : ∀ job : SharedJob, (world.shared ++ [job])[index]? = some after →
      index = world.shared.length ∧ job = after := by
    intro job hjob
    obtain ⟨hindex, -⟩ := List.getElem?_eq_some_iff.mp hjob
    rw [List.length_append, List.length_singleton] at hindex
    obtain rfl : index = world.shared.length := by omega
    rw [List.getElem?_concat_length] at hjob
    exact ⟨rfl, Option.some.inj hjob⟩
  cases hstarted with
  | refused h => cases hnone.symm.trans hafter
  | busy h =>
      rw [shared_pruneFinishedScans] at hafter
      cases hnone.symm.trans hafter
  | failed error h hcode =>
      rw [register_shared, shared_pruneFinishedScans] at hafter
      obtain ⟨hindex, rfl⟩ := hlast _ hafter
      exact ⟨soundJob_registered choice.uuid request, hindex, nofun, rfl⟩
  | runs roots h =>
      have hlength : ((world.pruneFinishedScans choice.order).register choice.uuid
          request.client.sid (startedStatus choice.uuid request)).shared.length - 1 =
            world.shared.length := by
        rw [register_shared, shared_pruneFinishedScans, List.length_append,
          List.length_singleton, Nat.add_sub_cancel]
      rw [JobsWorld.spawnLast, shared_modifyShared, hlength] at hafter
      rw [register_shared, shared_pruneFinishedScans] at hafter
      split_ifs at hafter with hindex
      · rw [← hindex, List.getElem?_concat_length] at hafter
        obtain rfl := Option.some.inj hafter
        refine ⟨soundJob_started choice.uuid request.client.sid request roots, hindex.symm, ?_, rfl⟩
        rintro _ ⟨⟩
        rfl
      · exact absurd (hlast _ hafter).1.symm hindex

/-- Only a start adds a job. -/
theorem length_jobsNext {action : JobsAction} (haction : ∀ request choice,
      action ≠ .startScan request choice) :
    (jobsNext ioText world action).shared.length = world.shared.length := by
  cases action with
  | startScan request choice => exact absurd rfl (haction request choice)
  | cancelScan scanId ownerSid =>
      simp only [jobsNext, cancelScan]
      split
      · rfl
      · split
        · rfl
        · exact List.length_modify ..
  | work index choice =>
      simp only [jobsNext, JobsWorld.work]
      split
      · rfl
      · exact List.length_modify ..
  | write tables => rfl

/-- A job of the table was there before, with its number, or has just been registered. -/
theorem lookup_startScan {request : StartRequest} {choice : StartChoice} {scanId : String}
    {job : ScanJob}
    (hjob : (startScan ioText request choice world).2.scanJobs.lookup scanId = some job) :
    world.scanJobs.lookup scanId = some job ∨
      job = ⟨request.client.sid, world.shared.length⟩ ∧ scanId = choice.uuid := by
  have hstarted := started_startScan ioText request choice world
  generalize startScan ioText request choice world = result at hstarted hjob
  have hregistered : ∀ status, ((world.pruneFinishedScans choice.order).register choice.uuid
      request.client.sid status).scanJobs.lookup scanId = some job →
        world.scanJobs.lookup scanId = some job ∨
          job = ⟨request.client.sid, world.shared.length⟩ ∧ scanId = choice.uuid := by
    intro status hjob
    rcases Table.lookup_insert_eq_some_iff.mp hjob with ⟨hkey, hnew⟩ | ⟨-, hbefore⟩
    · rw [shared_pruneFinishedScans] at hnew
      exact .inr ⟨hnew, hkey⟩
    · exact .inl (lookup_pruneFinishedScans hbefore)
  cases hstarted with
  | refused h => exact .inl hjob
  | busy h => exact .inl (lookup_pruneFinishedScans hjob)
  | failed error h hcode => exact hregistered (startedStatus choice.uuid request) hjob
  | runs roots h => exact hregistered (startedStatus choice.uuid request) hjob

/-- The owner of a worker stays the same. -/
theorem owner_jobsNext {action : JobsAction} {thread : ScanThread}
    (hshared : world.shared[index]? = some shared)
    (hafter : (jobsNext ioText world action).shared[index]? = some after)
    (hthread : after.thread = some thread) :
    ∃ before, shared.thread = some before ∧ before.ownerSid = thread.ownerSid := by
  obtain ⟨cancelled, hsame⟩ | ⟨choice, hwork⟩ := shared_jobsNext_cases action hshared
  · rw [hsame] at hafter
    obtain rfl := Option.some.inj hafter
    exact ⟨thread, hthread, rfl⟩
  · rw [hwork] at hafter
    obtain rfl := Option.some.inj hafter
    obtain hsame | ⟨before, op, next, hbefore, -, hanswered⟩ :=
      shared.work_cases world.tables choice
    · exact ⟨thread, hsame ▸ hthread, rfl⟩
    · rw [hanswered] at hthread
      obtain rfl := Option.some.inj hthread
      exact ⟨before, hbefore, rfl⟩

theorem soundJobs_jobsNext (h : SoundJobs world) (action : JobsAction) :
    SoundJobs (jobsNext ioText world action) where
  jobs index after hafter := by
    cases hshared : world.shared[index]? with
    | some shared =>
        obtain ⟨cancelled, hsame⟩ | ⟨choice, hwork⟩ := shared_jobsNext_cases action hshared
        · rw [hsame] at hafter
          exact Option.some.inj hafter ▸ soundJob_cancelled (h.jobs index shared hshared) cancelled
        · rw [hwork] at hafter
          exact Option.some.inj hafter ▸ (h.jobs index shared hshared).work world.tables choice
    | none =>
        have hnew := List.getElem?_eq_none_iff.mp hshared
        by_cases haction : ∃ request choice, action = .startScan request choice
        · obtain ⟨request, choice, rfl⟩ := haction
          exact (shared_startScan_new hnew hafter).1
        · have hlength := @length_jobsNext ioText world _
            fun request choice hsame => haction ⟨request, choice, hsame⟩
          obtain ⟨hindex, -⟩ := List.getElem?_eq_some_iff.mp hafter
          omega
  owner scanId job after thread hjob hafter hthread := by
    have hstill : world.scanJobs.lookup scanId = some job → thread.ownerSid = job.ownerSid := by
      intro hbefore
      have hshared := List.getElem?_eq_getElem (world.registered scanId job hbefore)
      obtain ⟨before, hthread', howner⟩ := owner_jobsNext hshared hafter hthread
      exact howner.symm.trans (h.owner scanId job _ before hbefore hshared hthread')
    by_cases haction : ∃ request choice, action = .startScan request choice
    · obtain ⟨request, choice, rfl⟩ := haction
      rcases lookup_startScan hjob with hbefore | ⟨rfl, -⟩
      · exact hstill hbefore
      · exact (shared_startScan_new le_rfl hafter).2.2.1 thread hthread
    · rw [scanJobs_jobsNext fun request choice hsame => haction ⟨request, choice, hsame⟩] at hjob
      exact hstill hjob

/-- The jobs of every run. -/
theorem soundJobs_of_run {tables : ScanTables} {actions : List JobsAction}
    (hrun : run (jobsStep ioText) (.initial tables) actions = some world) : SoundJobs world := by
  refine run_invariant (fun world action after h hstep => ?_) ?_ hrun
  · obtain rfl := Option.some.inj hstep
    exact soundJobs_jobsNext h action
  · constructor
    · intro index shared hshared
      cases List.getElem?_nil.symm.trans hshared
    · intro scanId job shared thread hjob
      cases hjob

/-! ## What a client is told -/

theorem scanStatus_eq_ok {scanId ownerSid : String} {status : ScanJobStatus} :
    scanStatus scanId ownerSid world = .ok status ↔ ∃ job shared,
      world.scanJobs.lookup scanId = some job ∧ job.ownerSid = ownerSid ∧
        world.shared[job.shared]? = some shared ∧ shared.status = status := by
  unfold scanStatus
  split
  · rename_i hnone
    rw [hnone]
    simp
  · rename_i job hjob
    have hshared := List.getElem?_eq_getElem (world.registered scanId job hjob)
    unfold authorizeScanOwner
    constructor
    · split_ifs with howner
      · intro hstatus
        exact ⟨job, _, hjob, howner, hshared, Except.ok.inj hstatus⟩
      · exact nofun
    · rintro ⟨other, shared, hother, howner, hshared', rfl⟩
      obtain rfl := Option.some.inj (hjob.symm.trans hother)
      rw [if_pos howner]
      obtain rfl := Option.some.inj (hshared.symm.trans hshared')
      rfl

/-- What the status of a completed job says of the files of its worker. -/
structure Verdict (ownerSid : String) (status : ScanJobStatus) (thread : ScanThread) : Prop where
  owner : thread.ownerSid = ownerSid
  targets : thread.targets ≠ []
  outcomes : thread.outcomes.map Prod.fst = thread.targets
  quiet : status.findings = [] → ∀ x ∈ thread.outcomes, Harmless x.2
  single : ∀ finding, status.finding = some finding →
    ∃ target outcome, thread.outcomes = [(target, outcome)] ∧ RecordedAs outcome finding

/-- A job that has ended has a worker with nothing left to do. -/
theorem SoundJob.ended (h : SoundJob shared) (hended : HasEnded shared.status.state) :
    ∃ thread, shared.thread = some thread ∧ thread.left = .ret () ∧
      ∀ tables, Concluded (thread.world shared.status tables) := by
  cases hthread : shared.thread with
  | none =>
      rw [h.idle hthread] at hended
      exact absurd hended (by simp [HasEnded])
  | some thread =>
      have hworks := h.works thread hthread
      cases hleft : thread.left with
      | ret value =>
          rw [hleft] at hworks
          exact ⟨thread, rfl, hleft, hworks⟩
      | call op next =>
          rw [hleft] at hworks
          have hrunning := (hworks ⟨∅, ∅, .empty, ⟨.empty, .empty⟩⟩).1
          rw [show shared.status.state = .running from hrunning] at hended
          exact absurd hended (by simp [HasEnded])

/-- The status of a job that has ended stays as it is. -/
theorem status_of_ended {actions : List JobsAction} {later : JobsWorld} (h : SoundJobs world)
    (hshared : world.shared[index]? = some shared) (hended : HasEnded shared.status.state)
    (hrun : run (jobsStep ioText) world actions = some later) :
    ∃ after, later.shared[index]? = some after ∧ after.status = shared.status ∧
      after.thread = shared.thread := by
  refine (run_invariant (I := fun world => SoundJobs world ∧ ∃ after,
    world.shared[index]? = some after ∧ after.status = shared.status ∧
      after.thread = shared.thread) ?_ ⟨h, shared, hshared, rfl, rfl⟩ hrun).2
  rintro world action _ ⟨hsound, before, hbefore, hstatus, hthread⟩ hstep
  obtain rfl := Option.some.inj hstep
  refine ⟨soundJobs_jobsNext hsound action, ?_⟩
  obtain ⟨cancelled, hsame⟩ | ⟨choice, hwork⟩ := shared_jobsNext_cases action hbefore
  · exact ⟨_, hsame, hstatus, hthread⟩
  · have hended' : HasEnded before.status.state := by rwa [hstatus]
    obtain ⟨thread, hleft, hret, -⟩ := (hsound.jobs index before hbefore).ended hended'
    have hidle : (before.work world.tables choice).1 = before := by
      unfold SharedJob.work
      simp only [hleft, hret]
    rw [hidle] at hwork
    exact ⟨before, hwork, hstatus, hthread⟩

/-- **What a client is told of a job that has ended is final**, whatever happens later, as long as
the job is in the table; and when the job is completed, its worker has gone over all of its targets
for that client. If it holds no findings, each file was clean or could not be read; and a finding of
its own is the one of its only file. -/
theorem results_final (ioText : IoError → String) (tables : ScanTables)
    {actions more : List JobsAction} {later : JobsWorld} {scanId ownerSid : String}
    {status : ScanJobStatus}
    (hrun : run (jobsStep ioText) (.initial tables) actions = some world)
    (hmore : run (jobsStep ioText) world more = some later)
    (hstatus : scanStatus scanId ownerSid world = .ok status) (hended : HasEnded status.state) :
    (later.scanJobs.lookup scanId = world.scanJobs.lookup scanId →
      scanStatus scanId ownerSid later = .ok status) ∧
      (status.state = .completed → ∃ shared ∈ later.shared, ∃ thread,
        shared.status = status ∧ shared.thread = some thread ∧ Verdict ownerSid status thread) := by
  have hsound := soundJobs_of_run hrun
  obtain ⟨job, shared, hjob, howner, hshared, rfl⟩ := scanStatus_eq_ok.mp hstatus
  obtain ⟨after, hafter, hsame, hthread⟩ := status_of_ended hsound hshared hended hmore
  refine ⟨fun hstill => ?_, fun hcompleted => ?_⟩
  · exact scanStatus_eq_ok.mpr ⟨job, after, hstill.trans hjob, howner, hafter, hsame⟩
  · obtain ⟨thread, hworker, -, hconcluded⟩ := (hsound.jobs _ shared hshared).ended hended
    obtain ⟨htargets, hfound⟩ := (hconcluded world.tables).completed hcompleted
    refine ⟨after, List.mem_of_getElem? hafter, thread, hsame, hthread.trans hworker, ?_⟩
    exact ⟨(hsound.owner scanId job shared thread hjob hshared hworker).trans howner, htargets,
      hfound.outcomes, hfound.quiet, hfound.single⟩

end jobs

/-- One file is found, which cannot be read. -/
def unreadableChoice : WorkerChoice where
  fault := none
  impersonation := none
  collected := .ok ⟨["C:\\files\\a"], by decide⟩
  cancelled := false
  key := "c:\\files\\a"
  sizeBytes := 0
  time := "0"
  scanned := .error (.notAFile "C:\\files\\a")

/-- A scan of a directory with that file. -/
def unreadableScan : List JobsAction :=
  .startScan directoryRequest (directoryChoice "0" none) ::
    List.replicate 9 (.work 0 unreadableChoice)

/-- The status in the end: completed, without findings. -/
def unreadableStatus : ScanJobStatus :=
  { startedStatus "0" directoryRequest with
    state := .completed
    filesScanned := 1
    totalFiles := 1
    error := some ("Some files could not be scanned: " ++
      (ScanError.notAFile "C:\\files\\a").display fun _ => "") }

/-- `results_final` for this scan. -/
theorem results_final_unreadable : ∃ world,
    run (jobsStep fun _ => "") (.initial emptyTables) unreadableScan = some world ∧
      scanStatus "0" "S-1" world = .ok unreadableStatus ∧
        ∃ shared ∈ world.shared, ∃ thread, shared.status = unreadableStatus ∧
          shared.thread = some thread ∧ Verdict "S-1" unreadableStatus thread :=
  ⟨_, rfl, rfl, (@results_final _ (fun _ => "") emptyTables unreadableScan [] _ "0" "S-1"
    unreadableStatus rfl rfl rfl (.inl rfl)).2 rfl⟩

end OpenGuard.Service
