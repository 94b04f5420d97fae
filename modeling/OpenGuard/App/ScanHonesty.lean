import OpenGuard.App.ScanTasks
import OpenGuard.Service.ScanPolicy

/-!
# What the page asks to quarantine

* `Completed`: a job of the user is completed, and its status says what its worker has found.
* `HonestPage`: what the page was told, has found and asks to quarantine is about such jobs.
* `quarantine_asked`: the page asks to quarantine what the scanner has found, and threats only.
-/

namespace OpenGuard.App

open OpenGuard.Lib OpenGuard.Domain OpenGuard.Service OpenGuard.Storage

/-- A job of the user is completed, and its status says what its worker has found. -/
def Completed (userSid : String) (P : ScanJobStatus → ScanThread → Prop) (jobs : JobsWorld) : Prop :=
  ∃ shared ∈ jobs.shared, ∃ thread, shared.thread = some thread ∧
    shared.status.state = .completed ∧ Verdict userSid shared.status thread ∧
      P shared.status thread

/-- A completed job has this finding. -/
def Reported (userSid : String) (finding : ScanFinding) : JobsWorld → Prop :=
  Completed userSid fun status _ => status.finding = some finding

/-- What a task was told, and what it asks for, is about a completed job. -/
def FineTask (userSid : String) (jobs : JobsWorld) : PageTask → Prop
  | .polling _ (some (.ok status)) =>
      status.state = .completed → Completed userSid (fun reported _ => reported = status) jobs
  | .isolating finding _ => Reported userSid finding jobs ∧ ScanPage.isThreat finding
  | _ => True

/-- What the page knows is about completed jobs. -/
structure HonestPage (userSid : String) (jobs : JobsWorld) (page : ScanPage) : Prop where
  tasks : ∀ task ∈ page.tasks, FineTask userSid jobs task
  latest : ∀ finding, page.latestFinding = some finding → Reported userSid finding jobs

section honest

variable {texts : PageTexts} {user : ClientContext} {ioText : IoError → String} {userSid : String}
  {jobs : JobsWorld} {page page' : ScanPage} {index : ℕ} {task other : PageTask}
  {P Q : ScanJobStatus → ScanThread → Prop} {starts : StartRequest → String → Prop}

theorem Completed.imp (h : Completed userSid P jobs)
    (himp : ∀ status thread, Verdict userSid status thread → P status thread → Q status thread) :
    Completed userSid Q jobs := by
  obtain ⟨shared, hmem, thread, hthread, hcompleted, hverdict, hP⟩ := h
  exact ⟨shared, hmem, thread, hthread, hcompleted, hverdict, himp _ thread hverdict hP⟩

/-- A completed job stays one. -/
theorem Completed.jobsNext (h : Completed userSid P jobs) (hsound : SoundJobs jobs)
    (action : JobsAction) : Completed userSid P (Service.jobsNext ioText jobs action) := by
  obtain ⟨shared, hmem, thread, hthread, hcompleted, hverdict, hP⟩ := h
  obtain ⟨place, hplace⟩ := List.getElem?_of_mem hmem
  have hrun : run (jobsStep ioText) jobs [action] =
      some (Service.jobsNext ioText jobs action) := rfl
  obtain ⟨after, hafter, hstatus, hsame⟩ := status_of_ended hsound hplace (.inl hcompleted) hrun
  refine ⟨after, List.mem_of_getElem? hafter, thread, hsame.trans hthread, ?_⟩
  rw [hstatus]
  exact ⟨hcompleted, hverdict, hP⟩

theorem FineTask.jobsNext (h : FineTask userSid jobs task) (hsound : SoundJobs jobs)
    (action : JobsAction) : FineTask userSid (Service.jobsNext ioText jobs action) task := by
  cases task with
  | polling scanId answer =>
      rcases answer with _ | failure | status
      · trivial
      · trivial
      · exact fun hcompleted => (h hcompleted).jobsNext hsound action
  | isolating finding answer => exact ⟨h.1.jobsNext hsound action, h.2⟩
  | _ => trivial

theorem HonestPage.jobsNext (h : HonestPage userSid jobs page) (hsound : SoundJobs jobs)
    (action : JobsAction) : HonestPage userSid (Service.jobsNext ioText jobs action) page where
  tasks task htask := (h.tasks task htask).jobsNext hsound action
  latest finding hfinding := (h.latest finding hfinding).jobsNext hsound action

/-- What a client is told of a completed job. -/
theorem completed_of_scanStatus {scanId : String} {status : ScanJobStatus} (hsound : SoundJobs jobs)
    (hstatus : scanStatus scanId userSid jobs = .ok status)
    (hcompleted : status.state = .completed) :
    Completed userSid (fun reported _ => reported = status) jobs := by
  obtain ⟨job, shared, hjob, howner, hshared, rfl⟩ := scanStatus_eq_ok.mp hstatus
  obtain ⟨thread, hthread, -, hconcluded⟩ := (hsound.jobs _ shared hshared).ended (.inl hcompleted)
  obtain ⟨htargets, hfound⟩ := (hconcluded jobs.tables).completed hcompleted
  refine ⟨shared, List.mem_of_getElem? hshared, thread, hthread, hcompleted, ?_, rfl⟩
  exact ⟨(hsound.owner scanId job shared thread hjob hshared hthread).trans howner, htargets,
    hfound.outcomes, hfound.quiet, hfound.single⟩

/-- A page that knows nothing more. -/
theorem HonestPage.shows (h : HonestPage userSid jobs page)
    (htasks : ∀ task ∈ page'.tasks, task ∈ page.tasks ∨ FineTask userSid jobs task)
    (hlatest : ∀ finding, page'.latestFinding = some finding →
      page.latestFinding = some finding ∨ Reported userSid finding jobs) :
    HonestPage userSid jobs page' where
  tasks task htask := (htasks task htask).elim (h.tasks task) id
  latest finding hfinding := (hlatest finding hfinding).elim (h.latest finding) id

theorem HonestPage.setTask (h : HonestPage userSid jobs page)
    (hfine : FineTask userSid jobs other) :
    HonestPage userSid jobs (page.setTask index other) := by
  refine h.shows (fun task htask => ?_) fun _ => .inl
  rcases List.mem_or_eq_of_mem_set htask with htask | rfl
  · exact .inl htask
  · exact .inr hfine

theorem HonestPage.runScan (h : HonestPage userSid jobs page) (targetLabel : String)
    (request : StartRequest) : HonestPage userSid jobs (page.runScan targetLabel request) := by
  unfold ScanPage.runScan
  split_ifs
  · exact h
  · refine h.shows (fun task htask => ?_) fun finding hfinding => by cases hfinding
    rcases List.mem_append.mp htask with htask | htask
    · left
      simpa [ScanPage.notifyQuarantine] using htask
    · rw [List.mem_singleton.mp htask]
      exact .inr trivial

/-- The end of a scan tells the page nothing. -/
theorem HonestPage.endScan (h : HonestPage userSid jobs page) :
    HonestPage userSid jobs (page.endScan index) := by
  refine h.shows (fun task htask => .inl ?_) fun finding hfinding => .inl ?_
  · simpa [ScanPage.endScan] using List.mem_of_mem_eraseIdx htask
  · simpa [ScanPage.endScan, ScanPage.dropTask] using hfinding

theorem HonestPage.failScan (h : HonestPage userSid jobs page) (failure : RequestFailure) :
    HonestPage userSid jobs ((page.failScan failure).endScan index) := by
  refine HonestPage.endScan ?_
  unfold ScanPage.failScan
  split_ifs
  · exact ⟨h.tasks, h.latest⟩
  · exact h

/-- The finding that is kept is the one of a completed job. -/
theorem HonestPage.applyStatus (h : HonestPage userSid jobs page) {status : ScanJobStatus}
    (htold : status.state = .completed →
      Completed userSid (fun reported _ => reported = status) jobs) :
    HonestPage userSid jobs (page.applyStatus texts index status) := by
  have hpauses : HonestPage userSid jobs (page.setTask index .pausing) := h.setTask trivial
  unfold ScanPage.applyStatus
  cases hstate : status.state with
  | queued | running => exact ⟨hpauses.tasks, hpauses.latest⟩
  | completed =>
      cases hfinding : status.finding with
      | some finding =>
          refine HonestPage.endScan (h.shows (fun _ => .inl) fun latest hlatest => .inr ?_)
          obtain rfl : finding = latest := Option.some.inj hlatest
          exact (htold hstate).imp fun reported _ _ hsame => hsame ▸ hfinding
      | none =>
          exact HonestPage.endScan (h.shows (fun _ => .inl) fun latest hlatest => by cases hlatest)
  | cancelled => exact HonestPage.endScan ⟨h.tasks, h.latest⟩
  | failed => exact h.failScan _

/-- The button is enabled for a threat only. -/
theorem HonestPage.clickQuarantine (h : HonestPage userSid jobs page) (horderly : page.Orderly) :
    HonestPage userSid jobs page.clickQuarantine := by
  unfold ScanPage.clickQuarantine
  split_ifs with henabled
  · rw [horderly.buttons.quarantine] at henabled
    cases hlatest : page.latestFinding with
    | none => exact ⟨h.tasks, fun _ hsome => h.latest _ hsome⟩
    | some finding =>
        have hthreat : ScanPage.isThreat finding := by
          simpa [ScanPage.canQuarantine, hlatest] using (Bool.and_eq_true_iff.mp henabled).2
        refine h.shows (fun task htask => ?_) fun other hother => .inl ?_
        · rcases List.mem_append.mp htask with htask | htask
          · left
            simpa using htask
          · rw [List.mem_singleton.mp htask]
            exact .inr ⟨h.latest finding hlatest, hthreat⟩
        · simpa [ScanPage.notifyQuarantine] using hother
  · exact h

theorem HonestPage.finishQuarantine (h : HonestPage userSid jobs page)
    (answer : Except RequestFailure String) :
    HonestPage userSid jobs (page.finishQuarantine texts index answer) := by
  have hends : ∀ after : ScanPage, HonestPage userSid jobs after → HonestPage userSid jobs
      (ScanPage.notifyQuarantine
        ((ScanPage.notifyQuarantine (after.setIsScanning false)).dropTask index)) := by
    intro after hafter
    refine hafter.shows (fun task htask => .inl ?_) fun finding hfinding => .inl ?_
    · simpa [ScanPage.notifyQuarantine] using List.mem_of_mem_eraseIdx htask
    · simpa [ScanPage.notifyQuarantine, ScanPage.dropTask] using hfinding
  unfold ScanPage.finishQuarantine
  refine hends _ ?_
  cases answer with
  | ok originalPath => exact h.shows (fun _ => .inl) fun latest hlatest => by cases hlatest
  | error failure =>
      dsimp only
      split_ifs
      · exact ⟨h.tasks, h.latest⟩
      · exact h

theorem HonestPage.clickCancel (h : HonestPage userSid jobs page) :
    HonestPage userSid jobs page.clickCancel := by
  unfold ScanPage.clickCancel
  split_ifs
  · cases page.activeScanId with
    | none => exact ⟨h.tasks, h.latest⟩
    | some scanId =>
        refine h.shows (fun task htask => ?_) fun _ => .inl
        rcases List.mem_append.mp htask with htask | htask
        · exact .inl htask
        · rw [List.mem_singleton.mp htask]
          exact .inr trivial
  · exact h

theorem HonestPage.finishCancel (h : HonestPage userSid jobs page)
    (answer : Except RequestFailure Unit) :
    HonestPage userSid jobs (page.finishCancel index answer) := by
  cases answer with
  | ok _ => exact h.shows (fun _ htask => .inl (List.mem_of_mem_eraseIdx htask)) fun _ => .inl
  | error failure =>
      exact h.shows (fun _ htask => .inl (List.mem_of_mem_eraseIdx htask)) fun _ => .inl

/-- An answer leaves a task fine. -/
theorem FineTask.answered (h : FineTask userSid jobs task) (hsound : SoundJobs jobs)
    (hanswers : Answers userSid jobs starts task other) : FineTask userSid jobs other := by
  cases other with
  | polling scanId answer =>
      obtain ⟨-, htold⟩ := hanswers.polling scanId answer rfl
      rcases answer with _ | failure | status
      · trivial
      · trivial
      · exact completed_of_scanStatus hsound (htold status rfl)
  | isolating finding answer =>
      obtain ⟨before, rfl⟩ := hanswers.isolating finding answer rfl
      exact h
  | _ => trivial

/-- What changes a page leaves it honest. -/
theorem HonestPage.change {opens : Prop} (h : HonestPage userSid jobs page)
    (hsound : SoundJobs jobs) (horderly : page.Orderly)
    (hchange : PageChange texts userSid jobs opens starts page page') :
    HonestPage userSid jobs page' := by
  cases hchange with
  | same => exact h
  | opened => exact ⟨h.tasks, h.latest⟩
  | runScan request => exact h.runScan _ request
  | clickCancel => exact h.clickCancel
  | clickQuarantine => exact h.clickQuarantine horderly
  | answered htask hanswers =>
      exact h.setTask ((h.tasks _ (List.mem_of_getElem? htask)).answered hsound hanswers)
  | @started index request scanId htask =>
      have hset : HonestPage userSid jobs (page.setTask index (.polling scanId none)) :=
        h.setTask trivial
      exact ⟨hset.tasks, hset.latest⟩
  | failed htask hkind failure => exact h.failScan failure
  | told htask => exact h.applyStatus (h.tasks _ (List.mem_of_getElem? htask))
  | asked htask hactive => exact h.setTask trivial
  | quarantined htask => exact h.finishQuarantine _
  | cancelled htask => exact h.finishCancel _

/-- The jobs are sound, the page is in order, and what it knows is about completed jobs. -/
structure HonestWorld (userSid : String) (w : ScanPageWorld) : Prop where
  sound : SoundJobs w.jobs
  orderly : w.page.Orderly
  page : HonestPage userSid w.jobs w.page

/-- Every step leaves the page honest: first for the jobs before it, then for those after it. -/
theorem HonestWorld.pageStep {w after : ScanPageWorld} {action : ScanPageAction}
    (h : HonestWorld user.sid w) (hstep : pageStep texts user ioText w action = some after) :
    HonestWorld user.sid after := by
  obtain ⟨hjobs, hchange⟩ := pageStep_cases hstep
  have horderly := h.orderly.change hchange
  have hpage := h.page.change h.sound h.orderly hchange
  obtain ⟨page, jobs⟩ := after
  rcases hjobs with rfl | ⟨service, rfl, -⟩
  · exact ⟨h.sound, horderly, hpage⟩
  · exact ⟨soundJobs_jobsNext h.sound service, horderly, hpage.jobsNext h.sound service⟩

theorem honestWorld_initial (tables : ScanTables) :
    HonestWorld userSid ⟨.initial, .initial tables⟩ := by
  have hrun : run (jobsStep fun _ => "") (.initial tables) [] = some (.initial tables) := rfl
  refine ⟨soundJobs_of_run hrun, ScanPage.orderly_initial, fun task htask => ?_,
    fun _ hlatest => ?_⟩
  · exact absurd htask List.not_mem_nil
  · cases hlatest

/-- A threat is what the scanner has found in the only file of its job. -/
theorem Reported.scanned {finding : ScanFinding} (h : Reported userSid finding jobs)
    (hthreat : ScanPage.isThreat finding) :
    Completed userSid (fun _ thread => ∃ target, thread.targets = [target] ∧
      thread.outcomes = [(target, .scanned (.ok finding))]) jobs := by
  refine h.imp fun status thread hverdict hfinding => ?_
  obtain ⟨target, outcome, houtcomes, hrecorded⟩ := hverdict.single finding hfinding
  have htargets : thread.targets = [target] := by
    rw [← hverdict.outcomes, houtcomes]
    rfl
  have hnot : finding.verdict ≠ .skipped := by
    intro hskipped
    rw [ScanPage.isThreat, hskipped] at hthreat
    cases hthreat
  refine ⟨target, htargets, ?_⟩
  cases hrecorded with
  | excluded file hskipped => exact absurd hskipped hnot
  | scanned => exact houtcomes
  | allowed other hskipped => exact absurd hskipped hnot

end honest

/-- **What the page asks to quarantine**, after any steps, is suspicious or malicious, and what the
scanner has found in the only file of a completed job of the user. -/
theorem quarantine_asked (texts : PageTexts) (user : ClientContext) (ioText : IoError → String)
    (tables : ScanTables) (actions : List ScanPageAction) (w : ScanPageWorld)
    (hrun : run (pageStep texts user ioText) ⟨.initial, .initial tables⟩ actions = some w)
    (finding : ScanFinding) (answer : Option (Except RequestFailure String))
    (htask : .isolating finding answer ∈ w.page.tasks) :
    (finding.verdict = .suspicious ∨ finding.verdict = .malicious) ∧
      Completed user.sid (fun _ thread => ∃ target, thread.targets = [target] ∧
        thread.outcomes = [(target, .scanned (.ok finding))]) w.jobs := by
  have hworld : HonestWorld user.sid w :=
    run_invariant (I := HonestWorld user.sid) (fun _ _ _ h hstep => h.pageStep hstep)
      (honestWorld_initial tables) hrun
  obtain ⟨hreported, hthreat⟩ := hworld.page.tasks _ htask
  refine ⟨?_, hreported.scanned hthreat⟩
  simpa [ScanPage.isThreat] using hthreat

/-- The scan of the directory, whose only file is a detection, and a click. -/
def markedScan : List ScanPageAction :=
  directoryScan ++ List.replicate 12 (.service (.work 0 scanningChoice)) ++
    [.serve 0, .resume 0, .quarantine]

/-- `quarantine_asked` for that scan. -/
theorem quarantine_asked_marked : ∃ w,
    run (pageStep plainTexts ⟨"S-1", false⟩ fun _ => "") ⟨.initial, .initial emptyTables⟩
      markedScan = some w ∧
        Completed "S-1" (fun _ thread => ∃ target, thread.targets = [target] ∧
          thread.outcomes = [(target, .scanned (.ok markedFinding))]) w.jobs :=
  ⟨_, rfl, (quarantine_asked plainTexts ⟨"S-1", false⟩ (fun _ => "") emptyTables markedScan _ rfl
    markedFinding none (List.mem_of_getElem? (i := 0) rfl)).2⟩

end OpenGuard.App
