import OpenGuard.App.ScanHonesty

/-!
# A scan that is shown to be clean

* `LabelledPage`: what the page is told is about the scan that it names.
* `clean_shown`: a scan that the page shows to be clean was clean, and it is the one that it names.
-/

namespace OpenGuard.App

open OpenGuard.Lib OpenGuard.Domain OpenGuard.Service OpenGuard.Storage

/-- A completed job of the user has found nothing; it is the one with this label, or its only file
is the one with this path. -/
def CleanJob (userSid name : String) : JobsWorld → Prop :=
  Completed userSid fun status thread => (∀ x ∈ thread.outcomes, Harmless x.2) ∧
    (status.target = name ∨ ∃ finding, status.finding = some finding ∧ finding.path = name)

/-- A task is about the scan with this label. -/
def LabelledTask (jobs : JobsWorld) (label : String) : PageTask → Prop
  | .starting request answer =>
      requestLabel request = label ∧ ∀ scanId, answer = some (.ok scanId) → Called jobs scanId label
  | .polling _ (some (.ok status)) => status.target = label
  | _ => True

/-- What the page shows is about what it names. -/
structure LabelledPage (userSid : String) (jobs : JobsWorld) (page : ScanPage) : Prop where
  tasks : ∀ task ∈ page.tasks, LabelledTask jobs page.targetPath task
  active : ∀ scanId, page.activeScanId = some scanId → Called jobs scanId page.targetPath
  clean : page.verdictText = "CLEAN" → CleanJob userSid page.targetPath jobs

/-- The ids of the scans are new, whoever starts them. -/
def FreshIds (w : ScanPageWorld) : ScanPageAction → Prop
  | .serveStart _ choice => FreshId w.jobs choice
  | .service (.startScan _ choice) => FreshId w.jobs choice
  | _ => True

section clean

variable {texts : PageTexts} {user : ClientContext} {ioText : IoError → String} {userSid : String}
  {jobs jobs' : JobsWorld} {page page' : ScanPage} {index : ℕ} {task other : PageTask}
  {label : String} {starts : StartRequest → String → Prop}

theorem LabelledTask.jobsNext {action : JobsAction} (h : LabelledTask jobs label task)
    (hfresh : ∀ request choice, action = .startScan request choice → FreshId jobs choice) :
    LabelledTask (Service.jobsNext ioText jobs action) label task := by
  cases task with
  | starting request answer => exact ⟨h.1, fun scanId hok => (h.2 scanId hok).jobsNext hfresh⟩
  | polling scanId answer =>
      rcases answer with _ | failure | status
      · trivial
      · trivial
      · exact h
  | _ => trivial

theorem LabelledPage.jobsNext {action : JobsAction} (h : LabelledPage userSid jobs page)
    (hsound : SoundJobs jobs)
    (hfresh : ∀ request choice, action = .startScan request choice → FreshId jobs choice) :
    LabelledPage userSid (Service.jobsNext ioText jobs action) page where
  tasks task htask := (h.tasks task htask).jobsNext hfresh
  active scanId hactive := (h.active scanId hactive).jobsNext hfresh
  clean hclean := (h.clean hclean).jobsNext hsound action

/-- A page that names the same scan, and does not begin to show that it is clean. -/
theorem LabelledPage.shows (h : LabelledPage userSid jobs page)
    (htarget : page'.targetPath = page.targetPath)
    (htasks : ∀ task ∈ page'.tasks, task ∈ page.tasks ∨ LabelledTask jobs page.targetPath task)
    (hactive : ∀ scanId, page'.activeScanId = some scanId →
      page.activeScanId = some scanId ∨ Called jobs scanId page.targetPath)
    (hclean : page'.verdictText = page.verdictText) : LabelledPage userSid jobs page' where
  tasks task htask := by
    rw [htarget]
    exact (htasks task htask).elim (h.tasks task) id
  active scanId hscan := by
    rw [htarget]
    exact (hactive scanId hscan).elim (h.active scanId) id
  clean hshown := by
    rw [htarget]
    exact h.clean (hclean ▸ hshown)

/-- An idle page is only told of requests to cancel. -/
theorem labelledTask_idle (h : page.Orderly) (hidle : page.isScanning = false)
    (htask : task ∈ page.tasks) : LabelledTask jobs label task := by
  obtain ⟨hstart, hloop, -, -⟩ := h.tidy.idle hidle
  obtain ⟨place, hplace⟩ := List.getElem?_of_mem htask
  have hpositive := ScanPage.running_pos hplace
  cases task with
  | starting request answer => exact absurd hstart hpositive.ne'
  | polling scanId answer => exact absurd hloop hpositive.ne'
  | _ => trivial

theorem labelledPage_idle (h : page.Orderly) (hidle : page.isScanning = false)
    (hclean : page.verdictText = "CLEAN" → CleanJob userSid page.targetPath jobs) :
    LabelledPage userSid jobs page where
  tasks _ htask := labelledTask_idle h hidle htask
  active scanId hscan := by
    rw [(h.tidy.idle hidle).2.2.2] at hscan
    cases hscan
  clean := hclean

theorem LabelledPage.setTask (h : LabelledPage userSid jobs page)
    (htask : LabelledTask jobs page.targetPath other) :
    LabelledPage userSid jobs (page.setTask index other) := by
  refine h.shows rfl (fun task hmem => ?_) (fun _ => .inl) rfl
  rcases List.mem_or_eq_of_mem_set hmem with hmem | rfl
  · exact .inl hmem
  · exact .inr htask

/-- A scan that begins is named. -/
theorem LabelledPage.runScan (h : LabelledPage userSid jobs page) (horderly : page.Orderly)
    (request : StartRequest) :
    LabelledPage userSid jobs (page.runScan (requestLabel request) request) := by
  unfold ScanPage.runScan
  split_ifs with hscanning
  · exact h
  · rw [Bool.not_eq_true] at hscanning
    refine ⟨fun task hmem => ?_, fun scanId hactive => ?_, fun hshown => ?_⟩
    · rcases List.mem_append.mp hmem with hmem | hmem
      · refine labelledTask_idle horderly hscanning ?_
        simpa [ScanPage.notifyQuarantine] using hmem
      · rw [List.mem_singleton.mp hmem]
        exact ⟨rfl, fun _ hnot => by cases hnot⟩
    · have hnone := (horderly.tidy.idle hscanning).2.2.2
      simp [ScanPage.notifyQuarantine, hnone] at hactive
    · exact absurd hshown (by decide : "SCANNING" ≠ "CLEAN")

theorem LabelledPage.clickCancel (h : LabelledPage userSid jobs page) :
    LabelledPage userSid jobs page.clickCancel := by
  unfold ScanPage.clickCancel
  split_ifs
  · cases hactive : page.activeScanId with
    | none => exact ⟨h.tasks, h.active, h.clean⟩
    | some scanId =>
        refine h.shows rfl (fun task hmem => ?_) (fun other hother => .inl ?_) rfl
        · rcases List.mem_append.mp hmem with hmem | hmem
          · exact .inl hmem
          · rw [List.mem_singleton.mp hmem]
            exact .inr trivial
        · exact hactive.trans hother
  · exact h

theorem LabelledPage.finishCancel (h : LabelledPage userSid jobs page)
    (answer : Except RequestFailure Unit) :
    LabelledPage userSid jobs (page.finishCancel index answer) := by
  cases answer with
  | ok _ =>
      exact h.shows rfl (fun _ hmem => .inl (List.mem_of_mem_eraseIdx hmem)) (fun _ => .inl) rfl
  | error failure =>
      exact h.shows rfl (fun _ hmem => .inl (List.mem_of_mem_eraseIdx hmem)) (fun _ => .inl) rfl

theorem LabelledPage.clickQuarantine (h : LabelledPage userSid jobs page) :
    LabelledPage userSid jobs page.clickQuarantine := by
  unfold ScanPage.clickQuarantine
  split_ifs
  · cases page.latestFinding with
    | none => exact ⟨h.tasks, h.active, h.clean⟩
    | some finding =>
        refine h.shows ?_ (fun task hmem => ?_) (fun scanId hactive => .inl ?_) ?_
        · simp [ScanPage.notifyQuarantine]
        · rcases List.mem_append.mp hmem with hmem | hmem
          · left
            simpa using hmem
          · rw [List.mem_singleton.mp hmem]
            exact .inr trivial
        · simpa [ScanPage.notifyQuarantine] using hactive
        · simp [ScanPage.notifyQuarantine]
  · exact h

theorem LabelledPage.finishQuarantine (h : LabelledPage userSid jobs page)
    {answer : Except RequestFailure String}
    (horderly : (page.finishQuarantine texts index answer).Orderly) :
    LabelledPage userSid jobs (page.finishQuarantine texts index answer) := by
  refine labelledPage_idle horderly ?_ fun hshown => ?_
  · simp [ScanPage.finishQuarantine, ScanPage.notifyQuarantine, ScanPage.dropTask]
  · cases answer with
    | ok originalPath =>
        simp [ScanPage.finishQuarantine, ScanPage.notifyQuarantine, ScanPage.dropTask] at hshown
    | error failure =>
        have hsame : (page.finishQuarantine texts index (.error failure)).targetPath =
            page.targetPath ∧
            (page.finishQuarantine texts index (.error failure)).verdictText =
              page.verdictText := by
          simp only [ScanPage.finishQuarantine]
          split_ifs <;> simp [ScanPage.notifyQuarantine, ScanPage.dropTask]
        rw [hsame.1]
        exact h.clean (hsame.2 ▸ hshown)

/-- The end of a scan. -/
theorem labelledPage_endScan (horderly : (page.endScan index).Orderly)
    (hclean : page.verdictText = "CLEAN" → CleanJob userSid page.targetPath jobs) :
    LabelledPage userSid jobs (page.endScan index) := by
  refine labelledPage_idle horderly ?_ fun hshown => ?_
  · simp [ScanPage.endScan, ScanPage.dropTask]
  · simp only [ScanPage.endScan, ScanPage.dropTask, ScanPage.verdictText_setIsScanning,
      ScanPage.targetPath_setIsScanning] at hshown ⊢
    exact hclean hshown

theorem LabelledPage.failScan (h : LabelledPage userSid jobs page) {failure : RequestFailure}
    (horderly : ((page.failScan failure).endScan index).Orderly) :
    LabelledPage userSid jobs ((page.failScan failure).endScan index) := by
  refine labelledPage_endScan horderly ?_
  unfold ScanPage.failScan
  split_ifs
  · exact fun hshown => absurd hshown (by decide : "SCAN ERROR" ≠ "CLEAN")
  · exact h.clean

theorem verdictLabel_eq_clean {verdict : ScanVerdict} (h : verdictLabel verdict = "CLEAN") :
    verdict = .clean := by
  cases verdict with
  | clean => rfl
  | _ => exact absurd h (by decide)

/-- The answer of the service: a completed scan is shown to be clean only if it was. -/
theorem LabelledPage.applyStatus (h : LabelledPage userSid jobs page) {status : ScanJobStatus}
    (hlabel : status.target = page.targetPath)
    (htold : status.state = .completed →
      Completed userSid (fun reported _ => reported = status) jobs)
    (horderly : (page.applyStatus texts index status).Orderly) :
    LabelledPage userSid jobs (page.applyStatus texts index status) := by
  have hpauses : LabelledPage userSid jobs (page.setTask index .pausing) := h.setTask trivial
  unfold ScanPage.applyStatus at horderly ⊢
  cases hstate : status.state with
  | queued | running => exact ⟨hpauses.tasks, hpauses.active, hpauses.clean⟩
  | completed =>
      rw [hstate] at horderly
      cases hfinding : status.finding with
      | some finding =>
          rw [hfinding] at horderly
          refine labelledPage_endScan horderly fun hshown => (htold hstate).imp ?_
          rintro status thread hverdict rfl
          obtain ⟨target, outcome, houtcomes, hrecorded⟩ := hverdict.single finding hfinding
          refine ⟨fun x hx => ?_, .inr ⟨finding, hfinding, rfl⟩⟩
          rw [houtcomes, List.mem_singleton] at hx
          rw [hx]
          exact hrecorded.harmless (verdictLabel_eq_clean hshown)
      | none =>
          rw [hfinding] at horderly
          refine labelledPage_endScan horderly fun hshown => (htold hstate).imp ?_
          rintro status thread hverdict rfl
          have hquiet : status.findings = [] := by
            by_contra hsome
            have hreview : (if status.findings = [] then "CLEAN" else "REVIEW") = "CLEAN" := hshown
            rw [if_neg hsome] at hreview
            exact absurd hreview (by decide)
          exact ⟨hverdict.quiet hquiet, .inl hlabel⟩
  | cancelled =>
      rw [hstate] at horderly
      exact labelledPage_endScan horderly fun hshown =>
        absurd hshown (by decide : "CANCELLED" ≠ "CLEAN")
  | failed =>
      rw [hstate] at horderly
      exact h.failScan horderly

/-- An answer is about the scan that the page names. -/
theorem LabelledPage.answered (h : LabelledPage userSid jobs page)
    (hnext : LabelledPage userSid jobs' page) (hkeyed : Keyed jobs) (horderly : page.Orderly)
    (hstarts : ∀ request scanId, starts request scanId → Called jobs' scanId (requestLabel request))
    (htask : page.tasks[index]? = some task) (hanswers : Answers userSid jobs starts task other) :
    LabelledPage userSid jobs' (page.setTask index other) := by
  have hmem := List.mem_of_getElem? htask
  refine hnext.setTask ?_
  cases other with
  | starting request answer =>
      obtain ⟨⟨before, rfl⟩, hstarted⟩ := hanswers.starting request answer rfl
      obtain ⟨hlabel, -⟩ := h.tasks _ hmem
      exact ⟨hlabel, fun scanId hok => hlabel ▸ hstarts request scanId (hstarted scanId hok)⟩
  | polling scanId answer =>
      obtain ⟨⟨before, rfl⟩, htold⟩ := hanswers.polling scanId answer rfl
      rcases answer with _ | failure | status
      · trivial
      · trivial
      · have hactive := horderly.tidy.polls scanId before hmem
        exact (h.active scanId hactive).told hkeyed (htold status rfl)
  | _ => trivial

/-- What changes a page leaves it about the scan that it names. -/
theorem LabelledPage.change {opens : Prop} (h : LabelledPage userSid jobs page)
    (hnext : LabelledPage userSid jobs' page) (hkeyed : Keyed jobs)
    (hhonest : HonestPage userSid jobs' page) (horderly : page.Orderly)
    (hstarts : ∀ request scanId, starts request scanId → Called jobs' scanId (requestLabel request))
    (hchange : PageChange texts userSid jobs opens starts page page') :
    LabelledPage userSid jobs' page' := by
  have hafter := horderly.change hchange
  cases hchange with
  | same => exact hnext
  | opened => exact ⟨hnext.tasks, hnext.active, hnext.clean⟩
  | runScan request => exact hnext.runScan horderly request
  | clickCancel => exact hnext.clickCancel
  | clickQuarantine => exact hnext.clickQuarantine
  | answered htask hanswers => exact h.answered hnext hkeyed horderly hstarts htask hanswers
  | @started index request scanId htask =>
      obtain ⟨-, hcalled⟩ := hnext.tasks _ (List.mem_of_getElem? htask)
      have hset : LabelledPage userSid jobs' (page.setTask index (.polling scanId none)) :=
        hnext.setTask trivial
      refine ⟨hset.tasks, fun other hother => ?_, hset.clean⟩
      obtain rfl : scanId = other := Option.some.inj hother
      exact hcalled scanId rfl
  | failed htask hkind failure => exact hnext.failScan hafter
  | told htask =>
      have hmem := List.mem_of_getElem? htask
      exact hnext.applyStatus (hnext.tasks _ hmem) (hhonest.tasks _ hmem) hafter
  | asked htask hactive => exact hnext.setTask trivial
  | quarantined htask => exact hnext.finishQuarantine hafter
  | cancelled htask => exact hnext.finishCancel _

/-- The page is honest, the jobs are under their ids, and what the page shows is about what it
names. -/
structure LabelledWorld (userSid : String) (w : ScanPageWorld) : Prop where
  honest : HonestWorld userSid w
  keyed : Keyed w.jobs
  page : LabelledPage userSid w.jobs w.page

theorem LabelledWorld.pageStep {w after : ScanPageWorld} {action : ScanPageAction}
    (h : LabelledWorld user.sid w) (hfresh : FreshIds w action)
    (hstep : pageStep texts user ioText w action = some after) : LabelledWorld user.sid after := by
  have hhonest := h.honest.pageStep hstep
  obtain ⟨hjobs, hchange⟩ := pageStep_cases hstep
  have hstarts : ∀ request scanId, Starts ioText w action after.jobs request scanId →
      Called after.jobs scanId (requestLabel request) := by
    rintro request scanId ⟨index, choice, rfl, hstart⟩
    exact called_startScan hstart hfresh
  obtain ⟨page, jobs⟩ := after
  rcases hjobs with rfl | ⟨service, rfl, hservice⟩
  · exact ⟨hhonest, h.keyed, h.page.change h.page h.keyed h.honest.page h.honest.orderly hstarts
      hchange⟩
  · have hnew : ∀ request choice, service = .startScan request choice → FreshId w.jobs choice := by
      rintro request choice rfl
      rcases hservice request choice rfl with rfl | ⟨index, rfl⟩
      · exact hfresh
      · exact hfresh
    exact ⟨hhonest, h.keyed.jobsNext, h.page.change (h.page.jobsNext h.honest.sound hnew) h.keyed
      (h.honest.page.jobsNext h.honest.sound service) h.honest.orderly hstarts hchange⟩

theorem labelledWorld_initial (tables : ScanTables) :
    LabelledWorld userSid ⟨.initial, .initial tables⟩ := by
  refine ⟨honestWorld_initial tables, keyed_initial tables, ?_⟩
  exact labelledPage_idle ScanPage.orderly_initial rfl fun hshown =>
    absurd hshown (by decide : "NO RESULT" ≠ "CLEAN")

end clean

/-- **A scan that is shown to be clean was clean.** After any steps in which each scan gets a new
id, when the page shows `CLEAN` for what it names, a job of the user is completed that has this
label, or whose only file has this path; it has gone over all of its targets, and each was clean or
could not be read. -/
theorem clean_shown (texts : PageTexts) (user : ClientContext) (ioText : IoError → String)
    (tables : ScanTables) (actions : List ScanPageAction) (w : ScanPageWorld)
    (hrun : run (pageStep texts user ioText) ⟨.initial, .initial tables⟩ actions = some w)
    (hfresh : StepsMeet FreshIds (pageStep texts user ioText) ⟨.initial, .initial tables⟩ actions)
    (hshown : w.page.verdictText = "CLEAN") : CleanJob user.sid w.page.targetPath w.jobs := by
  have hworld : LabelledWorld user.sid w :=
    run_invariant_of_meets (I := LabelledWorld user.sid)
      (fun _ _ _ h hnew hstep => h.pageStep hnew hstep) (labelledWorld_initial tables) hfresh hrun
  exact hworld.page.clean hshown

/-- The scan of a directory whose only file cannot be read. -/
def unreadablePageScan : List ScanPageAction :=
  directoryScan ++ (List.replicate 9 (.service (.work 0 unreadableChoice)) ++ [.serve 0, .resume 0])

/-- Its only id is the first one. -/
theorem freshIds_unreadablePageScan :
    StepsMeet FreshIds (pageStep plainTexts ⟨"S-1", false⟩ fun _ => "")
      ⟨.initial, .initial emptyTables⟩ unreadablePageScan := by
  refine ⟨trivial, fun w hw => ⟨?_, fun _ _ => StepsMeet.of_forall fun action haction s => ?_⟩⟩
  · obtain rfl := Option.some.inj hw
    exact fun shared hshared => absurd hshared List.not_mem_nil
  · change action ∈ ScanPageAction.resume 0 ::
      (List.replicate 9 (.service (.work 0 unreadableChoice)) ++ [.serve 0, .resume 0]) at haction
    simp only [List.mem_cons, List.mem_append, List.mem_replicate, List.not_mem_nil,
      or_false] at haction
    rcases haction with rfl | ⟨-, rfl⟩ | rfl | rfl <;> trivial

/-- `clean_shown` for that scan. -/
theorem clean_shown_unreadable : ∃ w,
    run (pageStep plainTexts ⟨"S-1", false⟩ fun _ => "") ⟨.initial, .initial emptyTables⟩
      unreadablePageScan = some w ∧ CleanJob "S-1" "C:\\files" w.jobs :=
  ⟨_, rfl, clean_shown plainTexts ⟨"S-1", false⟩ (fun _ => "") emptyTables unreadablePageScan _ rfl
    freshIds_unreadablePageScan rfl⟩

end OpenGuard.App
