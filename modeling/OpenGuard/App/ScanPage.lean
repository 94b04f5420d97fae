import OpenGuard.Service.ScanLabels

/-!
# The scan page

The page starts one scan at a time, asks for its status until it has ended, and shows what was
found. The user may cancel the scan, or quarantine the file that it was about. Requests are on their
way while the user clicks and the service works, and each may fail, before or after the service has
done it.

* `ScanPage`: the page, with the methods that have come to an `await`.
* `pageStep`: the page, its requests and the jobs of the service as one machine, for any
  interleaving.
* `pageStep_cases`: what a step can do.
-/

namespace OpenGuard.App

open OpenGuard.Lib OpenGuard.Domain OpenGuard.Service OpenGuard.Storage

/-! ## The page -/

/-- How a request fails: with one of the exceptions that the page catches, or with another. -/
structure RequestFailure where
  message : String
  caught : Bool

/-- A method that has come to an `await`: for which request, and the answer once there is one.
Source: `ScannerViewModel.cs`, `RunScanAsync`, `QuarantineLatestAsync` and `CancelScanAsync` -/
inductive PageTask where
  | starting (request : StartRequest) (answer : Option (Except RequestFailure String))
  | polling (scanId : String) (answer : Option (Except RequestFailure ScanJobStatus))
  | pausing
  | isolating (finding : ScanFinding) (answer : Option (Except RequestFailure String))
  | cancelling (scanId : String) (answer : Option (Except RequestFailure Unit))

/-- What a task is part of: the start of a scan, the loop of a scan whose job has been started, or
the execution of the command of a button. -/
inductive TaskKind where
  | start
  | loop
  | isolation
  | cancellation
  deriving DecidableEq

def PageTask.kind : PageTask → TaskKind
  | starting _ _ => .start
  | polling _ _ => .loop
  | pausing => .loop
  | isolating _ _ => .isolation
  | cancelling _ _ => .cancellation

/-- How the page writes numbers, sizes and the names of files. -/
structure PageTexts where
  count : ℕ → String
  bytes : UInt64 → String
  fileName : String → String

/-- The page. A button is enabled when its command could be executed the last time that the button
was told to look.
Source: `ScannerViewModel.cs`, `ScannerViewModel`, and `ScannerPage.xaml` -/
structure ScanPage where
  isScanning : Bool
  activeScanId : Option String
  latestFinding : Option ScanFinding
  cancelEnabled : Bool
  quarantineEnabled : Bool
  statusHeadline : String
  statusDetail : String
  verdictText : String
  scoreText : String
  targetPath : String
  hashText : String
  engineText : String
  evidence : List String
  tasks : List PageTask

/-- `ToUpperInvariant` of an ASCII text -/
def toUpperInvariant (s : String) : String := String.ofList (s.toList.map Char.toUpper)

/-- The text of a verdict.
Source: `ScannerViewModel.cs`, `ApplyFinding` -/
def verdictLabel (verdict : ScanVerdict) : String :=
  toUpperInvariant (replaceChar verdict.display '_' ' ')

namespace ScanPage

/-- Source: `ScannerViewModel.cs`, `ScannerViewModel` -/
def initial : ScanPage where
  isScanning := false
  activeScanId := none
  latestFinding := none
  cancelEnabled := false
  quarantineEnabled := false
  statusHeadline := "Ready for a local scan"
  statusDetail :=
    "Choose a file. OpenGuard analyzes it locally and returns the evidence behind its verdict."
  verdictText := "NO RESULT"
  scoreText := "Risk score —"
  targetPath := "No file selected"
  hashText := "SHA-256 will appear after a completed scan"
  engineText := "YARA-X ready · Windows AMSI ready"
  evidence := ["No configured local detection signal has been evaluated yet."]
  tasks := []

/-- Source: `ScannerViewModel.cs`, `CanCancelScan` -/
def canCancelScan (page : ScanPage) : Bool := page.isScanning && page.activeScanId.isSome

/-- The verdicts of files that can be quarantined.
Source: `ScannerViewModel.cs`, `CanQuarantine` -/
def isThreat (finding : ScanFinding) : Bool :=
  finding.verdict = .suspicious || finding.verdict = .malicious

/-- Source: `ScannerViewModel.cs`, `CanQuarantine` -/
def canQuarantine (page : ScanPage) : Bool := !page.isScanning && page.latestFinding.any isThreat

/-- The number of tasks of a kind. -/
def running (kind : TaskKind) (page : ScanPage) : ℕ := page.tasks.countP fun task => task.kind = kind

/-- The cancel button looks whether its command can be executed: not twice at a time.
Source: `ScannerViewModel.cs`, `CancelScanCommand` -/
def notifyCancel (page : ScanPage) : ScanPage :=
  { page with cancelEnabled := page.canCancelScan && page.running .cancellation == 0 }

/-- The quarantine button looks whether its command can be executed.
Source: `ScannerViewModel.cs`, `QuarantineLatestCommand` -/
def notifyQuarantine (page : ScanPage) : ScanPage :=
  { page with quarantineEnabled := page.canQuarantine && page.running .isolation == 0 }

/-- The page is opened, with new buttons.
Source: `MainPage.xaml.cs`, `OnSelectionChanged`, and `ScannerPage.xaml` -/
def opened (page : ScanPage) : ScanPage := page.notifyCancel.notifyQuarantine

/-- The setter of `IsScanning`.
Source: `ScannerViewModel.cs`, `OnIsScanningChanged` -/
def setIsScanning (value : Bool) (page : ScanPage) : ScanPage :=
  if page.isScanning = value then page
  else notifyQuarantine (notifyCancel { page with isScanning := value })

/-- A task is put in the place of another one. -/
def setTask (index : ℕ) (task : PageTask) (page : ScanPage) : ScanPage :=
  { page with tasks := page.tasks.set index task }

/-- A task is over. -/
def dropTask (index : ℕ) (page : ScanPage) : ScanPage :=
  { page with tasks := page.tasks.eraseIdx index }

/-- A scan begins, unless there is one.
Source: `ScannerViewModel.cs`, `RunScanAsync` -/
def runScan (targetLabel : String) (request : StartRequest) (page : ScanPage) : ScanPage :=
  if page.isScanning then page
  else
    let page := notifyQuarantine { page.setIsScanning true with latestFinding := none }
    { page with
      targetPath := targetLabel
      verdictText := "SCANNING"
      scoreText := "Risk score —"
      hashText := "Calculating SHA-256…"
      engineText := "Native scanner is analyzing this file"
      evidence := ["Hashing and content inspection are in progress."]
      statusHeadline := "Scan in progress"
      statusDetail := "The UI remains responsive while the native service does the work."
      tasks := page.tasks ++ [.starting request none] }

/-- The end of a scan, however it ends.
Source: `ScannerViewModel.cs`, `RunScanAsync` -/
def endScan (index : ℕ) (page : ScanPage) : ScanPage :=
  (setIsScanning false { page with activeScanId := none }).dropTask index

/-- A request of a scan has failed.
Source: `ScannerViewModel.cs`, `RunScanAsync` -/
def failScan (failure : RequestFailure) (page : ScanPage) : ScanPage :=
  if failure.caught then
    { page with
      verdictText := "SCAN ERROR"
      statusHeadline := "The scan could not finish"
      statusDetail := failure.message
      hashText := "No completed digest"
      evidence := [failure.message] }
  else page

/-- Source: `ScannerViewModel.cs`, `ApplyFinding` -/
def applyFinding (texts : PageTexts) (finding : ScanFinding) (page : ScanPage) : ScanPage :=
  { notifyQuarantine { page with latestFinding := some finding } with
    verdictText := verdictLabel finding.verdict
    scoreText := "Risk score " ++ toString finding.score.toNat ++ "/100"
    targetPath := finding.path
    hashText := finding.sha256
    engineText := "YARA-X " ++ replaceChar finding.yaraStatus '_' ' ' ++ " · AMSI " ++
      replaceChar finding.amsiResult '_' ' '
    evidence :=
      if finding.reasons = [] then ["No configured local detection signal matched."]
      else finding.reasons
    statusHeadline :=
      match finding.verdict with
      | .malicious => "Malicious content detected"
      | .suspicious => "Suspicious content needs review"
      | .lowRisk => "Low-risk signals found"
      | _ => "Scan complete"
    statusDetail := "Scanned " ++ texts.bytes finding.sizeBytes ++
      " locally. Nothing was uploaded or removed." }

/-- Source: `ScannerViewModel.cs`, `ApplyFolderResult` -/
def applyFolderResult (texts : PageTexts) (status : ScanJobStatus) (page : ScanPage) : ScanPage :=
  { notifyQuarantine { page with latestFinding := none } with
    verdictText := if status.findings = [] then "CLEAN" else "REVIEW"
    scoreText := texts.count status.findings.length ++ " retained finding" ++
      (if status.findings.length = 1 then "" else "s")
    hashText := "Per-file hashes are stored in the local scan history"
    engineText := "YARA-X active · AMSI active when an installed provider responds"
    evidence :=
      if status.findings = [] then ["No configured detection signal matched the scanned files."]
      else (status.findings.flatMap fun finding =>
        finding.reasons.map fun reason => texts.fileName finding.path ++ " · " ++ reason).take 200
    statusHeadline :=
      if status.findings = [] then "Folder scan complete" else "Folder scan needs review"
    statusDetail := "Scanned " ++ texts.count status.filesScanned.toNat ++ " of " ++
      texts.count status.totalFiles.toNat ++ " files locally. Clean results remain in history." }

/-- The answer to a question for the status: the loop pauses, or the scan ends.
Source: `ScannerViewModel.cs`, `RunScanAsync` -/
def applyStatus (texts : PageTexts) (index : ℕ) (status : ScanJobStatus) (page : ScanPage) :
    ScanPage :=
  match status.state with
  | .queued | .running =>
      { page.setTask index .pausing with
        statusDetail :=
          if status.totalFiles = 0 then "Discovering files without following symbolic links…"
          else texts.count status.filesScanned.toNat ++ " of " ++
            texts.count status.totalFiles.toNat ++ " · " ++ status.currentPath }
  | .completed =>
      match status.finding with
      | some finding => (page.applyFinding texts finding).endScan index
      | none => (page.applyFolderResult texts status).endScan index
  | .cancelled =>
      { page with
        verdictText := "CANCELLED"
        statusHeadline := "Scan cancelled"
        statusDetail := "No action was taken on the selected file."
        evidence := ["The native scanner received a cancellation request."] }.endScan index
  | .failed =>
      (page.failScan ⟨status.error.getD "Native scan failed.", true⟩).endScan index

/-- A click on the cancel button.
Source: `ScannerViewModel.cs`, `CancelScanAsync` -/
def clickCancel (page : ScanPage) : ScanPage :=
  if page.cancelEnabled then
    match page.activeScanId with
    | none => page.notifyCancel
    | some scanId => notifyCancel { page with tasks := page.tasks ++ [.cancelling scanId none] }
  else page

/-- The answer to a request to cancel.
Source: `ScannerViewModel.cs`, `CancelScanAsync` -/
def finishCancel (index : ℕ) (answer : Except RequestFailure Unit) (page : ScanPage) : ScanPage :=
  match answer with
  | .ok () =>
      { page with
        statusDetail :=
          "Cancellation requested; waiting for the current read block to finish." }.dropTask index
        |>.notifyCancel
  | .error _ => (page.dropTask index).notifyCancel

/-- A click on the quarantine button.
Source: `ScannerViewModel.cs`, `QuarantineLatestAsync` -/
def clickQuarantine (page : ScanPage) : ScanPage :=
  if page.quarantineEnabled then
    match page.latestFinding with
    | none => page.notifyQuarantine
    | some finding =>
        let page := page.setIsScanning true
        notifyQuarantine
          { page with
            statusHeadline := "Moving file into quarantine"
            statusDetail := "OpenGuard is re-scanning, defanging, and verifying the file " ++
              "before removing the original."
            tasks := page.tasks ++ [.isolating finding none] }
  else page

/-- The answer to a request for a quarantine.
Source: `ScannerViewModel.cs`, `QuarantineLatestAsync` -/
def finishQuarantine (texts : PageTexts) (index : ℕ) (answer : Except RequestFailure String)
    (page : ScanPage) : ScanPage :=
  let page :=
    match answer with
    | .ok originalPath =>
        { page with
          latestFinding := none
          verdictText := "ISOLATED"
          statusHeadline := "Threat moved to quarantine"
          statusDetail := texts.fileName originalPath ++
            " is recoverable from the Quarantine page."
          evidence := page.evidence ++
            ["The quarantine payload passed its SHA-256 integrity check."] }
    | .error failure =>
        if failure.caught then
          { page with
            statusHeadline := "Quarantine did not complete"
            statusDetail := failure.message
            evidence := page.evidence ++ ["Quarantine stopped safely: " ++ failure.message] }
        else page
  notifyQuarantine ((notifyQuarantine (page.setIsScanning false)).dropTask index)

end ScanPage

/-! ## The page and the service -/

/-- The page, and the jobs of the service. -/
structure ScanPageWorld where
  page : ScanPage
  jobs : JobsWorld

/-- What happens: the page is opened; the user scans a path or a profile, from this page or another,
cancels the scan, or quarantines the file; the service does what it was asked for; a request fails;
a method goes on after its `await`; or something else happens in the service. -/
inductive ScanPageAction where
  | openPage
  | startPathScan (path : String)
  | startProfileScan (profile : ScanProfile)
  | cancel
  | quarantine
  | serveStart (index : ℕ) (choice : StartChoice)
  | serve (index : ℕ)
  | serveQuarantine (index : ℕ) (answer : Except ApiError String)
  | lose (index : ℕ) (failure : RequestFailure)
  | resume (index : ℕ)
  | service (action : JobsAction)

/-- The answer of the service to the page.
Source: `NativeServiceClient.cs`, `SendAsync` -/
def answerOf {α : Type} (result : Except ApiError α) : Except RequestFailure α :=
  result.mapError fun error => ⟨error.message, true⟩

/-- The request of a task fails, whether the service has done it or not. -/
def PageTask.lost (failure : RequestFailure) : PageTask → Option PageTask
  | starting request _ => some (.starting request (some (.error failure)))
  | polling scanId _ => some (.polling scanId (some (.error failure)))
  | pausing => none
  | isolating finding _ => some (.isolating finding (some (.error failure)))
  | cancelling scanId _ => some (.cancelling scanId (some (.error failure)))

/-- A method goes on after its `await`.
Source: `ScannerViewModel.cs`, `RunScanAsync`, `QuarantineLatestAsync` and `CancelScanAsync` -/
def ScanPage.resume (texts : PageTexts) (index : ℕ) (page : ScanPage) : PageTask → Option ScanPage
  | .starting _ (some (.ok scanId)) =>
      some { page.setTask index (.polling scanId none) with activeScanId := some scanId }
  | .starting _ (some (.error failure)) => some ((page.failScan failure).endScan index)
  | .polling _ (some (.ok status)) => some (page.applyStatus texts index status)
  | .polling _ (some (.error failure)) => some ((page.failScan failure).endScan index)
  | .pausing => page.activeScanId.map fun scanId => page.setTask index (.polling scanId none)
  | .isolating _ (some answer) => some (page.finishQuarantine texts index answer)
  | .cancelling _ (some answer) => some (page.finishCancel index answer)
  | _ => none

/-- The service does what a task has asked for. -/
def serveTask (user : ClientContext) (jobs : JobsWorld) : PageTask → Option (PageTask × JobsWorld)
  | .polling scanId none =>
      some (.polling scanId (some (answerOf (scanStatus scanId user.sid jobs))), jobs)
  | .cancelling scanId none =>
      let (answer, jobs) := cancelScan scanId user.sid jobs
      some (.cancelling scanId (some (answerOf answer)), jobs)
  | _ => none

section step

variable (texts : PageTexts) (user : ClientContext) (ioText : IoError → String)

/-- One step.
Source: `ScannerViewModel.cs`, `ScannerViewModel` -/
def pageStep (w : ScanPageWorld) : ScanPageAction → Option ScanPageWorld
  | .openPage => some { w with page := w.page.opened }
  | .startPathScan path => some { w with page := w.page.runScan path ⟨user, path, none⟩ }
  | .startProfileScan profile =>
      some { w with
        page := w.page.runScan (profileName profile ++ " profile") ⟨user, "", some profile⟩ }
  | .cancel => some { w with page := w.page.clickCancel }
  | .quarantine => some { w with page := w.page.clickQuarantine }
  | .serveStart index choice =>
      match w.page.tasks[index]? with
      | some (.starting request none) =>
          let (answer, jobs) := startScan ioText request choice w.jobs
          some ⟨w.page.setTask index (.starting request (some (answerOf answer))), jobs⟩
      | _ => none
  | .serve index =>
      w.page.tasks[index]?.bind fun task => (serveTask user w.jobs task).map fun (task, jobs) =>
        ⟨w.page.setTask index task, jobs⟩
  | .serveQuarantine index answer =>
      match w.page.tasks[index]? with
      | some (.isolating finding none) =>
          some { w with page := w.page.setTask index (.isolating finding (some (answerOf answer))) }
      | _ => none
  | .lose index failure =>
      w.page.tasks[index]?.bind fun task => (task.lost failure).map fun task =>
        { w with page := w.page.setTask index task }
  | .resume index =>
      w.page.tasks[index]?.bind fun task => (w.page.resume texts index task).map fun page =>
        { w with page }
  | .service action => some { w with jobs := jobsNext ioText w.jobs action }

end step

/-! ## What a step can do -/

section cases

variable {texts : PageTexts} {user : ClientContext} {ioText : IoError → String} {userSid : String}
  {w after : ScanPageWorld} {action : ScanPageAction} {page : ScanPage} {index : ℕ}
  {task other : PageTask} {jobs : JobsWorld} {starts : StartRequest → String → Prop}

/-- An answer, or that there will be none, leaves a task what it is; what a loop is told is what the
service says, and the id of a scan is that of one that it has started. -/
structure Answers (userSid : String) (jobs : JobsWorld) (starts : StartRequest → String → Prop)
    (task other : PageTask) : Prop where
  kind : other.kind = task.kind
  starting : ∀ request answer, other = .starting request answer →
    (∃ before, task = .starting request before) ∧
      ∀ scanId, answer = some (.ok scanId) → starts request scanId
  polling : ∀ scanId answer, other = .polling scanId answer →
    (∃ before, task = .polling scanId before) ∧
      ∀ status, answer = some (.ok status) → scanStatus scanId userSid jobs = .ok status
  isolating : ∀ finding answer, other = .isolating finding answer →
    ∃ before, task = .isolating finding before

theorem answers_starting {request : StartRequest}
    {answer before : Option (Except RequestFailure String)}
    (h : ∀ scanId, answer = some (.ok scanId) → starts request scanId) :
    Answers userSid jobs starts (.starting request before) (.starting request answer) := by
  refine ⟨rfl, fun request asked hsame => ?_, fun scanId asked hsame => ?_,
    fun finding asked hsame => ?_⟩
  · obtain ⟨rfl, rfl⟩ := PageTask.starting.inj hsame
    exact ⟨⟨before, rfl⟩, h⟩
  · exact absurd (congrArg PageTask.kind hsame) nofun
  · exact absurd (congrArg PageTask.kind hsame) nofun

theorem answers_polling {scanId : String}
    {answer before : Option (Except RequestFailure ScanJobStatus)}
    (h : ∀ status, answer = some (.ok status) → scanStatus scanId userSid jobs = .ok status) :
    Answers userSid jobs starts (.polling scanId before) (.polling scanId answer) := by
  refine ⟨rfl, fun request asked hsame => ?_, fun scanId asked hsame => ?_,
    fun finding asked hsame => ?_⟩
  · exact absurd (congrArg PageTask.kind hsame) nofun
  · obtain ⟨rfl, rfl⟩ := PageTask.polling.inj hsame
    exact ⟨⟨before, rfl⟩, h⟩
  · exact absurd (congrArg PageTask.kind hsame) nofun

theorem answers_isolating {finding : ScanFinding}
    {answer before : Option (Except RequestFailure String)} :
    Answers userSid jobs starts (.isolating finding before) (.isolating finding answer) := by
  refine ⟨rfl, fun request asked hsame => ?_, fun scanId asked hsame => ?_,
    fun finding asked hsame => ⟨before, ?_⟩⟩
  · exact absurd (congrArg PageTask.kind hsame) nofun
  · exact absurd (congrArg PageTask.kind hsame) nofun
  · rw [(PageTask.isolating.inj hsame).1]

theorem answers_cancelling {scanId : String} {answer before : Option (Except RequestFailure Unit)} :
    Answers userSid jobs starts (.cancelling scanId before) (.cancelling scanId answer) := by
  refine ⟨rfl, fun request asked hsame => ?_, fun scanId asked hsame => ?_,
    fun finding asked hsame => ?_⟩
  all_goals exact absurd (congrArg PageTask.kind hsame) nofun

/-- A request that fails tells nothing. -/
theorem answers_lost {failure : RequestFailure} (h : task.lost failure = some other) :
    Answers userSid jobs starts task other := by
  cases task with
  | pausing => cases h
  | starting request answer =>
      obtain rfl := Option.some.inj h
      exact answers_starting fun _ hnot => by cases hnot
  | polling scanId answer =>
      obtain rfl := Option.some.inj h
      exact answers_polling fun _ hnot => by cases hnot
  | isolating finding answer =>
      obtain rfl := Option.some.inj h
      exact answers_isolating
  | cancelling scanId answer =>
      obtain rfl := Option.some.inj h
      exact answers_cancelling

/-- An answer with a value is what the service has answered. -/
theorem answerOf_eq_ok {α : Type} {result : Except ApiError α} {value : α}
    (h : some (answerOf result) = some (.ok value)) : result = .ok value := by
  cases result with
  | error error => cases Option.some.inj h
  | ok told => exact congrArg Except.ok (Except.ok.inj (Option.some.inj h))

variable (ioText) in
/-- The service does one thing at a time, and starts nothing. -/
theorem serveTask_cases {jobs' : JobsWorld} (h : serveTask user jobs task = some (other, jobs')) :
    (jobs' = jobs ∨ ∃ scanId, jobs' = jobsNext ioText jobs (.cancelScan scanId user.sid)) ∧
      Answers user.sid jobs starts task other := by
  cases task with
  | polling scanId answer =>
      cases answer with
      | some answer => cases h
      | none =>
          obtain ⟨rfl, rfl⟩ := Prod.mk.inj (Option.some.inj h)
          exact ⟨.inl rfl, answers_polling fun status htold => answerOf_eq_ok htold⟩
  | cancelling scanId answer =>
      cases answer with
      | some answer => cases h
      | none =>
          simp only [serveTask, Option.some.injEq, Prod.mk.injEq] at h
          obtain ⟨rfl, rfl⟩ := h
          exact ⟨.inr ⟨scanId, rfl⟩, answers_cancelling⟩
  | _ => cases h

/-- What a step makes of the page, when the jobs are as they are. The page is opened only when this
may be, and told only of scans that are started. -/
inductive PageChange (texts : PageTexts) (userSid : String) (jobs : JobsWorld) (opens : Prop)
    (starts : StartRequest → String → Prop) (page : ScanPage) : ScanPage → Prop
  | same : PageChange texts userSid jobs opens starts page page
  | opened (h : opens) : PageChange texts userSid jobs opens starts page page.opened
  | runScan (request : StartRequest) :
      PageChange texts userSid jobs opens starts page (page.runScan (requestLabel request) request)
  | clickCancel : PageChange texts userSid jobs opens starts page page.clickCancel
  | clickQuarantine : PageChange texts userSid jobs opens starts page page.clickQuarantine
  | answered {index : ℕ} {task other : PageTask} (htask : page.tasks[index]? = some task)
      (hanswers : Answers userSid jobs starts task other) :
      PageChange texts userSid jobs opens starts page (page.setTask index other)
  | started {index : ℕ} {request : StartRequest} {scanId : String}
      (htask : page.tasks[index]? = some (.starting request (some (.ok scanId)))) :
      PageChange texts userSid jobs opens starts page
        { page.setTask index (.polling scanId none) with activeScanId := some scanId }
  | failed {index : ℕ} {task : PageTask} (htask : page.tasks[index]? = some task)
      (hkind : task.kind = .start ∨ task.kind = .loop) (failure : RequestFailure) :
      PageChange texts userSid jobs opens starts page ((page.failScan failure).endScan index)
  | told {index : ℕ} {scanId : String} {status : ScanJobStatus}
      (htask : page.tasks[index]? = some (.polling scanId (some (.ok status)))) :
      PageChange texts userSid jobs opens starts page (page.applyStatus texts index status)
  | asked {index : ℕ} {scanId : String} (htask : page.tasks[index]? = some .pausing)
      (hactive : page.activeScanId = some scanId) :
      PageChange texts userSid jobs opens starts page (page.setTask index (.polling scanId none))
  | quarantined {index : ℕ} {finding : ScanFinding} {answer : Except RequestFailure String}
      (htask : page.tasks[index]? = some (.isolating finding (some answer))) :
      PageChange texts userSid jobs opens starts page (page.finishQuarantine texts index answer)
  | cancelled {index : ℕ} {scanId : String} {answer : Except RequestFailure Unit}
      (htask : page.tasks[index]? = some (.cancelling scanId (some answer))) :
      PageChange texts userSid jobs opens starts page (page.finishCancel index answer)

/-- A method goes on after its `await`. -/
theorem pageChange_resume {opens : Prop} {changed : ScanPage}
    (htask : page.tasks[index]? = some task)
    (hresume : page.resume texts index task = some changed) :
    PageChange texts userSid jobs opens starts page changed := by
  cases task with
  | starting request answer =>
      rcases answer with _ | failure | scanId
      · cases hresume
      · obtain rfl := Option.some.inj hresume
        exact .failed htask (.inl rfl) failure
      · obtain rfl := Option.some.inj hresume
        exact .started htask
  | polling scanId answer =>
      rcases answer with _ | failure | status
      · cases hresume
      · obtain rfl := Option.some.inj hresume
        exact .failed htask (.inr rfl) failure
      · obtain rfl := Option.some.inj hresume
        exact .told htask
  | pausing =>
      obtain ⟨scanId, hactive, rfl⟩ := Option.map_eq_some_iff.mp hresume
      exact .asked htask hactive
  | isolating finding answer =>
      cases answer with
      | none => cases hresume
      | some answer =>
          obtain rfl := Option.some.inj hresume
          exact .quarantined htask
  | cancelling scanId answer =>
      cases answer with
      | none => cases hresume
      | some answer =>
          obtain rfl := Option.some.inj hresume
          exact .cancelled htask

/-- A step starts a scan for a request of the page, and these are the jobs after it. -/
def Starts (ioText : IoError → String) (w : ScanPageWorld) (action : ScanPageAction)
    (jobs : JobsWorld) (request : StartRequest) (scanId : String) : Prop :=
  ∃ index choice, action = .serveStart index choice ∧
    startScan ioText request choice w.jobs = (.ok scanId, jobs)

/-- What a step does with the jobs. -/
def JobsChange (ioText : IoError → String) (w : ScanPageWorld) (action : ScanPageAction)
    (jobs : JobsWorld) : Prop :=
  jobs = w.jobs ∨ ∃ service, jobs = jobsNext ioText w.jobs service ∧
    ∀ request choice, service = .startScan request choice →
      action = .service service ∨ ∃ index, action = .serveStart index choice

/-- **What a step can do**: to the jobs, at most one thing, and to the page. -/
theorem pageStep_cases (hstep : pageStep texts user ioText w action = some after) :
    JobsChange ioText w action after.jobs ∧
      PageChange texts user.sid w.jobs (action = .openPage) (Starts ioText w action after.jobs)
        w.page after.page := by
  cases action with
  | openPage =>
      obtain rfl := Option.some.inj hstep
      exact ⟨.inl rfl, .opened rfl⟩
  | startPathScan path =>
      obtain rfl := Option.some.inj hstep
      exact ⟨.inl rfl, .runScan ⟨user, path, none⟩⟩
  | startProfileScan profile =>
      obtain rfl := Option.some.inj hstep
      exact ⟨.inl rfl, .runScan ⟨user, "", some profile⟩⟩
  | cancel =>
      obtain rfl := Option.some.inj hstep
      exact ⟨.inl rfl, .clickCancel⟩
  | quarantine =>
      obtain rfl := Option.some.inj hstep
      exact ⟨.inl rfl, .clickQuarantine⟩
  | serveStart index choice =>
      simp only [pageStep] at hstep
      split at hstep
      · rename_i request htask
        obtain rfl := Option.some.inj hstep
        refine ⟨.inr ⟨.startScan request choice, rfl, ?_⟩, .answered htask (answers_starting ?_)⟩
        · rintro _ _ ⟨⟩
          exact .inr ⟨index, rfl⟩
        · intro scanId htold
          exact ⟨index, choice, rfl, Prod.ext (answerOf_eq_ok htold) rfl⟩
      · cases hstep
  | serve index =>
      obtain ⟨task, htask, hserved⟩ := Option.bind_eq_some_iff.mp hstep
      obtain ⟨⟨other, jobs⟩, hother, rfl⟩ := Option.map_eq_some_iff.mp hserved
      obtain ⟨hjobs, hanswers⟩ := serveTask_cases ioText hother
      refine ⟨?_, .answered htask hanswers⟩
      rcases hjobs with rfl | ⟨scanId, rfl⟩
      · exact .inl rfl
      · exact .inr ⟨.cancelScan scanId user.sid, rfl, fun _ _ hnot => by cases hnot⟩
  | serveQuarantine index answer =>
      simp only [pageStep] at hstep
      split at hstep
      · rename_i finding htask
        obtain rfl := Option.some.inj hstep
        exact ⟨.inl rfl, .answered htask answers_isolating⟩
      · cases hstep
  | lose index failure =>
      obtain ⟨task, htask, hlost⟩ := Option.bind_eq_some_iff.mp hstep
      obtain ⟨other, hother, rfl⟩ := Option.map_eq_some_iff.mp hlost
      exact ⟨.inl rfl, .answered htask (answers_lost hother)⟩
  | resume index =>
      obtain ⟨task, htask, hresumed⟩ := Option.bind_eq_some_iff.mp hstep
      obtain ⟨changed, hresume, rfl⟩ := Option.map_eq_some_iff.mp hresumed
      exact ⟨.inl rfl, pageChange_resume htask hresume⟩
  | service service =>
      obtain rfl := Option.some.inj hstep
      exact ⟨.inr ⟨service, rfl, fun _ _ _ => .inl rfl⟩, .same⟩

end cases

end OpenGuard.App
