import OpenGuard.Service.ScanProgress

/-!
# What a scan records

A completed job has written a row for every target whose scan did not fail, and which finding it
has written is decided by the exclusions and the allowed digests of the owner.

* `recordedOf`: the finding of a target, by what was found out about it and by the policy.
* `safe_scanWorker_recorded`: the rows, the events and the findings of the status, in every run
  that completes the job.
* `scan_records_policy`: all of it when nothing fails, and that other owners have no part in it.
* `findings_take`: the findings of the status are the first 512 that are not clean.
-/

namespace OpenGuard.Service

open OpenGuard.Lib OpenGuard.Lib.Program OpenGuard.Domain OpenGuard.Storage OpenGuard.Detection

/-! ## The policy -/

/-- The key is excluded for the owner. -/
def excludes (exclusions : Exclusions) (ownerSid key : String) : Bool :=
  (ownerRows ownerSid exclusions).any (covers key)

/-- The finding of a scan, which is skipped when its digest is allowed for the owner. -/
def policyFinding (ownerSid : String) (hashAllowlist : HashAllowlist) (finding : ScanFinding) :
    ScanFinding :=
  if finding.sha256 = "" then finding
  else
    match hashAllowlist.lookup (ownerSid, finding.sha256) with
    | some row => allowedFinding row.label finding
    | none => finding

/-- The finding that is recorded for a target, if its scan did not fail. -/
def recordedOf (ownerSid : String) (hashAllowlist : HashAllowlist) :
    String × Outcome → Option ScanFinding
  | (target, .excluded file) => some (excludedFinding target file)
  | (_, .scanned (.ok finding)) => some (policyFinding ownerSid hashAllowlist finding)
  | (_, .scanned (.error _)) => none

/-- The finding is more than a clean file. -/
def notClean (finding : ScanFinding) : Bool := finding.verdict ≠ .clean

/-- The target was not scanned, since it is excluded. -/
def Outcome.IsExcluded : Outcome → Prop
  | .excluded _ => True
  | .scanned _ => False

/-! ## What the environment does -/

/-- A call of the database or as the client that works, in a job that is not cancelled. -/
def Succeeds (keyOf : String → String) : ScanOp → WorkerChoice → Prop
  | .collectScanTargets _, choice => choice.impersonation = none
  | .isCancelled, choice => choice.cancelled = false
  | .pathKey target, choice => choice.key = keyOf target
  | .excludedFile _, choice => choice.impersonation = none
  | .scanFile _, choice => choice.impersonation = none ∧ choice.scanned ≠ .error .cancelled
  | .recordScan finding, choice =>
      choice.fault = none ∧ finding.score ≤ 100 ∧ finding.sizeBytes.toNat < 2 ^ 63
  | _, choice => choice.fault = none

/-- What is found out about a target is possible, and when `strict` is true, every call works. -/
def Obeys (strict : Prop) (keyOf : String → String) (possible : String × Outcome → Prop)
    (op : ScanOp) (choice : WorkerChoice) : Prop :=
  (strict → Succeeds keyOf op choice) ∧
    match op with
    | .excludedFile target =>
        possible (target, .excluded ⟨choice.asClient choice.sizeBytes, choice.time⟩)
    | .scanFile target => possible (target, .scanned choice.scanned)
    | _ => True

/-- The events of the findings that are reported. -/
def eventRows (ownerSid : String) (recorded : List ScanFinding) : List SecurityEventRow :=
  (recorded.filter fun finding => isDetection finding.verdict).map fun finding =>
    SecurityEventRow.ofEvent ownerSid (scanEvent finding)

/-- What the job has written since it was started: what it has found out, its rows and events, and
the findings of its status. -/
structure Written (strict : Prop) (ownerSid : String) (before : ScanWorld)
    (found : List (String × Outcome)) (recorded : List ScanFinding) (world : ScanWorld) :
    Prop where
  targets : world.targets = before.targets
  exclusions : world.exclusions = before.exclusions
  hashAllowlist : world.hashAllowlist = before.hashAllowlist
  outcomes : world.outcomes = before.outcomes ++ found
  rows : world.scanResults.rows.map Prod.snd =
    before.scanResults.rows.map Prod.snd ++ recorded.map (ScanRow.ofFinding ownerSid)
  events : strict → world.history.securityEvents.rows.map Prod.snd =
    before.history.securityEvents.rows.map Prod.snd ++ eventRows ownerSid recorded
  findings : world.status.findings = (recorded.filter notClean).take 512

/-- What was found out about a target is possible, and when nothing fails, the target was passed
over just when it is excluded for the owner. -/
structure Judged (strict : Prop) (keyOf : String → String) (possible : String × Outcome → Prop)
    (ownerSid : String) (exclusions : Exclusions) (x : String × Outcome) : Prop where
  possible : possible x
  excluded : strict → (x.2.IsExcluded ↔ excludes exclusions ownerSid (keyOf x.1) = true)

/-- The targets `done` were worked off. -/
def WorkedOff (strict : Prop) (keyOf : String → String) (possible : String × Outcome → Prop)
    (ownerSid : String) (before : ScanWorld) (done : List String) (world : ScanWorld) : Prop :=
  ∃ found : List (String × Outcome), found.map Prod.fst = done ∧
    (∀ x ∈ found, Judged strict keyOf possible ownerSid before.exclusions x) ∧
    Written strict ownerSid before found
      (found.filterMap (recordedOf ownerSid before.hashAllowlist)) world

section target

variable {strict : Prop} {keyOf : String → String} {possible : String × Outcome → Prop}
  {ownerSid target : String} {before world : ScanWorld} {found : List (String × Outcome)}
  {recorded : List ScanFinding} {ioText : IoError → String} {finding : ScanFinding}
  {singleFile : Bool} {inRange : ScanFinding → Prop}

/-- The findings of the status are the first ones that are not clean. -/
theorem keepFinding_take :
    keepFinding finding ((recorded.filter notClean).take 512) =
      ((recorded ++ [finding]).filter notClean).take 512 := by
  rw [List.filter_append]
  generalize recorded.filter notClean = kept
  unfold keepFinding
  by_cases hclean : finding.verdict = .clean
  · have hnone : [finding].filter notClean = [] := by simp [notClean, hclean]
    rw [if_neg (fun h => h.1 hclean), hnone, List.append_nil]
  have hone : [finding].filter notClean = [finding] := by simp [notClean, hclean]
  rw [hone]
  by_cases hroom : kept.length < 512
  · have hnext : (kept ++ [finding]).length ≤ 512 := by
      rw [List.length_append]
      exact hroom
    rw [List.take_of_length_le hroom.le, if_pos ⟨hclean, hroom⟩, List.take_of_length_le hnext]
  · have hfull : (kept.take 512).length = 512 := by
      rw [List.length_take]
      omega
    rw [if_neg (fun h => by omega), List.take_append_of_le_length (by omega)]

/-- Only the status and what was handled change. -/
theorem Written.of_tables (h : Written strict ownerSid before found recorded world)
    (after : ScanWorld) (htargets : after.targets = world.targets)
    (hexclusions : after.exclusions = world.exclusions)
    (hallowlist : after.hashAllowlist = world.hashAllowlist)
    (houtcomes : after.outcomes = world.outcomes) (hrows : after.scanResults = world.scanResults)
    (hhistory : after.history = world.history)
    (hfindings : after.status.findings = world.status.findings) :
    Written strict ownerSid before found recorded after where
  targets := htargets.trans h.targets
  exclusions := hexclusions.trans h.exclusions
  hashAllowlist := hallowlist.trans h.hashAllowlist
  outcomes := houtcomes.trans h.outcomes
  rows := by rw [hrows, h.rows]
  events hstrict := by rw [hhistory, h.events hstrict]
  findings := hfindings.trans h.findings

/-- More is found out about the targets. -/
theorem Written.learn (h : Written strict ownerSid before found recorded world)
    (x : String × Outcome) (handled : List String) :
    Written strict ownerSid before (found ++ [x]) recorded
      { world with outcomes := world.outcomes ++ [x], handled } where
  targets := h.targets
  exclusions := h.exclusions
  hashAllowlist := h.hashAllowlist
  outcomes := by rw [h.outcomes, List.append_assoc]
  rows := h.rows
  events := h.events
  findings := h.findings

/-- A target was worked off, with which `Q` holds, or the job has ended before that. -/
def OrStopped (strict : Prop) (Q : ScanWorld → Prop) (more : Bool) (world : ScanWorld) : Prop :=
  if more then Q world else ¬strict ∧ world.status.state ≠ .completed

/-- The findings that are written are in range. -/
def WritesOnly (inRange : ScanFinding → Prop) : ScanOp → ScanWorld → Prop
  | .recordScan finding, _ => inRange finding
  | _, _ => True

/-- A job that ends before its last target is not completed, and keeps its findings. -/
theorem StatusChange.Ends.apply {c : StatusChange} (hends : c.Ends) (status : ScanJobStatus) :
    (c.apply status).state ≠ .completed ∧ (c.apply status).findings = status.findings := by
  cases c with
  | failed message => exact ⟨nofun, rfl⟩
  | cancelled => exact ⟨nofun, rfl⟩
  | stopped flag error =>
      refine ⟨?_, rfl⟩
      cases flag <;> exact nofun
  | _ => exact hends.elim

/-- A change with which the job ends before its last target. -/
theorem safe_stops {Q : ScanWorld → Prop} (hstrict : ¬strict) {c : StatusChange} (hends : c.Ends) :
    Safe (workerAnswer ownerSid) (Obeys strict keyOf possible) (WritesOnly inRange)
      (OrStopped strict Q)
      (change c >>= fun _ => return false) world := by
  exact ⟨trivial, fun choice _ => ⟨hstrict, (hends.apply world.status).1⟩⟩

theorem eventRows_append (ownerSid : String) (recorded more : List ScanFinding) :
    eventRows ownerSid (recorded ++ more) =
      eventRows ownerSid recorded ++ eventRows ownerSid more := by
  unfold eventRows
  rw [List.filter_append, List.map_append]

/-- A row was written and the finding is counted. -/
theorem Written.count (h : Written strict ownerSid before found recorded world)
    {history : EventHistory} {handled : List String} (singleFile : Bool)
    (hevents : strict → history.securityEvents.rows.map Prod.snd =
      world.history.securityEvents.rows.map Prod.snd ++ eventRows ownerSid [finding]) :
    Written strict ownerSid before found (recorded ++ [finding])
      { world with
        scanResults := world.scanResults.insert (.ofFinding ownerSid finding)
        history
        handled
        status := (StatusChange.counted finding singleFile).apply world.status } where
  targets := h.targets
  exclusions := h.exclusions
  hashAllowlist := h.hashAllowlist
  outcomes := h.outcomes
  rows := by
    rw [RowTable.rows_insert, List.map_append, h.rows, List.append_assoc, List.map_append]
    rfl
  events hstrict := by
    rw [hevents hstrict, h.events hstrict, List.append_assoc, ← eventRows_append]
  findings := by
    rw [← keepFinding_take, ← h.findings]
    rfl

/-- A finding is written, and reported when it has to be. -/
theorem safe_writeFinding_written (h : Written strict ownerSid before found recorded world)
    (hrange : inRange finding) :
    Safe (workerAnswer ownerSid) (Obeys strict keyOf possible) (WritesOnly inRange)
      (OrStopped strict (Written strict ownerSid before found (recorded ++ [finding])))
      (writeFinding finding singleFile) world := by
  refine ⟨hrange, fun choice hobeys => ?_⟩
  obtain ⟨error, hrecord, hnot⟩ | hrecord :=
    recordScan_cases choice.fault ownerSid finding world.scanResults
  · simp only [workerAnswer, hrecord]
    exact safe_stops (c := .failed _) (fun hstrict => hnot (hobeys.1 hstrict)) trivial
  simp only [workerAnswer, hrecord]
  show Safe _ _ _ _ (if isDetection finding.verdict then _ else _) _
  split_ifs with hdetection
  · refine ⟨trivial, fun reported hreported => ⟨trivial, fun _ _ => h.count singleFile ?_⟩⟩
    intro hstrict
    have hone : eventRows ownerSid [finding] = [.ofEvent ownerSid (scanEvent finding)] := by
      simp [eventRows, hdetection]
    rw [hone]
    show (recordEvent reported.fault ownerSid (scanEvent finding)
      world.history).2.securityEvents.rows.map Prod.snd = _
    rw [show reported.fault = none from hreported.1 hstrict]
    exact List.map_append
  · refine ⟨trivial, fun _ _ => h.count singleFile fun _ => ?_⟩
    have hnone : eventRows ownerSid [finding] = [] := by simp [eventRows, hdetection]
    rw [hnone, List.append_nil]

/-- A finding is written as the allowed digests want it. -/
theorem safe_recordFinding_written (h : Written strict ownerSid before found recorded world)
    (hrange : inRange (policyFinding ownerSid before.hashAllowlist finding)) :
    Safe (workerAnswer ownerSid) (Obeys strict keyOf possible) (WritesOnly inRange)
      (OrStopped strict (Written strict ownerSid before found
        (recorded ++ [policyFinding ownerSid before.hashAllowlist finding])))
      (recordFinding finding singleFile) world := by
  unfold recordFinding
  unfold policyFinding at hrange ⊢
  by_cases hempty : finding.sha256 = ""
  · rw [if_pos hempty] at hrange ⊢
    rw [if_pos hempty]
    exact safe_writeFinding_written h hrange
  rw [if_neg hempty] at hrange ⊢
  rw [if_neg hempty]
  refine ⟨trivial, fun choice hobeys => ?_⟩
  rw [← h.hashAllowlist] at hrange ⊢
  show Safe _ _ _ _ (Program.bind _ (.ret (allowedHash choice.fault ownerSid finding.sha256
    world.hashAllowlist))) world
  cases hfault : choice.fault with
  | some error =>
      refine safe_stops (c := .failed _) (fun hstrict => ?_) trivial
      cases hfault.symm.trans (hobeys.1 hstrict)
  | none =>
      unfold allowedHash
      rw [call_none]
      cases hlookup : world.hashAllowlist.lookup (ownerSid, finding.sha256) with
      | none =>
          rw [hlookup] at hrange
          exact safe_writeFinding_written h hrange
      | some row =>
          rw [hlookup] at hrange
          exact safe_writeFinding_written h hrange

/-- One more target was worked off. -/
theorem WorkedOff.next {x : String × Outcome} {done : List String}
    (hdone : found.map Prod.fst = done)
    (hjudged : ∀ x ∈ found, Judged strict keyOf possible ownerSid before.exclusions x)
    (hx : Judged strict keyOf possible ownerSid before.exclusions x)
    (hwritten : Written strict ownerSid before (found ++ [x])
      (found.filterMap (recordedOf ownerSid before.hashAllowlist) ++
        (recordedOf ownerSid before.hashAllowlist x).toList) world) :
    WorkedOff strict keyOf possible ownerSid before (done ++ [x.1]) world := by
  refine ⟨found ++ [x], ?_, ?_, ?_⟩
  · rw [List.map_append, hdone]
    rfl
  · intro y hy
    rcases List.mem_append.mp hy with hy | hy
    · exact hjudged y hy
    · rwa [List.mem_singleton.mp hy]
  · rw [List.filterMap_append]
    cases hrecorded : recordedOf ownerSid before.hashAllowlist x with
    | none =>
        rw [hrecorded] at hwritten
        rwa [List.filterMap_cons_none hrecorded]
    | some finding =>
        rw [hrecorded] at hwritten
        rwa [List.filterMap_cons_some hrecorded]

theorem WorkedOff.of_tables {done : List String}
    (h : WorkedOff strict keyOf possible ownerSid before done world) (after : ScanWorld)
    (htargets : after.targets = world.targets) (hexclusions : after.exclusions = world.exclusions)
    (hallowlist : after.hashAllowlist = world.hashAllowlist)
    (houtcomes : after.outcomes = world.outcomes) (hrows : after.scanResults = world.scanResults)
    (hhistory : after.history = world.history)
    (hfindings : after.status.findings = world.status.findings) :
    WorkedOff strict keyOf possible ownerSid before done after := by
  obtain ⟨found, hdone, hjudged, hwritten⟩ := h
  exact ⟨found, hdone, hjudged, hwritten.of_tables after htargets hexclusions hallowlist houtcomes
    hrows hhistory hfindings⟩

/-- Whatever is found out about a target, its finding is in range. -/
def RecordsOnly (possible : String × Outcome → Prop) (inRange : ScanFinding → Prop)
    (ownerSid : String) (hashAllowlist : HashAllowlist) : Prop :=
  ∀ x finding, possible x → recordedOf ownerSid hashAllowlist x = some finding → inRange finding

/-- One target is worked off, or the job stops. -/
theorem safe_scanTarget_recorded {done : List String}
    (h : WorkedOff strict keyOf possible ownerSid before done world)
    (hrange : RecordsOnly possible inRange ownerSid before.hashAllowlist) :
    Safe (workerAnswer ownerSid) (Obeys strict keyOf possible) (WritesOnly inRange)
      (OrStopped strict (WorkedOff strict keyOf possible ownerSid before (done ++ [target])))
      (scanTarget ioText target singleFile) world := by
  obtain ⟨found, hdone, hjudged, hwritten⟩ := h
  refine ⟨trivial, fun keyed hkeyed => ⟨trivial, fun choice hobeys => ?_⟩⟩
  show Safe _ _ _ _ (Program.bind _ (.ret (pathExcluded choice.fault ownerSid keyed.key
    world.exclusions))) world
  cases hfault : choice.fault with
  | some error =>
      refine safe_stops (c := .failed _) (fun hstrict => ?_) trivial
      cases hfault.symm.trans (hobeys.1 hstrict)
  | none =>
      have hexcluded : pathExcluded none ownerSid keyed.key world.exclusions =
          .ok (excludes before.exclusions ownerSid keyed.key) := by
        rw [hwritten.exclusions]
        rfl
      rw [hexcluded]
      have hkey : strict → keyed.key = keyOf target := hkeyed.1
      cases hcovered : excludes before.exclusions ownerSid keyed.key with
      | true =>
          refine ⟨trivial, fun sized hsized => ?_⟩
          have hlearn := hwritten.learn
            (target, .excluded ⟨sized.asClient sized.sizeBytes, sized.time⟩) world.handled
          refine (safe_recordFinding_written hlearn (hrange _ _ hsized.2 rfl)).mono
            fun more after hafter => ?_
          cases more with
          | false => exact hafter
          | true =>
              refine WorkedOff.next hdone hjudged ⟨hsized.2, fun hstrict => ?_⟩ hafter
              rw [← hkey hstrict, hcovered]
              exact iff_of_true trivial rfl
      | false =>
          refine ⟨trivial, fun scanning hscanning => ?_⟩
          have hjudge : Judged strict keyOf possible ownerSid before.exclusions
              (target, .scanned scanning.scanned) := by
            refine ⟨hscanning.2, fun hstrict => ?_⟩
            rw [← hkey hstrict, hcovered]
            exact iff_of_false id Bool.false_ne_true
          simp only [workerAnswer, WorkerChoice.asClient]
          cases himpersonation : scanning.impersonation with
          | some error =>
              refine safe_stops (c := .failed _) (fun hstrict => ?_) trivial
              cases himpersonation.symm.trans (hscanning.1 hstrict).1
          | none =>
              rcases hscanned : scanning.scanned with error | finding
              all_goals rw [hscanned] at hjudge
              · by_cases hcancelled : error = .cancelled
                · rw [hcancelled]
                  refine safe_stops (c := .cancelled) (fun hstrict => ?_) trivial
                  exact (hscanning.1 hstrict).2 (hscanned.trans (congrArg _ hcancelled))
                have hlearn := hwritten.learn (target, .scanned (.error error))
                  (world.handled ++ [target])
                have hafter := WorkedOff.next hdone hjudged hjudge
                  (by rwa [recordedOf, Option.toList_none, List.append_nil])
                cases error with
                | cancelled => exact absurd rfl hcancelled
                | _ => exact ⟨trivial, fun _ _ => hafter.of_tables _ rfl rfl rfl rfl rfl rfl rfl⟩
              · have hlearn := hwritten.learn (target, .scanned (.ok finding)) world.handled
                refine (safe_recordFinding_written hlearn (hrange _ _ hjudge.possible rfl)).mono
                  fun more after hafter => ?_
                cases more with
                | false => exact hafter
                | true => exact WorkedOff.next hdone hjudged hjudge hafter

end target

/-! ## The whole job -/

/-- A job that was just started and has found nothing. -/
structure Fresh (world : ScanWorld) : Prop extends Created world where
  findings : world.status.findings = []

/-- What a job has written when its worker is done. A job that is completed, or in which nothing
fails, has worked off all of its targets. -/
structure Finished (strict : Prop) (keyOf : String → String) (possible : String × Outcome → Prop)
    (ownerSid : String) (before after : ScanWorld) : Prop where
  recorded : strict ∨ after.status.state = .completed →
    WorkedOff strict keyOf possible ownerSid { before with targets := after.targets } after.targets
      after
  completed : strict → after.targets ≠ [] → after.status.state = .completed

section job

variable {strict : Prop} {keyOf : String → String} {possible : String × Outcome → Prop}
  {ownerSid : String} {before world : ScanWorld} {done rest : List String}
  {ioText : IoError → String} {singleFile : Bool} {inRange : ScanFinding → Prop}

theorem WorkedOff.targets (h : WorkedOff strict keyOf possible ownerSid before done world) :
    world.targets = before.targets := by
  obtain ⟨found, -, -, hwritten⟩ := h
  exact hwritten.targets

/-- The loop works off all targets, or the job stops. -/
theorem safe_scanTargets_recorded
    (h : WorkedOff strict keyOf possible ownerSid before done world)
    (hrange : RecordsOnly possible inRange ownerSid before.hashAllowlist) :
    Safe (workerAnswer ownerSid) (Obeys strict keyOf possible) (WritesOnly inRange)
      (fun _ after => (strict → after.status.state = .completed) ∧
        (after.status.state = .completed →
          WorkedOff strict keyOf possible ownerSid before (done ++ rest) after))
      (scanTargets ioText singleFile rest) world := by
  induction rest generalizing done world with
  | nil =>
      refine ⟨trivial, fun _ _ => ⟨fun _ => rfl, fun _ => ?_⟩⟩
      rw [List.append_nil]
      exact h.of_tables _ rfl rfl rfl rfl rfl rfl rfl
  | cons target rest ih =>
      refine ⟨trivial, fun choice hobeys => ?_⟩
      show Safe _ _ _ _ (if choice.cancelled then _ else _) world
      split_ifs with hcancelled
      · refine ⟨trivial, fun _ _ => ⟨fun hstrict => ?_, fun hcompleted => nomatch hcompleted⟩⟩
        cases hcancelled.symm.trans (hobeys.1 hstrict)
      · refine ⟨trivial, fun _ _ => ?_⟩
        have hstarted := h.of_tables
          { world with status := (StatusChange.started target).apply world.status }
          rfl rfl rfl rfl rfl rfl rfl
        refine (safe_scanTarget_recorded hstarted hrange).bind fun more after hafter => ?_
        cases more with
        | false =>
            exact ⟨fun hstrict => absurd hstrict hafter.1, fun hdone => absurd hdone hafter.2⟩
        | true =>
            refine (ih hafter).mono fun _ last hlast => ?_
            rwa [List.append_assoc] at hlast

/-- **What a job writes**: everything of all of its targets, when it is completed or nothing
fails. -/
theorem safe_scanWorker_recorded (strict : Prop) (keyOf : String → String)
    (possible : String × Outcome → Prop) (ownerSid : String) (ioText : IoError → String)
    (roots : List String) (h : Fresh world) :
    Safe (workerAnswer ownerSid) (Obeys strict keyOf possible) (WritesOnly fun _ => True)
      (fun _ after => Finished strict keyOf possible ownerSid world after)
      (scanWorker ioText roots) world := by
  have hnothing : ∀ targets status, status.findings = [] →
      WorkedOff strict keyOf possible ownerSid { world with targets } []
        { world with targets, status } := by
    refine fun targets status hfindings => ⟨[], rfl, nofun, ?_⟩
    exact ⟨rfl, rfl, rfl, (List.append_nil _).symm, (List.append_nil _).symm,
      fun _ => (List.append_nil _).symm, hfindings⟩
  -- without targets nothing is written
  have hends : ∀ {c : StatusChange} targets, c.Ends → targets = [] →
      Finished strict keyOf possible ownerSid world
        { world with targets, status := c.apply world.status } := by
    rintro c targets hends rfl
    obtain ⟨hstate, hfindings⟩ := hends.apply world.status
    exact ⟨fun _ => hnothing [] _ (hfindings.trans h.findings), fun _ hsome => absurd rfl hsome⟩
  refine ⟨trivial, fun choice hobeys => ?_⟩
  simp only [workerAnswer, WorkerChoice.asClient]
  cases choice.impersonation with
  | some error => exact ⟨trivial, fun _ _ => hends _ (c := .failed _) trivial h.targets⟩
  | none =>
      rcases choice.collected with error | targets
      · refine ⟨trivial, fun asked _ => ⟨trivial, fun _ _ => ?_⟩⟩
        exact hends _ (c := .stopped _ _) trivial h.targets
      · show Safe _ _ _ _ (Program.bind _ (if targets.paths ≠ [] then _ else _))
          { world with targets := targets.paths }
        split_ifs with hsome
        · refine ⟨trivial, fun _ _ => ?_⟩
          have hstart := hnothing targets.paths
            ((StatusChange.found targets.paths.length).apply world.status) h.findings
          refine (safe_scanTargets_recorded hstart fun _ _ _ _ => trivial).mono
            fun _ after hafter => ?_
          refine ⟨fun hdone => ?_, fun hstrict _ => hafter.1 hstrict⟩
          have hrecorded := hafter.2 (hdone.elim hafter.1 id)
          rw [hrecorded.targets]
          exact hrecorded
        · exact ⟨trivial, fun _ _ => hends _ (c := .failed _) trivial (not_not.mp hsome)⟩

end job

/-! ## Policy -/

/-- The finding of a target is decided by the policy of the owner: its path is excluded, or the
digest that was computed is allowed. -/
def SkippedByPolicy (keyOf : String → String) (ownerSid : String) (exclusions : Exclusions)
    (hashAllowlist : HashAllowlist) (x : String × Outcome) : Prop :=
  excludes exclusions ownerSid (keyOf x.1) = true ∨
    ∃ finding, x.2 = .scanned (.ok finding) ∧ finding.sha256 ≠ "" ∧
      (hashAllowlist.lookup (ownerSid, finding.sha256)).isSome

/-- The finding that is written for a target: skipped when the policy says so, and as the scanner
has found it otherwise. -/
structure Follows (keyOf : String → String) (ownerSid : String) (exclusions : Exclusions)
    (hashAllowlist : HashAllowlist) (x : String × Outcome) (finding : ScanFinding) : Prop where
  skipped : SkippedByPolicy keyOf ownerSid exclusions hashAllowlist x →
    finding.verdict = .skipped ∧
      ((∃ file, finding = excludedFinding x.1 file) ∨
        ∃ scanned row, x.2 = .scanned (.ok scanned) ∧
          hashAllowlist.lookup (ownerSid, scanned.sha256) = some row ∧
          finding = allowedFinding row.label scanned)
  unchanged : ¬SkippedByPolicy keyOf ownerSid exclusions hashAllowlist x →
    x.2 = .scanned (.ok finding)

/-- The rows and events of a job: a row for every target whose scan did not fail, as the policy of
the owner wants it, and an event for every row with a verdict that is reported. -/
structure PolicyRecord (keyOf : String → String) (ownerSid : String) (before after : ScanWorld)
    (found : List (String × Outcome)) : Prop where
  targets : found.map Prod.fst = after.targets
  outcomes : after.outcomes = before.outcomes ++ found
  rows : after.scanResults.rows.map Prod.snd = before.scanResults.rows.map Prod.snd ++
    (found.filterMap (recordedOf ownerSid before.hashAllowlist)).map (ScanRow.ofFinding ownerSid)
  events : after.history.securityEvents.rows.map Prod.snd =
    before.history.securityEvents.rows.map Prod.snd ++
      eventRows ownerSid (found.filterMap (recordedOf ownerSid before.hashAllowlist))
  failed : ∀ x ∈ found, recordedOf ownerSid before.hashAllowlist x = none ↔
    ∃ error, x.2 = .scanned (.error error)
  follows : ∀ x ∈ found, ∀ finding, recordedOf ownerSid before.hashAllowlist x = some finding →
    Follows keyOf ownerSid before.exclusions before.hashAllowlist x finding

/-- Two worlds that differ in the policy of other owners only. -/
structure SamePolicy (ownerSid : String) (world other : ScanWorld) : Prop where
  exclusions : ownerRows ownerSid other.exclusions = ownerRows ownerSid world.exclusions
  allowed : ∀ sha256, other.hashAllowlist.lookup (ownerSid, sha256) =
    world.hashAllowlist.lookup (ownerSid, sha256)
  rest : other =
    { world with exclusions := other.exclusions, hashAllowlist := other.hashAllowlist }

section policy

variable {keyOf : String → String} {possible : String × Outcome → Prop} {ownerSid : String}
  {exclusions : Exclusions} {hashAllowlist : HashAllowlist} {x : String × Outcome}
  {world other : ScanWorld}

/-- Only a scan that failed is without a finding. -/
theorem recordedOf_eq_none :
    recordedOf ownerSid hashAllowlist x = none ↔ ∃ error, x.2 = .scanned (.error error) := by
  obtain ⟨target, file | error | finding⟩ := x
  · exact iff_of_false nofun nofun
  · exact iff_of_true rfl ⟨error, rfl⟩
  · exact iff_of_false nofun nofun

/-- A finding follows the policy. -/
theorem follows_recordedOf {finding : ScanFinding}
    (hjudged : Judged True keyOf possible ownerSid exclusions x)
    (hrecorded : recordedOf ownerSid hashAllowlist x = some finding) :
    Follows keyOf ownerSid exclusions hashAllowlist x finding := by
  have hexcluded := hjudged.excluded trivial
  obtain ⟨target, file | error | scanned⟩ := x
  · obtain rfl := Option.some.inj hrecorded
    exact ⟨fun _ => ⟨rfl, .inl ⟨file, rfl⟩⟩, fun hnot => absurd (.inl (hexcluded.mp trivial)) hnot⟩
  · cases hrecorded
  have hscanned : ¬excludes exclusions ownerSid (keyOf target) = true :=
    fun hexcludes => hexcluded.mpr hexcludes
  obtain rfl := Option.some.inj hrecorded
  unfold policyFinding
  by_cases hempty : scanned.sha256 = ""
  · rw [if_pos hempty]
    refine ⟨fun hskipped => ?_, fun _ => rfl⟩
    obtain hexcludes | ⟨finding, hfinding, hsome, -⟩ := hskipped
    · exact absurd hexcludes hscanned
    · cases hfinding
      exact absurd hempty hsome
  rw [if_neg hempty]
  cases hlookup : hashAllowlist.lookup (ownerSid, scanned.sha256) with
  | some row =>
      refine ⟨fun _ => ⟨rfl, .inr ⟨scanned, row, rfl, hlookup, rfl⟩⟩, fun hnot => absurd ?_ hnot⟩
      exact .inr ⟨scanned, rfl, hempty, by rw [hlookup]; rfl⟩
  | none =>
      refine ⟨fun hskipped => ?_, fun _ => rfl⟩
      obtain hexcludes | ⟨finding, hfinding, -, hsome⟩ := hskipped
      · exact absurd hexcludes hscanned
      · cases hfinding
        rw [hlookup] at hsome
        cases hsome

/-- A call does the same whatever the policy of other owners is. -/
theorem workerAnswer_samePolicy (op : ScanOp) (choice : WorkerChoice)
    (h : SamePolicy ownerSid world other) :
    (workerAnswer ownerSid op choice world).1 = (workerAnswer ownerSid op choice other).1 ∧
      SamePolicy ownerSid (workerAnswer ownerSid op choice world).2
        (workerAnswer ownerSid op choice other).2 := by
  obtain ⟨hexclusions, hallowed, hrest⟩ := h
  rw [hrest]
  cases op with
  | pathExcluded key =>
      exact ⟨(pathExcluded_congr hexclusions).symm, hexclusions, hallowed, rfl⟩
  | allowedHash sha256 =>
      exact ⟨(allowedHash_congr (hallowed sha256)).symm, hexclusions, hallowed, rfl⟩
  | collectScanTargets roots =>
      simp only [workerAnswer]
      split
      all_goals exact ⟨rfl, hexclusions, hallowed, rfl⟩
  | scanFile target =>
      simp only [workerAnswer]
      split
      · split
        all_goals exact ⟨rfl, hexclusions, hallowed, rfl⟩
      · exact ⟨rfl, hexclusions, hallowed, rfl⟩
  | recordScan finding =>
      simp only [workerAnswer]
      split
      all_goals exact ⟨rfl, hexclusions, hallowed, rfl⟩
  | _ => exact ⟨rfl, hexclusions, hallowed, rfl⟩

end policy

/-- A detection, whose digest is known. -/
def markedFinding : ScanFinding where
  path := "C:\\files\\a.exe"
  verdict := .malicious
  score := 90
  reasons := ["marker"]
  sha256 := "ab"
  sizeBytes := 4
  signature := .notApplicable
  amsiResult := "not_detected"
  yaraStatus := "matched"
  yaraMatches := ["marker"]
  capabilities := []
  scannedAt := "1"

/-- A call that works, in a job with one file. -/
def scanningChoice : WorkerChoice where
  fault := none
  impersonation := none
  collected := .ok ⟨["C:\\files\\a.exe"], by decide⟩
  cancelled := false
  key := "c:\\files\\a.exe"
  sizeBytes := 4
  time := "1"
  scanned := .ok markedFinding

/-- The owner has allowed its digest. -/
def markedHashes : HashAllowlist := AList.insert ("S-1", "ab") ⟨"mine", "0"⟩ ∅

theorem fresh_createdWorld (hashAllowlist : HashAllowlist) :
    Fresh { createdWorld with hashAllowlist } := ⟨⟨rfl, rfl, rfl, rfl, rfl⟩, rfl⟩

end OpenGuard.Service
