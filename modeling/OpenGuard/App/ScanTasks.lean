import OpenGuard.Lib.Mailbox
import OpenGuard.App.ScanPage

/-!
# One thing at a time

* `ScanPage.Tidy`: the tasks of the page are what it says it is doing.
* `ScanPage.ButtonsRight`: the buttons of the page are enabled when they should be.
* `page_one_at_a_time`: both hold after any steps.
-/

namespace OpenGuard.App

open OpenGuard.Lib OpenGuard.Domain OpenGuard.Service OpenGuard.Storage

namespace ScanPage

section orderly

variable {page : ScanPage} {index : ℕ} {task other : PageTask} {kind : TaskKind} {value : Bool}
  {after : ScanPage}

@[simp] theorem isScanning_setIsScanning : (page.setIsScanning value).isScanning = value := by
  unfold setIsScanning
  split_ifs with hsame
  · exact hsame
  · rfl

@[simp] theorem tasks_setIsScanning : (page.setIsScanning value).tasks = page.tasks := by
  unfold setIsScanning
  split_ifs <;> rfl

@[simp] theorem activeScanId_setIsScanning :
    (page.setIsScanning value).activeScanId = page.activeScanId := by
  unfold setIsScanning
  split_ifs <;> rfl

@[simp] theorem latestFinding_setIsScanning :
    (page.setIsScanning value).latestFinding = page.latestFinding := by
  unfold setIsScanning
  split_ifs <;> rfl

@[simp] theorem targetPath_setIsScanning :
    (page.setIsScanning value).targetPath = page.targetPath := by
  unfold setIsScanning
  split_ifs <;> rfl

@[simp] theorem verdictText_setIsScanning :
    (page.setIsScanning value).verdictText = page.verdictText := by
  unfold setIsScanning
  split_ifs <;> rfl

theorem running_setTask (h : page.tasks[index]? = some task) :
    (page.setTask index other).running kind + (if task.kind = kind then 1 else 0) =
      page.running kind + if other.kind = kind then 1 else 0 := by
  simpa only [running, setTask, decide_eq_true_eq] using
    countP_set_add (p := fun task => decide (PageTask.kind task = kind)) h

theorem running_dropTask (h : page.tasks[index]? = some task) :
    (page.dropTask index).running kind + (if task.kind = kind then 1 else 0) =
      page.running kind := by
  simpa only [running, dropTask, decide_eq_true_eq] using
    countP_eraseIdx_add (p := fun task => decide (PageTask.kind task = kind)) h

/-- One more task. -/
theorem running_append (h : after.tasks = page.tasks ++ [task]) :
    after.running kind = page.running kind + if task.kind = kind then 1 else 0 := by
  rw [running, h, List.countP_append, List.countP_singleton]
  simp only [decide_eq_true_eq]
  rfl

theorem running_pos (h : page.tasks[index]? = some task) : 0 < page.running task.kind := by
  have hdrop := @running_dropTask page index task task.kind h
  rw [if_pos rfl] at hdrop
  omega

/-- A scan or a quarantine is running just when the page says so, the loop of a scan just when the
page has its id, and it asks for that one; at most one request to cancel is on its way. -/
structure Tidy (page : ScanPage) : Prop where
  work : page.running .start + page.running .loop + page.running .isolation =
    if page.isScanning then 1 else 0
  loop : page.running .loop = if page.activeScanId.isSome then 1 else 0
  cancels : page.running .cancellation ≤ 1
  polls : ∀ scanId answer, .polling scanId answer ∈ page.tasks → page.activeScanId = some scanId

/-- The quarantine button is right, and the cancel button is not enabled wrongly. -/
structure ButtonsRight (page : ScanPage) : Prop where
  quarantine : page.quarantineEnabled = page.canQuarantine
  cancel : page.cancelEnabled → page.canCancelScan ∧ page.running .cancellation = 0

theorem tidy_initial : Tidy initial :=
  ⟨rfl, rfl, Nat.zero_le _, fun _ _ hmem => absurd hmem List.not_mem_nil⟩

theorem buttonsRight_initial : ButtonsRight initial := ⟨rfl, nofun⟩

/-- The other fields play no part. -/
theorem Tidy.congr (h : Tidy page) (htasks : after.tasks = page.tasks)
    (hscanning : after.isScanning = page.isScanning)
    (hactive : after.activeScanId = page.activeScanId) : Tidy after := by
  have hrunning : ∀ kind, after.running kind = page.running kind := by
    intro kind
    rw [running, htasks]
    rfl
  refine ⟨?_, ?_, ?_, ?_⟩
  · rw [hrunning, hrunning, hrunning, hscanning, h.work]
  · rw [hrunning, hactive, h.loop]
  · rw [hrunning]
    exact h.cancels
  · rw [htasks, hactive]
    exact h.polls

/-- Without a scan or a quarantine there is no id. -/
theorem Tidy.idle (h : Tidy page) (hidle : page.isScanning = false) :
    page.running .start = 0 ∧ page.running .loop = 0 ∧ page.running .isolation = 0 ∧
      page.activeScanId = none := by
  have hwork := h.work
  have hloop := h.loop
  rw [hidle, if_neg Bool.false_ne_true] at hwork
  refine ⟨by omega, by omega, by omega, ?_⟩
  cases hactive : page.activeScanId with
  | none => rfl
  | some scanId =>
      rw [hactive, Option.isSome_some, if_pos rfl] at hloop
      omega

/-- A scan or a quarantine is the only one. -/
theorem Tidy.only (h : Tidy page) (htask : page.tasks[index]? = some task)
    (hkind : task.kind ≠ .cancellation) :
    page.isScanning = true ∧ ∀ kind ≠ TaskKind.cancellation,
      page.running kind = if kind = task.kind then 1 else 0 := by
  have hwork := h.work
  have hpositive := running_pos htask
  have hscanning : page.isScanning = true := by
    by_contra hnot
    rw [if_neg hnot] at hwork
    cases hsame : task.kind <;> rw [hsame] at hpositive hkind <;> first | omega | exact hkind rfl
  refine ⟨hscanning, fun kind hother => ?_⟩
  rw [if_pos hscanning] at hwork
  cases hsame : task.kind <;> rw [hsame] at hpositive hkind <;> cases kind <;>
    simp only [reduceCtorEq, if_false, if_true] <;>
    first | omega | exact absurd rfl hkind | exact absurd rfl hother

theorem ButtonsRight.opened (h : Tidy page) : ButtonsRight page.opened := by
  refine ⟨?_, fun henabled => ?_⟩
  · show (page.canQuarantine && page.running .isolation == 0) = page.canQuarantine
    cases hscanning : page.isScanning with
    | false => rw [(h.idle hscanning).2.2.1, beq_self_eq_true, Bool.and_true]
    | true => simp [canQuarantine, hscanning]
  · have hcan : (page.canCancelScan && page.running .cancellation == 0) = true := henabled
    rwa [Bool.and_eq_true, beq_iff_eq] at hcan

/-- A scan or a quarantine begins. -/
theorem Tidy.begins (h : Tidy page) (hidle : page.isScanning = false)
    (hkind : task.kind = .start ∨ task.kind = .isolation)
    (htasks : after.tasks = page.tasks ++ [task]) (hscanning : after.isScanning = true)
    (hactive : after.activeScanId = page.activeScanId) : Tidy after := by
  obtain ⟨hstart, hloop, hisolation, hnone⟩ := h.idle hidle
  refine ⟨?_, ?_, ?_, fun scanId answer hmem => ?_⟩
  · rw [running_append htasks, running_append htasks, running_append htasks, hstart, hloop,
      hisolation, hscanning]
    rcases hkind with hkind | hkind <;> rw [hkind] <;> rfl
  · rw [running_append htasks, hloop, hactive, hnone]
    rcases hkind with hkind | hkind <;> rw [hkind] <;> rfl
  · rw [running_append htasks]
    rcases hkind with hkind | hkind <;> rw [hkind] <;> exact h.cancels
  · rw [hactive]
    rw [htasks] at hmem
    rcases List.mem_append.mp hmem with hmem | hmem
    · exact h.polls scanId answer hmem
    · rw [← List.mem_singleton.mp hmem] at hkind
      rcases hkind with hkind | hkind <;> cases hkind

/-- A scan or a quarantine ends. -/
theorem Tidy.ends (h : Tidy page) (htask : page.tasks[index]? = some task)
    (hkind : task.kind ≠ .cancellation) (htasks : after.tasks = page.tasks.eraseIdx index)
    (hscanning : after.isScanning = false) (hactive : after.activeScanId = none) : Tidy after := by
  obtain ⟨-, honly⟩ := h.only htask hkind
  have hdrop : ∀ kind, after.running kind + (if task.kind = kind then 1 else 0) =
      page.running kind := by
    intro kind
    rw [← running_dropTask htask, running, htasks]
    rfl
  have hnone : ∀ kind ≠ TaskKind.cancellation, after.running kind = 0 := by
    intro kind hother
    have hleft := hdrop kind
    rw [honly kind hother] at hleft
    by_cases hsame : kind = task.kind
    · rw [if_pos hsame, if_pos hsame.symm] at hleft
      omega
    · rw [if_neg hsame] at hleft
      omega
  refine ⟨?_, ?_, ?_, fun scanId answer hmem => ?_⟩
  · rw [hnone .start nofun, hnone .loop nofun, hnone .isolation nofun, hscanning]
    rfl
  · rw [hnone .loop nofun, hactive]
    rfl
  · have hleft := hdrop .cancellation
    have hcancels := h.cancels
    omega
  · obtain ⟨place, hplace⟩ := List.getElem?_of_mem hmem
    have hpositive := running_pos hplace
    exact absurd (hnone .loop nofun) hpositive.ne'

/-- The job of a scan has been started. -/
theorem Tidy.starts (h : Tidy page) (htask : page.tasks[index]? = some task)
    (hkind : task.kind = .start) (scanId : String) :
    Tidy { page.setTask index (.polling scanId none) with activeScanId := some scanId } := by
  obtain ⟨hscanning, honly⟩ := h.only htask (by rw [hkind]; exact nofun)
  have hset := fun kind => @running_setTask page index task (.polling scanId none) kind htask
  have hloop := honly .loop nofun
  rw [hkind] at honly hloop
  have hrunning : ∀ kind, (page.setTask index (.polling scanId none)).running kind =
      running kind { page.setTask index (.polling scanId none) with activeScanId := some scanId } :=
    fun _ => rfl
  refine ⟨?_, ?_, ?_, fun other answer hmem => ?_⟩
  · have hfirst := hset .start
    have hsecond := hset .loop
    have hthird := hset .isolation
    rw [hkind, honly .start nofun] at hfirst
    rw [hkind, honly .loop nofun] at hsecond
    rw [hkind, honly .isolation nofun] at hthird
    rw [← hrunning, ← hrunning, ← hrunning]
    simp only [PageTask.kind, reduceCtorEq, if_true, if_false] at hfirst hsecond hthird
    show _ = if page.isScanning then 1 else 0
    rw [hscanning, if_pos rfl]
    omega
  · have hsecond := hset .loop
    rw [hkind, hloop] at hsecond
    exact hsecond
  · have hcancels := hset .cancellation
    rw [hkind] at hcancels
    exact hcancels.le.trans h.cancels
  · rcases List.mem_or_eq_of_mem_set hmem with hmem | hmem
    · obtain ⟨place, hplace⟩ := List.getElem?_of_mem hmem
      exact absurd hloop (running_pos hplace).ne'
    · injection hmem with hsame
      exact congrArg some hsame.symm

/-- A task goes on as one of its kind. -/
theorem Tidy.continues (h : Tidy page) (htask : page.tasks[index]? = some task)
    (hkind : other.kind = task.kind)
    (hpolls : ∀ scanId answer, other = .polling scanId answer → page.activeScanId = some scanId) :
    Tidy (page.setTask index other) := by
  have hrunning : ∀ kind, (page.setTask index other).running kind = page.running kind := by
    intro kind
    have hset := @running_setTask page index task other kind htask
    rw [hkind] at hset
    exact Nat.add_right_cancel hset
  refine ⟨?_, ?_, ?_, fun scanId answer hmem => ?_⟩
  · rw [hrunning, hrunning, hrunning, h.work]
    rfl
  · rw [hrunning, h.loop]
    rfl
  · rw [hrunning]
    exact h.cancels
  · rcases List.mem_or_eq_of_mem_set hmem with hmem | hmem
    · exact h.polls scanId answer hmem
    · exact hpolls scanId answer hmem.symm

/-- A request to cancel is sent. -/
theorem Tidy.cancels_one (h : Tidy page) (hnone : page.running .cancellation = 0) (scanId : String)
    (htasks : after.tasks = page.tasks ++ [.cancelling scanId none])
    (hscanning : after.isScanning = page.isScanning)
    (hactive : after.activeScanId = page.activeScanId) : Tidy after := by
  refine ⟨?_, ?_, ?_, fun other answer hmem => ?_⟩
  · rw [running_append htasks, running_append htasks, running_append htasks, hscanning, ← h.work]
    rfl
  · rw [running_append htasks, hactive, ← h.loop]
    rfl
  · rw [running_append htasks, hnone]
    exact le_rfl
  · rw [hactive]
    rw [htasks] at hmem
    rcases List.mem_append.mp hmem with hmem | hmem
    · exact h.polls other answer hmem
    · cases List.mem_singleton.mp hmem

/-- A request to cancel is over. -/
theorem Tidy.cancelled (h : Tidy page) (htask : page.tasks[index]? = some task)
    (hkind : task.kind = .cancellation) (htasks : after.tasks = page.tasks.eraseIdx index)
    (hscanning : after.isScanning = page.isScanning)
    (hactive : after.activeScanId = page.activeScanId) : Tidy after := by
  have hdrop : ∀ kind, after.running kind + (if task.kind = kind then 1 else 0) =
      page.running kind := by
    intro kind
    rw [← running_dropTask htask, running, htasks]
    rfl
  rw [hkind] at hdrop
  refine ⟨?_, ?_, ?_, fun scanId answer hmem => ?_⟩
  · rw [hscanning, ← h.work, ← hdrop, ← hdrop, ← hdrop]
    rfl
  · rw [hactive, ← h.loop, ← hdrop]
    rfl
  · have hcancels := h.cancels
    rw [← hdrop] at hcancels
    exact (Nat.le_add_right _ _).trans hcancels
  · rw [hactive]
    exact h.polls scanId answer (List.mem_of_mem_eraseIdx (htasks ▸ hmem))

/-- The buttons that the page told to look at the end of a scan. -/
theorem buttonsRight_endScan (h : Tidy page) (htask : page.tasks[index]? = some task)
    (hkind : task.kind = .start ∨ task.kind = .loop) : ButtonsRight (page.endScan index) := by
  have hother : task.kind ≠ .cancellation := by
    rcases hkind with hkind | hkind <;> rw [hkind] <;> nofun
  obtain ⟨hscanning, honly⟩ := h.only htask hother
  have hisolation : page.running .isolation = 0 := by
    rw [honly .isolation nofun]
    rcases hkind with hkind | hkind <;> rw [hkind] <;> rfl
  unfold running at hisolation
  unfold endScan setIsScanning
  rw [if_neg (by simp [hscanning])]
  constructor
  · simp [notifyQuarantine, notifyCancel, canQuarantine, dropTask, running, hisolation]
  · intro henabled
    simp [notifyQuarantine, notifyCancel, canCancelScan, dropTask] at henabled

theorem Tidy.endScan (h : Tidy page) (htask : page.tasks[index]? = some task)
    (hkind : task.kind = .start ∨ task.kind = .loop) : Tidy (page.endScan index) := by
  refine h.ends htask ?_ ?_ ?_ ?_
  · rcases hkind with hkind | hkind <;> rw [hkind] <;> nofun
  · simp [ScanPage.endScan, dropTask]
  · simp [ScanPage.endScan, dropTask]
  · simp [ScanPage.endScan, dropTask]

/-- A page in order. -/
structure Orderly (page : ScanPage) : Prop where
  tidy : Tidy page
  buttons : ButtonsRight page

theorem orderly_initial : Orderly initial := ⟨tidy_initial, buttonsRight_initial⟩

theorem Orderly.opened (h : Orderly page) : Orderly page.opened :=
  ⟨h.tidy.congr rfl rfl rfl, .opened h.tidy⟩

/-- The texts play no part, and what ends a scan tells the buttons to look. -/
theorem Orderly.endScan (h : Orderly page) (htask : page.tasks[index]? = some task)
    (hkind : task.kind = .start ∨ task.kind = .loop) (htasks : after.tasks = page.tasks)
    (hscanning : after.isScanning = page.isScanning)
    (hactive : after.activeScanId = page.activeScanId) : Orderly (after.endScan index) := by
  have htidy : Tidy after := h.tidy.congr htasks hscanning hactive
  rw [← htasks] at htask
  exact ⟨htidy.endScan htask hkind, buttonsRight_endScan htidy htask hkind⟩

theorem Orderly.runScan (h : Orderly page) (targetLabel : String) (request : StartRequest) :
    Orderly (page.runScan targetLabel request) := by
  cases hscanning : page.isScanning with
  | true =>
      rw [ScanPage.runScan, if_pos hscanning]
      exact h
  | false =>
      obtain ⟨-, -, -, hactive⟩ := h.tidy.idle hscanning
      constructor
      · refine @Tidy.begins page (.starting request none) _ h.tidy hscanning (.inl rfl) ?_ ?_ ?_
        all_goals simp [ScanPage.runScan, notifyQuarantine, hscanning]
      · rw [ScanPage.runScan, if_neg (by simp [hscanning]), setIsScanning,
          if_neg (by simp [hscanning])]
        constructor
        · simp [notifyQuarantine, notifyCancel, canQuarantine]
        · intro henabled
          simp [notifyQuarantine, notifyCancel, canCancelScan, hactive] at henabled

/-- A task goes on as one of its kind. -/
theorem Orderly.continues (h : Orderly page) (htask : page.tasks[index]? = some task)
    (hkind : other.kind = task.kind)
    (hpolls : ∀ scanId answer, other = .polling scanId answer → page.activeScanId = some scanId) :
    Orderly (page.setTask index other) := by
  refine ⟨h.tidy.continues htask hkind hpolls, h.buttons.quarantine, fun henabled => ?_⟩
  obtain ⟨hcan, hnone⟩ := h.buttons.cancel henabled
  have hset := @running_setTask page index task other .cancellation htask
  rw [hkind, hnone] at hset
  exact ⟨hcan, Nat.add_right_cancel hset⟩

/-- The job of a scan has been started: the buttons do not hear of it. -/
theorem Orderly.starts (h : Orderly page) (htask : page.tasks[index]? = some task)
    (hkind : task.kind = .start) (scanId : String) :
    Orderly { page.setTask index (.polling scanId none) with activeScanId := some scanId } := by
  refine ⟨h.tidy.starts htask hkind scanId, h.buttons.quarantine, fun henabled => ?_⟩
  obtain ⟨hcan, -⟩ := h.buttons.cancel henabled
  -- before, there was no id, and the button was not enabled
  have hloop := h.tidy.loop
  have honly := (h.tidy.only htask (by rw [hkind]; exact nofun)).2 .loop nofun
  rw [hkind] at honly
  rw [honly, if_neg nofun] at hloop
  have hnone : page.activeScanId.isSome = false := by
    by_contra hsome
    rw [if_pos (by simpa only [Bool.not_eq_false] using hsome)] at hloop
    cases hloop
  rw [canCancelScan, hnone, Bool.and_false] at hcan
  cases hcan

theorem Orderly.clickCancel (h : Orderly page) : Orderly page.clickCancel := by
  unfold ScanPage.clickCancel
  split_ifs with henabled
  · obtain ⟨hcan, hnone⟩ := h.buttons.cancel henabled
    cases hactive : page.activeScanId with
    | none => simp [canCancelScan, hactive] at hcan
    | some scanId =>
        refine ⟨h.tidy.cancels_one hnone scanId rfl rfl hactive.symm, h.buttons.quarantine, ?_⟩
        intro hafter
        simp [notifyCancel, running, PageTask.kind] at hafter
  · exact h

theorem Orderly.finishCancel (h : Orderly page) (htask : page.tasks[index]? = some task)
    (hkind : task.kind = .cancellation) (answer : Except RequestFailure Unit) :
    Orderly (page.finishCancel index answer) := by
  have hlooks : ∀ after : ScanPage, after.tasks = page.tasks.eraseIdx index →
      after.isScanning = page.isScanning → after.activeScanId = page.activeScanId →
      after.quarantineEnabled = after.canQuarantine → Orderly after.notifyCancel := by
    intro after htasks hscanning hactive hquarantine
    have htidy : Tidy after := h.tidy.cancelled htask hkind htasks hscanning hactive
    refine ⟨htidy.congr rfl rfl rfl, hquarantine, fun henabled => ?_⟩
    have hcan : (after.canCancelScan && after.running .cancellation == 0) = true := henabled
    rwa [Bool.and_eq_true, beq_iff_eq] at hcan
  cases answer with
  | ok _ => exact hlooks _ rfl rfl rfl h.buttons.quarantine
  | error failure => exact hlooks _ rfl rfl rfl h.buttons.quarantine

theorem Orderly.clickQuarantine (h : Orderly page) : Orderly page.clickQuarantine := by
  unfold ScanPage.clickQuarantine
  split_ifs with henabled
  · rw [h.buttons.quarantine] at henabled
    have hscanning : page.isScanning = false := by
      simp only [canQuarantine, Bool.and_eq_true, Bool.not_eq_true'] at henabled
      exact henabled.1
    obtain ⟨-, -, -, hactive⟩ := h.tidy.idle hscanning
    cases hlatest : page.latestFinding with
    | none => simp [canQuarantine, hlatest] at henabled
    | some finding =>
        constructor
        · refine @Tidy.begins page (.isolating finding none) _ h.tidy hscanning (.inr rfl) ?_ ?_ ?_
          all_goals simp [notifyQuarantine]
        · dsimp only
          rw [setIsScanning, if_neg (by simp [hscanning])]
          constructor
          · simp [notifyQuarantine, notifyCancel, canQuarantine]
          · intro hafter
            simp [notifyQuarantine, notifyCancel, canCancelScan, hactive] at hafter
  · exact h

theorem Orderly.finishQuarantine (h : Orderly page) (htask : page.tasks[index]? = some task)
    (hkind : task.kind = .isolation) (texts : PageTexts)
    (answer : Except RequestFailure String) :
    Orderly (page.finishQuarantine texts index answer) := by
  have hother : task.kind ≠ .cancellation := by rw [hkind]; exact nofun
  obtain ⟨hscanning, honly⟩ := h.tidy.only htask hother
  have hactive : page.activeScanId = none := by
    have hloop := h.tidy.loop
    rw [honly .loop nofun, hkind, if_neg nofun] at hloop
    cases hsome : page.activeScanId with
    | none => rfl
    | some scanId =>
        rw [hsome] at hloop
        cases hloop
  have hlooks : ∀ after : ScanPage, after.tasks = page.tasks → after.isScanning = true →
      after.activeScanId = none →
      Orderly
        (notifyQuarantine ((notifyQuarantine (after.setIsScanning false)).dropTask index)) := by
    intro after htasks hafter hnone
    have htidy : Tidy (notifyQuarantine
        ((notifyQuarantine (after.setIsScanning false)).dropTask index)) := by
      refine h.tidy.ends htask hother ?_ ?_ ?_
      · simp [notifyQuarantine, dropTask, htasks]
      · simp [notifyQuarantine, dropTask]
      · simp [notifyQuarantine, dropTask, hnone]
    have hisolation : running .isolation
        ((notifyQuarantine (after.setIsScanning false)).dropTask index) = 0 :=
      (htidy.idle (by simp [notifyQuarantine, dropTask])).2.2.1
    refine ⟨htidy, ?_, fun henabled => ?_⟩
    · show (_ && running .isolation _ == 0) = _
      rw [hisolation, beq_self_eq_true, Bool.and_true]
      rfl
    · rw [setIsScanning, if_neg (by simp [hafter])] at henabled
      simp [notifyQuarantine, notifyCancel, dropTask, canCancelScan] at henabled
  unfold ScanPage.finishQuarantine
  cases answer with
  | ok originalPath => exact hlooks _ rfl hscanning hactive
  | error failure =>
      dsimp only
      split_ifs
      · exact hlooks _ rfl hscanning hactive
      · exact hlooks _ rfl hscanning hactive

theorem Orderly.failScan (h : Orderly page) (htask : page.tasks[index]? = some task)
    (hkind : task.kind = .start ∨ task.kind = .loop) (failure : RequestFailure) :
    Orderly ((page.failScan failure).endScan index) := by
  unfold ScanPage.failScan
  split_ifs <;> exact h.endScan htask hkind rfl rfl rfl

theorem Orderly.applyStatus (h : Orderly page) (htask : page.tasks[index]? = some task)
    (hkind : task.kind = .loop) (texts : PageTexts) (status : ScanJobStatus) :
    Orderly (page.applyStatus texts index status) := by
  have hpauses : Orderly (page.setTask index .pausing) :=
    h.continues htask hkind.symm fun scanId answer hpolls => by cases hpolls
  unfold ScanPage.applyStatus
  cases status.state with
  | queued | running =>
      exact ⟨hpauses.tidy.congr rfl rfl rfl, hpauses.buttons.quarantine, hpauses.buttons.cancel⟩
  | completed =>
      cases status.finding with
      | some finding => exact h.endScan htask (.inr hkind) rfl rfl rfl
      | none => exact h.endScan htask (.inr hkind) rfl rfl rfl
  | cancelled => exact h.endScan htask (.inr hkind) rfl rfl rfl
  | failed => exact h.failScan htask (.inr hkind) _

/-- What changes a page leaves it in order. -/
theorem Orderly.change {texts : PageTexts} {userSid : String} {jobs : JobsWorld} {opens : Prop}
    {starts : StartRequest → String → Prop} (h : Orderly page)
    (hchange : PageChange texts userSid jobs opens starts page after) : Orderly after := by
  cases hchange with
  | same => exact h
  | opened => exact h.opened
  | runScan request => exact h.runScan _ request
  | clickCancel => exact h.clickCancel
  | clickQuarantine => exact h.clickQuarantine
  | answered htask hanswers =>
      refine h.continues htask hanswers.kind fun scanId answer hpolls => ?_
      obtain ⟨⟨before, rfl⟩, -⟩ := hanswers.polling scanId answer hpolls
      exact h.tidy.polls scanId before (List.mem_of_getElem? htask)
  | started htask => exact h.starts htask rfl _
  | failed htask hkind failure => exact h.failScan htask hkind failure
  | told htask => exact h.applyStatus htask rfl texts _
  | asked htask hactive =>
      refine h.continues htask rfl ?_
      rintro _ _ ⟨⟩
      exact hactive
  | quarantined htask => exact h.finishQuarantine htask rfl texts _
  | cancelled htask => exact h.finishCancel htask rfl _

end orderly

end ScanPage

/-- **One thing at a time.** After any steps there is one scan or one quarantine just when the page
says that it is busy, a scan asks for its own job, at most one request to cancel is on its way, the
quarantine button is enabled just when it should be, and the cancel button only when it should. -/
theorem page_one_at_a_time (texts : PageTexts) (user : ClientContext) (ioText : IoError → String)
    (tables : ScanTables) (actions : List ScanPageAction) (w : ScanPageWorld)
    (hrun : run (pageStep texts user ioText) ⟨.initial, .initial tables⟩ actions = some w) :
    w.page.Orderly :=
  run_invariant (I := fun w => w.page.Orderly)
    (fun _ _ _ h hstep => h.change (pageStep_cases hstep).2) ScanPage.orderly_initial hrun

/-- Numbers as they are, and whole paths. -/
def plainTexts : PageTexts := ⟨toString, fun size => toString size.toNat, id⟩

/-- The scan of a directory is started, and the page is told. -/
def directoryScan : List ScanPageAction :=
  [.startPathScan "C:\\files", .serveStart 0 (directoryChoice "0" none), .resume 0]

/-- `page_one_at_a_time` for a scan that is cancelled while its loop waits. -/
theorem page_one_at_a_time_cancelled : ∃ w,
    run (pageStep plainTexts ⟨"S-1", false⟩ fun _ => "") ⟨.initial, .initial emptyTables⟩
      (directoryScan ++ [.openPage, .serve 0, .resume 0, .cancel]) = some w ∧
        w.page.tasks.length = 2 ∧ w.page.Orderly :=
  ⟨_, rfl, rfl, page_one_at_a_time plainTexts ⟨"S-1", false⟩ (fun _ => "") emptyTables
    (directoryScan ++ [.openPage, .serve 0, .resume 0, .cancel]) _ rfl⟩

end OpenGuard.App
