import OpenGuard.App.ScanTasks

/-!
# The cancel button

The button is told to look when a scan begins, and when it ends. When a scan begins it has no id,
and when it gets one the button is not told.

* `Uncancelled`: the cancel button is not enabled, and there is no request to cancel.
* `cancel_disabled`: this is so after any steps, if the page is not opened during a scan.
-/

namespace OpenGuard.App

open OpenGuard.Lib OpenGuard.Domain OpenGuard.Service OpenGuard.Storage

section cancelButton

variable {texts : PageTexts} {user : ClientContext} {ioText : IoError → String}
  {page changed : ScanPage} {index : ℕ} {task other : PageTask}

/-- The cancel button is not enabled, and there is no request to cancel. -/
structure Uncancelled (page : ScanPage) : Prop where
  disabled : page.cancelEnabled = false
  unasked : ∀ task ∈ page.tasks, task.kind ≠ .cancellation

/-- The button is left alone, or it is told to look when there is no scan to cancel. -/
theorem Uncancelled.shows (h : Uncancelled page) (horderly : changed.Orderly)
    (htasks : ∀ task ∈ changed.tasks, task ∈ page.tasks ∨ task.kind ≠ .cancellation)
    (hcancel : changed.cancelEnabled = page.cancelEnabled ∨ changed.canCancelScan = false) :
    Uncancelled changed where
  disabled := by
    rcases hcancel with hsame | hnone
    · exact hsame.trans h.disabled
    · by_contra henabled
      rw [Bool.not_eq_false] at henabled
      have hcan := (horderly.buttons.cancel henabled).1
      rw [hnone] at hcan
      cases hcan
  unasked task htask := (htasks task htask).elim (h.unasked task) id

theorem Uncancelled.setTask (h : Uncancelled page) (horderly : (page.setTask index other).Orderly)
    (hkind : other.kind ≠ .cancellation) : Uncancelled (page.setTask index other) := by
  refine h.shows horderly (fun task htask => ?_) (.inl rfl)
  rcases List.mem_or_eq_of_mem_set htask with htask | rfl
  · exact .inl htask
  · exact .inr hkind

variable (index) in
/-- The end of a scan or of a quarantine. -/
theorem Uncancelled.ends (h : Uncancelled page) (horderly : changed.Orderly)
    (htasks : changed.tasks = page.tasks.eraseIdx index) (hscanning : changed.isScanning = false) :
    Uncancelled changed := by
  refine h.shows horderly (fun task htask => .inl (List.mem_of_mem_eraseIdx (htasks ▸ htask))) ?_
  right
  rw [ScanPage.canCancelScan, hscanning, Bool.false_and]

theorem Uncancelled.endScan (h : Uncancelled page) (htasks : changed.tasks = page.tasks)
    (horderly : (changed.endScan index).Orderly) : Uncancelled (changed.endScan index) := by
  refine h.ends index horderly ?_ ?_
  · simp [ScanPage.endScan, ScanPage.dropTask, htasks]
  · simp [ScanPage.endScan, ScanPage.dropTask]

theorem Uncancelled.failScan (h : Uncancelled page) {failure : RequestFailure}
    (horderly : ((page.failScan failure).endScan index).Orderly) :
    Uncancelled ((page.failScan failure).endScan index) := by
  refine h.endScan ?_ horderly
  unfold ScanPage.failScan
  split_ifs <;> rfl

theorem Uncancelled.runScan (h : Uncancelled page) (hpage : page.Orderly) (targetLabel : String)
    (request : StartRequest) : Uncancelled (page.runScan targetLabel request) := by
  have horderly := hpage.runScan targetLabel request
  cases hscanning : page.isScanning with
  | true =>
      rw [ScanPage.runScan, if_pos hscanning]
      exact h
  | false =>
      obtain ⟨-, -, -, hactive⟩ := hpage.tidy.idle hscanning
      refine h.shows horderly (fun task htask => ?_) (.inr ?_)
      · simp only [ScanPage.runScan, hscanning, ScanPage.notifyQuarantine, Bool.false_eq_true,
          if_false, ScanPage.tasks_setIsScanning, List.mem_append, List.mem_singleton] at htask
        refine htask.imp_right ?_
        rintro rfl
        exact fun hnot => by cases hnot
      · simp [ScanPage.runScan, hscanning, ScanPage.notifyQuarantine, ScanPage.canCancelScan,
          hactive]

theorem Uncancelled.applyStatus (h : Uncancelled page) {status : ScanJobStatus}
    (horderly : (page.applyStatus texts index status).Orderly) :
    Uncancelled (page.applyStatus texts index status) := by
  unfold ScanPage.applyStatus at horderly ⊢
  cases hstate : status.state with
  | queued | running =>
      rw [hstate] at horderly
      refine h.shows horderly (fun task htask => ?_) (.inl rfl)
      rcases List.mem_or_eq_of_mem_set htask with htask | rfl
      · exact .inl htask
      · exact .inr fun hnot => by cases hnot
  | completed =>
      rw [hstate] at horderly
      cases hfinding : status.finding with
      | some finding =>
          rw [hfinding] at horderly
          exact h.endScan rfl horderly
      | none =>
          rw [hfinding] at horderly
          exact h.endScan rfl horderly
  | cancelled =>
      rw [hstate] at horderly
      exact h.endScan rfl horderly
  | failed =>
      rw [hstate] at horderly
      exact h.failScan horderly

theorem Uncancelled.clickQuarantine (h : Uncancelled page) (hpage : page.Orderly) :
    Uncancelled page.clickQuarantine := by
  have horderly := hpage.clickQuarantine
  by_cases henabled : page.quarantineEnabled
  · have hcan := henabled
    rw [hpage.buttons.quarantine, ScanPage.canQuarantine, Bool.and_eq_true,
      Bool.not_eq_true'] at hcan
    obtain ⟨-, -, -, hactive⟩ := hpage.tidy.idle hcan.1
    obtain ⟨finding, hlatest, -⟩ := Option.any_eq_true .. |>.mp hcan.2
    refine h.shows horderly (fun task htask => ?_) (.inr ?_)
    · simp only [ScanPage.clickQuarantine, henabled, if_true, hlatest, ScanPage.notifyQuarantine,
        ScanPage.tasks_setIsScanning, List.mem_append, List.mem_singleton] at htask
      refine htask.imp_right ?_
      rintro rfl
      exact fun hnot => by cases hnot
    · simp [ScanPage.clickQuarantine, henabled, hlatest, ScanPage.notifyQuarantine,
        ScanPage.canCancelScan, hactive]
  · rw [ScanPage.clickQuarantine, if_neg henabled]
    exact h

theorem Uncancelled.finishQuarantine (h : Uncancelled page) {answer : Except RequestFailure String}
    (horderly : (page.finishQuarantine texts index answer).Orderly) :
    Uncancelled (page.finishQuarantine texts index answer) := by
  refine h.ends index horderly ?_ ?_
  · cases answer with
    | ok originalPath =>
        simp [ScanPage.finishQuarantine, ScanPage.notifyQuarantine, ScanPage.dropTask]
    | error failure =>
        simp only [ScanPage.finishQuarantine]
        split_ifs <;> simp [ScanPage.notifyQuarantine, ScanPage.dropTask]
  · cases answer with
    | ok originalPath =>
        simp [ScanPage.finishQuarantine, ScanPage.notifyQuarantine, ScanPage.dropTask]
    | error failure =>
        simp [ScanPage.finishQuarantine, ScanPage.notifyQuarantine, ScanPage.dropTask]

/-- What changes a page leaves the button disabled, if the page is not opened during a scan. -/
theorem Uncancelled.change {userSid : String} {jobs : JobsWorld} {opens : Prop}
    {starts : StartRequest → String → Prop} (h : Uncancelled page) (hpage : page.Orderly)
    (hidle : opens → page.activeScanId = none)
    (hchange : PageChange texts userSid jobs opens starts page changed) : Uncancelled changed := by
  have horderly := hpage.change hchange
  cases hchange with
  | same => exact h
  | opened hopens =>
      refine h.shows horderly (fun _ => .inl) (.inr ?_)
      simp [ScanPage.opened, ScanPage.notifyQuarantine, ScanPage.notifyCancel,
        ScanPage.canCancelScan, hidle hopens]
  | runScan request => exact h.runScan hpage _ request
  | clickCancel =>
      rw [ScanPage.clickCancel, if_neg (by simp [h.disabled])]
      exact h
  | clickQuarantine => exact h.clickQuarantine hpage
  | @answered index task other htask hanswers =>
      refine h.setTask horderly ?_
      rw [hanswers.kind]
      exact h.unasked task (List.mem_of_getElem? htask)
  | @started index request scanId htask =>
      refine h.shows horderly (fun task hmem => ?_) (.inl rfl)
      rcases List.mem_or_eq_of_mem_set hmem with hmem | rfl
      · exact .inl hmem
      · exact .inr fun hnot => by cases hnot
  | failed htask hkind failure => exact h.failScan horderly
  | told htask => exact h.applyStatus horderly
  | asked htask hactive => exact h.setTask horderly fun hnot => by cases hnot
  | quarantined htask => exact h.finishQuarantine horderly
  | cancelled htask => exact absurd rfl (h.unasked _ (List.mem_of_getElem? htask))

end cancelButton

/-- The page is not opened while there is the id of a scan. -/
def OpensIdle (w : ScanPageWorld) (action : ScanPageAction) : Prop :=
  action = .openPage → w.page.activeScanId = none

/-- **No scan can be cancelled** on a page that was opened before it: the cancel button is told to
look when the scan begins, when there is no id yet, and not when there is one. -/
theorem cancel_disabled (texts : PageTexts) (user : ClientContext) (ioText : IoError → String)
    (tables : ScanTables) (actions : List ScanPageAction) (w : ScanPageWorld)
    (hrun : run (pageStep texts user ioText) ⟨.initial, .initial tables⟩ actions = some w)
    (hopens : StepsMeet OpensIdle (pageStep texts user ioText) ⟨.initial, .initial tables⟩
      actions) :
    w.page.cancelEnabled = false ∧ ∀ scanId answer, .cancelling scanId answer ∉ w.page.tasks := by
  have hstart : Uncancelled ScanPage.initial ∧ ScanPage.initial.Orderly :=
    ⟨⟨rfl, fun _ htask => absurd htask List.not_mem_nil⟩, ScanPage.orderly_initial⟩
  have huncancelled : Uncancelled w.page ∧ w.page.Orderly :=
    run_invariant_of_meets (I := fun w => Uncancelled w.page ∧ w.page.Orderly)
      (fun _ _ _ h hidle hstep => ⟨h.1.change h.2 hidle (pageStep_cases hstep).2,
        h.2.change (pageStep_cases hstep).2⟩) hstart hopens hrun
  exact ⟨huncancelled.1.disabled, fun scanId answer htask => huncancelled.1.unasked _ htask rfl⟩

/-- `cancel_disabled` for a scan that is running, and should be one that can be cancelled. -/
theorem cancel_disabled_running : ∃ w,
    run (pageStep plainTexts ⟨"S-1", false⟩ fun _ => "") ⟨.initial, .initial emptyTables⟩
      (.openPage :: directoryScan) = some w ∧
        w.page.canCancelScan = true ∧ w.page.cancelEnabled = false := by
  refine ⟨_, rfl, rfl, (cancel_disabled plainTexts ⟨"S-1", false⟩ (fun _ => "") emptyTables
    (.openPage :: directoryScan) _ rfl ⟨fun _ => rfl, fun w _ => ?_⟩).1⟩
  refine StepsMeet.of_forall fun action haction s hopens => ?_
  simp [directoryScan, hopens] at haction

end OpenGuard.App
