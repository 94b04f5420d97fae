import OpenGuard.Service.BlockInvariant

/-!
# Undoing blocks after failures

The rule of a block and its record are made and unmade by two calls on two stores, and a failure
between the two calls leaves one without the other.

* `no_orphan_rule`: as long as the record of an installed rule is written, every rule has an open
  record; `orphan_rule_stays` shows a rule without one.
* `unblocks_iff`: a request undoes an open record exactly when its rule is still there.
* `open_block_can_be_undone`: as long as the record of a removed rule is closed, every open record
  can be undone; `stuck_record` shows one that cannot.
-/

namespace OpenGuard.Service

open OpenGuard.Lib OpenGuard.Domain OpenGuard.Storage OpenGuard.Windows

/-! ## Every rule has a record -/

/-- An open record of the id names its rule. -/
def HasOpenRow (rollbacks : Rollbacks) (id : String) : Prop :=
  ∃ row, rollbacks.lookup id = some row ∧ IsBlock row ∧ IsOpen row ∧
    row.rollback.payload = ruleName id

/-- The step does not lose the record of an installed rule: it is written, the service does not
crash before it is, and the audit of the block does not fail while the rule is there. -/
def KeepsRecord (s : BlockState) (action : BlockAction) : Prop :=
  match s.request, action with
  | .recording _, .record _ fault _ => fault = none
  | .recording _, .crash => False
  | .auditing _ outcome, .audit auditEventId =>
      ∀ id, outcome.rollbackId = some id → ruleName id ∈ s.firewall →
        ∃ eventId, auditEventId = .ok eventId
  | _, _ => True

/-- Every rule of a drawn id has an open record or is about to get it, and no rule is left of a
block that was answered with an error. -/
structure Traceable (s : BlockState) : Prop where
  rules : ∀ id ∈ s.drawn, ruleName id ∈ s.firewall →
    HasOpenRow s.rollbacks id ∨ ∃ block, s.request = .recording block ∧ block.rollbackId = id
  refused : ∀ id error, (some id, .error error) ∈ s.answered → ruleName id ∉ s.firewall

section traceable

variable {s t : BlockState} {action : BlockAction} {now : Clock} {fault : Fault}

/-- When no record is about to be written, every rule has one. -/
theorem Traceable.openRow (h : Traceable s) (hphase : ∀ block, s.request ≠ .recording block)
    {id : String} (hdrawn : id ∈ s.drawn) (hmem : ruleName id ∈ s.firewall) :
    HasOpenRow s.rollbacks id :=
  (h.rules id hdrawn hmem).resolve_right fun ⟨block, hblock, _⟩ => hphase block hblock

theorem Traceable.advance (h : Traceable s) (hphase : ∀ block, s.request ≠ .recording block)
    (phase : RequestPhase) : Traceable { s with request := phase } where
  rules _ hdrawn hmem := Or.inl (h.openRow hphase hdrawn hmem)
  refused := h.refused

theorem Traceable.answer (h : Traceable s) (hphase : ∀ block, s.request ≠ .recording block)
    {drawn : Option String} {response : Except ApiError ResponseActionResult}
    (hgone : ∀ id error, drawn = some id → response = .error error → ruleName id ∉ s.firewall) :
    Traceable (s.answer drawn response) where
  rules _ hdrawn hmem := Or.inl (h.openRow hphase hdrawn hmem)
  refused id error hmem := by
    rcases List.mem_cons.mp hmem with heq | hmem
    · obtain ⟨hid, herror⟩ := Prod.mk.inj heq
      exact hgone id error hid.symm herror.symm
    · exact h.refused id error hmem

theorem Traceable.erase (h : Traceable s) (rule : String) :
    Traceable { s with firewall := s.firewall.erase rule } where
  rules id hdrawn hmem := h.rules id hdrawn (AList.mem_erase.mp hmem).2
  refused id error hanswer hmem := h.refused id error hanswer (AList.mem_erase.mp hmem).2

theorem Traceable.setThread (h : Traceable s) (thread : ℕ) (expiry : ExpiryThread)
    (stage : ClosingStage) : Traceable (s.setThread thread expiry stage) where
  rules := h.rules
  refused := h.refused

/-- A record is closed when its rule is gone, so the rules that are there keep theirs. -/
theorem Traceable.close (h : Traceable s) {closing : Closing}
    (hvalid : closing.Valid s.firewall s.rollbacks) (hstage : closing.stage = .marking)
    {marked : Except StorageError Bool} (hclose : s.close now fault closing = (marked, t)) :
    Traceable t := by
  rcases BlockState.close_cases hclose with ⟨-, row, -, -, -, rfl⟩ | ⟨-, rfl⟩
  · refine ⟨?_, h.refused⟩
    intro id hdrawn hmem
    rcases h.rules id hdrawn hmem with ⟨row', hrow', hopen⟩ | hphase
    · left
      refine ⟨row', ?_, hopen⟩
      rw [AList.lookup_insert_ne, hrow']
      rintro rfl
      have hgone := hvalid.gone hstage
      rw [hvalid.rule] at hgone
      exact hgone hmem
    · exact Or.inr hphase
  · exact h

theorem traceable_submit {clientSid rollbackId : String} {request : ResponseActionRequest}
    (h : Traceable s) (hstep : s.submit clientSid request rollbackId = some t) : Traceable t := by
  obtain ⟨-, hidle, hcases⟩ := BlockState.submit_cases hstep
  have hphase : ∀ block, s.request ≠ .recording block := by simp [hidle]
  rcases hcases with ⟨error, rfl⟩ | ⟨hfresh, pid, duration, rfl⟩ | rfl
  · exact h.answer hphase (fun id error hid => by cases hid)
  · refine ⟨?_, h.refused⟩
    intro id hdrawn hmem
    rcases List.mem_cons.mp hdrawn with rfl | hdrawn
    · exact absurd hmem hfresh.2.2
    · exact Or.inl (h.openRow hphase hdrawn hmem)
  · exact h.advance hphase _

theorem traceable_install {tools : BlockTools} (hs : Consistent s) (h : Traceable s)
    (hstep : s.install tools = some t) : Traceable t := by
  obtain ⟨block, hinstalling, hcases⟩ := BlockState.install_cases hstep
  have hphase : ∀ block, s.request ≠ .recording block := by simp [hinstalling]
  have hrequest := hs.request
  rw [hinstalling] at hrequest
  obtain ⟨hpending, habsent⟩ := hrequest
  rcases hcases with ⟨error, rfl⟩ | ⟨-, rule, rfl⟩
  · apply h.answer hphase
    intro id error hid _
    rw [← Option.some.inj hid]
    exact habsent
  · refine ⟨?_, ?_⟩
    · intro id hdrawn hmem
      rcases (AList.mem_insert _).mp hmem with heq | hmem
      · exact Or.inr ⟨block, rfl, (ruleName_inj heq).symm⟩
      · exact Or.inl (h.openRow hphase hdrawn hmem)
    · intro id error hanswer hmem
      rcases (AList.mem_insert _).mp hmem with heq | hmem
      · rw [ruleName_inj heq] at hanswer
        exact hpending.unanswered _ hanswer
      · exact h.refused id error hanswer hmem

theorem traceable_record {spawned : Bool} (hs : Consistent s) (h : Traceable s)
    (hkeeps : KeepsRecord s (.record now fault spawned))
    (hstep : s.record now fault spawned = some t) : Traceable t := by
  obtain ⟨block, hrecording, hcases⟩ := BlockState.record_cases hstep
  have hrequest := hs.request
  rw [hrecording] at hrequest
  have hpending := hrequest.1
  rcases hcases with ⟨hconflict, error, rfl⟩ | rfl
  · have hfault : fault = none := by simpa [KeepsRecord, hrecording] using hkeeps
    exact absurd hpending.unrecorded (hconflict hfault)
  · refine ⟨?_, h.refused⟩
    intro id hdrawn hmem
    left
    by_cases hid : id = block.rollbackId
    · rw [hid]
      exact ⟨_, AList.lookup_insert _, rfl, rfl, rfl⟩
    · rcases h.rules id hdrawn hmem with ⟨row, hrow, hopen⟩ | ⟨other, hother, hid'⟩
      · exact ⟨row, by rw [AList.lookup_insert_ne hid, hrow], hopen⟩
      · rw [hrecording] at hother
        cases hother
        exact absurd hid'.symm hid

theorem traceable_audit {auditEventId : Except StorageError ℤ} (h : Traceable s)
    (hkeeps : KeepsRecord s (.audit auditEventId)) (hstep : s.audit auditEventId = some t) :
    Traceable t := by
  obtain ⟨request, outcome, hauditing, hcases⟩ := BlockState.audit_cases hstep
  have hphase : ∀ block, s.request ≠ .recording block := by simp [hauditing]
  rcases hcases with ⟨id, -, rfl⟩ | ⟨error, herror, rfl⟩
  · exact h.answer hphase (fun id error _ herror => by cases herror)
  · apply h.answer hphase
    intro id error' hid _ hmem
    have haudit : ∀ id, outcome.rollbackId = some id → ruleName id ∈ s.firewall →
        ∃ eventId, auditEventId = .ok eventId := by
      simpa [KeepsRecord, hauditing] using hkeeps
    obtain ⟨eventId, hok⟩ := haudit id hid hmem
    rw [herror] at hok
    cases hok

/-- **Every action that keeps the records preserves traceability.** -/
theorem traceable_step (hs : Consistent s) (h : Traceable s) (hkeeps : KeepsRecord s action)
    (hstep : s.step action = some t) : Traceable t := by
  cases action with
  | start now fault spawned =>
      obtain ⟨-, rfl | ⟨active, -, rfl⟩⟩ := BlockState.start_cases hstep
      · exact h
      · exact ⟨h.rules, h.refused⟩
  | crash =>
      obtain ⟨-, rfl⟩ := BlockState.crash_cases hstep
      have hphase : ∀ block, s.request ≠ .recording block := by
        intro block hrecording
        simp [KeepsRecord, hrecording] at hkeeps
      exact ⟨(h.advance hphase .idle).rules, h.refused⟩
  | submit clientSid request rollbackId => exact traceable_submit h hstep
  | install tools =>
      have hinstall : s.install tools = some t := hstep
      exact traceable_install hs h hinstall
  | record now fault spawned => exact traceable_record hs h hkeeps hstep
  | read fault =>
      obtain ⟨clientSid, request, hreading, hcases⟩ := BlockState.read_cases hstep
      have hphase : ∀ block, s.request ≠ .recording block := by simp [hreading]
      rcases hcases with ⟨error, rfl⟩ | ⟨rollback, -, -, rfl⟩
      · exact h.answer hphase (fun id error hid => by cases hid)
      · exact h.advance hphase _
  | remove netsh =>
      obtain ⟨request, target, closing, hunblocking, -, hcases⟩ := BlockState.remove_cases hstep
      have hphase : ∀ block, s.request ≠ .recording block := by simp [hunblocking]
      rcases hcases with ⟨error, rfl⟩ | rfl
      · exact h.answer hphase (fun id error hid => by cases hid)
      · exact (h.erase closing.ruleName).advance hphase _
  | mark now fault =>
      obtain ⟨request, target, closing, marked, after, hunblocking, hstage, hclose, hcases⟩ :=
        BlockState.mark_cases hstep
      have hvalid := hs.request
      rw [hunblocking] at hvalid
      have hafter := h.close hvalid hstage hclose
      have hphase : ∀ block, after.request ≠ .recording block := by
        simp [(BlockState.sameActors_of_close hclose).request, hunblocking]
      rcases hcases with ⟨error, -, rfl⟩ | ⟨found, -, rfl⟩
      · exact hafter.answer hphase (fun id error hid => by cases hid)
      · exact hafter.advance hphase _
  | audit auditEventId => exact traceable_audit h hkeeps hstep
  | wake thread now fault =>
      obtain ⟨expiry, -, -, -, rfl | rfl⟩ := BlockState.wake_cases hstep
      · exact h.setThread thread expiry _
      · exact h.setThread thread expiry _
  | expireRemove thread netsh =>
      obtain ⟨expiry, -, -, -, rfl | rfl⟩ := BlockState.expireRemove_cases hstep
      · exact h.setThread thread expiry _
      · exact (h.erase _).setThread thread expiry _
  | expireMark thread now fault =>
      obtain ⟨expiry, hmem, -, hstage, marked, after, hclose, rfl⟩ :=
        BlockState.expireMark_cases hstep
      exact (h.close (hs.expiries expiry hmem) hstage hclose).setThread thread expiry _

/-- **No orphan rule.** In every run in which the record of each installed rule is written, the
service does not crash before, and no audit of a block fails while its rule is there: whenever no
request is in progress, also after a crash, every rule the service installed has an open record that
names it, and a block that was answered with an error has no rule. -/
theorem no_orphan_rule (firewall : Firewall) (rollbacks : Rollbacks) (h : NoBlocks rollbacks)
    (actions : List BlockAction) (s : BlockState)
    (hmeet : StepsMeet KeepsRecord BlockState.step (.stopped firewall rollbacks) actions)
    (hrun : run BlockState.step (.stopped firewall rollbacks) actions = some s)
    (hidle : s.request = .idle) :
    (∀ id ∈ s.drawn, ruleName id ∈ s.firewall → HasOpenRow s.rollbacks id) ∧
      ∀ id error, (some id, .error error) ∈ s.answered → ruleName id ∉ s.firewall := by
  have hstep : ∀ s action t, Consistent s ∧ Traceable s → KeepsRecord s action →
      BlockState.step s action = some t → Consistent t ∧ Traceable t := by
    intro s action t hs hkeeps hstep
    exact ⟨consistent_step action hs.1 hstep, traceable_step hs.1 hs.2 hkeeps hstep⟩
  have hstart : Consistent (.stopped firewall rollbacks) ∧
      Traceable (.stopped firewall rollbacks) :=
    ⟨consistent_stopped h, (fun id hdrawn => by cases hdrawn), fun id error hmem => by cases hmem⟩
  have htraceable := run_invariant_of_meets hstep hstart hmeet hrun
  refine ⟨?_, htraceable.2.refused⟩
  intro id hdrawn hmem
  exact htraceable.2.openRow (by simp [hidle]) hdrawn hmem

theorem sampleBlocked_isSome :
    (run BlockState.step (.stopped ∅ ∅) sampleBlocked).isSome := by decide

/-- The state in which the sample block is in force. -/
def blockedState : BlockState :=
  (run BlockState.step (.stopped ∅ ∅) sampleBlocked).get sampleBlocked_isSome

theorem run_sampleBlocked :
    run BlockState.step (.stopped ∅ ∅) sampleBlocked = some blockedState :=
  (Option.some_get sampleBlocked_isSome).symm

/-- The service waits for a request, and no record is about to be closed. -/
theorem blockedState_waits : blockedState.running = true ∧ blockedState.request = .idle ∧
    ∀ expiry ∈ blockedState.expiries, expiry.closing.stage ≠ .marking := by decide

/-- No step of the sample loses a record. -/
theorem keepsRecord_sampleBlocked :
    StepsMeet KeepsRecord BlockState.step (.stopped ∅ ∅) sampleBlocked := by
  apply StepsMeet.of_forall
  intro action hmem s
  simp only [sampleBlocked, List.mem_cons, List.not_mem_nil, or_false] at hmem
  rcases hmem with rfl | rfl | rfl | rfl | rfl <;>
    cases hphase : s.request <;> simp [KeepsRecord, hphase]

/-- `no_orphan_rule` for a block in force. -/
theorem no_orphan_rule_blocked :
    (∀ id ∈ blockedState.drawn, ruleName id ∈ blockedState.firewall →
        HasOpenRow blockedState.rollbacks id) ∧
      ∀ id error, (some id, .error error) ∈ blockedState.answered →
        ruleName id ∉ blockedState.firewall :=
  no_orphan_rule ∅ ∅ (fun id row hrow => by cases hrow) sampleBlocked blockedState
    keepsRecord_sampleBlocked run_sampleBlocked blockedState_waits.2.1

/-- The rule is installed, its record cannot be written, and the service is restarted. -/
def sampleOrphan : List BlockAction :=
  [.start ⟨0, 1760000000⟩ none fun _ => true,
    .submit "S-1-5-21-1" sampleBlock "a1", .install sampleTools,
    .record ⟨0, 1760000000⟩ (some (.database "disk I/O error")) true, .crash,
    .start ⟨0, 1760000100⟩ none fun _ => true]

theorem sampleOrphan_isSome :
    (run BlockState.step (.stopped ∅ ∅) sampleOrphan).isSome := by decide

/-- A block that is answered with an error leaves its rule, with no record and no expiry thread, and
a restart does not find it. -/
theorem orphan_rule_stays :
    ∃ s, run BlockState.step (.stopped ∅ ∅) sampleOrphan = some s ∧ s.request = .idle ∧
      s.answered = [(some "a1",
        .error ⟨.internal, "Record firewall rollback: database error: disk I/O error", true⟩)] ∧
      "a1" ∈ s.drawn ∧ ruleName "a1" ∈ s.firewall ∧ s.rollbacks.lookup "a1" = none ∧
      s.expiries = [] :=
  ⟨_, (Option.some_get sampleOrphan_isSome).symm, by decide +kernel⟩

end traceable

/-! ## Every open record can be undone -/

/-- What is being undone, by the request and by the threads. -/
def BlockState.closings (s : BlockState) : List Closing :=
  (match s.request with
    | .unblocking _ _ closing => [closing]
    | _ => []) ++ s.expiries.map (·.closing)

/-- Someone has removed the rule of the record and is about to close it. -/
def BlockState.IsMarking (s : BlockState) (id : String) : Prop :=
  ∃ closing ∈ s.closings, closing.stage = .marking ∧ closing.rollbackId = id

/-- The step does not leave the record of a removed rule open: it is closed, and the service does
not crash before. -/
def KeepsMark (s : BlockState) : BlockAction → Prop
  | .mark _ fault => fault = none
  | .expireMark _ _ fault => fault = none
  | .crash => ∀ closing ∈ s.closings, closing.stage ≠ .marking
  | _ => True

/-- The rule of every open record is there, or the record is about to be closed. -/
def Undoable (s : BlockState) : Prop :=
  ∀ id row, s.rollbacks.lookup id = some row → IsBlock row → IsOpen row →
    ruleName id ∈ s.firewall ∨ s.IsMarking id

/-- Nothing is in progress while the service is stopped. -/
def QuietWhenStopped (s : BlockState) : Prop :=
  s.running = false → s.request = .idle ∧ s.expiries = []

section undoable

variable {s t : BlockState} {action : BlockAction} {now : Clock} {fault : Fault} {thread : ℕ}
  {expiry other : ExpiryThread} {stage : ClosingStage} {closing : Closing} {id : String}

theorem mem_closings : closing ∈ s.closings ↔
    (∃ request target, s.request = .unblocking request target closing) ∨
      ∃ expiry ∈ s.expiries, expiry.closing = closing := by
  unfold BlockState.closings
  rw [List.mem_append, List.mem_map]
  refine or_congr_left ?_
  cases hphase : s.request with
  | unblocking request target found => simp [eq_comm]
  | idle => simp
  | installing block => simp
  | recording block => simp
  | reading clientSid request => simp
  | auditing request outcome => simp

/-- A thread that is changed does not touch the threads in other stages. -/
theorem mem_setThread_of_ne (hget : s.expiries[thread]? = some expiry) (hmem : other ∈ s.expiries)
    (hne : other ≠ expiry) : other ∈ (s.setThread thread expiry stage).expiries := by
  obtain ⟨i, hi⟩ := List.getElem?_of_mem hmem
  have hit : thread ≠ i := by
    rintro rfl
    rw [hget, Option.some_inj] at hi
    exact hne hi.symm
  apply List.mem_of_getElem? (i := i)
  rw [BlockState.setThread, List.getElem?_set_ne hit, hi]

/-- The thread that is changed is in its new stage. -/
theorem mem_setThread_self (hget : s.expiries[thread]? = some expiry) :
    { expiry with closing := { expiry.closing with stage := stage } } ∈
      (s.setThread thread expiry stage).expiries := by
  apply List.mem_of_getElem? (i := thread)
  obtain ⟨hlt, -⟩ := List.getElem?_eq_some_iff.mp hget
  rw [BlockState.setThread, List.getElem?_set_self hlt]

/-- A change of a thread keeps what others are marking. -/
theorem isMarking_setThread (h : s.IsMarking id) (hget : s.expiries[thread]? = some expiry)
    (hother : expiry.closing.stage = .marking → expiry.closing.rollbackId ≠ id) :
    (s.setThread thread expiry stage).IsMarking id := by
  obtain ⟨closing, hmem, hmarking, hid⟩ := h
  refine ⟨closing, mem_closings.mpr ?_, hmarking, hid⟩
  rcases mem_closings.mp hmem with hrequest | ⟨other, hthread, hclosing⟩
  · exact Or.inl hrequest
  · refine Or.inr ⟨other, mem_setThread_of_ne hget hthread ?_, hclosing⟩
    rintro rfl
    rw [hclosing] at hother
    exact hother hmarking hid

/-- The next phase of the request does not matter to what the threads are marking. -/
theorem isMarking_advance (h : s.IsMarking id)
    (hrequest : ∀ request target closing, s.request = .unblocking request target closing →
      closing.stage = .marking → closing.rollbackId ≠ id)
    (hthreads : ∀ expiry ∈ s.expiries, expiry ∈ t.expiries) : t.IsMarking id := by
  obtain ⟨closing, hmem, hmarking, hid⟩ := h
  refine ⟨closing, mem_closings.mpr (Or.inr ?_), hmarking, hid⟩
  rcases mem_closings.mp hmem with ⟨request, target, hphase⟩ | ⟨expiry, hthread, hclosing⟩
  · exact absurd hid (hrequest request target closing hphase hmarking)
  · exact ⟨expiry, hthreads expiry hthread, hclosing⟩

/-- The request moves on without having removed a rule. -/
theorem Undoable.advance (h : Undoable s)
    (hrequest : ∀ request target closing, s.request = .unblocking request target closing →
      closing.stage ≠ .marking)
    (hrows : t.rollbacks = s.rollbacks) (hrules : ∀ rule ∈ s.firewall, rule ∈ t.firewall)
    (hthreads : t.expiries = s.expiries) : Undoable t := by
  intro id row hrow hblock hopen
  rw [hrows] at hrow
  refine (h id row hrow hblock hopen).imp (hrules _) fun hmarking => ?_
  apply isMarking_advance hmarking
  · intro request target closing hphase hstage
    exact absurd hstage (hrequest request target closing hphase)
  · intro expiry hmem
    exact hthreads ▸ hmem

/-- A thread that has not removed a rule moves on. -/
theorem Undoable.setThread (h : Undoable s) (hget : s.expiries[thread]? = some expiry)
    (hstage : expiry.closing.stage ≠ .marking) (stage : ClosingStage) :
    Undoable (s.setThread thread expiry stage) := by
  intro id row hrow hblock hopen
  refine (h id row hrow hblock hopen).imp_right fun hmarking => ?_
  exact isMarking_setThread hmarking hget fun hmarked => absurd hmarked hstage

/-- Without a fault, a valid closing closes its record. -/
theorem not_isOpen_of_close (hs : Consistent s) (hvalid : closing.Valid s.firewall s.rollbacks)
    {marked : Except StorageError Bool} (hclose : s.close now none closing = (marked, t))
    {row : OwnedResponseRollback} (hrow : t.rollbacks.lookup closing.rollbackId = some row) :
    ¬ IsOpen row := by
  rcases BlockState.close_cases hclose with ⟨-, old, -, -, -, rfl⟩ | ⟨hmarked, rfl⟩
  · rw [AList.lookup_insert, Option.some_inj] at hrow
    rw [← hrow]
    exact Option.some_ne_none _
  · intro hopen
    obtain ⟨row', hrow', -, howner⟩ := hvalid.row
    rw [hrow, Option.some_inj] at hrow'
    subst hrow'
    apply hmarked
    have hmark : markResponseRestored none row.ownerSid closing.rollbackId now.unixTimestamp
        t.rollbacks = _ := markResponseRestored_none hrow hopen
    rw [howner] at hmark
    rw [BlockState.close, hmark] at hclose
    exact (Prod.mk.inj hclose).1.symm

/-- The other records are as before a record was closed. -/
theorem lookup_of_close {marked : Except StorageError Bool}
    (hclose : s.close now fault closing = (marked, t)) (hne : id ≠ closing.rollbackId) :
    t.rollbacks.lookup id = s.rollbacks.lookup id := by
  rcases BlockState.close_cases hclose with ⟨-, row, -, -, -, rfl⟩ | ⟨-, rfl⟩
  · exact AList.lookup_insert_ne hne
  · rfl

/-- Nothing is in progress in a stopped service after a step either. -/
theorem quietWhenStopped_step (h : QuietWhenStopped s) (hstep : s.step action = some t) :
    QuietWhenStopped t := by
  cases action with
  | start now fault spawned =>
      obtain ⟨-, rfl | ⟨active, -, rfl⟩⟩ := BlockState.start_cases hstep
      · exact h
      · exact fun hstopped => by cases hstopped
  | crash =>
      obtain ⟨-, rfl⟩ := BlockState.crash_cases hstep
      exact fun _ => ⟨rfl, rfl⟩
  | submit clientSid request rollbackId =>
      obtain ⟨hrunning, -, ⟨error, rfl⟩ | ⟨-, pid, duration, rfl⟩ | rfl⟩ :=
        BlockState.submit_cases hstep
      · exact fun hstopped => absurd hstopped (by simp [BlockState.answer, hrunning])
      · exact fun hstopped => absurd hstopped (by simp [hrunning])
      · exact fun hstopped => absurd hstopped (by simp [hrunning])
  | install tools =>
      have hinstall : s.install tools = some t := hstep
      obtain ⟨block, hphase, ⟨error, rfl⟩ | ⟨-, rule, rfl⟩⟩ := BlockState.install_cases hinstall
      · exact fun hstopped => ⟨rfl, (h hstopped).2⟩
      · exact fun hstopped => absurd (h hstopped).1 (by simp [hphase])
  | record now fault spawned =>
      obtain ⟨block, hphase, ⟨-, error, rfl⟩ | rfl⟩ := BlockState.record_cases hstep
      · exact fun hstopped => ⟨rfl, (h hstopped).2⟩
      · exact fun hstopped => absurd (h hstopped).1 (by simp [hphase])
  | read fault =>
      obtain ⟨clientSid, request, hphase, ⟨error, rfl⟩ | ⟨rollback, -, -, rfl⟩⟩ :=
        BlockState.read_cases hstep
      · exact fun hstopped => ⟨rfl, (h hstopped).2⟩
      · exact fun hstopped => absurd (h hstopped).1 (by simp [hphase])
  | remove netsh =>
      obtain ⟨request, target, closing, hphase, -, ⟨error, rfl⟩ | rfl⟩ :=
        BlockState.remove_cases hstep
      · exact fun hstopped => ⟨rfl, (h hstopped).2⟩
      · exact fun hstopped => absurd (h hstopped).1 (by simp [hphase])
  | mark now fault =>
      obtain ⟨request, target, closing, marked, after, hphase, -, hclose, hcases⟩ :=
        BlockState.mark_cases hstep
      have hrunning : s.running = true := by
        by_contra hstopped
        exact absurd (h ((Bool.not_eq_true _).mp hstopped)).1 (by simp [hphase])
      rw [← (BlockState.sameActors_of_close hclose).running] at hrunning
      rcases hcases with ⟨error, -, rfl⟩ | ⟨found, -, rfl⟩
      · exact fun hstopped => absurd hstopped (by simp [BlockState.answer, hrunning])
      · exact fun hstopped => absurd hstopped (by simp [hrunning])
  | audit auditEventId =>
      obtain ⟨request, outcome, hphase, ⟨id, -, rfl⟩ | ⟨error, -, rfl⟩⟩ :=
        BlockState.audit_cases hstep
      · exact fun hstopped => ⟨rfl, (h hstopped).2⟩
      · exact fun hstopped => ⟨rfl, (h hstopped).2⟩
  | wake thread now fault =>
      obtain ⟨expiry, hmem, -, -, rfl | rfl⟩ := BlockState.wake_cases hstep
      · exact fun hstopped => absurd hmem (by simp [(h hstopped).2])
      · exact fun hstopped => absurd hmem (by simp [(h hstopped).2])
  | expireRemove thread netsh =>
      obtain ⟨expiry, hmem, -, -, rfl | rfl⟩ := BlockState.expireRemove_cases hstep
      · exact fun hstopped => absurd hmem (by simp [(h hstopped).2])
      · exact fun hstopped => absurd hmem (by simp [(h hstopped).2])
  | expireMark thread now fault =>
      obtain ⟨expiry, hmem, -, -, marked, after, hclose, rfl⟩ := BlockState.expireMark_cases hstep
      intro hstopped
      have hbefore : s.running = false := by
        rw [← (BlockState.sameActors_of_close hclose).running]
        exact hstopped
      exact absurd hmem (by simp [(h hbefore).2])

theorem undoable_start {spawned : String → Bool} (hquiet : QuietWhenStopped s) (h : Undoable s)
    (hstep : s.start now fault spawned = some t) : Undoable t := by
  obtain ⟨hstopped, rfl | ⟨active, -, rfl⟩⟩ := BlockState.start_cases hstep
  · exact h
  · obtain ⟨hidle, hnone⟩ := hquiet hstopped
    intro id row hrow hblock hopen
    left
    refine (h id row hrow hblock hopen).resolve_right ?_
    rintro ⟨closing, hmem, -⟩
    rw [mem_closings, hidle, hnone] at hmem
    simp at hmem

theorem undoable_crash (hkeeps : KeepsMark s .crash) (h : Undoable s)
    (hstep : s.crash = some t) : Undoable t := by
  obtain ⟨-, rfl⟩ := BlockState.crash_cases hstep
  intro id row hrow hblock hopen
  left
  refine (h id row hrow hblock hopen).resolve_right ?_
  rintro ⟨closing, hmem, hmarking, -⟩
  exact hkeeps closing hmem hmarking

theorem undoable_submit {clientSid rollbackId : String} {request : ResponseActionRequest}
    (h : Undoable s) (hstep : s.submit clientSid request rollbackId = some t) : Undoable t := by
  obtain ⟨-, hidle, hcases⟩ := BlockState.submit_cases hstep
  rcases hcases with ⟨error, rfl⟩ | ⟨-, pid, duration, rfl⟩ | rfl
  · exact h.advance (by simp [hidle]) rfl (fun _ hmem => hmem) rfl
  · exact h.advance (by simp [hidle]) rfl (fun _ hmem => hmem) rfl
  · exact h.advance (by simp [hidle]) rfl (fun _ hmem => hmem) rfl

theorem undoable_install {tools : BlockTools} (h : Undoable s)
    (hstep : s.install tools = some t) : Undoable t := by
  obtain ⟨block, hphase, ⟨error, rfl⟩ | ⟨-, rule, rfl⟩⟩ := BlockState.install_cases hstep
  · exact h.advance (by simp [hphase]) rfl (fun _ hmem => hmem) rfl
  · refine h.advance (by simp [hphase]) rfl ?_ rfl
    intro rule' hmem
    exact (AList.mem_insert _).mpr (Or.inr hmem)

theorem undoable_record {spawned : Bool} (hs : Consistent s) (h : Undoable s)
    (hstep : s.record now fault spawned = some t) : Undoable t := by
  obtain ⟨block, hphase, ⟨-, error, rfl⟩ | rfl⟩ := BlockState.record_cases hstep
  · exact h.advance (by simp [hphase]) rfl (fun _ hmem => hmem) rfl
  · have hrequest := hs.request
    rw [hphase] at hrequest
    obtain ⟨-, hmem, -⟩ := hrequest
    intro id row hrow hblock hopen
    rcases Table.lookup_insert_eq_some_iff.mp hrow with ⟨rfl, -⟩ | ⟨-, hrow⟩
    · exact Or.inl hmem
    · refine (h id row hrow hblock hopen).imp_right ?_
      intro hmarking
      apply isMarking_advance hmarking
      · simp [hphase]
      · intro expiry hmem
        exact List.mem_append_left _ hmem

/-- The removal of a rule for a valid closing touches no other rule of a record. -/
theorem mem_erase_of_ne (hvalid : closing.Valid s.firewall s.rollbacks)
    (hmem : ruleName id ∈ s.firewall) (hne : id ≠ closing.rollbackId) :
    ruleName id ∈ s.firewall.erase closing.ruleName := by
  refine AList.mem_erase.mpr ⟨?_, hmem⟩
  rw [hvalid.rule]
  exact fun heq => hne (ruleName_inj heq)

theorem undoable_remove {netsh : Option String} (hs : Consistent s) (h : Undoable s)
    (hstep : s.remove netsh = some t) : Undoable t := by
  obtain ⟨request, target, closing, hphase, hstage, hcases⟩ := BlockState.remove_cases hstep
  have hnot : ∀ request target closing, s.request = .unblocking request target closing →
      closing.stage ≠ .marking := by
    intro request' target' closing' hphase'
    rw [hphase] at hphase'
    cases hphase'
    simp [hstage]
  rcases hcases with ⟨error, rfl⟩ | rfl
  · exact h.advance hnot rfl (fun _ hmem => hmem) rfl
  · have hvalid := hs.request
    rw [hphase] at hvalid
    intro id row hrow hblock hopen
    by_cases hid : id = closing.rollbackId
    · right
      refine ⟨{ closing with stage := .marking }, ?_, rfl, hid.symm⟩
      exact mem_closings.mpr (Or.inl ⟨request, target, rfl⟩)
    · refine (h id row hrow hblock hopen).imp (fun hmem => mem_erase_of_ne hvalid hmem hid) ?_
      intro hmarking
      apply isMarking_advance hmarking
      · intro request target closing hphase hstage
        exact absurd hstage (hnot request target closing hphase)
      · exact fun expiry hmem => hmem

theorem undoable_mark (hs : Consistent s) (hkeeps : KeepsMark s (.mark now fault))
    (h : Undoable s) (hstep : s.mark now fault = some t) : Undoable t := by
  obtain rfl : fault = none := hkeeps
  obtain ⟨request, target, closing, marked, after, hphase, hstage, hclose, hcases⟩ :=
    BlockState.mark_cases hstep
  have hvalid := hs.request
  rw [hphase] at hvalid
  have hsame := BlockState.sameActors_of_close hclose
  have hafter : ∀ t : BlockState, t.rollbacks = after.rollbacks → t.firewall = after.firewall →
      t.expiries = after.expiries → Undoable t := by
    intro t hrows hrules hthreads id row hrow hblock hopen
    rw [hrows] at hrow
    by_cases hid : id = closing.rollbackId
    · rw [hid] at hrow
      exact absurd hopen (not_isOpen_of_close hs hvalid hclose hrow)
    · rw [lookup_of_close hclose hid] at hrow
      rw [hrules, hsame.firewall]
      refine (h id row hrow hblock hopen).imp_right fun hmarking => ?_
      apply isMarking_advance hmarking
      · intro request' target' closing' hphase' _ hid'
        rw [hphase] at hphase'
        cases hphase'
        exact hid hid'.symm
      · intro expiry hmem
        rw [hthreads, hsame.expiries]
        exact hmem
  rcases hcases with ⟨error, -, rfl⟩ | ⟨found, -, rfl⟩
  · exact hafter _ rfl rfl rfl
  · exact hafter _ rfl rfl rfl

theorem undoable_expireRemove {netsh : Option String} (hs : Consistent s) (h : Undoable s)
    (hstep : s.expireRemove thread netsh = some t) : Undoable t := by
  obtain ⟨expiry, hmem, hget, hstage, rfl | rfl⟩ := BlockState.expireRemove_cases hstep
  · exact h.setThread hget (by simp [hstage]) .finished
  · have hvalid := hs.expiries expiry hmem
    intro id row hrow hblock hopen
    by_cases hid : id = expiry.closing.rollbackId
    · right
      refine ⟨{ expiry.closing with stage := .marking }, ?_, rfl, hid.symm⟩
      exact mem_closings.mpr (Or.inr ⟨_, mem_setThread_self hget, rfl⟩)
    · refine (h id row hrow hblock hopen).imp (fun hrule => mem_erase_of_ne hvalid hrule hid) ?_
      intro hmarking
      exact isMarking_setThread hmarking hget fun _ => Ne.symm hid

theorem undoable_expireMark (hs : Consistent s)
    (hkeeps : KeepsMark s (.expireMark thread now fault)) (h : Undoable s)
    (hstep : s.expireMark thread now fault = some t) : Undoable t := by
  obtain rfl : fault = none := hkeeps
  obtain ⟨expiry, hmem, hget, hstage, marked, after, hclose, rfl⟩ :=
    BlockState.expireMark_cases hstep
  have hvalid := hs.expiries expiry hmem
  have hsame := BlockState.sameActors_of_close hclose
  have hgetAfter : after.expiries[thread]? = some expiry := by
    rw [hsame.expiries]
    exact hget
  intro id row hrow hblock hopen
  by_cases hid : id = expiry.closing.rollbackId
  · rw [hid] at hrow
    exact absurd hopen (not_isOpen_of_close hs hvalid hclose hrow)
  · change after.rollbacks.lookup id = some row at hrow
    rw [lookup_of_close hclose hid] at hrow
    change ruleName id ∈ after.firewall ∨ _
    rw [hsame.firewall]
    refine (h id row hrow hblock hopen).imp_right ?_
    rintro ⟨other, hother, hmarking⟩
    refine isMarking_setThread ⟨other, ?_, hmarking⟩ hgetAfter fun _ => Ne.symm hid
    rw [mem_closings] at hother ⊢
    rw [hsame.request, hsame.expiries]
    exact hother

/-- **Every action that closes the record of a removed rule keeps the records undoable.** -/
theorem undoable_step (hs : Consistent s) (hquiet : QuietWhenStopped s)
    (hkeeps : KeepsMark s action) (h : Undoable s) (hstep : s.step action = some t) :
    Undoable t := by
  cases action with
  | start now fault spawned => exact undoable_start hquiet h hstep
  | crash => exact undoable_crash hkeeps h hstep
  | submit clientSid request rollbackId => exact undoable_submit h hstep
  | install tools =>
      have hinstall : s.install tools = some t := hstep
      exact undoable_install h hinstall
  | record now fault spawned => exact undoable_record hs h hstep
  | read fault =>
      obtain ⟨clientSid, request, hphase, ⟨error, rfl⟩ | ⟨rollback, -, -, rfl⟩⟩ :=
        BlockState.read_cases hstep
      · exact h.advance (by simp [hphase]) rfl (fun _ hmem => hmem) rfl
      · exact h.advance (by simp [hphase]) rfl (fun _ hmem => hmem) rfl
  | remove netsh => exact undoable_remove hs h hstep
  | mark now fault => exact undoable_mark hs hkeeps h hstep
  | audit auditEventId =>
      obtain ⟨request, outcome, hphase, ⟨id, -, rfl⟩ | ⟨error, -, rfl⟩⟩ :=
        BlockState.audit_cases hstep
      · exact h.advance (by simp [hphase]) rfl (fun _ hmem => hmem) rfl
      · exact h.advance (by simp [hphase]) rfl (fun _ hmem => hmem) rfl
  | wake thread now fault =>
      obtain ⟨expiry, -, hget, hstage, rfl | rfl⟩ := BlockState.wake_cases hstep
      · exact h.setThread hget (by simp [hstage]) .removing
      · exact h.setThread hget (by simp [hstage]) .finished
  | expireRemove thread netsh => exact undoable_expireRemove hs h hstep
  | expireMark thread now fault => exact undoable_expireMark hs hkeeps h hstep

end undoable

/-! ## A request when everything works again -/

/-- A request that passes the checks and asks to undo the block with the id. -/
structure AsksToUnblock (request : ResponseActionRequest) (id : String) : Prop where
  check : checkResponse request = .ok ()
  action : request.action = .unblockRemoteAddress
  rollbackId : request.rollbackId = id

/-- The calls of such a request, when none of them fails. -/
def unblockActions (clientSid : String) (request : ResponseActionRequest) (now : Clock)
    (auditEventId : ℤ) : List BlockAction :=
  [.submit clientSid request "", .read none, .remove none, .mark now none,
    .audit (.ok auditEventId)]

/-- The request succeeds and closes the record. -/
def Unblocks (s : BlockState) (clientSid : String) (request : ResponseActionRequest) (now : Clock)
    (auditEventId : ℤ) : Prop :=
  ∃ t result row,
    run BlockState.step s (unblockActions clientSid request now auditEventId) = some t ∧
      t.answered = (none, .ok result) :: s.answered ∧
      t.rollbacks.lookup request.rollbackId = some row ∧ ¬ IsOpen row

/-- The owner of an open record can undo it, whenever and however the request is made. -/
def CanUndo (s : BlockState) (id : String) : Prop :=
  ∀ row request now auditEventId, s.rollbacks.lookup id = some row → IsBlock row → IsOpen row →
    AsksToUnblock request id → Unblocks s row.ownerSid request now auditEventId

section unblock

variable {s : BlockState} {request : ResponseActionRequest} {id : String}
  {row : OwnedResponseRollback} {now : Clock} {auditEventId : ℤ}

/-- The request reads the open record of its client and goes on to remove the rule. -/
theorem run_submit_read (hrunning : s.running = true) (hidle : s.request = .idle)
    (hrow : s.rollbacks.lookup id = some row) (hblock : IsBlock row) (hopen : IsOpen row)
    (hasks : AsksToUnblock request id) (actions : List BlockAction) :
    run BlockState.step s (.submit row.ownerSid request "" :: .read none :: actions) =
      run BlockState.step
        { s with
          request := .unblocking request row.rollback.target
            ⟨row.ownerSid, row.rollback.id, row.rollback.payload, .removing⟩ } actions := by
  have hsubmit : s.submit row.ownerSid request "" =
      some { s with request := .reading row.ownerSid request } := by
    simp [BlockState.submit, hrunning, hidle, hasks.check, hasks.action]
  have hread : ({ s with request := .reading row.ownerSid request } : BlockState).read none =
      some { s with
        request := .unblocking request row.rollback.target
          ⟨row.ownerSid, row.rollback.id, row.rollback.payload, .removing⟩ } := by
    have hfound := responseRollback_none hrow hopen
    rw [← hasks.rollbackId] at hfound
    have haction : (some row.rollback).filter (·.action == blockAction) = some row.rollback := by
      rw [Option.filter_some, if_pos]
      exact beq_iff_eq.mpr hblock
    simp only [BlockState.read, hfound, haction]
  rw [run_cons, BlockState.step, hsubmit, Option.bind_some, run_cons, BlockState.step, hread,
    Option.bind_some]

/-- **When a request undoes an open record**: exactly when its rule is still there. -/
theorem unblocks_iff (hs : Consistent s) (hrunning : s.running = true) (hidle : s.request = .idle)
    (hrow : s.rollbacks.lookup id = some row) (hblock : IsBlock row) (hopen : IsOpen row)
    (hasks : AsksToUnblock request id) :
    Unblocks s row.ownerSid request now auditEventId ↔ row.rollback.payload ∈ s.firewall := by
  obtain ⟨hid, hpayload⟩ := hs.stores.payload id row hrow hblock
  have hvalid : validateRuleName row.rollback.payload = .ok () := by
    rw [hpayload]
    exact hs.stores.valid id row hrow hblock
  unfold Unblocks unblockActions
  rw [run_submit_read hrunning hidle hrow hblock hopen hasks, run_cons, BlockState.step]
  by_cases hmem : row.rollback.payload ∈ s.firewall
  · have hremove : removeFirewallRule none row.rollback.payload s.firewall =
        (.ok (), s.firewall.erase row.rollback.payload) := by
      simp [removeFirewallRule, hvalid, hmem]
    have hmark : markResponseRestored none row.ownerSid row.rollback.id now.unixTimestamp
        s.rollbacks = (.ok true, s.rollbacks.insert row.rollback.id
          (row.close now.unixTimestamp)) := by
      apply markResponseRestored_none _ hopen
      rw [← hrow]
      exact congrArg s.rollbacks.lookup hid
    refine iff_of_true ⟨{ s with
        firewall := s.firewall.erase row.rollback.payload
        rollbacks := s.rollbacks.insert row.rollback.id (row.close now.unixTimestamp)
        request := .idle
        closed := row.rollback.id :: s.closed
        answered := (none, .ok ((unblockOutcome row.rollback.target).result request.action
          auditEventId)) :: s.answered }, _, row.close now.unixTimestamp, ?_, rfl, ?_,
      Option.some_ne_none _⟩ hmem
    · simp only [BlockState.remove, hremove, if_true, Option.bind_some, run_cons, BlockState.step,
        BlockState.mark, BlockState.close, hmark, BlockState.audit, run_nil]
      rfl
    · rw [hasks.rollbackId, ← hid]
      exact AList.lookup_insert _
  · have hremove : removeFirewallRule none row.rollback.payload s.firewall =
        (.error (.api
          "remove temporary firewall rule: No rules match the specified criteria."),
          s.firewall) := by
      simp [removeFirewallRule, hvalid, hmem]
    refine iff_of_false ?_ hmem
    rintro ⟨t, result, after, hrun, -⟩
    simp [BlockState.remove, hremove, BlockState.answer, run_cons, BlockState.step,
      BlockState.mark] at hrun

/-- **An open record can be undone.** In every reachable state that waits for a request, the owner's
request undoes an open record if and only if its rule is still there; and it is, or a thread is
just closing the record, in every run that closes the record of each removed rule and does not crash
before. -/
theorem open_block_can_be_undone (firewall : Firewall) (rollbacks : Rollbacks)
    (h : NoBlocks rollbacks) (actions : List BlockAction) (s : BlockState)
    (hrun : run BlockState.step (.stopped firewall rollbacks) actions = some s)
    (hrunning : s.running = true) (hidle : s.request = .idle) :
    (∀ id row request now auditEventId, s.rollbacks.lookup id = some row → IsBlock row →
        IsOpen row → AsksToUnblock request id →
        (Unblocks s row.ownerSid request now auditEventId ↔
          row.rollback.payload ∈ s.firewall)) ∧
      (StepsMeet KeepsMark BlockState.step (.stopped firewall rollbacks) actions →
        ∀ id, ¬ s.IsMarking id → CanUndo s id) := by
  have hconsistent := consistent_run h hrun
  refine ⟨fun id row request now auditEventId hrow hblock hopen hasks =>
    unblocks_iff hconsistent hrunning hidle hrow hblock hopen hasks, ?_⟩
  intro hmeet id hmarking row request now auditEventId hrow hblock hopen hasks
  have hstep : ∀ s action t, (Consistent s ∧ QuietWhenStopped s) ∧ Undoable s →
      KeepsMark s action → BlockState.step s action = some t →
      (Consistent t ∧ QuietWhenStopped t) ∧ Undoable t := by
    rintro s action t ⟨⟨hs, hquiet⟩, hundoable⟩ hkeeps hstep
    exact ⟨⟨consistent_step action hs hstep, quietWhenStopped_step hquiet hstep⟩,
      undoable_step hs hquiet hkeeps hundoable hstep⟩
  have hstart : (Consistent (.stopped firewall rollbacks) ∧
      QuietWhenStopped (.stopped firewall rollbacks)) ∧
        Undoable (.stopped firewall rollbacks) :=
    ⟨⟨consistent_stopped h, fun _ => ⟨rfl, rfl⟩⟩,
      fun id row hrow hblock => absurd hblock (h id row hrow)⟩
  have hundoable := (run_invariant_of_meets hstep hstart hmeet hrun).2
  apply (unblocks_iff hconsistent hrunning hidle hrow hblock hopen hasks).mpr
  rw [(hconsistent.stores.payload id row hrow hblock).2]
  exact (hundoable id row hrow hblock hopen).resolve_right hmarking

/-- No step of the sample loses the closing of a record. -/
theorem keepsMark_sampleBlocked :
    StepsMeet KeepsMark BlockState.step (.stopped ∅ ∅) sampleBlocked := by
  apply StepsMeet.of_forall
  intro action hmem s
  simp only [sampleBlocked, List.mem_cons, List.not_mem_nil, or_false] at hmem
  rcases hmem with rfl | rfl | rfl | rfl | rfl <;> simp [KeepsMark]

/-- `open_block_can_be_undone` for a block in force. -/
theorem open_block_can_be_undone_blocked : CanUndo blockedState "a1" := by
  obtain ⟨hrunning, hidle, hthreads⟩ := blockedState_waits
  refine (open_block_can_be_undone ∅ ∅ (fun id row hrow => by cases hrow) sampleBlocked
    blockedState run_sampleBlocked hrunning hidle).2 keepsMark_sampleBlocked "a1" ?_
  rintro ⟨closing, hmem, hmarking, -⟩
  rcases mem_closings.mp hmem with ⟨request, target, hphase⟩ | ⟨expiry, hthread, rfl⟩
  · rw [hidle] at hphase
    cases hphase
  · exact hthreads expiry hthread hmarking

/-- A request removes the rule and then cannot close the record. -/
def sampleStuck : List BlockAction :=
  sampleBlocked ++
    [.submit "S-1-5-21-1" sampleUnblock "", .read none, .remove none,
      .mark ⟨60000000000, 1760000060⟩ (some (.database "database is locked"))]

/-- The request again, when everything works. -/
def sampleRetry : List BlockAction :=
  [.submit "S-1-5-21-1" sampleUnblock "", .read none, .remove none]

/-- Whether the service waits for a request, its last answer, and when the record of the sample was
closed. -/
structure BlockView where
  waits : Bool
  answer : Option (Option String × Except ApiError ResponseActionResult)
  restoredAt : Option (Option String)
  deriving DecidableEq

/-- What there is to see of the sample in a state. -/
def BlockState.view (s : BlockState) : BlockView where
  waits := s.running && s.request == .idle
  answer := s.answered.head?
  restoredAt := (s.rollbacks.lookup "a1").map (·.rollback.restoredAt)

/-- The error calls the attempt retryable, but the next attempt fails although everything works,
since there is no rule to remove, and the record stays open. -/
theorem stuck_record :
    (run BlockState.step (.stopped ∅ ∅) sampleStuck).map BlockState.view = some
        { waits := true
          answer := some (none, .error
            ⟨.internal, "Complete firewall rollback: database error: database is locked", true⟩)
          restoredAt := some none } ∧
      (run BlockState.step (.stopped ∅ ∅) (sampleStuck ++ sampleRetry)).map BlockState.view = some
        { waits := true
          answer := some (none, .error
            ⟨.conflict, "Windows API failed: remove temporary firewall rule: " ++
              "No rules match the specified criteria.", false⟩)
          restoredAt := some none } := by
  decide +kernel

end unblock

end OpenGuard.Service
