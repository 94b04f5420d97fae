import OpenGuard.Service.Blocks

/-!
# The invariant of the network blocks

What holds of both stores and of all actors in every reachable state, whatever fails and whenever
the service crashes.

* `Consistent`: the invariant; `consistent_step` and `consistent_run`.
* `block_undone_before_closed`: a record is closed after its rule is gone, it is reported closed
  once, and a step removes only the rule of the record that it works on.
-/

namespace OpenGuard.Service

open OpenGuard.Lib OpenGuard.Domain OpenGuard.Storage OpenGuard.Windows

/-! ## What holds of the stores -/

/-- The record of a block. -/
def IsBlock (row : OwnedResponseRollback) : Prop := row.rollback.action = blockAction

/-- The record can still be undone. -/
def IsOpen (row : OwnedResponseRollback) : Prop := row.rollback.restoredAt = none

/-- The record of a block is that of a drawn id and names its rule, whose name is valid; a closed
record's rule is gone; and no record is reported closed twice. -/
structure StoresConsistent (firewall : Firewall) (rollbacks : Rollbacks)
    (drawn closed : List String) : Prop where
  drawn : ∀ id row, rollbacks.lookup id = some row → IsBlock row → id ∈ drawn
  payload : ∀ id row, rollbacks.lookup id = some row → IsBlock row →
    row.rollback.id = id ∧ row.rollback.payload = ruleName id
  valid : ∀ id row, rollbacks.lookup id = some row → IsBlock row →
    validateRuleName (ruleName id) = .ok ()
  undone : ∀ id row, rollbacks.lookup id = some row → IsBlock row → ¬ IsOpen row →
    ruleName id ∉ firewall
  nodup : closed.Nodup
  closed : ∀ id ∈ closed, ∃ row, rollbacks.lookup id = some row ∧ ¬ IsOpen row

section stores

variable {firewall : Firewall} {rollbacks : Rollbacks} {drawn closed : List String}
  {id ownerSid restoredAt : String} {row : OwnedResponseRollback}

/-- A further id is drawn. -/
theorem StoresConsistent.draw (h : StoresConsistent firewall rollbacks drawn closed) :
    StoresConsistent firewall rollbacks (id :: drawn) closed where
  drawn id' row hrow hblock := List.mem_cons_of_mem id (h.drawn id' row hrow hblock)
  payload := h.payload
  valid := h.valid
  undone := h.undone
  nodup := h.nodup
  closed := h.closed

/-- A rule of an id without a record is installed. -/
theorem StoresConsistent.install (h : StoresConsistent firewall rollbacks drawn closed)
    (hnone : rollbacks.lookup id = none) (rule : FirewallRule) :
    StoresConsistent (firewall.insert (ruleName id) rule) rollbacks drawn closed where
  drawn := h.drawn
  payload := h.payload
  valid := h.valid
  undone id' row hrow hblock hopen := by
    intro hmem
    rcases (AList.mem_insert _).mp hmem with heq | hmem
    · rw [ruleName_inj heq, hnone] at hrow
      cases hrow
    · exact h.undone id' row hrow hblock hopen hmem
  nodup := h.nodup
  closed := h.closed

/-- A rule is removed. -/
theorem StoresConsistent.erase (h : StoresConsistent firewall rollbacks drawn closed)
    (rule : String) : StoresConsistent (firewall.erase rule) rollbacks drawn closed where
  drawn := h.drawn
  payload := h.payload
  valid := h.valid
  undone id' row hrow hblock hopen hmem :=
    h.undone id' row hrow hblock hopen (AList.mem_erase.mp hmem).2
  nodup := h.nodup
  closed := h.closed

/-- The record of an installed rule is inserted. -/
theorem StoresConsistent.record (h : StoresConsistent firewall rollbacks drawn closed)
    {block : PendingBlock} {now : Clock} (hnone : rollbacks.lookup block.rollbackId = none)
    (hdrawn : block.rollbackId ∈ drawn)
    (hvalid : validateRuleName (ruleName block.rollbackId) = .ok ()) :
    StoresConsistent firewall
      (rollbacks.insert block.rollbackId ⟨ownerSid, block.rollback now⟩) drawn closed := by
  refine ⟨?_, ?_, ?_, ?_, h.nodup, ?_⟩
  · intro id row hrow hblock
    rcases Table.lookup_insert_eq_some_iff.mp hrow with ⟨rfl, -⟩ | ⟨-, hrow⟩
    · exact hdrawn
    · exact h.drawn id row hrow hblock
  · intro id row hrow hblock
    rcases Table.lookup_insert_eq_some_iff.mp hrow with ⟨rfl, rfl⟩ | ⟨-, hrow⟩
    · exact ⟨rfl, rfl⟩
    · exact h.payload id row hrow hblock
  · intro id row hrow hblock
    rcases Table.lookup_insert_eq_some_iff.mp hrow with ⟨rfl, -⟩ | ⟨-, hrow⟩
    · exact hvalid
    · exact h.valid id row hrow hblock
  · intro id row hrow hblock hopen
    rcases Table.lookup_insert_eq_some_iff.mp hrow with ⟨-, rfl⟩ | ⟨-, hrow⟩
    · exact absurd rfl hopen
    · exact h.undone id row hrow hblock hopen
  · intro id hid
    obtain ⟨row, hrow, hopen⟩ := h.closed id hid
    refine ⟨row, ?_, hopen⟩
    rw [AList.lookup_insert_ne, hrow]
    rintro rfl
    rw [hnone] at hrow
    cases hrow

/-- A record whose rule is gone is closed. -/
theorem StoresConsistent.close (h : StoresConsistent firewall rollbacks drawn closed)
    (hrow : rollbacks.lookup id = some row) (hopen : IsOpen row)
    (hgone : ruleName id ∉ firewall) :
    StoresConsistent firewall (rollbacks.insert id (row.close restoredAt)) drawn
      (id :: closed) := by
  refine ⟨?_, ?_, ?_, ?_, ?_, ?_⟩
  · intro id' row' hrow' hblock
    rcases Table.lookup_insert_eq_some_iff.mp hrow' with ⟨rfl, rfl⟩ | ⟨-, hrow'⟩
    · exact h.drawn id' row hrow hblock
    · exact h.drawn id' row' hrow' hblock
  · intro id' row' hrow' hblock
    rcases Table.lookup_insert_eq_some_iff.mp hrow' with ⟨rfl, rfl⟩ | ⟨-, hrow'⟩
    · exact h.payload id' row hrow hblock
    · exact h.payload id' row' hrow' hblock
  · intro id' row' hrow' hblock
    rcases Table.lookup_insert_eq_some_iff.mp hrow' with ⟨rfl, rfl⟩ | ⟨-, hrow'⟩
    · exact h.valid id' row hrow hblock
    · exact h.valid id' row' hrow' hblock
  · intro id' row' hrow' hblock hopen'
    rcases Table.lookup_insert_eq_some_iff.mp hrow' with ⟨rfl, -⟩ | ⟨-, hrow'⟩
    · exact hgone
    · exact h.undone id' row' hrow' hblock hopen'
  · refine List.nodup_cons.mpr ⟨fun hmem => ?_, h.nodup⟩
    obtain ⟨row', hrow', hclosed⟩ := h.closed id hmem
    rw [hrow, Option.some_inj] at hrow'
    exact hclosed (hrow' ▸ hopen)
  · intro id' hmem
    by_cases hid : id' = id
    · exact ⟨_, by rw [hid, AList.lookup_insert], by simp [IsOpen, OwnedResponseRollback.close]⟩
    · rw [AList.lookup_insert_ne hid]
      exact h.closed id' ((List.mem_cons.mp hmem).resolve_left hid)

end stores

/-! ## What holds of the actors -/

/-- The record of the closing is there, and its rule is gone when only the record is left to be
closed. -/
structure Closing.Valid (firewall : Firewall) (rollbacks : Rollbacks) (closing : Closing) :
    Prop where
  row : ∃ row, rollbacks.lookup closing.rollbackId = some row ∧ IsBlock row ∧
    row.ownerSid = closing.ownerSid
  rule : closing.ruleName = Service.ruleName closing.rollbackId
  gone : closing.stage = .marking → closing.ruleName ∉ firewall

/-- A drawn id that has neither a record nor an answer yet. -/
structure IsPending (rollbacks : Rollbacks) (drawn : List String)
    (answered : List (Option String × Except ApiError ResponseActionResult)) (id : String) :
    Prop where
  drawn : id ∈ drawn
  unrecorded : rollbacks.lookup id = none
  unanswered : ∀ response, (some id, response) ∉ answered

/-- What holds in each phase of a request. -/
def RequestPhase.Valid (firewall : Firewall) (rollbacks : Rollbacks) (drawn : List String)
    (answered : List (Option String × Except ApiError ResponseActionResult)) :
    RequestPhase → Prop
  | .installing block =>
      IsPending rollbacks drawn answered block.rollbackId ∧ ruleName block.rollbackId ∉ firewall
  | .recording block =>
      IsPending rollbacks drawn answered block.rollbackId ∧
        ruleName block.rollbackId ∈ firewall ∧
        validateRuleName (ruleName block.rollbackId) = .ok ()
  | .unblocking _ _ closing => closing.Valid firewall rollbacks
  | .auditing _ outcome => ∀ id, outcome.rollbackId = some id → id ∈ drawn
  | _ => True

/-- The records of blocks stay with their owners, and no rule of one of them comes back. -/
structure Grows (firewall : Firewall) (rollbacks : Rollbacks) (firewall' : Firewall)
    (rollbacks' : Rollbacks) : Prop where
  rows : ∀ id row, rollbacks.lookup id = some row → IsBlock row →
    ∃ row', rollbacks'.lookup id = some row' ∧ IsBlock row' ∧ row'.ownerSid = row.ownerSid
  rules : ∀ id row, rollbacks.lookup id = some row → IsBlock row →
    ruleName id ∈ firewall' → ruleName id ∈ firewall

/-- Nothing happens to an id that has no record. -/
structure LeavesPending (firewall : Firewall) (rollbacks : Rollbacks) (firewall' : Firewall)
    (rollbacks' : Rollbacks) : Prop where
  rows : ∀ id, rollbacks.lookup id = none → rollbacks'.lookup id = none
  rules : ∀ id, rollbacks.lookup id = none → (ruleName id ∈ firewall' ↔ ruleName id ∈ firewall)

section actors

variable {firewall firewall' : Firewall} {rollbacks rollbacks' : Rollbacks}
  {drawn closed : List String}
  {answered : List (Option String × Except ApiError ResponseActionResult)}
  {id restoredAt : String} {row : OwnedResponseRollback} {closing : Closing}
  {phase : RequestPhase}

theorem Closing.Valid.grows (h : closing.Valid firewall rollbacks)
    (hgrows : Grows firewall rollbacks firewall' rollbacks') :
    closing.Valid firewall' rollbacks' := by
  obtain ⟨row, hrow, hblock, howner⟩ := h.row
  obtain ⟨row', hrow', hblock', howner'⟩ := hgrows.rows _ row hrow hblock
  refine ⟨⟨row', hrow', hblock', howner'.trans howner⟩, h.rule, ?_⟩
  intro hstage hmem
  have hgone := h.gone hstage
  rw [h.rule] at hmem hgone
  exact hgone (hgrows.rules _ row hrow hblock hmem)

theorem RequestPhase.Valid.grows (h : phase.Valid firewall rollbacks drawn answered)
    (hgrows : Grows firewall rollbacks firewall' rollbacks')
    (hleaves : LeavesPending firewall rollbacks firewall' rollbacks') :
    phase.Valid firewall' rollbacks' drawn answered := by
  cases phase with
  | idle => trivial
  | installing block =>
      obtain ⟨hpending, habsent⟩ := h
      have hunrecorded := hpending.unrecorded
      exact ⟨⟨hpending.drawn, hleaves.rows _ hunrecorded, hpending.unanswered⟩,
        fun hmem => habsent ((hleaves.rules _ hunrecorded).mp hmem)⟩
  | recording block =>
      obtain ⟨hpending, hpresent, hvalid⟩ := h
      have hunrecorded := hpending.unrecorded
      exact ⟨⟨hpending.drawn, hleaves.rows _ hunrecorded, hpending.unanswered⟩,
        (hleaves.rules _ hunrecorded).mpr hpresent, hvalid⟩
  | reading clientSid request => trivial
  | unblocking request target closing => exact Closing.Valid.grows h hgrows
  | auditing request outcome => exact h

theorem Grows.refl (firewall : Firewall) (rollbacks : Rollbacks) :
    Grows firewall rollbacks firewall rollbacks :=
  ⟨fun _ row hrow hblock => ⟨row, hrow, hblock, rfl⟩, fun _ _ _ _ hmem => hmem⟩

theorem LeavesPending.refl (firewall : Firewall) (rollbacks : Rollbacks) :
    LeavesPending firewall rollbacks firewall rollbacks :=
  ⟨fun _ hnone => hnone, fun _ _ => Iff.rfl⟩

theorem Grows.install (hnone : rollbacks.lookup id = none) (rule : FirewallRule) :
    Grows firewall rollbacks (firewall.insert (ruleName id) rule) rollbacks := by
  refine ⟨(Grows.refl firewall rollbacks).rows, ?_⟩
  intro id' row hrow _ hmem
  rcases (AList.mem_insert _).mp hmem with heq | hmem
  · rw [ruleName_inj heq, hnone] at hrow
    cases hrow
  · exact hmem

theorem Grows.erase (rule : String) :
    Grows firewall rollbacks (firewall.erase rule) rollbacks :=
  ⟨(Grows.refl firewall rollbacks).rows, fun _ _ _ _ hmem => (AList.mem_erase.mp hmem).2⟩

theorem Grows.insert (hkeeps : ∀ old, rollbacks.lookup id = some old → IsBlock old →
      IsBlock row ∧ row.ownerSid = old.ownerSid) :
    Grows firewall rollbacks firewall (rollbacks.insert id row) := by
  refine ⟨?_, fun _ _ _ _ hmem => hmem⟩
  intro id' old hrow hblock
  by_cases hid : id' = id
  · subst hid
    exact ⟨row, AList.lookup_insert _, hkeeps old hrow hblock⟩
  · exact ⟨old, by rw [AList.lookup_insert_ne hid, hrow], hblock, rfl⟩

/-- The removal of the rule of a record leaves the pending ids alone. -/
theorem Closing.Valid.leavesPending_erase (h : closing.Valid firewall rollbacks) :
    LeavesPending firewall rollbacks (firewall.erase closing.ruleName) rollbacks := by
  refine ⟨fun _ hnone => hnone, ?_⟩
  intro id hnone
  rw [AList.mem_erase, and_iff_right_iff_imp, h.rule]
  intro _ heq
  obtain ⟨row, hrow, -⟩ := h.row
  rw [← ruleName_inj heq, hnone] at hrow
  cases hrow

theorem LeavesPending.insert (hrow : rollbacks.lookup id = some row)
    (row' : OwnedResponseRollback) :
    LeavesPending firewall rollbacks firewall (rollbacks.insert id row') := by
  refine ⟨?_, fun _ _ => Iff.rfl⟩
  intro id' hnone
  rw [AList.lookup_insert_ne, hnone]
  rintro rfl
  rw [hnone] at hrow
  cases hrow

end actors

section threads

variable {s : BlockState} {now : Clock} {spawned : Bool} {ownerSid id rule : String} {delay : ℕ}
  {thread : ℕ} {expiry new : ExpiryThread} {stage : ClosingStage}

theorem closing_of_mem_schedule
    (h : new ∈ BlockState.scheduleFirewallExpiry now spawned ownerSid id rule delay) :
    new.closing = ⟨ownerSid, id, rule, .waiting⟩ := by
  unfold BlockState.scheduleFirewallExpiry at h
  by_cases hspawned : spawned
  · rw [if_pos hspawned, List.mem_singleton] at h
    rw [h]
  · simp [hspawned] at h

theorem mem_setThread (h : new ∈ (s.setThread thread expiry stage).expiries) :
    new ∈ s.expiries ∨ new.closing = { expiry.closing with stage := stage } := by
  rcases List.mem_or_eq_of_mem_set h with hmem | heq
  · exact Or.inl hmem
  · exact Or.inr (congrArg ExpiryThread.closing heq)

end threads

/-- **What holds of every reachable state.** -/
structure Consistent (s : BlockState) : Prop where
  stores : StoresConsistent s.firewall s.rollbacks s.drawn s.closed
  answered : ∀ id response, (some id, response) ∈ s.answered → id ∈ s.drawn
  request : s.request.Valid s.firewall s.rollbacks s.drawn s.answered
  expiries : ∀ expiry ∈ s.expiries, expiry.closing.Valid s.firewall s.rollbacks

section steps

variable {s t : BlockState} {now : Clock} {fault : Fault} {netsh : Option String} {thread : ℕ}

/-- An answer: the id drawn for it is a drawn id. -/
theorem Consistent.answer (h : Consistent s) {drawn : Option String}
    (hdrawn : ∀ id, drawn = some id → id ∈ s.drawn)
    (response : Except ApiError ResponseActionResult) : Consistent (s.answer drawn response) where
  stores := h.stores
  answered id response' hmem := by
    rcases List.mem_cons.mp hmem with heq | hmem
    · exact hdrawn id (Prod.mk.inj heq).1.symm
    · exact h.answered id response' hmem
  request := trivial
  expiries := h.expiries

/-- A thread goes on in another stage. -/
theorem Consistent.setThread (h : Consistent s) {expiry : ExpiryThread} {stage : ClosingStage}
    (hvalid : Closing.Valid s.firewall s.rollbacks { expiry.closing with stage := stage }) :
    Consistent (s.setThread thread expiry stage) where
  stores := h.stores
  answered := h.answered
  request := h.request
  expiries new hmem := by
    rcases mem_setThread hmem with hmem | heq
    · exact h.expiries new hmem
    · rw [heq]
      exact hvalid

/-- In a stage other than the marking, only the record has to be there. -/
theorem Closing.Valid.setStage {firewall : Firewall} {rollbacks : Rollbacks} {closing : Closing}
    (h : closing.Valid firewall rollbacks) {stage : ClosingStage} (hstage : stage ≠ .marking) :
    Closing.Valid firewall rollbacks { closing with stage := stage } :=
  ⟨h.row, h.rule, fun heq => absurd heq hstage⟩

/-- When its rule is removed, a closing can go on to mark the record. -/
theorem Closing.Valid.erase {firewall : Firewall} {rollbacks : Rollbacks} {closing : Closing}
    (h : closing.Valid firewall rollbacks) :
    Closing.Valid (firewall.erase closing.ruleName) rollbacks
      { closing with stage := .marking } :=
  ⟨h.row, h.rule, fun _ hmem => (AList.mem_erase.mp hmem).1 rfl⟩

theorem consistent_start {spawned : String → Bool} (h : Consistent s)
    (hstep : s.start now fault spawned = some t) : Consistent t := by
  obtain ⟨-, rfl | ⟨active, hactive, rfl⟩⟩ := BlockState.start_cases hstep
  · exact h
  · refine ⟨h.stores, h.answered, h.request, ?_⟩
    intro expiry hmem
    obtain ⟨owned, howned, hmem⟩ := List.mem_flatMap.mp hmem
    rw [closing_of_mem_schedule hmem]
    obtain ⟨id, hrow, hblock, -⟩ := mem_activeResponseRollbacks hactive howned
    obtain ⟨hid, hpayload⟩ := h.stores.payload id owned hrow hblock
    refine ⟨⟨owned, ?_, hblock, rfl⟩, ?_, fun heq => by cases heq⟩
    · rw [← hrow]
      exact congrArg s.rollbacks.lookup hid
    · rw [← hid] at hpayload
      exact hpayload

theorem consistent_crash (h : Consistent s) (hstep : s.crash = some t) : Consistent t := by
  obtain ⟨-, rfl⟩ := BlockState.crash_cases hstep
  exact ⟨h.stores, h.answered, trivial, fun expiry hmem => by cases hmem⟩

theorem consistent_submit {clientSid rollbackId : String} {request : ResponseActionRequest}
    (h : Consistent s) (hstep : s.submit clientSid request rollbackId = some t) :
    Consistent t := by
  obtain ⟨-, -, ⟨error, rfl⟩ | ⟨hfresh, pid, duration, rfl⟩ | rfl⟩ :=
    BlockState.submit_cases hstep
  · exact h.answer (fun id hid => by cases hid) _
  · refine ⟨h.stores.draw, ?_, ?_, h.expiries⟩
    · intro id response hmem
      exact List.mem_cons_of_mem rollbackId (h.answered id response hmem)
    · refine ⟨⟨List.mem_cons_self, hfresh.2.1, ?_⟩, hfresh.2.2⟩
      intro response hmem
      exact hfresh.1 (h.answered rollbackId response hmem)
  · exact ⟨h.stores, h.answered, trivial, h.expiries⟩

theorem consistent_install {tools : BlockTools} (h : Consistent s)
    (hstep : s.install tools = some t) : Consistent t := by
  obtain ⟨block, hphase, hcases⟩ := BlockState.install_cases hstep
  have hrequest := h.request
  rw [hphase] at hrequest
  obtain ⟨hpending, -⟩ := hrequest
  rcases hcases with ⟨error, rfl⟩ | ⟨hvalid, rule, rfl⟩
  · exact h.answer (fun id hid => Option.some.inj hid ▸ hpending.drawn) _
  · refine ⟨h.stores.install hpending.unrecorded rule, h.answered, ?_, ?_⟩
    · exact ⟨hpending, (AList.mem_insert _).mpr (Or.inl rfl), hvalid⟩
    · intro expiry hmem
      exact (h.expiries expiry hmem).grows (Grows.install hpending.unrecorded rule)

theorem consistent_record {spawned : Bool} (h : Consistent s)
    (hstep : s.record now fault spawned = some t) : Consistent t := by
  obtain ⟨block, hphase, hcases⟩ := BlockState.record_cases hstep
  have hrequest := h.request
  rw [hphase] at hrequest
  obtain ⟨hpending, -, hvalid⟩ := hrequest
  rcases hcases with ⟨-, error, rfl⟩ | rfl
  · exact h.answer (fun id hid => Option.some.inj hid ▸ hpending.drawn) _
  · refine ⟨h.stores.record hpending.unrecorded hpending.drawn hvalid, h.answered, ?_, ?_⟩
    · intro id hid
      exact Option.some.inj hid ▸ hpending.drawn
    · intro expiry hmem
      rcases List.mem_append.mp hmem with hmem | hmem
      · refine (h.expiries expiry hmem).grows (Grows.insert ?_)
        intro old hold
        rw [hpending.unrecorded] at hold
        cases hold
      · rw [closing_of_mem_schedule hmem]
        exact ⟨⟨_, AList.lookup_insert _, rfl, rfl⟩, rfl, fun heq => by cases heq⟩

theorem consistent_read (h : Consistent s) (hstep : s.read fault = some t) : Consistent t := by
  obtain ⟨clientSid, request, -, ⟨error, rfl⟩ | ⟨rollback, hrow, hblock, rfl⟩⟩ :=
    BlockState.read_cases hstep
  · exact h.answer (fun id hid => by cases hid) _
  · obtain ⟨hid, hpayload⟩ := h.stores.payload _ _ hrow hblock
    refine ⟨h.stores, h.answered, ?_, h.expiries⟩
    refine ⟨⟨⟨clientSid, rollback⟩, ?_, hblock, rfl⟩, ?_, fun heq => by cases heq⟩
    · rw [← hrow]
      exact congrArg s.rollbacks.lookup hid
    · exact hpayload.trans (congrArg ruleName hid.symm)

theorem consistent_remove (h : Consistent s) (hstep : s.remove netsh = some t) :
    Consistent t := by
  obtain ⟨request, target, closing, hphase, -, hcases⟩ := BlockState.remove_cases hstep
  have hvalid := h.request
  rw [hphase] at hvalid
  rcases hcases with ⟨error, rfl⟩ | rfl
  · exact h.answer (fun id hid => by cases hid) _
  · refine ⟨h.stores.erase _, h.answered, Closing.Valid.erase hvalid, ?_⟩
    intro expiry hmem
    exact (h.expiries expiry hmem).grows (Grows.erase _)

/-- Closing a record whose rule is gone. -/
theorem Consistent.close (h : Consistent s) {closing : Closing}
    (hvalid : closing.Valid s.firewall s.rollbacks) (hstage : closing.stage = .marking)
    {marked : Except StorageError Bool} (hclose : s.close now fault closing = (marked, t)) :
    Consistent t ∧ Grows s.firewall s.rollbacks t.firewall t.rollbacks := by
  rcases BlockState.close_cases hclose with ⟨-, row, hrow, howner, hopen, rfl⟩ | ⟨-, rfl⟩
  · have hgone := hvalid.gone hstage
    rw [hvalid.rule] at hgone
    have hgrows : Grows s.firewall s.rollbacks s.firewall
        (s.rollbacks.insert closing.rollbackId (row.close now.unixTimestamp)) := by
      apply Grows.insert
      intro old hold hblock
      rw [hrow, Option.some_inj] at hold
      exact ⟨hold ▸ hblock, hold ▸ rfl⟩
    refine ⟨⟨h.stores.close hrow hopen hgone, h.answered, ?_, ?_⟩, hgrows⟩
    · exact h.request.grows hgrows (LeavesPending.insert hrow _)
    · intro expiry hmem
      exact (h.expiries expiry hmem).grows hgrows
  · exact ⟨h, Grows.refl _ _⟩

theorem consistent_mark (h : Consistent s) (hstep : s.mark now fault = some t) :
    Consistent t := by
  obtain ⟨request, target, closing, marked, after, hphase, hstage, hclose, hcases⟩ :=
    BlockState.mark_cases hstep
  have hvalid := h.request
  rw [hphase] at hvalid
  have hafter := (h.close hvalid hstage hclose).1
  rcases hcases with ⟨error, -, rfl⟩ | ⟨found, -, rfl⟩
  · exact hafter.answer (fun id hid => by cases hid) _
  · exact ⟨hafter.stores, hafter.answered, (fun id hid => by cases hid), hafter.expiries⟩

theorem consistent_audit {auditEventId : Except StorageError ℤ} (h : Consistent s)
    (hstep : s.audit auditEventId = some t) : Consistent t := by
  obtain ⟨request, outcome, hphase, hcases⟩ := BlockState.audit_cases hstep
  have hrequest := h.request
  rw [hphase] at hrequest
  rcases hcases with ⟨id, -, rfl⟩ | ⟨error, -, rfl⟩
  · exact h.answer hrequest _
  · exact h.answer hrequest _

theorem consistent_wake (h : Consistent s) (hstep : s.wake thread now fault = some t) :
    Consistent t := by
  obtain ⟨expiry, hmem, -, -, rfl | rfl⟩ := BlockState.wake_cases hstep
  · exact h.setThread ((h.expiries expiry hmem).setStage (by simp))
  · exact h.setThread ((h.expiries expiry hmem).setStage (by simp))

theorem consistent_expireRemove (h : Consistent s) (hstep : s.expireRemove thread netsh = some t) :
    Consistent t := by
  obtain ⟨expiry, hmem, -, -, rfl | rfl⟩ := BlockState.expireRemove_cases hstep
  · exact h.setThread ((h.expiries expiry hmem).setStage (by simp))
  · have hvalid := h.expiries expiry hmem
    have hafter : Consistent
        { s with firewall := s.firewall.erase expiry.closing.ruleName } := by
      refine ⟨h.stores.erase _, h.answered, ?_, ?_⟩
      · exact h.request.grows (Grows.erase _) hvalid.leavesPending_erase
      · intro other hother
        exact (h.expiries other hother).grows (Grows.erase _)
    exact hafter.setThread hvalid.erase

theorem consistent_expireMark (h : Consistent s)
    (hstep : s.expireMark thread now fault = some t) : Consistent t := by
  obtain ⟨expiry, hmem, -, hstage, marked, after, hclose, rfl⟩ :=
    BlockState.expireMark_cases hstep
  have hvalid := h.expiries expiry hmem
  obtain ⟨hafter, hgrows⟩ := h.close hvalid hstage hclose
  exact hafter.setThread ((hvalid.grows hgrows).setStage (by simp))

/-- **Every action preserves the invariant.** -/
theorem consistent_step (action : BlockAction) (h : Consistent s)
    (hstep : s.step action = some t) : Consistent t := by
  cases action with
  | start now fault spawned => exact consistent_start h hstep
  | crash => exact consistent_crash h hstep
  | submit clientSid request rollbackId => exact consistent_submit h hstep
  | install tools =>
      have hinstall : s.install tools = some t := hstep
      exact consistent_install h hinstall
  | record now fault spawned => exact consistent_record h hstep
  | read fault => exact consistent_read h hstep
  | remove netsh => exact consistent_remove h hstep
  | mark now fault => exact consistent_mark h hstep
  | audit auditEventId => exact consistent_audit h hstep
  | wake thread now fault => exact consistent_wake h hstep
  | expireRemove thread netsh => exact consistent_expireRemove h hstep
  | expireMark thread now fault => exact consistent_expireMark h hstep

end steps

/-! ## Runs from the start -/

/-- No record of a block is there. -/
def NoBlocks (rollbacks : Rollbacks) : Prop :=
  ∀ id row, rollbacks.lookup id = some row → ¬ IsBlock row

section runs

variable {firewall : Firewall} {rollbacks : Rollbacks} {actions : List BlockAction}
  {s t : BlockState}

theorem consistent_stopped (h : NoBlocks rollbacks) :
    Consistent (.stopped firewall rollbacks) where
  stores :=
    { drawn := fun id row hrow hblock => absurd hblock (h id row hrow)
      payload := fun id row hrow hblock => absurd hblock (h id row hrow)
      valid := fun id row hrow hblock => absurd hblock (h id row hrow)
      undone := fun id row hrow hblock => absurd hblock (h id row hrow)
      nodup := List.nodup_nil
      closed := fun id hmem => by cases hmem }
  answered id response hmem := by cases hmem
  request := trivial
  expiries expiry hmem := by cases hmem

/-- The invariant holds in every reachable state. -/
theorem consistent_run (h : NoBlocks rollbacks)
    (hrun : run BlockState.step (.stopped firewall rollbacks) actions = some s) : Consistent s :=
  run_invariant (fun _ action _ hs hstep => consistent_step action hs hstep) (consistent_stopped h)
    hrun

end runs

/-! ## Undone before closed -/

/-- The record whose rule an action tries to remove. -/
def BlockState.removesFor (s : BlockState) : BlockAction → Option String
  | .remove _ =>
      match s.request with
      | .unblocking _ _ closing => some closing.rollbackId
      | _ => none
  | .expireRemove thread _ => s.expiries[thread]?.map (·.closing.rollbackId)
  | _ => none

/-- A closed record's rule is gone, no record was reported closed twice, and whatever happens next
removes no rule but that of the record it works on. -/
structure UndoneBeforeClosed (s : BlockState) : Prop where
  undone : ∀ id row, s.rollbacks.lookup id = some row → IsBlock row → ¬ IsOpen row →
    row.rollback.payload ∉ s.firewall
  once : ∀ id, s.closed.count id ≤ 1
  only : ∀ action t rule, s.step action = some t → rule ∈ s.firewall → rule ∉ t.firewall →
    ∃ id row, s.removesFor action = some id ∧ s.rollbacks.lookup id = some row ∧ IsBlock row ∧
      row.rollback.payload = rule

section undone

variable {s t : BlockState} {rule : String}

/-- The rule that the removal for a valid closing takes away is that of its record. -/
theorem Closing.Valid.payload_of_erase (h : Consistent s) {closing : Closing}
    (hvalid : closing.Valid s.firewall s.rollbacks) (hmem : rule ∈ s.firewall)
    (hgone : rule ∉ s.firewall.erase closing.ruleName) :
    ∃ row, s.rollbacks.lookup closing.rollbackId = some row ∧ IsBlock row ∧
      row.rollback.payload = rule := by
  obtain ⟨row, hrow, hblock, -⟩ := hvalid.row
  refine ⟨row, hrow, hblock, ?_⟩
  have heq : rule = closing.ruleName := by
    by_contra hne
    exact hgone (AList.mem_erase.mpr ⟨hne, hmem⟩)
  rw [(h.stores.payload _ row hrow hblock).2, heq, hvalid.rule]

/-- A step takes away only the rule of the record it works on. -/
theorem removed_of_step (h : Consistent s) {action : BlockAction} (hstep : s.step action = some t)
    (hmem : rule ∈ s.firewall) (hgone : rule ∉ t.firewall) :
    ∃ id row, s.removesFor action = some id ∧ s.rollbacks.lookup id = some row ∧ IsBlock row ∧
      row.rollback.payload = rule := by
  cases action with
  | start now fault spawned =>
      obtain ⟨-, rfl | ⟨active, -, rfl⟩⟩ := BlockState.start_cases hstep
      · exact absurd hmem hgone
      · exact absurd hmem hgone
  | crash =>
      obtain ⟨-, rfl⟩ := BlockState.crash_cases hstep
      exact absurd hmem hgone
  | submit clientSid request rollbackId =>
      obtain ⟨-, -, ⟨error, rfl⟩ | ⟨-, pid, duration, rfl⟩ | rfl⟩ :=
        BlockState.submit_cases hstep
      · exact absurd hmem hgone
      · exact absurd hmem hgone
      · exact absurd hmem hgone
  | install tools =>
      have hinstall : s.install tools = some t := hstep
      obtain ⟨block, -, ⟨error, rfl⟩ | ⟨-, rule', rfl⟩⟩ := BlockState.install_cases hinstall
      · exact absurd hmem hgone
      · exact absurd ((AList.mem_insert _).mpr (Or.inr hmem)) hgone
  | record now fault spawned =>
      obtain ⟨block, -, ⟨-, error, rfl⟩ | rfl⟩ := BlockState.record_cases hstep
      · exact absurd hmem hgone
      · exact absurd hmem hgone
  | read fault =>
      obtain ⟨clientSid, request, -, ⟨error, rfl⟩ | ⟨rollback, -, -, rfl⟩⟩ :=
        BlockState.read_cases hstep
      · exact absurd hmem hgone
      · exact absurd hmem hgone
  | remove netsh =>
      obtain ⟨request, target, closing, hphase, -, ⟨error, rfl⟩ | rfl⟩ :=
        BlockState.remove_cases hstep
      · exact absurd hmem hgone
      · have hvalid := h.request
        rw [hphase] at hvalid
        obtain ⟨row, hrow⟩ := Closing.Valid.payload_of_erase h hvalid hmem hgone
        exact ⟨closing.rollbackId, row, by simp [BlockState.removesFor, hphase], hrow⟩
  | mark now fault =>
      obtain ⟨request, target, closing, marked, after, -, -, hclose, hcases⟩ :=
        BlockState.mark_cases hstep
      rw [← (BlockState.sameActors_of_close hclose).firewall] at hmem
      rcases hcases with ⟨error, -, rfl⟩ | ⟨found, -, rfl⟩
      · exact absurd hmem hgone
      · exact absurd hmem hgone
  | audit auditEventId =>
      obtain ⟨request, outcome, -, ⟨id, -, rfl⟩ | ⟨error, -, rfl⟩⟩ := BlockState.audit_cases hstep
      · exact absurd hmem hgone
      · exact absurd hmem hgone
  | wake thread now fault =>
      obtain ⟨expiry, -, -, -, rfl | rfl⟩ := BlockState.wake_cases hstep
      · exact absurd hmem hgone
      · exact absurd hmem hgone
  | expireRemove thread netsh =>
      obtain ⟨expiry, hthread, hget, -, rfl | rfl⟩ := BlockState.expireRemove_cases hstep
      · exact absurd hmem hgone
      · obtain ⟨row, hrow⟩ :=
          Closing.Valid.payload_of_erase h (h.expiries expiry hthread) hmem hgone
        exact ⟨expiry.closing.rollbackId, row, by simp [BlockState.removesFor, hget], hrow⟩
  | expireMark thread now fault =>
      obtain ⟨expiry, -, -, -, marked, after, hclose, rfl⟩ := BlockState.expireMark_cases hstep
      rw [← (BlockState.sameActors_of_close hclose).firewall] at hmem
      exact absurd hmem hgone

/-- **A block is undone before its record is closed, and closed once.** In every state that any
order of requests, expiry threads, failures, crashes and restarts reaches. -/
theorem block_undone_before_closed (firewall : Firewall) (rollbacks : Rollbacks)
    (h : NoBlocks rollbacks) (actions : List BlockAction) (s : BlockState)
    (hrun : run BlockState.step (.stopped firewall rollbacks) actions = some s) :
    UndoneBeforeClosed s := by
  have hconsistent := consistent_run h hrun
  refine ⟨?_, ?_, ?_⟩
  · intro id row hrow hblock hclosed
    rw [(hconsistent.stores.payload id row hrow hblock).2]
    exact hconsistent.stores.undone id row hrow hblock hclosed
  · intro id
    exact List.nodup_iff_count_le_one.mp hconsistent.stores.nodup id
  · intro action t rule hstep hmem hgone
    exact removed_of_step hconsistent hstep hmem hgone

/-- A request to block one address for a process. -/
def sampleBlock : ResponseActionRequest where
  action := .blockRemoteAddress
  processId := some 4242
  expectedPath := "C:\\Tools\\agent.exe"
  target := ""
  remoteAddress := "203.0.113.8"
  durationMinutes := none
  persistenceId := ""
  rollbackId := ""
  confirmation := "confirm:block_remote_address"

/-- The request to undo the block with the id `a1`. -/
def sampleUnblock : ResponseActionRequest where
  action := .unblockRemoteAddress
  processId := none
  expectedPath := ""
  target := ""
  remoteAddress := ""
  durationMinutes := none
  persistenceId := ""
  rollbackId := "a1"
  confirmation := "confirm:unblock_remote_address"

/-- Every tool works, and the process runs the expected program. -/
def sampleTools : BlockTools := ⟨fun _ => .ok "C:\\Tools\\agent.exe", some, none⟩

/-- The service starts and blocks an address. -/
def sampleBlocked : List BlockAction :=
  [.start ⟨0, 1760000000⟩ none fun _ => true,
    .submit "S-1-5-21-1" sampleBlock "a1", .install sampleTools,
    .record ⟨0, 1760000000⟩ none true, .audit (.ok 1)]

/-- The expiry thread undoes the block while a request is about to. -/
def sampleRace : List BlockAction :=
  sampleBlocked ++
    [.submit "S-1-5-21-1" sampleUnblock "", .read none,
      .wake 0 ⟨900000000000, 1760000900⟩ none, .expireRemove 0 none, .remove none,
      .expireMark 0 ⟨900000000000, 1760000900⟩ none]

theorem sampleRace_isSome : (run BlockState.step (.stopped ∅ ∅) sampleRace).isSome := by
  decide +kernel

/-- `block_undone_before_closed` where an expiry thread overtakes a request. -/
theorem block_undone_before_closed_race :
    UndoneBeforeClosed ((run BlockState.step (.stopped ∅ ∅) sampleRace).get sampleRace_isSome) :=
  block_undone_before_closed ∅ ∅ (fun id row hrow => by cases hrow) sampleRace _
    (Option.some_get sampleRace_isSome).symm

end undone

end OpenGuard.Service
