import OpenGuard.Service.Quarantine

/-!
# Quarantining a file that others use

Another process may write the file, replace it, rename it or remove it between any two effects of
`quarantine_finding`. The copy reads the file that it has opened, wherever that is by then; the
removal takes what is at the path.

* `sharedStep`: the machine of the call with the actions of the other process.
* `SharedInv`: what holds in each phase when the other process leaves what was copied.
* `deletes_kept_of_respects`: over every run, the bytes that are removed are then those of the
  payload.
-/

namespace OpenGuard.Service

open OpenGuard.Lib OpenGuard.Domain OpenGuard.Storage

/-! ## The machine -/

/-- What another process does with files: a file is written in place, or made; the file that the
copy reads is written, wherever it is; a file is renamed, and may replace another; a file is
removed. -/
inductive ForeignAction where
  | write (path : String) (content : Bytes)
  | writeOpened (content : Bytes)
  | rename (source target : String)
  | remove (path : String)
  deriving DecidableEq

/-- The paths of the files that an action changes. -/
def ForeignAction.paths (opened : Option String) : ForeignAction → List String
  | write path _ => [path]
  | writeOpened _ => opened.toList
  | rename source target => [source, target]
  | remove path => [path]

/-- The state of the call; the path of the file that the copy reads, while it has one; and the bytes
that were removed. -/
structure SharedState where
  state : QuarantineState
  opened : Option String
  removed : Option Bytes

/-- An effect of the call, or of another process. -/
inductive SharedAction where
  | own (action : QuarantineAction)
  | foreign (action : ForeignAction)

/-- What is still to be read of a file that has another content now. -/
def CopyState.reread (content : Bytes) (copy : CopyState) : CopyState :=
  { copy with remaining := content.drop copy.hashed.length }

/-- The file that the copy reads has another content. -/
def QuarantinePhase.reread (content : Bytes) : QuarantinePhase → QuarantinePhase
  | copying plan copy => copying plan (copy.reread content)
  | phase => phase

/-- The path where a file is after a renaming, unless it was replaced. -/
def movedTo (source target path : String) : Option String :=
  if path = source then some target else if path = target then none else some path

/-- The files after a renaming. -/
def renameFile (source target : String) (files : Files) : Files :=
  match files.lookup source with
  | none => files
  | some content => (files.erase source).insert target content

/-- The path is in the quarantine directory, which is not open to other processes. -/
def QuarantineCall.isProtected (call : QuarantineCall) (path : String) : Bool :=
  startsWith path (call.quarantineRoot ++ "\\")

/-- What an action of another process makes of the state. -/
def SharedState.after (s : SharedState) : ForeignAction → SharedState
  | .write path content =>
      { s with
        state :=
          { s.state with
            files := s.state.files.insert path content
            phase :=
              if s.opened = some path then s.state.phase.reread content else s.state.phase } }
  | .writeOpened content =>
      { s with
        state :=
          { s.state with
            files := match s.opened with
              | some path => s.state.files.insert path content
              | none => s.state.files
            phase := s.state.phase.reread content } }
  | .rename source target =>
      { s with
        state := { s.state with files := renameFile source target s.state.files }
        opened := s.opened.bind (movedTo source target) }
  | .remove path =>
      { s with
        state := { s.state with files := s.state.files.erase path }
        opened := s.opened.filter (· != path) }

section step

variable (sha256 : Bytes → String) (call : QuarantineCall)

/-- An effect of the call. The verification finds a file, and so does a removal that works. -/
def ownStep (s : SharedState) (action : QuarantineAction) : Option SharedState :=
  match action, s.state.files.lookup call.sourcePath with
  | .verify (.ok _), none => none
  | .removeOriginal none, none => none
  | .removeOriginal none, some content =>
      (quarantineStep sha256 call s.state (.removeOriginal none)).map fun state =>
        { s with state, removed := some content }
  | .openSource none, _ =>
      (quarantineStep sha256 call s.state (.openSource none)).map fun state =>
        { s with state, opened := some call.sourcePath }
  | action, _ => (quarantineStep sha256 call s.state action).map fun state => { s with state }

/-- **One step** of the machine. -/
def sharedStep (s : SharedState) : SharedAction → Option SharedState
  | .own action => ownStep sha256 call s action
  | .foreign action =>
      if (action.paths s.opened).any call.isProtected then none else some (s.after action)

end step

/-- The call begins. -/
def SharedState.initial (files : Files) (rows : Quarantines) : SharedState :=
  ⟨⟨files, rows, .verifying⟩, none, none⟩

/-! ## What is deleted -/

/-- The bytes that were removed are the payload that is recorded, under their digest. -/
def DeletesKept (sha256 : Bytes → String) (record : QuarantineRecord) (s : SharedState) : Prop :=
  ∃ removed row, s.removed = some removed ∧ s.state.rows.lookup record.id = some row ∧
    row.record = record ∧ record.sha256 = sha256 removed ∧
    s.state.files.lookup row.quarantinePath = some (quarantineMagic ++ removed)

/-- An action of the other process leaves what was copied: during the copy the file that is read
stays at the path, with the bytes that were read; from the end of the copy to the removal what is at
the path stays as it is. -/
def Respects (call : QuarantineCall) (s : SharedState) : SharedAction → Prop
  | .own _ => True
  | .foreign action =>
      match s.state.phase with
      | .copying _ copy => (s.after action).opened = some call.sourcePath ∧
          ∃ rest, (s.after action).state.files.lookup call.sourcePath = some (copy.written ++ rest)
      | .matched _ | .recorded _ => (s.after action).state.files.lookup call.sourcePath =
          s.state.files.lookup call.sourcePath
      | _ => True

/-- The payload is there, under its digest, and its record is stored. -/
structure PayloadRecorded (sha256 : Bytes → String) (call : QuarantineCall) (plan : QuarantinePlan)
    (content : Bytes) (s : SharedState) : Prop where
  payload : PayloadIs call plan content s.state.files
  digest : plan.finding.sha256 = sha256 content
  row : s.state.rows.lookup plan.quarantineId =
    some ⟨call.clientSid, call.record plan, call.payloadPath plan⟩

/-- What holds in each phase. -/
def SharedInv (sha256 : Bytes → String) (call : QuarantineCall) (s : SharedState) : Prop :=
  match s.state.phase with
  | .verified _ | .rootReady _ =>
      call.isProtected call.sourcePath → (s.state.files.lookup call.sourcePath).isSome
  | .created plan => call.payloadPath plan ≠ call.sourcePath
  | .headed plan => call.payloadPath plan ≠ call.sourcePath ∧ PayloadIs call plan [] s.state.files
  | .copying plan copy =>
      call.payloadPath plan ≠ call.sourcePath ∧ PayloadIs call plan copy.written s.state.files ∧
        copy.hashed = copy.written ∧ s.opened = some call.sourcePath ∧
        s.state.files.lookup call.sourcePath = some (copy.written ++ copy.remaining)
  | .matched plan =>
      ∃ content, Apart call content plan s.state.files ∧ PayloadIs call plan content s.state.files ∧
        plan.finding.sha256 = sha256 content
  | .recorded plan =>
      ∃ content, Apart call content plan s.state.files ∧ PayloadRecorded sha256 call plan content s
  | .returned (.ok record) =>
      ∃ plan content, record = call.record plan ∧ s.removed = some content ∧
        PayloadRecorded sha256 call plan content s
  | _ => True

/-! ## The other process -/

section foreign

variable {sha256 : Bytes → String} {call : QuarantineCall} {s next : SharedState}
  {action : ForeignAction} {plan : QuarantinePlan} {path : String} {content : Bytes}

theorem lookup_renameFile {source target : String} {files : Files} (hsource : path ≠ source)
    (htarget : path ≠ target) :
    (renameFile source target files).lookup path = files.lookup path := by
  unfold renameFile
  cases files.lookup source with
  | none => rfl
  | some content =>
      exact (AList.lookup_insert_ne htarget).trans (AList.lookup_erase_ne hsource)

/-- A path that an action does not change. -/
theorem lookup_after (h : path ∉ action.paths s.opened) :
    (s.after action).state.files.lookup path = s.state.files.lookup path := by
  cases action with
  | write other content =>
      exact AList.lookup_insert_ne fun hsame => h (List.mem_singleton.mpr hsame)
  | writeOpened content =>
      unfold SharedState.after
      cases hopened : s.opened with
      | none => rfl
      | some other =>
          refine AList.lookup_insert_ne fun hsame => h ?_
          rw [ForeignAction.paths, hopened, hsame]
          exact List.mem_singleton_self other
  | rename source target =>
      refine lookup_renameFile (fun hsame => h ?_) fun hsame => h ?_
      · rw [hsame]
        exact List.mem_cons_self
      · rw [hsame]
        exact List.mem_cons_of_mem _ (List.mem_singleton_self target)
  | remove other => exact AList.lookup_erase_ne fun hsame => h (List.mem_singleton.mpr hsame)

/-- What the other process cannot do. -/
theorem lookup_after_protected (hopen : (action.paths s.opened).any call.isProtected = false)
    (hprotected : call.isProtected path) :
    (s.after action).state.files.lookup path = s.state.files.lookup path := by
  refine lookup_after fun hmem => ?_
  have hother := List.any_eq_false.mp hopen path hmem
  exact hother hprotected

theorem payloadPath_protected (call : QuarantineCall) (plan : QuarantinePlan) :
    call.isProtected (call.payloadPath plan) := by
  unfold QuarantineCall.isProtected QuarantineCall.payloadPath
  refine startsWith_append _ (startsWith_append _ ?_)
  unfold startsWith
  exact List.isPrefixOf_iff_prefix.mpr (List.prefix_refl _)

/-- The phase of the call stays, but for what is still to be read. -/
theorem phase_after (s : SharedState) (action : ForeignAction) :
    (s.after action).state.phase = s.state.phase ∨
      ∃ content, (s.after action).state.phase = s.state.phase.reread content := by
  cases action with
  | write path content =>
      unfold SharedState.after
      dsimp only
      split_ifs
      · exact .inr ⟨content, rfl⟩
      · exact .inl rfl
  | writeOpened content => exact .inr ⟨content, rfl⟩
  | rename source target => exact .inl rfl
  | remove path => exact .inl rfl

/-- When the file that is read stays at the path with what was read of it, the copy goes on with
what is there. -/
theorem copying_after {copy : CopyState} {rest : Bytes} (hhashed : copy.hashed = copy.written)
    (hphase : s.state.phase = .copying plan copy) (hopened : s.opened = some path)
    (hfile : s.state.files.lookup path = some (copy.written ++ copy.remaining))
    (hstays : (s.after action).opened = some path)
    (hcontent : (s.after action).state.files.lookup path = some (copy.written ++ rest)) :
    (s.after action).state.phase = .copying plan { copy with remaining := rest } := by
  have hdrop : (copy.written ++ rest).drop copy.hashed.length = rest := by
    rw [hhashed, List.drop_left]
  have hsame : some (copy.written ++ copy.remaining) = some (copy.written ++ rest) →
      copy = { copy with remaining := rest } := by
    intro heq
    obtain rfl := List.append_cancel_left (Option.some.inj heq)
    rfl
  cases action with
  | write other content =>
      unfold SharedState.after at hcontent ⊢
      dsimp only at hcontent ⊢
      by_cases hother : path = other
      · subst hother
        rw [AList.lookup_insert] at hcontent
        rw [if_pos hopened, hphase, Option.some.inj hcontent]
        exact congrArg _ (congrArg (fun remaining => { copy with remaining }) hdrop)
      · rw [AList.lookup_insert_ne hother, hfile] at hcontent
        rw [if_neg (by rw [hopened]; exact fun h => hother (Option.some.inj h)), hphase]
        exact congrArg _ (hsame hcontent)
  | writeOpened content =>
      unfold SharedState.after at hcontent ⊢
      dsimp only at hcontent ⊢
      rw [hopened] at hcontent
      dsimp only at hcontent
      rw [AList.lookup_insert] at hcontent
      rw [hphase, Option.some.inj hcontent]
      exact congrArg _ (congrArg (fun remaining => { copy with remaining }) hdrop)
  | rename source target =>
      refine hphase.trans (congrArg _ (hsame ?_))
      rw [← hfile, ← hcontent]
      unfold SharedState.after at hstays ⊢
      dsimp only at hstays ⊢
      rw [hopened] at hstays
      have hmoved : movedTo source target path = some path := hstays
      unfold movedTo at hmoved
      by_cases hsource : path = source
      · rw [if_pos hsource] at hmoved
        obtain rfl := Option.some.inj hmoved
        subst hsource
        unfold renameFile
        rw [hfile]
        exact (AList.lookup_insert (s.state.files.erase _)).symm
      · rw [if_neg hsource] at hmoved
        by_cases htarget : path = target
        · rw [if_pos htarget] at hmoved
          cases hmoved
        · exact (lookup_renameFile hsource htarget).symm
  | remove other =>
      refine hphase.trans (congrArg _ (hsame ?_))
      rw [← hfile, ← hcontent]
      unfold SharedState.after at hstays ⊢
      dsimp only at hstays ⊢
      by_cases hother : path = other
      · rw [hopened, hother, Option.filter_some, if_neg (by simp)] at hstays
        cases hstays
      · exact (AList.lookup_erase_ne (s := s.state.files) hother).symm

/-- The records are not changed. -/
theorem after_frame (s : SharedState) (action : ForeignAction) :
    (s.after action).state.rows = s.state.rows ∧ (s.after action).removed = s.removed := by
  cases action <;> exact ⟨rfl, rfl⟩

/-- **The other process** keeps what holds, as long as it leaves what was copied. -/
theorem sharedInv_foreign (h : SharedInv sha256 call s)
    (hopen : (action.paths s.opened).any call.isProtected = false)
    (hrespects : Respects call s (.foreign action)) : SharedInv sha256 call (s.after action) := by
  have hpayload : ∀ plan, (s.after action).state.files.lookup (call.payloadPath plan) =
      s.state.files.lookup (call.payloadPath plan) := fun plan =>
    lookup_after_protected hopen (payloadPath_protected call plan)
  obtain ⟨hrows, hremoved⟩ := after_frame s action
  have hkept : ∀ {plan content}, PayloadRecorded sha256 call plan content s →
      PayloadRecorded sha256 call plan content (s.after action) := fun hrecorded =>
    ⟨(hpayload _).trans hrecorded.payload, hrecorded.digest,
      (congrArg (AList.lookup _) hrows).trans hrecorded.row⟩
  -- a phase in which nothing is read is the same afterwards
  have hphase : (∀ plan copy, s.state.phase ≠ .copying plan copy) →
      (s.after action).state.phase = s.state.phase := by
    intro hnot
    obtain hsame | ⟨content, hreread⟩ := phase_after s action
    · exact hsame
    · rw [hreread]
      cases hcase : s.state.phase with
      | copying plan copy => exact absurd hcase (hnot plan copy)
      | _ => rfl
  unfold SharedInv at h ⊢
  unfold Respects at hrespects
  cases hcase : s.state.phase with
  | copying plan copy =>
      rw [hcase] at h hrespects
      obtain ⟨hapart, hwritten, hhashed, hopened, hfile⟩ := h
      obtain ⟨hstays, rest, hcontent⟩ := hrespects
      rw [copying_after hhashed hcase hopened hfile hstays hcontent]
      exact ⟨hapart, (hpayload plan).trans hwritten, hhashed, hstays, hcontent⟩
  | verifying => rw [hphase (by rw [hcase]; nofun), hcase]; trivial
  | verified finding =>
      rw [hphase (by rw [hcase]; nofun), hcase]
      rw [hcase] at h
      intro hprotected
      rw [lookup_after_protected hopen hprotected]
      exact h hprotected
  | rootReady finding =>
      rw [hphase (by rw [hcase]; nofun), hcase]
      rw [hcase] at h
      intro hprotected
      rw [lookup_after_protected hopen hprotected]
      exact h hprotected
  | created plan =>
      rw [hphase (by rw [hcase]; nofun), hcase]
      rw [hcase] at h
      exact h
  | headed plan =>
      rw [hphase (by rw [hcase]; nofun), hcase]
      rw [hcase] at h
      exact ⟨h.1, (hpayload plan).trans h.2⟩
  | matched plan =>
      rw [hphase (by rw [hcase]; nofun), hcase]
      rw [hcase] at h hrespects
      obtain ⟨content, hapart, hcopied, hdigest⟩ := h
      exact ⟨content, ⟨hrespects.trans hapart.1, hapart.2⟩, (hpayload plan).trans hcopied, hdigest⟩
  | recorded plan =>
      rw [hphase (by rw [hcase]; nofun), hcase]
      rw [hcase] at h hrespects
      obtain ⟨content, hapart, hrecorded⟩ := h
      exact ⟨content, ⟨hrespects.trans hapart.1, hapart.2⟩, hkept hrecorded⟩
  | removalFailed plan message => rw [hphase (by rw [hcase]; nofun), hcase]; trivial
  | discarding plan error => rw [hphase (by rw [hcase]; nofun), hcase]; trivial
  | returned result =>
      rw [hphase (by rw [hcase]; nofun), hcase]
      rw [hcase] at h
      cases result with
      | error error => trivial
      | ok record =>
          obtain ⟨plan, content, hrecord, hgone, hrecorded⟩ := h
          exact ⟨plan, content, hrecord, hremoved.trans hgone, hkept hrecorded⟩
  | crashed => rw [hphase (by rw [hcase]; nofun), hcase]; trivial

end foreign

/-! ## The call -/

section own

variable {sha256 : Bytes → String} {call : QuarantineCall} {s next : SharedState}
  {action : QuarantineAction}

/-- An effect of the call is one of `quarantineStep`; besides, the verification has found a file,
what is opened is at the path, and what is removed was there. -/
theorem ownStep_cases (h : ownStep sha256 call s action = some next) :
    quarantineStep sha256 call s.state action = some next.state ∧
      (∀ finding, action = .verify (.ok finding) →
        (s.state.files.lookup call.sourcePath).isSome) ∧
      (action = .openSource none → next.opened = some call.sourcePath) ∧
      (action ≠ .openSource none → next.opened = s.opened) ∧
      (action = .removeOriginal none →
        next.removed = s.state.files.lookup call.sourcePath ∧ next.removed.isSome) := by
  unfold ownStep at h
  split at h
  · cases h
  · cases h
  · rename_i content hfile
    obtain ⟨state, hstep, rfl⟩ := Option.map_eq_some_iff.mp h
    exact ⟨hstep, nofun, nofun, fun _ => rfl, fun _ => ⟨hfile.symm, rfl⟩⟩
  · obtain ⟨state, hstep, rfl⟩ := Option.map_eq_some_iff.mp h
    exact ⟨hstep, nofun, fun _ => rfl, fun hne => absurd rfl hne, nofun⟩
  · rename_i hopen hverify hgone hremove
    obtain ⟨state, hstep, rfl⟩ := Option.map_eq_some_iff.mp h
    refine ⟨hstep, fun finding haction => ?_, fun haction => (hopen haction).elim, fun _ => rfl,
      fun haction => ?_⟩
    · cases hfile : s.state.files.lookup call.sourcePath with
      | none => exact (hverify finding haction hfile).elim
      | some content => rfl
    · cases hfile : s.state.files.lookup call.sourcePath with
      | none => exact (hgone haction hfile).elim
      | some content => exact (hremove content haction hfile).elim

/-- A turn of the copying loop. -/
theorem sharedInv_copyStep {plan : QuarantinePlan} {copy : CopyState} (step : CopyStep)
    (hphase : s.state.phase = .copying plan copy) (h : SharedInv sha256 call s)
    (hopened : next.opened = s.opened)
    (hnext : copyStep sha256 call s.state.files s.state.rows plan copy step = next.state) :
    SharedInv sha256 call next := by
  unfold SharedInv at h ⊢
  rw [hphase] at h
  obtain ⟨hapart, hwritten, hhashed, hopen, hfile⟩ := h
  have hexact : copy.Exact (copy.written ++ copy.remaining) := ⟨hhashed, rfl⟩
  rw [← hnext]
  unfold copyStep
  cases hturn : copyChunk step copy with
  | running after =>
      obtain ⟨hafter, hcontent⟩ := hexact.copyChunk hturn
      refine ⟨hapart, AList.lookup_insert _, hafter, hopened.trans hopen, ?_⟩
      rw [hcontent]
      exact (AList.lookup_insert_ne hapart.symm).trans hfile
  | failed message written => trivial
  | finished =>
      obtain ⟨hall, hsame⟩ := hexact.eq_of_finished hturn
      dsimp only
      split_ifs with hdigest
      · trivial
      · refine ⟨copy.written, ⟨?_, hapart⟩, hwritten, ?_⟩
        · rw [hall]
          exact hfile
        · rw [← hhashed]
          exact (not_not.mp hdigest).symm

/-- **Every effect of the call** keeps what holds. -/
theorem sharedInv_own (h : SharedInv sha256 call s)
    (hstep : ownStep sha256 call s action = some next) :
    SharedInv sha256 call next := by
  obtain ⟨hquarantine, hfound, hopens, hopened, hremoves⟩ := ownStep_cases hstep
  clear hstep
  obtain ⟨⟨files, rows, phase⟩, opened, removed⟩ := s
  obtain ⟨after, opened', removed'⟩ := next
  unfold quarantineStep at hquarantine
  cases phase with
  | verifying =>
      cases action with
      | verify result =>
          cases result with
          | error error =>
              obtain rfl := Option.some.inj hquarantine
              trivial
          | ok finding =>
              obtain rfl := Option.some.inj hquarantine
              intro _
              exact hfound finding rfl
      | crash =>
          obtain rfl := Option.some.inj hquarantine
          trivial
      | _ => cases hquarantine
  | verified finding =>
      cases action with
      | createRoot failure =>
          cases failure with
          | some error =>
              obtain rfl := Option.some.inj hquarantine
              trivial
          | none =>
              obtain rfl := Option.some.inj hquarantine
              exact h
      | crash =>
          obtain rfl := Option.some.inj hquarantine
          trivial
      | _ => cases hquarantine
  | rootReady finding =>
      cases action with
      | createPayload quarantineId fails =>
          dsimp only at hquarantine
          split_ifs at hquarantine with hfails
          · obtain rfl := Option.some.inj hquarantine
            trivial
          · obtain rfl := Option.some.inj hquarantine
            -- a path that is free is not that of the file, which is there if it is protected
            simp only [not_or, Bool.not_eq_true, Option.isSome_eq_false_iff,
              Option.isNone_iff_eq_none] at hfails
            intro hsame
            have hprotected := payloadPath_protected call ⟨quarantineId, finding⟩
            rw [hsame] at hprotected hfails
            have hthere : (files.lookup call.sourcePath).isSome := h hprotected
            rw [hfails.2] at hthere
            cases hthere
      | crash =>
          obtain rfl := Option.some.inj hquarantine
          trivial
      | _ => cases hquarantine
  | created plan =>
      cases action with
      | writeHeader failsAfter =>
          cases failsAfter with
          | some written =>
              obtain rfl := Option.some.inj hquarantine
              trivial
          | none =>
              obtain rfl := Option.some.inj hquarantine
              exact ⟨h, AList.lookup_insert _⟩
      | crash =>
          obtain rfl := Option.some.inj hquarantine
          trivial
      | _ => cases hquarantine
  | headed plan =>
      obtain ⟨hapart, hpayload⟩ := h
      cases action with
      | openSource failure =>
          cases failure with
          | some message =>
              obtain rfl := Option.some.inj hquarantine
              trivial
          | none =>
              cases hfile : files.lookup call.sourcePath with
              | none =>
                  dsimp only at hquarantine
                  rw [hfile] at hquarantine
                  obtain rfl := Option.some.inj hquarantine
                  trivial
              | some content =>
                  dsimp only at hquarantine
                  rw [hfile] at hquarantine
                  obtain rfl := Option.some.inj hquarantine
                  exact ⟨hapart, hpayload, rfl, hopens rfl, hfile⟩
      | crash =>
          obtain rfl := Option.some.inj hquarantine
          trivial
      | _ => cases hquarantine
  | copying plan copy =>
      cases action with
      | copy step =>
          exact sharedInv_copyStep step rfl h (hopened nofun) (Option.some.inj hquarantine)
      | crash =>
          obtain rfl := Option.some.inj hquarantine
          trivial
      | _ => cases hquarantine
  | matched plan =>
      obtain ⟨content, hapart, hpayload, hdigest⟩ := h
      cases action with
      | record fault =>
          dsimp only at hquarantine
          cases hrecord : recordQuarantine fault call.clientSid (call.record plan)
              (call.payloadPath plan) rows with
          | mk result rows' =>
              rw [hrecord] at hquarantine
              cases result with
              | error error =>
                  obtain rfl := Option.some.inj hquarantine
                  trivial
              | ok done =>
                  obtain rfl := Option.some.inj hquarantine
                  exact ⟨content, hapart, hpayload, hdigest, lookup_recordQuarantine hrecord⟩
      | crash =>
          obtain rfl := Option.some.inj hquarantine
          trivial
      | _ => cases hquarantine
  | recorded plan =>
      obtain ⟨content, hapart, hrecorded⟩ := h
      cases action with
      | removeOriginal failure =>
          cases failure with
          | some message =>
              obtain rfl := Option.some.inj hquarantine
              trivial
          | none =>
              obtain rfl := Option.some.inj hquarantine
              refine ⟨plan, content, rfl, (hremoves rfl).1.trans hapart.1, ?_, hrecorded.digest,
                hrecorded.row⟩
              exact (AList.lookup_erase_ne hapart.2).trans hrecorded.payload
      | crash =>
          obtain rfl := Option.some.inj hquarantine
          trivial
      | _ => cases hquarantine
  | removalFailed plan message =>
      cases action with
      | deleteRecord fault =>
          obtain rfl := Option.some.inj hquarantine
          trivial
      | crash =>
          obtain rfl := Option.some.inj hquarantine
          trivial
      | _ => cases hquarantine
  | discarding plan error =>
      cases action with
      | discard fails =>
          obtain rfl := Option.some.inj hquarantine
          trivial
      | crash =>
          obtain rfl := Option.some.inj hquarantine
          trivial
      | _ => cases hquarantine
  | returned result => cases hquarantine
  | crashed => cases hquarantine

end own

/-! ## The result -/

section result

variable {sha256 : Bytes → String} {call : QuarantineCall} {s next : SharedState}

/-- **Every step** keeps what holds. -/
theorem sharedInv_step {action : SharedAction} (h : SharedInv sha256 call s)
    (hrespects : Respects call s action) (hstep : sharedStep sha256 call s action = some next) :
    SharedInv sha256 call next := by
  cases action with
  | own action => exact sharedInv_own h hstep
  | foreign action =>
      unfold sharedStep at hstep
      dsimp only at hstep
      split_ifs at hstep with hopen
      obtain rfl := Option.some.inj hstep
      exact sharedInv_foreign h (Bool.eq_false_iff.mpr hopen) hrespects

/-- **Quarantine deletes what it kept**: over every run of the call and of another process whose
steps leave what was copied, a call that succeeds has removed the bytes of the payload that it has
recorded. -/
theorem deletes_kept_of_respects (sha256 : Bytes → String) (call : QuarantineCall) (files : Files)
    (rows : Quarantines) (actions : List SharedAction) (s : SharedState)
    (hrun : run (sharedStep sha256 call) (.initial files rows) actions = some s)
    (hmeet : StepsMeet (Respects call) (sharedStep sha256 call) (.initial files rows) actions)
    (record : QuarantineRecord) (hreturned : s.state.phase = .returned (.ok record)) :
    DeletesKept sha256 record s := by
  have hstart : SharedInv sha256 call (.initial files rows) := trivial
  have hinv : SharedInv sha256 call s :=
    run_invariant_of_meets (fun _ _ _ h hmeets hstep => sharedInv_step h hmeets hstep) hstart hmeet
      hrun
  unfold SharedInv at hinv
  rw [hreturned] at hinv
  obtain ⟨plan, content, rfl, hremoved, hrecorded⟩ := hinv
  exact ⟨content, _, hremoved, hrecorded.row, rfl, hrecorded.digest, hrecorded.payload⟩

/-- Another file is opened for writing while the call waits, and the file is left alone. -/
def quietSharing : List SharedAction :=
  .foreign (.write "C:\\Users\\me\\notes.txt" [1]) :: sampleActions.map .own

/-- The file is written once more before it is removed. -/
def lateWrite : List SharedAction :=
  (sampleActions.take 9).map .own ++
    [.foreign (.write sampleCall.sourcePath [100]), .own (.removeOriginal none)]

/-- Where a run of the sample ends. -/
def sharedEnd (actions : List SharedAction) : SharedState :=
  (run (sharedStep sampleSha256 sampleCall) (.initial sampleFiles ∅) actions).getD
    ⟨⟨∅, ∅, .crashed⟩, none, none⟩

/-- When the file is left alone, it is what was removed. -/
theorem quiet_sharing_deletes_kept :
    DeletesKept sampleSha256 (sampleCall.record ⟨"q1", ⟨sampleSha256 sampleContent, ["EICAR"]⟩⟩)
      (sharedEnd quietSharing) := by
  refine deletes_kept_of_respects sampleSha256 sampleCall sampleFiles ∅ quietSharing
    (sharedEnd quietSharing) rfl ⟨trivial, fun t _ => ?_⟩ _ rfl
  refine StepsMeet.of_forall fun action haction s => ?_
  obtain ⟨own, -, rfl⟩ := List.mem_map.mp haction
  trivial

/-- What was written after the copy is removed, and the payload does not have it. -/
theorem late_write_is_lost :
    (sharedEnd lateWrite).state.phase =
        .returned (.ok (sampleCall.record ⟨"q1", ⟨sampleSha256 sampleContent, ["EICAR"]⟩⟩)) ∧
      (sharedEnd lateWrite).removed = some [100] ∧
      ¬ DeletesKept sampleSha256
        (sampleCall.record ⟨"q1", ⟨sampleSha256 sampleContent, ["EICAR"]⟩⟩)
        (sharedEnd lateWrite) := by
  have hremoved : (sharedEnd lateWrite).removed = some [100] := rfl
  refine ⟨rfl, hremoved, ?_⟩
  rintro ⟨removed, row, hgone, -, -, hdigest, -⟩
  rw [hremoved] at hgone
  cases hgone
  revert hdigest
  decide

end result

end OpenGuard.Service
