import OpenGuard.Lib.Run
import OpenGuard.Lib.Text
import OpenGuard.Service.Baseline
import OpenGuard.Service.Payload
import OpenGuard.Storage.Events

/-!
# The integrity of the components

Every start of the service compares the digests of its binary and of the helper with those that the
first start of the package version has recorded. Between two starts the binaries change in any way.

* `verifyRuntimeIntegrity`: the check.
* `lookup_verifyRuntimeIntegrity`: whatever happens, a digest that is recorded stays.
* `tampering_reported`: over every run of starts, what a start reports when it can read what it has
  recorded.
-/

namespace OpenGuard.Service

open OpenGuard.Lib OpenGuard.Domain OpenGuard.Storage

/-! ## The check -/

/-- What opening and reading a file gives. -/
inductive FileRead where
  | openFails
  | readFails
  | content (bytes : Bytes)
  deriving DecidableEq, Inhabited

/-- What a start sees at a path: whether `Path::is_file` says that there is a file, and what reading
it gives. -/
structure Binary where
  isFile : Bool
  read : FileRead
  deriving DecidableEq, Inhabited

/-- The components that are checked. -/
inductive Component where
  | service
  | helper
  deriving DecidableEq, Inhabited

/-- Where a start runs from: the version of the package, the directory, and the file name of the
service, with its text if it is Unicode. -/
structure Installation where
  version : String
  directory : String
  serviceName : String
  serviceText : Option String
  text_eq : ∀ text, serviceText = some text → text = serviceName

namespace Installation

/-- The file name of the helper. -/
def helperName : String := "OpenGuardETW.exe"

variable (installation : Installation)

/-- The path of a component.
Source: `main.rs`, `verify_runtime_integrity` -/
def path : Component → String
  | .service => installation.directory ++ "\\" ++ installation.serviceName
  | .helper => installation.directory ++ "\\" ++ helperName

/-- The key of a component in the table `metadata`.
Source: `main.rs`, `verify_runtime_integrity` -/
def key (component : Component) : String :=
  let name := match component with
    | .service => installation.serviceText.getD "binary"
    | .helper => helperName
  "integrity:" ++ installation.version ++ ":" ++ name

end Installation

/-- What the environment decides of one start: whether the path of the service can be resolved, what
is at the paths, which calls on the database fail, the process and the clock. -/
structure RuntimeStart where
  installation : Installation
  resolveFails : Bool
  disk : String → Binary
  getFault : Component → Fault
  setFault : Component → Fault
  eventFault : Fault
  processId : UInt32
  now : Clock

/-- The tables that the check uses. -/
structure IntegrityStore where
  metadata : Metadata
  history : EventHistory

/-- Source: `main.rs`, `sha256_path` -/
def sha256Path (sha256 : Bytes → String) (path : String) : FileRead → Except String String
  | .openFails => .error ("open " ++ path)
  | .readFails => .error ("read " ++ path)
  | .content bytes => .ok (sha256 bytes)

/-- The text about a component with another digest.
Source: `main.rs`, `verify_runtime_integrity` -/
def changedText (path expected actual : String) : String :=
  path ++ " expected SHA-256 " ++ expected ++ ", observed " ++ actual

section check

variable (sha256 : Bytes → String) (start : RuntimeStart)

/-- What is at the path of a component. -/
def RuntimeStart.binary (component : Component) : Binary :=
  start.disk (start.installation.path component)

/-- The components of a start: the helper only if it is a file.
Source: `main.rs`, `verify_runtime_integrity` -/
def RuntimeStart.targets : List Component :=
  .service :: if (start.binary .helper).isFile then [.helper] else []

/-- The loop over the components, with the number of those that are verified and the texts about
those that are not.
Source: `main.rs`, `verify_runtime_integrity` -/
def checkTargets : List Component → Metadata → ℕ → List String →
    Except String (ℕ × List String) × Metadata
  | [], metadata, verified, changed => (.ok (verified, changed), metadata)
  | target :: rest, metadata, verified, changed =>
      let path := start.installation.path target
      let key := start.installation.key target
      match sha256Path sha256 path (start.binary target).read with
      | .error error => (.error error, metadata)
      | .ok actual =>
          match getMetadata (start.getFault target) key metadata with
          | .error error => (.error error.display, metadata)
          | .ok (some expected) =>
              if expected ≠ actual then
                checkTargets rest metadata verified (changed ++ [changedText path expected actual])
              else checkTargets rest metadata (verified + 1) changed
          | .ok none =>
              match setMetadata (start.setFault target) key actual metadata with
              | (.error error, metadata) => (.error error.display, metadata)
              | (.ok (), metadata) => checkTargets rest metadata (verified + 1) changed

/-- The event about components that have changed.
Source: `main.rs`, `verify_runtime_integrity` -/
def integrityEvent (detail : String) : SecurityEvent where
  eventType := "self_integrity_failure"
  severity := .critical
  title := "OpenGuard component integrity changed"
  detail
  processId := some start.processId
  path := start.installation.path .service
  createdAt := start.now.unixTimestamp
  resolved := false

/-- Source: `main.rs`, `verify_runtime_integrity` -/
def verifyRuntimeIntegrity (store : IntegrityStore) :
    Except String CoverageNote × IntegrityStore :=
  if start.resolveFails then
    (.error "resolve service executable for integrity check", store)
  else
    match checkTargets sha256 start start.targets store.metadata 0 [] with
    | (.error error, metadata) => (.error error, { store with metadata := metadata })
    | (.ok (verified, changed), metadata) =>
        if changed = [] then
          (.ok ⟨"self_integrity", .active,
              "Verified " ++ toString verified ++
                " version-bound service/helper hashes against the service-owned baseline"⟩,
            { store with metadata := metadata })
        else
          let detail := joinWith "; " changed
          match recordEvent start.eventFault "" (integrityEvent start detail) store.history with
          | (.error error, history) => (.error error.display, ⟨metadata, history⟩)
          | (.ok _, history) => (.ok ⟨"self_integrity", .limited, detail⟩, ⟨metadata, history⟩)

end check

/-- A start as a step. -/
def startStep (sha256 : Bytes → String) (store : IntegrityStore) (start : RuntimeStart) :
    Option IntegrityStore :=
  some (verifyRuntimeIntegrity sha256 start store).2

/-! ## What is recorded -/

section recorded

variable {sha256 : Bytes → String} {start : RuntimeStart} {store after : IntegrityStore}
  {key digest : String}

/-- The loop keeps what is recorded. -/
theorem lookup_checkTargets (targets : List Component) {metadata : Metadata} {verified : ℕ}
    {changed : List String} (h : metadata.lookup key = some digest) :
    (checkTargets sha256 start targets metadata verified changed).2.lookup key = some digest := by
  induction targets generalizing metadata verified changed with
  | nil => exact h
  | cons target rest ih =>
      unfold checkTargets
      dsimp only
      split
      · exact h
      · split
        · exact h
        · split_ifs
          · exact ih h
          · exact ih h
        · rename_i hnone
          cases hset : start.setFault target with
          | some error => exact h
          | none =>
              -- only a key that is not there is written
              refine ih ((AList.lookup_insert_ne ?_).trans h)
              rintro rfl
              unfold getMetadata at hnone
              cases hget : start.getFault target with
              | some error =>
                  rw [hget] at hnone
                  cases hnone
              | none =>
                  rw [hget, call_none, h] at hnone
                  cases hnone

/-- **No check overwrites a digest**, whether it succeeds or not. -/
theorem lookup_verifyRuntimeIntegrity (h : store.metadata.lookup key = some digest) :
    (verifyRuntimeIntegrity sha256 start store).2.metadata.lookup key = some digest := by
  have hkept : (checkTargets sha256 start start.targets store.metadata 0 []).2.lookup key =
      some digest := lookup_checkTargets start.targets h
  unfold verifyRuntimeIntegrity
  split_ifs
  · exact h
  · split
    · rename_i hchecked
      rwa [hchecked] at hkept
    · rename_i hchecked
      rw [hchecked] at hkept
      split_ifs
      · exact hkept
      · dsimp only
        split <;> exact hkept

/-- No run of starts overwrites a digest. -/
theorem lookup_run {starts : List RuntimeStart}
    (hrun : run (startStep sha256) store starts = some after)
    (h : store.metadata.lookup key = some digest) : after.metadata.lookup key = some digest :=
  run_invariant (I := fun store => store.metadata.lookup key = some digest)
    (fun _ _ _ hlookup hstep => Option.some.inj hstep ▸ lookup_verifyRuntimeIntegrity hlookup)
    h hrun

end recorded

/-! ## What a start reports -/

/-- The component is missing, or has another digest. -/
def Altered (sha256 : Bytes → String) (start : RuntimeStart) (component : Component)
    (digest : String) : Prop :=
  (start.binary component).isFile = false ∨
    ∃ bytes, (start.binary component).read = .content bytes ∧ sha256 bytes ≠ digest

/-- The component is there, and has the digest. -/
def Unaltered (sha256 : Bytes → String) (start : RuntimeStart) (component : Component)
    (digest : String) : Prop :=
  (start.binary component).isFile = true ∧
    ∃ bytes, (start.binary component).read = .content bytes ∧ sha256 bytes = digest

/-- A component is a file that can be read. -/
def Readable (start : RuntimeStart) (component : Component) : Prop :=
  (start.binary component).isFile = true ∧
    ∃ bytes, (start.binary component).read = .content bytes

/-- The start can read its components, the helper is missing only if it was never recorded, and the
database works. -/
structure Checkable (store : IntegrityStore) (start : RuntimeStart) : Prop where
  resolved : start.resolveFails = false
  service : Readable start .service
  helper : Readable start .helper ∨ (start.binary .helper).isFile = false ∧
    store.metadata.lookup (start.installation.key .helper) = none
  get : ∀ component, start.getFault component = none
  set : ∀ component, start.setFault component = none
  event : start.eventFault = none

/-- What a start does, given what was recorded at some time and what is recorded now. It returns a
note; the digest of a component that was never recorded is recorded; a component that was recorded
and is altered is in a note of limited coverage and in a critical event; when all are unaltered,
coverage is active and nothing is written. -/
structure TamperingReported (sha256 : Bytes → String) (recorded : Metadata)
    (store : IntegrityStore) (start : RuntimeStart)
    (checked : Except String CoverageNote × IntegrityStore) : Prop where
  returns : ∃ note, checked.1 = .ok note
  records : ∀ component bytes, (start.binary component).isFile = true →
    (start.binary component).read = .content bytes →
    store.metadata.lookup (start.installation.key component) = none →
    checked.2.metadata.lookup (start.installation.key component) = some (sha256 bytes)
  reported : ∀ component digest, recorded.lookup (start.installation.key component) = some digest →
    Altered sha256 start component digest →
    ∃ note, checked.1 = .ok note ∧ note.state = .limited ∧
      (∃ s t, note.detail = s ++ start.installation.path component ++ t) ∧
      checked.2.history =
        (recordEvent none "" (integrityEvent start note.detail) store.history).2
  quiet : (∀ component digest,
      store.metadata.lookup (start.installation.key component) = some digest →
      Unaltered sha256 start component digest) →
    ∃ note, checked.1 = .ok note ∧ note.state = .active ∧ checked.2.history = store.history

section reported

variable {sha256 : Bytes → String} {start : RuntimeStart} {store : IntegrityStore}
  {digest : String}

/-- Components with one key are at one path. -/
theorem binary_eq_of_key {component other : Component}
    (h : start.installation.key component = start.installation.key other) :
    start.binary component = start.binary other := by
  have hsame : start.installation.key .service = start.installation.key .helper →
      start.binary .service = start.binary .helper := by
    intro hkey
    have htext : start.installation.serviceText.getD "binary" = Installation.helperName :=
      (String.append_right_inj _).mp hkey
    unfold RuntimeStart.binary Installation.path
    cases hname : start.installation.serviceText with
    | none =>
        rw [hname] at htext
        exact absurd htext (by decide)
    | some text =>
        rw [hname] at htext
        rw [← start.installation.text_eq text hname, show text = _ from htext]
  cases component with
  | service =>
      cases other with
      | service => rfl
      | helper => exact hsame h
  | helper =>
      cases other with
      | service => exact (hsame h.symm).symm
      | helper => rfl

/-- The loop over components that can be read: those that were not recorded are, the texts are about
those that were recorded with another digest, and there are none when there is no such component. -/
theorem checkTargets_readable (sha256 : Bytes → String) {targets : List Component}
    (metadata : Metadata) (verified : ℕ) (changed : List String)
    (hread : ∀ target ∈ targets, ∃ bytes, (start.binary target).read = .content bytes)
    (hget : ∀ component, start.getFault component = none)
    (hset : ∀ component, start.setFault component = none) :
    ∃ verified' texts metadata',
      checkTargets sha256 start targets metadata verified changed =
        (.ok (verified', changed ++ texts), metadata') ∧
      (∀ target ∈ targets, ∀ bytes,
        metadata.lookup (start.installation.key target) = none →
        (start.binary target).read = .content bytes →
        metadata'.lookup (start.installation.key target) = some (sha256 bytes)) ∧
      (∀ target ∈ targets, ∀ digest bytes,
        metadata.lookup (start.installation.key target) = some digest →
        (start.binary target).read = .content bytes → sha256 bytes ≠ digest →
        ∃ text ∈ texts, ∃ t, text = start.installation.path target ++ t) ∧
      ((∀ target ∈ targets, ∀ digest bytes,
          metadata.lookup (start.installation.key target) = some digest →
          (start.binary target).read = .content bytes → sha256 bytes = digest) →
        texts = []) := by
  induction targets generalizing metadata verified changed with
  | nil => 
      exact ⟨verified, [], metadata, by simp [checkTargets], by simp, by simp, fun _ => rfl⟩
  | cons target rest ih =>
      obtain ⟨bytes, hbytes⟩ := hread target List.mem_cons_self
      have hrest : ∀ target ∈ rest, ∃ bytes, (start.binary target).read = .content bytes :=
        fun other hother => hread other (List.mem_cons_of_mem _ hother)
      unfold checkTargets getMetadata setMetadata
      rw [hbytes, hget, hset]
      dsimp only [sha256Path, call_none]
      cases hlookup : metadata.lookup (start.installation.key target) with
      | some expected =>
          dsimp only
          by_cases hsame : expected = sha256 bytes
          · -- the component is verified
            rw [if_neg (not_not.mpr hsame)]
            obtain ⟨verified', texts, metadata', hcheck, hrecords, hreported, hquiet⟩ :=
              ih _ _ _ hrest
            refine ⟨verified', texts, metadata', hcheck, ?_, ?_,
              fun hall => hquiet fun other hother => hall other (List.mem_cons_of_mem _ hother)⟩
            · intro other hother found hnone hfound
              obtain rfl | hother := List.mem_cons.mp hother
              · cases hnone.symm.trans hlookup
              · exact hrecords other hother found hnone hfound
            intro other hother digest found hdigest hfound hdiffers
            obtain rfl | hother := List.mem_cons.mp hother
            · obtain rfl := Option.some.inj (hlookup.symm.trans hdigest)
              obtain rfl := FileRead.content.inj (hbytes.symm.trans hfound)
              exact absurd hsame.symm hdiffers
            · exact hreported other hother digest found hdigest hfound hdiffers
          · -- a text is added
            rw [if_pos hsame]
            obtain ⟨verified', texts, metadata', hcheck, hrecords, hreported, -⟩ :=
              ih _ _ _ hrest
            refine ⟨verified', changedText (start.installation.path target) expected (sha256 bytes) ::
              texts, metadata', ?_, ?_, ?_, fun hall => ?_⟩
            · rw [hcheck, List.append_assoc, List.singleton_append]
            · intro other hother found hnone hfound
              obtain rfl | hother := List.mem_cons.mp hother
              · cases hnone.symm.trans hlookup
              · exact hrecords other hother found hnone hfound
            · intro other hother digest found hdigest hfound hdiffers
              obtain rfl | hother := List.mem_cons.mp hother
              · exact ⟨_, List.mem_cons_self, _, by rw [changedText, String.append_assoc,
                  String.append_assoc, String.append_assoc]⟩
              · obtain ⟨text, htext, hnamed⟩ :=
                  hreported other hother digest found hdigest hfound hdiffers
                exact ⟨text, List.mem_cons_of_mem _ htext, hnamed⟩
            · exact absurd (hall target List.mem_cons_self expected bytes hlookup hbytes).symm hsame
      | none =>
          -- the digest is recorded
          obtain ⟨verified', texts, metadata', hcheck, hrecords, hreported, hquiet⟩ :=
            ih _ _ _ hrest
          refine ⟨verified', texts, metadata', hcheck, ?_, ?_, fun hall => hquiet ?_⟩
          · intro other hother found hnone hfound
            by_cases heq : start.installation.key other = start.installation.key target
            · rw [binary_eq_of_key heq, hbytes] at hfound
              obtain rfl := FileRead.content.inj hfound
              have hmetadata : (checkTargets sha256 start rest _ _ _).2 = metadata' :=
                congrArg Prod.snd hcheck
              rw [heq, ← hmetadata]
              exact lookup_checkTargets rest (AList.lookup_insert _)
            · obtain rfl | hother := List.mem_cons.mp hother
              · exact absurd rfl heq
              · exact hrecords other hother found ((AList.lookup_insert_ne heq).trans hnone) hfound
          · intro other hother digest found hdigest hfound hdiffers
            have hne : start.installation.key other ≠ start.installation.key target := by
              intro heq
              rw [heq, hlookup] at hdigest
              cases hdigest
            obtain rfl | hother := List.mem_cons.mp hother
            · exact absurd rfl hne
            · exact hreported other hother digest found
                ((AList.lookup_insert_ne hne).trans hdigest) hfound hdiffers
          · intro other hother digest found hdigest hfound
            by_cases heq : start.installation.key other = start.installation.key target
            · rw [heq, AList.lookup_insert] at hdigest
              rw [binary_eq_of_key heq, hbytes] at hfound
              obtain rfl := FileRead.content.inj hfound
              exact Option.some.inj hdigest
            · rw [AList.lookup_insert_ne heq] at hdigest
              exact hall other (List.mem_cons_of_mem _ hother) digest found hdigest hfound

/-- A component that is a file is looked at. -/
theorem mem_targets {component : Component} (h : (start.binary component).isFile = true) :
    component ∈ start.targets := by
  unfold RuntimeStart.targets
  cases component with
  | service => exact List.mem_cons_self
  | helper =>
      rw [h]
      simp

/-- The components that a checkable start looks at can be read. -/
theorem Checkable.read_targets (h : Checkable store start) :
    ∀ target ∈ start.targets, ∃ bytes, (start.binary target).read = .content bytes := by
  intro target htarget
  cases target with
  | service => exact h.service.2
  | helper =>
      obtain hhelper | ⟨hmissing, -⟩ := h.helper
      · exact hhelper.2
      · unfold RuntimeStart.targets at htarget
        rw [hmissing] at htarget
        simp at htarget

/-- A recorded component that is altered is one that a checkable start looks at, and has other
bytes. -/
theorem Checkable.of_altered (h : Checkable store start) {component : Component}
    (hrecorded : store.metadata.lookup (start.installation.key component) = some digest)
    (haltered : Altered sha256 start component digest) :
    component ∈ start.targets ∧
      ∃ bytes, (start.binary component).read = .content bytes ∧ sha256 bytes ≠ digest := by
  cases component with
  | service =>
      refine ⟨List.mem_cons_self, haltered.resolve_left ?_⟩
      rw [h.service.1]
      exact Bool.noConfusion
  | helper =>
      obtain hhelper | ⟨-, hnever⟩ := h.helper
      · refine ⟨mem_targets hhelper.1, haltered.resolve_left ?_⟩
        rw [hhelper.1]
        exact Bool.noConfusion
      · cases hnever.symm.trans hrecorded

/-- **A checkable start reports** every component that was recorded and is altered. -/
theorem verifyRuntimeIntegrity_of_checkable {recorded : Metadata}
    (hrecorded : ∀ key digest, recorded.lookup key = some digest →
      store.metadata.lookup key = some digest)
    (h : Checkable store start) :
    TamperingReported sha256 recorded store start (verifyRuntimeIntegrity sha256 start store) := by
  obtain ⟨verified, texts, metadata, hcheck, hrecords, hreported, hquiet⟩ :=
    checkTargets_readable sha256 store.metadata 0 [] h.read_targets h.get h.set
  rw [List.nil_append] at hcheck
  -- an altered component has a text
  have hnamed : ∀ component digest,
      recorded.lookup (start.installation.key component) = some digest →
      Altered sha256 start component digest →
      ∃ text ∈ texts, ∃ t, text = start.installation.path component ++ t := by
    intro component digest hdigest haltered
    obtain ⟨htarget, bytes, hbytes, hdiffers⟩ := h.of_altered (hrecorded _ _ hdigest) haltered
    exact hreported component htarget digest bytes (hrecorded _ _ hdigest) hbytes hdiffers
  -- without one there is no text
  have hnone : (∀ component digest,
      store.metadata.lookup (start.installation.key component) = some digest →
      Unaltered sha256 start component digest) → texts = [] := by
    intro hall
    refine hquiet fun target _ digest bytes hdigest hbytes => ?_
    obtain ⟨-, found, hfound, hsame⟩ := hall target digest hdigest
    obtain rfl := FileRead.content.inj (hbytes.symm.trans hfound)
    exact hsame
  have hfirst : ∀ component bytes, (start.binary component).isFile = true →
      (start.binary component).read = .content bytes →
      store.metadata.lookup (start.installation.key component) = none →
      metadata.lookup (start.installation.key component) = some (sha256 bytes) :=
    fun component bytes hfile hbytes hnever =>
      hrecords component (mem_targets hfile) bytes hnever hbytes
  by_cases htexts : texts = []
  · have hresult : verifyRuntimeIntegrity sha256 start store = (.ok ⟨"self_integrity", .active,
        "Verified " ++ toString verified ++
          " version-bound service/helper hashes against the service-owned baseline"⟩,
        { store with metadata := metadata }) := by
      simp [verifyRuntimeIntegrity, h.resolved, hcheck, htexts]
    rw [hresult]
    refine ⟨⟨_, rfl⟩, hfirst, fun component digest hdigest haltered => ?_,
      fun _ => ⟨_, rfl, rfl, rfl⟩⟩
    obtain ⟨text, htext, -⟩ := hnamed component digest hdigest haltered
    rw [htexts] at htext
    cases htext
  · have hresult : verifyRuntimeIntegrity sha256 start store =
        (.ok ⟨"self_integrity", .limited, joinWith "; " texts⟩,
          ⟨metadata, (recordEvent none "" (integrityEvent start (joinWith "; " texts))
            store.history).2⟩) := by
      simp [verifyRuntimeIntegrity, h.resolved, hcheck, htexts, h.event, recordEvent]
    rw [hresult]
    refine ⟨⟨_, rfl⟩, hfirst, fun component digest hdigest haltered => ⟨_, rfl, rfl, ?_, rfl⟩,
      fun hall => absurd (hnone hall) htexts⟩
    obtain ⟨text, htext, t, rfl⟩ := hnamed component digest hdigest haltered
    obtain ⟨before, rest, hjoin⟩ := exists_joinWith_eq "; " htext
    exact ⟨before, t ++ rest, by rw [hjoin]; simp only [String.append_assoc]⟩

/-- **Tampering is reported on every start** that can read what was recorded. Over every run of
starts, whatever the binaries are at each and whichever of them fail: a digest that is recorded
where the run begins is the one that is recorded at the next start and after it, and what that start
does is `TamperingReported`, given that it is `Checkable`. -/
theorem tampering_reported (sha256 : Bytes → String) (recorded store : IntegrityStore)
    (starts : List RuntimeStart) (start : RuntimeStart)
    (hrun : run (startStep sha256) recorded starts = some store) :
    (∀ key digest, recorded.metadata.lookup key = some digest →
        store.metadata.lookup key = some digest ∧
          (verifyRuntimeIntegrity sha256 start store).2.metadata.lookup key = some digest) ∧
      (Checkable store start →
        TamperingReported sha256 recorded.metadata store start
          (verifyRuntimeIntegrity sha256 start store)) := by
  have hkept : ∀ key digest, recorded.metadata.lookup key = some digest →
      store.metadata.lookup key = some digest := fun _ _ hlookup => lookup_run hrun hlookup
  exact ⟨fun key digest hlookup => ⟨hkept key digest hlookup,
      lookup_verifyRuntimeIntegrity (hkept key digest hlookup)⟩,
    verifyRuntimeIntegrity_of_checkable hkept⟩

/-- The installation of the samples. -/
def sampleInstallation : Installation where
  version := "0.7.0"
  directory := "C:\\Program Files\\OpenGuard"
  serviceName := "OpenGuardService.exe"
  serviceText := some "OpenGuardService.exe"
  text_eq _ h := (Option.some.inj h).symm

/-- A start with some helper, at which nothing fails. -/
def sampleStart (helper : Binary) : RuntimeStart where
  installation := sampleInstallation
  resolveFails := false
  disk path :=
    if path = sampleInstallation.path .helper then helper else ⟨true, .content sampleContent⟩
  getFault _ := none
  setFault _ := none
  eventFault := none
  processId := 4
  now := ⟨0, 1760000000⟩

/-- What the first start of `sampleInstallation` leaves. -/
def sampleRecorded : IntegrityStore :=
  (verifyRuntimeIntegrity sampleSha256 (sampleStart ⟨true, .content sampleContent⟩)
    ⟨∅, ⟨.empty, .empty⟩⟩).2

/-- `tampering_reported` at a start whose helper was replaced, after one at which it was not. -/
theorem replaced_helper_reported :
    TamperingReported sampleSha256 sampleRecorded.metadata sampleRecorded
      (sampleStart ⟨true, .content [0]⟩)
      (verifyRuntimeIntegrity sampleSha256 (sampleStart ⟨true, .content [0]⟩) sampleRecorded) :=
  (tampering_reported sampleSha256 sampleRecorded sampleRecorded
      [sampleStart ⟨true, .content sampleContent⟩] (sampleStart ⟨true, .content [0]⟩) rfl).2
    { resolved := rfl
      service := ⟨rfl, sampleContent, rfl⟩
      helper := .inl ⟨rfl, [0], rfl⟩
      get := fun _ => rfl
      set := fun _ => rfl
      event := rfl }

/-- A helper that was recorded and is removed is not reported, and one that cannot be opened makes
the check fail, which keeps the service from starting. -/
theorem missing_helper_unreported :
    let missing := verifyRuntimeIntegrity sampleSha256 (sampleStart ⟨false, .openFails⟩)
      sampleRecorded
    let locked := verifyRuntimeIntegrity sampleSha256 (sampleStart ⟨true, .openFails⟩)
      sampleRecorded
    ¬ TamperingReported sampleSha256 sampleRecorded.metadata sampleRecorded
        (sampleStart ⟨false, .openFails⟩) missing ∧
      ¬ TamperingReported sampleSha256 sampleRecorded.metadata sampleRecorded
        (sampleStart ⟨true, .openFails⟩) locked := by
  dsimp only
  constructor
  · intro hreported
    have hactive : (verifyRuntimeIntegrity sampleSha256 (sampleStart ⟨false, .openFails⟩)
        sampleRecorded).1 = .ok ⟨"self_integrity", .active,
          "Verified 1 version-bound service/helper hashes against the service-owned baseline"⟩ := by
      decide
    obtain ⟨note, hnote, hlimited, -⟩ := hreported.reported .helper (sampleSha256 sampleContent)
      (by decide) (.inl rfl)
    obtain rfl := Except.ok.inj (hactive.symm.trans hnote)
    cases hlimited
  · intro hreported
    have herror : (verifyRuntimeIntegrity sampleSha256 (sampleStart ⟨true, .openFails⟩)
        sampleRecorded).1 = .error "open C:\\Program Files\\OpenGuard\\OpenGuardETW.exe" := by
      decide
    obtain ⟨note, hnote⟩ := hreported.returns
    cases herror.symm.trans hnote

end reported

end OpenGuard.Service
