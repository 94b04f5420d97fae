import OpenGuard.Storage.Paging

/-!
# The timeline on the investigation page

The page shows the newest events and, each time the user asks for it, older ones below them. A request
is on its way while the user types and clicks, the service writes to the database, and the request may
fail. One request is on its way at a time; what the controls say when the user clicks is what is asked
for.

* `investigationStep`: the page, the request and the database as one machine, for any interleaving.
* `shown_descending`: what is shown goes down, without repetitions, over every run and all changes of
  the controls, and the user may see all of it.
* `shown_covers`: as long as the older events are asked for with the controls of the newest ones, no
  event above the cursor is missing.
-/

namespace OpenGuard.App

open OpenGuard.Lib OpenGuard.Domain OpenGuard.Storage

/-! ## The machine -/

/-- What the search box and the selected category say.
Source: `InvestigationPage.xaml.cs`, `TimelineSearch` and `SelectedCategory` -/
structure TimelineControls where
  search : Option String
  category : Option String

/-- `string.IsNullOrWhiteSpace` -/
def isNullOrWhiteSpace (value : Option String) : Bool := value.all fun text => trim text == ""

/-- Source: `InvestigationViewModel.cs`, `NormalizeCategory` -/
def normalizeCategory (value : Option String) : Option String :=
  if isNullOrWhiteSpace value ∨ value = some "all" then none else value

/-- What the service is asked for, in the name of the user.
Source: `InvestigationViewModel.cs`, `RefreshTimelineAsync` and `LoadOlderAsync` -/
def TimelineControls.query (controls : TimelineControls) (userSid : String) : TimelineQuery where
  ownerSid := userSid
  category := normalizeCategory controls.category
  processId := none
  search := if isNullOrWhiteSpace controls.search then none else controls.search.map trim

/-- A request on its way. When the service has answered it, there is the answer, and the timeline that
the service read it from. -/
structure TimelineRequest where
  beforeId : Option ℕ
  query : TimelineQuery
  answer : Option (Except StorageError TimelinePage × RowTable TimelineRow)

/-- The page with the database: the events that are shown, the cursor, and the request on its way if
the page is busy. What the events at the top were asked for with, and the timeline that they were read
from, are kept.
Source: `InvestigationViewModel.cs`, `InvestigationViewModel` -/
structure InvestigationState where
  db : Database
  timeline : List (ℕ × TimelineEvent)
  nextBeforeId : Option ℕ
  request : Option TimelineRequest
  asked : Option TimelineQuery
  first : RowTable TimelineRow

/-- The service writes to the database; the user refreshes the timeline or loads older events; the
service answers; the answer arrives; or the request fails. -/
inductive InvestigationAction where
  | operate (call : DatabaseCall)
  | refresh (controls : TimelineControls)
  | loadOlder (controls : TimelineControls)
  | serve (fault : Fault)
  | receive
  | fail

namespace InvestigationState

/-- The page before it is loaded. -/
def start (db : Database) : InvestigationState := ⟨db, [], none, none, none, db.history.timelineEvents⟩

/-- The page asks for events.
Source: `InvestigationViewModel.cs`, `RefreshTimelineAsync` and `LoadOlderAsync` -/
def ask (beforeId : Option ℕ) (query : TimelineQuery) (s : InvestigationState) :
    InvestigationState :=
  { s with request := some ⟨beforeId, query, none⟩ }

/-- A page of events is shown: in place of the others, or below them.
Source: `InvestigationViewModel.cs`, `RefreshTimelineAsync` and `LoadOlderAsync` -/
def take (request : TimelineRequest) (page : TimelinePage) (table : RowTable TimelineRow)
    (s : InvestigationState) : InvestigationState :=
  match request.beforeId with
  | none =>
      { s with
        timeline := page.events
        nextBeforeId := page.nextBeforeId
        request := none
        asked := some request.query
        first := table }
  | some _ =>
      { s with
        timeline := s.timeline ++ page.events
        nextBeforeId := page.nextBeforeId
        request := none }

end InvestigationState

/-- One step. A page that is busy ignores the user, and a request that fails changes nothing else.
Source: `InvestigationViewModel.cs`, `RefreshTimelineAsync` and `LoadOlderAsync` -/
def investigationStep (userSid : String) (s : InvestigationState) :
    InvestigationAction → Option InvestigationState
  | .operate call => some { s with db := call.2.apply call.1 s.db }
  | .refresh controls =>
      match s.request with
      | some _ => some s
      | none => some (s.ask none (controls.query userSid))
  | .loadOlder controls =>
      match s.request, s.nextBeforeId with
      | none, some cursor => some (s.ask (some cursor) (controls.query userSid))
      | _, _ => some s
  | .serve fault =>
      match s.request with
      | some ⟨beforeId, query, none⟩ =>
          let answer := timeline fault query.ownerSid (beforeId.map fun id : ℕ => (id : ℤ)) 250
            query.category query.processId query.search s.db.history.timelineEvents
          some { s with request := some ⟨beforeId, query, some (answer, s.db.history.timelineEvents)⟩ }
      | _ => none
  | .receive =>
      match s.request with
      | some ⟨beforeId, query, some (.ok page, table)⟩ =>
          some (s.take ⟨beforeId, query, some (.ok page, table)⟩ page table)
      | some ⟨_, _, some (.error _, _)⟩ => some { s with request := none }
      | _ => none
  | .fail =>
      match s.request with
      | some _ => some { s with request := none }
      | none => none

/-! ## What is shown -/

/-- The rows that a page of events is cut from. -/
def askedRows (query : TimelineQuery) (beforeId : Option ℕ) (table : RowTable TimelineRow) :
    List (ℕ × TimelineRow) :=
  fetchedRows query.ownerSid (beforeId.map fun id : ℕ => (id : ℤ)) query.category query.processId
    query.search table

/-- The event was read from a row that the user may see. -/
def Visible (userSid : String) (event : ℕ × TimelineEvent) : Prop :=
  ∃ row : ℕ × TimelineRow, timelineFromRow row = .ok event ∧
    (row.2.ownerSid = userSid ∨ row.2.ownerSid = "")

/-- What a request on its way says. -/
structure Asks (userSid : String) (s : InvestigationState) (request : TimelineRequest) : Prop where
  user : request.query.ownerSid = userSid
  /-- Nobody moves the cursor meanwhile. -/
  cursor : ∀ id, request.beforeId = some id → s.nextBeforeId = some id
  answered : ∀ page table, request.answer = some (.ok page, table) →
    PageOf (askedRows request.query request.beforeId table) 250 page ∧
      table.Grows s.db.history.timelineEvents ∧
        (request.beforeId.isSome → s.first.Grows table)

/-- What holds in every state of a run. -/
structure Shown (userSid : String) (s : InvestigationState) : Prop where
  descending : (s.timeline.map Prod.fst).Pairwise (· > ·)
  above : ∀ id, s.nextBeforeId = some id → ∀ event ∈ s.timeline, id ≤ event.1
  visible : ∀ event ∈ s.timeline, Visible userSid event
  request : ∀ request, s.request = some request → Asks userSid s request
  grows : s.first.Grows s.db.history.timelineEvents

section shown

variable {userSid : String} {s t : InvestigationState} {a : InvestigationAction}
  {as : List InvestigationAction} {query : TimelineQuery} {beforeId : Option ℕ}
  {table : RowTable TimelineRow} {page : TimelinePage} {request : TimelineRequest}

theorem mem_askedRows {row : ℕ × TimelineRow} :
    row ∈ askedRows query beforeId table ↔
      row ∈ table.rows ∧ query.Selects row ∧ ∀ before, beforeId = some before → row.1 < before := by
  rw [askedRows, fetchedRows, RowTable.mem_newest]
  cases beforeId <;> simp [TimelineQuery.Selects]

theorem askedRows_descending : (askedRows query beforeId table).Pairwise fun x y => y.1 < x.1 :=
  RowTable.newest_descending

theorem owner_of_selects {row : ℕ × TimelineRow} (h : query.Selects row) :
    row.2.ownerSid = query.ownerSid ∨ row.2.ownerSid = "" := by
  simp only [TimelineQuery.Selects, timelineMatches, Bool.and_eq_true, Bool.or_eq_true,
    beq_iff_eq] at h
  exact h.1.1.1

/-- An event of a page was read from one of the rows that it is cut from. -/
theorem exists_row (hpage : PageOf (askedRows query beforeId table) 250 page)
    {event : ℕ × TimelineEvent} (hevent : event ∈ page.events) :
    ∃ row ∈ askedRows query beforeId table, timelineFromRow row = .ok event ∧ row.1 = event.1 := by
  obtain ⟨row, hrow, hread⟩ := exists_of_mem_left hpage.read.flip hevent
  exact ⟨row, List.mem_of_mem_take hrow, hread, (fst_timelineFromRow hread).symm⟩

theorem descending_of_page (hpage : PageOf (askedRows query beforeId table) 250 page) :
    (page.events.map Prod.fst).Pairwise (· > ·) := by
  rw [map_fst_of_read hpage.read]
  exact List.pairwise_map.mpr (askedRows_descending.sublist (List.take_sublist _ _))

/-- The cursor of a page is not above any of its events. -/
theorem le_of_page (hpage : PageOf (askedRows query beforeId table) 250 page) {id : ℕ}
    (hid : page.nextBeforeId = some id) {event : ℕ × TimelineEvent} (hevent : event ∈ page.events) :
    id ≤ event.1 := by
  obtain ⟨last, hlast, rfl⟩ := hpage.more id hid
  have hids : event.1 ∈ ((askedRows query beforeId table).take 250).map Prod.fst := by
    rw [← map_fst_of_read hpage.read]
    exact List.mem_map_of_mem hevent
  obtain ⟨row, hrow, hsame⟩ := List.mem_map.mp hids
  rw [← hsame]
  exact (RowTable.mem_take_iff askedRows_descending hlast (List.mem_of_mem_take hrow)).mp hrow

/-- The answer of the service is a page of the timeline that it read. -/
theorem pageOf_of_answer {fault : Fault} {db : Database}
    (h : timeline fault query.ownerSid (beforeId.map fun id : ℕ => (id : ℤ)) 250
      query.category query.processId query.search db.history.timelineEvents = .ok page) :
    PageOf (askedRows query beforeId db.history.timelineEvents) 250 page :=
  pageOf_of_timeline (s := .start db) h

/-- A step that leaves what is shown, or what of it holds for a database that is written to. -/
theorem Shown.congr (h : Shown userSid s) (htimeline : t.timeline = s.timeline)
    (hcursor : t.nextBeforeId = s.nextBeforeId) (hfirst : t.first = s.first)
    (hgrows : s.db.history.timelineEvents.Grows t.db.history.timelineEvents)
    (hrequest : ∀ request, t.request = some request → Asks userSid t request) : Shown userSid t where
  descending := by
    rw [htimeline]
    exact h.descending
  above := by
    rw [htimeline, hcursor]
    exact h.above
  visible := by
    rw [htimeline]
    exact h.visible
  request := hrequest
  grows := by
    rw [hfirst]
    exact h.grows.trans hgrows

/-- The page that a request was answered with is shown. -/
theorem Shown.take (h : Shown userSid s) (hrequest : s.request = some request)
    (hanswer : request.answer = some (.ok page, table)) :
    Shown userSid (s.take request page table) := by
  obtain ⟨huser, hcursor, hanswered⟩ := h.request request hrequest
  obtain ⟨hpage, hnow, hfirst⟩ := hanswered page table hanswer
  have hvisible : ∀ event ∈ page.events, Visible userSid event := by
    intro event hevent
    obtain ⟨row, hrow, hread, -⟩ := exists_row hpage hevent
    exact ⟨row, hread, huser ▸ owner_of_selects (mem_askedRows.mp hrow).2.1⟩
  obtain ⟨beforeId, query, answer⟩ := request
  cases beforeId with
  | none =>
      exact ⟨descending_of_page hpage, fun id hid event hevent => le_of_page hpage hid hevent,
        hvisible, nofun, hnow⟩
  | some before =>
      -- the events of the page are below the cursor, and with it below all that is shown
      have hbelow : ∀ event ∈ page.events, event.1 < before := by
        intro event hevent
        obtain ⟨row, hrow, -, hsame⟩ := exists_row hpage hevent
        exact hsame ▸ (mem_askedRows.mp hrow).2.2 before rfl
      have habove := h.above before (hcursor before rfl)
      refine ⟨?_, ?_, ?_, nofun, h.grows⟩
      · simp only [InvestigationState.take, List.map_append]
        refine List.pairwise_append.mpr ⟨h.descending, descending_of_page hpage, ?_⟩
        intro x hx y hy
        obtain ⟨event, hevent, rfl⟩ := List.mem_map.mp hx
        obtain ⟨other, hother, rfl⟩ := List.mem_map.mp hy
        exact (hbelow other hother).trans_le (habove event hevent)
      · intro id hid event hevent
        rcases List.mem_append.mp hevent with hevent | hevent
        · obtain ⟨last, hlast, hlastId⟩ := hpage.more id hid
          have hrow : last ∈ askedRows query (some before) table :=
            List.mem_of_mem_take (List.mem_of_getLast? hlast)
          have hlt : last.1 < before := (mem_askedRows.mp hrow).2.2 before rfl
          have hle := habove event hevent
          omega
        · exact le_of_page hpage hid hevent
      · intro event hevent
        rcases List.mem_append.mp hevent with hevent | hevent
        · exact h.visible event hevent
        · exact hvisible event hevent

theorem Shown.step (h : Shown userSid s) (hstep : investigationStep userSid s a = some t) :
    Shown userSid t := by
  cases a with
  | operate call =>
      obtain rfl := Option.some.inj hstep
      have hgrows := grows_timelineEvents call.1 call.2 s.db
      refine h.congr rfl rfl rfl hgrows fun request hrequest => ?_
      obtain ⟨huser, hcursor, hanswered⟩ := h.request request hrequest
      refine ⟨huser, hcursor, fun page table hanswer => ?_⟩
      obtain ⟨hpage, hnow, hfirst⟩ := hanswered page table hanswer
      exact ⟨hpage, hnow.trans hgrows, hfirst⟩
  | refresh controls =>
      simp only [investigationStep] at hstep
      split at hstep
      · obtain rfl := Option.some.inj hstep
        exact h
      · obtain rfl := Option.some.inj hstep
        refine h.congr rfl rfl rfl (.refl _) ?_
        rintro _ ⟨⟩
        exact ⟨rfl, nofun, nofun⟩
  | loadOlder controls =>
      simp only [investigationStep] at hstep
      split at hstep
      · rename_i cursor _ hcursor
        obtain rfl := Option.some.inj hstep
        refine h.congr rfl rfl rfl (.refl _) ?_
        rintro _ ⟨⟩
        exact ⟨rfl, fun id hid => hcursor.trans hid, nofun⟩
      · obtain rfl := Option.some.inj hstep
        exact h
  | serve fault =>
      simp only [investigationStep] at hstep
      split at hstep
      · rename_i beforeId query hrequest
        obtain rfl := Option.some.inj hstep
        obtain ⟨huser, hcursor, -⟩ := h.request _ hrequest
        refine h.congr rfl rfl rfl (.refl _) ?_
        rintro _ ⟨⟩
        refine ⟨huser, hcursor, fun page table hanswer => ?_⟩
        obtain ⟨hok, rfl⟩ := Prod.mk.inj (Option.some.inj hanswer)
        exact ⟨pageOf_of_answer hok, .refl _, fun _ => h.grows⟩
      · cases hstep
  | receive =>
      simp only [investigationStep] at hstep
      split at hstep
      · rename_i hrequest
        obtain rfl := Option.some.inj hstep
        exact h.take hrequest rfl
      · obtain rfl := Option.some.inj hstep
        exact h.congr rfl rfl rfl (.refl _) nofun
      · cases hstep
  | fail =>
      simp only [investigationStep] at hstep
      split at hstep
      · obtain rfl := Option.some.inj hstep
        exact h.congr rfl rfl rfl (.refl _) nofun
      · cases hstep

theorem shown_start (db : Database) : Shown userSid (.start db) :=
  ⟨.nil, nofun, by simp [InvestigationState.start], nofun, .refl _⟩

/-- The older events are asked for with what the newest ones were asked for with. -/
def SameControls (userSid : String) (s : InvestigationState) : InvestigationAction → Prop
  | .loadOlder controls => s.asked = some (controls.query userSid)
  | _ => True

/-- No row is missing that was there when the events at the top were read, is still there, and is not
below the cursor. -/
structure Covers (s : InvestigationState) : Prop where
  same : ∀ request, s.request = some request → request.beforeId.isSome →
    s.asked = some request.query
  covered : ∀ query, s.asked = some query → ∀ row ∈ s.first.rows,
    row ∈ s.db.history.timelineEvents.rows → query.Selects row →
      (∀ id, s.nextBeforeId = some id → id ≤ row.1) →
        ∃ event ∈ s.timeline, timelineFromRow row = .ok event

/-- A row of the page is shown with it, unless it is below its cursor. -/
theorem exists_event (hpage : PageOf (askedRows query beforeId table) 250 page)
    {row : ℕ × TimelineRow} (hrow : row ∈ askedRows query beforeId table)
    (hcursor : ∀ id, page.nextBeforeId = some id → id ≤ row.1) :
    ∃ event ∈ page.events, timelineFromRow row = .ok event := by
  refine exists_of_mem_left hpage.read ?_
  cases hid : page.nextBeforeId with
  | none => exact (hpage.all hid).symm ▸ hrow
  | some id =>
      obtain ⟨last, hlast, rfl⟩ := hpage.more id hid
      exact (RowTable.mem_take_iff askedRows_descending hlast hrow).mpr (hcursor last.1 hid)

theorem Covers.take (h : Covers s) (hshown : Shown userSid s) (hrequest : s.request = some request)
    (hanswer : request.answer = some (.ok page, table)) : Covers (s.take request page table) := by
  obtain ⟨-, hcursor, hanswered⟩ := hshown.request request hrequest
  obtain ⟨hpage, hnow, hfirst⟩ := hanswered page table hanswer
  have hsame := h.same request hrequest
  obtain ⟨beforeId, query, answer⟩ := request
  cases beforeId with
  | none =>
      refine ⟨nofun, ?_⟩
      rintro _ ⟨⟩ row hrow - hselects hle
      exact exists_event hpage (mem_askedRows.mpr ⟨hrow, hselects, nofun⟩) hle
  | some before =>
      refine ⟨nofun, ?_⟩
      intro other hother row hrow hdb hselects hle
      obtain rfl := Option.some.inj ((hsame rfl).symm.trans hother)
      by_cases hbefore : before ≤ row.1
      · have hold : ∀ id, s.nextBeforeId = some id → id ≤ row.1 := by
          intro id hid
          rw [hcursor before rfl] at hid
          exact Option.some.inj hid ▸ hbefore
        obtain ⟨event, hevent, hread⟩ := h.covered _ hother row hrow hdb hselects hold
        exact ⟨event, List.mem_append_left _ hevent, hread⟩
      · -- the row was there all the time, so the service found it
        have hknown : row.1 ≤ table.sequence :=
          (s.first.given row hrow).trans (hfirst rfl).sequence
        have hasked : row ∈ askedRows query (some before) table := by
          refine mem_askedRows.mpr ⟨hnow.mem_of_le hdb hknown, hselects, ?_⟩
          rintro _ ⟨⟩
          exact Nat.not_le.mp hbefore
        obtain ⟨event, hevent, hread⟩ := exists_event hpage hasked hle
        exact ⟨event, List.mem_append_right _ hevent, hread⟩

theorem Covers.step (h : Covers s) (hshown : Shown userSid s) (hsame : SameControls userSid s a)
    (hstep : investigationStep userSid s a = some t) : Covers t := by
  cases a with
  | operate call =>
      obtain rfl := Option.some.inj hstep
      refine ⟨h.same, fun query hquery row hfirst hrow => ?_⟩
      have hgrows := grows_timelineEvents call.1 call.2 s.db
      have hle : row.1 ≤ s.db.history.timelineEvents.sequence :=
        (s.first.given row hfirst).trans hshown.grows.sequence
      exact h.covered query hquery row hfirst (hgrows.mem_of_le hrow hle)
  | refresh controls =>
      simp only [investigationStep] at hstep
      split at hstep
      · obtain rfl := Option.some.inj hstep
        exact h
      · obtain rfl := Option.some.inj hstep
        refine ⟨?_, h.covered⟩
        rintro _ ⟨⟩ hsome
        cases hsome
  | loadOlder controls =>
      simp only [investigationStep] at hstep
      split at hstep
      · obtain rfl := Option.some.inj hstep
        refine ⟨?_, h.covered⟩
        rintro _ ⟨⟩ -
        exact hsame
      · obtain rfl := Option.some.inj hstep
        exact h
  | serve fault =>
      simp only [investigationStep] at hstep
      split at hstep
      · rename_i hrequest
        obtain rfl := Option.some.inj hstep
        have hquery := h.same _ hrequest
        refine ⟨?_, h.covered⟩
        rintro _ ⟨⟩ hsome
        exact hquery hsome
      · cases hstep
  | receive =>
      simp only [investigationStep] at hstep
      split at hstep
      · rename_i hrequest
        obtain rfl := Option.some.inj hstep
        exact h.take hshown hrequest rfl
      · obtain rfl := Option.some.inj hstep
        exact ⟨nofun, h.covered⟩
      · cases hstep
  | fail =>
      simp only [investigationStep] at hstep
      split at hstep
      · obtain rfl := Option.some.inj hstep
        exact ⟨nofun, h.covered⟩
      · cases hstep

/-- **No event above the cursor is missing** while the controls stay: what was there when the newest
events were read, and is still there, is shown, exactly once. -/
theorem shown_covers {db : Database}
    (hmeet : StepsMeet (SameControls userSid) (investigationStep userSid) (.start db) as)
    (hrun : run (investigationStep userSid) (.start db) as = some s) (hasked : s.asked = some query)
    {row : ℕ × TimelineRow} (hfirst : row ∈ s.first.rows)
    (hrow : row ∈ s.db.history.timelineEvents.rows) (hselects : query.Selects row)
    (hcursor : ∀ id, s.nextBeforeId = some id → id ≤ row.1) :
    ∃ event, timelineFromRow row = .ok event ∧ s.timeline.filter (·.1 = row.1) = [event] := by
  have hstart : Shown userSid (.start db) ∧ Covers (.start db) := ⟨shown_start db, nofun, nofun⟩
  have h : Shown userSid s ∧ Covers s :=
    run_invariant_of_meets (I := fun s => Shown userSid s ∧ Covers s)
      (fun _ _ _ h hsame hstep => ⟨h.1.step hstep, h.2.step h.1 hsame hstep⟩) hstart hmeet hrun
  obtain ⟨event, hevent, hread⟩ := h.2.covered query hasked row hfirst hrow hselects hcursor
  refine ⟨event, hread, ?_⟩
  rw [← fst_timelineFromRow hread]
  exact RowTable.filter_key_eq (h.1.descending.imp fun hgt => Nat.ne_of_gt hgt) hevent

end shown

/-- What the controls say at first. -/
def noControls : TimelineControls := ⟨none, none⟩

/-- Two events are recorded, and one of another user; the page is loaded, and the service writes
another event before the answer arrives. -/
def sampleInvestigation : List InvestigationAction :=
  [.operate (none, .recordEvent "owner-a" sampleEvent),
    .operate (none, .recordEvent "owner-b" sampleEvent),
    .operate (none, .recordEvent "owner-a" sampleEvent), .refresh noControls, .serve none,
    .operate (none, .recordEvent "owner-a" sampleEvent), .receive]

theorem sampleInvestigation_ends :
    ((run (investigationStep "owner-a") (.start .created) sampleInvestigation).map fun s =>
      (s.timeline.map Prod.fst, s.nextBeforeId, s.first.rows.length)) = some ([3, 1], none, 3) := by
  decide

/-- `shown_covers` for the two events. -/
theorem shown_covers_sample :
    ∃ s, run (investigationStep "owner-a") (.start .created) sampleInvestigation = some s ∧
      s.first.rows.length = 3 ∧ ∀ row ∈ s.first.rows, row ∈ s.db.history.timelineEvents.rows →
        (noControls.query "owner-a").Selects row →
          ∃ event, timelineFromRow row = .ok event ∧ s.timeline.filter (·.1 = row.1) = [event] := by
  obtain ⟨s, hrun, hends⟩ := Option.map_eq_some_iff.mp sampleInvestigation_ends
  have hasked : s.asked = some (noControls.query "owner-a") := by
    obtain rfl := Option.some.inj hrun
    rfl
  have hcursor : s.nextBeforeId = none := congrArg (fun ends => ends.2.1) hends
  refine ⟨s, hrun, congrArg (fun ends => ends.2.2) hends, fun row hfirst hrow hselects => ?_⟩
  refine shown_covers ?_ hrun hasked hfirst hrow hselects fun id hid => ?_
  · simp [StepsMeet, sampleInvestigation, SameControls]
  · rw [hcursor] at hid
    cases hid

end OpenGuard.App
