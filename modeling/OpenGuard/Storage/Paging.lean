import OpenGuard.Storage.Database

/-!
# Reading the timeline page by page

A client starts without a cursor and passes the cursor of each page to the next request, until a
page has none. Between the requests any operation may write to the database, and a request may
fail and be made again.

* `pagingStep`: the client and the database as one machine, for any interleaving.
* `PagingInvariant`: what was received so far are the rows above the cursor.
* `pages_lose_nothing`: nothing that was there throughout is lost, and nothing comes twice.
-/

namespace OpenGuard.Storage

open OpenGuard.Lib OpenGuard.Domain

/-! ## The machine -/

/-- What a client asks for on every page. -/
structure TimelineQuery where
  ownerSid : String
  category : Option String
  processId : Option UInt32
  search : Option String

/-- The row satisfies the query, and the owner may see it. -/
def TimelineQuery.Selects (query : TimelineQuery) (row : ℕ × TimelineRow) : Prop :=
  timelineMatches query.ownerSid query.category query.processId (normalizedSearch query.search)
    row.2

/-- Where the client is: at the request that comes next, or at the end. -/
inductive Cursor where
  | next (beforeId : Option ℕ)
  | done
  deriving DecidableEq

/-- The database and the client: its cursor, the pages it received with their limits, and the rows
of the timeline at its first and at its last request. -/
structure PagingState where
  db : Database
  cursor : Cursor
  pages : List (UInt32 × List (ℕ × TimelineEvent))
  first : RowTable TimelineRow
  last : RowTable TimelineRow

namespace PagingState

/-- The client before its first request. -/
def start (db : Database) : PagingState where
  db
  cursor := .next none
  pages := []
  first := db.history.timelineEvents
  last := db.history.timelineEvents

/-- The events that the client received. -/
def received (s : PagingState) : List (ℕ × TimelineEvent) := s.pages.flatMap (·.2)

/-- The timeline at the first request, when the client takes a page. -/
def firstAt (beforeId : Option ℕ) (s : PagingState) : RowTable TimelineRow :=
  if beforeId = none then s.db.history.timelineEvents else s.first

/-- The client takes a page. -/
def take (beforeId : Option ℕ) (limit : UInt32) (page : TimelinePage) (s : PagingState) :
    PagingState where
  db := s.db
  cursor := match page.nextBeforeId with
    | none => .done
    | some id => .next (some id)
  pages := s.pages ++ [(limit, page.events)]
  first := s.firstAt beforeId
  last := s.db.history.timelineEvents

end PagingState

/-- An operation on the database, or a request of the client. -/
inductive PagingAction where
  | operate (call : DatabaseCall)
  | request (fault : Fault) (limit : UInt32)

/-- After a request that fails the client still has its cursor. -/
def pagingStep (query : TimelineQuery) (s : PagingState) : PagingAction → Option PagingState
  | .operate call => some { s with db := call.2.apply call.1 s.db }
  | .request fault limit =>
      match s.cursor with
      | .done => none
      | .next beforeId =>
          match timeline fault query.ownerSid (beforeId.map fun id : ℕ => (id : ℤ)) limit
              query.category query.processId query.search s.db.history.timelineEvents with
          | .error _ => some s
          | .ok page => some (s.take beforeId limit page)

/-! ## The invariant -/

/-- The client received the event of the row. -/
def PagingState.HasReceived (s : PagingState) (row : ℕ × TimelineRow) : Prop :=
  ∃ event ∈ s.received, timelineFromRow row = .ok event

/-- What holds in every state of a run. -/
structure PagingInvariant (query : TimelineQuery) (s : PagingState) : Prop where
  descending : (s.received.map Prod.fst).Pairwise (· > ·)
  bounded : ∀ page ∈ s.pages, page.2.length ≤ safeLimit page.1 500
  fresh : s.cursor = .next none → s.pages = []
  above : ∀ before, s.cursor = .next (some before) → ∀ event ∈ s.received, before ≤ event.1
  grows : ∀ before, s.cursor = .next (some before) → s.first.Grows s.db.history.timelineEvents
  covered : ∀ before, s.cursor = .next (some before) →
    ∀ row ∈ s.first.rows, row ∈ s.db.history.timelineEvents.rows → query.Selects row →
      before ≤ row.1 → s.HasReceived row
  complete : s.cursor = .done → ∀ row ∈ s.first.rows, row ∈ s.last.rows → query.Selects row →
    s.HasReceived row

section invariant

variable {query : TimelineQuery} {s t : PagingState} {beforeId : Option ℕ} {limit : UInt32}
  {page : TimelinePage} {fault : Fault}

theorem pagingInvariant_start (query : TimelineQuery) (db : Database) :
    PagingInvariant query (.start db) where
  descending := by simp [PagingState.received, PagingState.start]
  bounded := by simp [PagingState.start]
  fresh _ := rfl
  above _ h := by simp [PagingState.start] at h
  grows _ h := by simp [PagingState.start] at h
  covered _ h := by simp [PagingState.start] at h
  complete h := by simp [PagingState.start] at h

/-- Operations between the requests do not bring back a row that was there at the first one. -/
theorem PagingInvariant.operate (h : PagingInvariant query s) (call : DatabaseCall) :
    PagingInvariant query { s with db := call.2.apply call.1 s.db } where
  descending := h.descending
  bounded := h.bounded
  fresh := h.fresh
  above := h.above
  grows before hcursor := (h.grows before hcursor).trans (grows_timelineEvents _ _ _)
  covered before hcursor row hfirst hrow := by
    have hgrows := h.grows before hcursor
    have hle : row.1 ≤ s.db.history.timelineEvents.sequence :=
      (s.first.given row hfirst).trans hgrows.sequence
    exact h.covered before hcursor row hfirst ((grows_timelineEvents _ _ _).mem_of_le hrow hle)
  complete := h.complete

/-- The rows that the next page is cut from. -/
def PagingState.nextRows (query : TimelineQuery) (beforeId : Option ℕ) (s : PagingState) :
    List (ℕ × TimelineRow) :=
  fetchedRows query.ownerSid (beforeId.map fun id : ℕ => (id : ℤ)) query.category query.processId
    query.search s.db.history.timelineEvents

theorem mem_nextRows {row : ℕ × TimelineRow} :
    row ∈ s.nextRows query beforeId ↔
      row ∈ s.db.history.timelineEvents.rows ∧ query.Selects row ∧
        ∀ before, beforeId = some before → row.1 < before := by
  rw [PagingState.nextRows, fetchedRows, RowTable.mem_newest]
  cases beforeId <;> simp [TimelineQuery.Selects]

theorem nextRows_descending : (s.nextRows query beforeId).Pairwise fun x y => y.1 < x.1 :=
  RowTable.newest_descending

theorem received_take : (s.take beforeId limit page).received = s.received ++ page.events := by
  simp [PagingState.received, PagingState.take]

/-- The rows of the next page are below everything that was received. -/
theorem PagingInvariant.lt_of_mem (h : PagingInvariant query s)
    (hcursor : s.cursor = .next beforeId) {row : ℕ × TimelineRow}
    (hrow : row ∈ s.nextRows query beforeId) {event : ℕ × TimelineEvent}
    (hevent : event ∈ s.received) : row.1 < event.1 := by
  cases beforeId with
  | none => simp [PagingState.received, h.fresh hcursor] at hevent
  | some before =>
      have hbelow := (mem_nextRows.mp hrow).2.2 before rfl
      exact hbelow.trans_le (h.above before hcursor event hevent)

/-- A row that was there at the first request was received or is among the next rows. -/
theorem PagingInvariant.received_or_next (h : PagingInvariant query s)
    (hcursor : s.cursor = .next beforeId) {row : ℕ × TimelineRow}
    (hfirst : row ∈ (s.firstAt beforeId).rows) (hrow : row ∈ s.db.history.timelineEvents.rows)
    (hselects : query.Selects row) : s.HasReceived row ∨ row ∈ s.nextRows query beforeId := by
  rw [mem_nextRows]
  cases beforeId with
  | none => exact Or.inr ⟨hrow, hselects, by simp⟩
  | some before =>
      by_cases hle : before ≤ row.1
      · exact Or.inl (h.covered before hcursor row hfirst hrow hselects hle)
      · refine Or.inr ⟨hrow, hselects, ?_⟩
        rintro _ ⟨⟩
        omega

/-- A page holds the events of the first of the next rows, and its cursor is the last of them when
there are more. -/
structure PageOf (next : List (ℕ × TimelineRow)) (count : ℕ) (page : TimelinePage) : Prop where
  read : List.Forall₂ (fun row event => timelineFromRow row = .ok event) (next.take count)
    page.events
  more : ∀ id, page.nextBeforeId = some id →
    ∃ last, (next.take count).getLast? = some last ∧ last.1 = id
  all : page.nextBeforeId = none → next.take count = next

theorem pageOf_of_timeline
    (h : timeline fault query.ownerSid (beforeId.map fun id : ℕ => (id : ℤ)) limit
      query.category query.processId query.search s.db.history.timelineEvents = .ok page) :
    PageOf (s.nextRows query beforeId) (safeLimit limit 500) page := by
  obtain ⟨hread, hnext⟩ := timeline_ok h
  rw [← PagingState.nextRows] at hnext
  refine ⟨hread, ?_, ?_⟩
  · intro id hid
    rw [hid] at hnext
    split_ifs at hnext
    exact Option.map_eq_some_iff.mp hnext.symm
  · intro hnone
    rw [hnone] at hnext
    by_cases hmore : safeLimit limit 500 < (s.nextRows query beforeId).length
    · rw [if_pos hmore, eq_comm, Option.map_eq_none_iff, List.getLast?_eq_none_iff,
        List.take_eq_nil_iff] at hnext
      have hpos : 1 ≤ safeLimit limit 500 := Nat.le_max_left 1 _
      rcases hnext with hzero | hnil
      · omega
      · simp [hnil]
    · exact List.take_of_length_le (Nat.not_lt.mp hmore)

theorem cursor_take {cursor : Cursor} (h : (s.take beforeId limit page).cursor = cursor) :
    cursor = .done ∧ page.nextBeforeId = none ∨
      ∃ before, cursor = .next (some before) ∧ page.nextBeforeId = some before := by
  simp only [PagingState.take] at h
  cases hid : page.nextBeforeId <;> simp [hid] at h <;> simp [← h]

/-- A row that the page reaches was received with it or before. -/
theorem hasReceived_take {row : ℕ × TimelineRow} {count : ℕ}
    (hpage : PageOf (s.nextRows query beforeId) count page)
    (h : s.HasReceived row ∨ row ∈ (s.nextRows query beforeId).take count) :
    (s.take beforeId limit page).HasReceived row := by
  unfold PagingState.HasReceived
  rw [received_take]
  rcases h with ⟨event, hevent, hread⟩ | hrow
  · exact ⟨event, List.mem_append_left _ hevent, hread⟩
  · obtain ⟨event, hevent, hread⟩ := exists_of_mem_left hpage.read hrow
    exact ⟨event, List.mem_append_right _ hevent, hread⟩

theorem grows_firstAt (h : PagingInvariant query s) (hcursor : s.cursor = .next beforeId) :
    (s.firstAt beforeId).Grows s.db.history.timelineEvents := by
  cases beforeId with
  | none => exact .refl _
  | some before => exact h.grows before hcursor

/-- A page that comes in keeps the invariant. -/
theorem PagingInvariant.request (h : PagingInvariant query s) (hcursor : s.cursor = .next beforeId)
    (hpage : PageOf (s.nextRows query beforeId) (safeLimit limit 500) page) :
    PagingInvariant query (s.take beforeId limit page) := by
  have hreach : ∀ row ∈ (s.firstAt beforeId).rows, row ∈ s.db.history.timelineEvents.rows →
      query.Selects row → (row ∈ s.nextRows query beforeId →
        row ∈ (s.nextRows query beforeId).take (safeLimit limit 500)) →
      (s.take beforeId limit page).HasReceived row := by
    intro row hfirst hrow hselects htaken
    have hreceived := h.received_or_next hcursor hfirst hrow hselects
    exact hasReceived_take hpage (hreceived.imp_right htaken)
  refine ⟨?_, ?_, ?_, ?_, ?_, ?_, ?_⟩
  · rw [received_take, List.map_append, map_fst_of_read hpage.read]
    refine List.pairwise_append.mpr ⟨h.descending, ?_, ?_⟩
    · exact List.pairwise_map.mpr (nextRows_descending.sublist (List.take_sublist _ _))
    · intro x hx y hy
      obtain ⟨event, hevent, rfl⟩ := List.mem_map.mp hx
      obtain ⟨row, hrow, rfl⟩ := List.mem_map.mp hy
      exact h.lt_of_mem hcursor (List.mem_of_mem_take hrow) hevent
  · intro taken htaken
    rcases List.mem_append.mp htaken with htaken | htaken
    · exact h.bounded taken htaken
    · rw [List.mem_singleton.mp htaken, ← hpage.read.length_eq]
      exact List.length_take_le _ _
  · intro hnext
    rcases cursor_take hnext with ⟨hdone, -⟩ | ⟨before, hbefore, -⟩
    · cases hdone
    · cases hbefore
  · intro before hnext event hevent
    rcases cursor_take hnext with ⟨hdone, -⟩ | ⟨_, ⟨⟩, hid⟩
    · cases hdone
    · obtain ⟨last, hlast, rfl⟩ := hpage.more before hid
      have hlastRow : last ∈ s.nextRows query beforeId :=
        List.mem_of_mem_take (List.mem_of_getLast? hlast)
      rw [received_take] at hevent
      rcases List.mem_append.mp hevent with hevent | hevent
      · exact Nat.le_of_lt (h.lt_of_mem hcursor hlastRow hevent)
      · have hids := map_fst_of_read hpage.read
        have hid : event.1 ∈ page.events.map Prod.fst := List.mem_map_of_mem hevent
        rw [hids] at hid
        obtain ⟨row, hrow, hsame⟩ := List.mem_map.mp hid
        rw [← hsame]
        exact (RowTable.mem_take_iff nextRows_descending hlast (List.mem_of_mem_take hrow)).mp hrow
  · exact fun before _ => grows_firstAt h hcursor
  · intro before hnext row hfirst hrow hselects hle
    rcases cursor_take hnext with ⟨hdone, -⟩ | ⟨_, ⟨⟩, hid⟩
    · cases hdone
    · obtain ⟨last, hlast, rfl⟩ := hpage.more before hid
      exact hreach row hfirst hrow hselects fun hmem =>
        (RowTable.mem_take_iff nextRows_descending hlast hmem).mpr hle
  · intro hdone row hfirst hlast hselects
    rcases cursor_take hdone with ⟨-, hid⟩ | ⟨_, hbefore, -⟩
    · exact hreach row hfirst hlast hselects fun hmem => (hpage.all hid).symm ▸ hmem
    · cases hbefore

/-- The invariant holds in every state of a run. -/
theorem pagingInvariant_of_run {db : Database} {actions : List PagingAction}
    (hrun : run (pagingStep query) (.start db) actions = some s) : PagingInvariant query s := by
  refine run_invariant (fun before action after h hstep => ?_) (pagingInvariant_start query db) hrun
  cases action with
  | operate call =>
      cases hstep
      exact h.operate call
  | request fault limit =>
      unfold pagingStep at hstep
      cases hcursor : before.cursor with
      | done => simp [hcursor] at hstep
      | next beforeId =>
          simp only [hcursor] at hstep
          split at hstep
          · cases hstep
            exact h
          · rename_i page hpage
            cases hstep
            exact h.request hcursor (pageOf_of_timeline hpage)

end invariant

/-- **Pages lose and repeat nothing.** In every run of a client and the operations of the database,
the ids that the client receives go down and no page is longer than its limit. At the end the client
has received, exactly once, each row of its query that was there at its first and at its last
request. -/
theorem pages_lose_nothing (query : TimelineQuery) (db : Database) (actions : List PagingAction)
    (s : PagingState) (hrun : run (pagingStep query) (.start db) actions = some s) :
    (s.received.map Prod.fst).Pairwise (· > ·) ∧
      (∀ page ∈ s.pages, page.2.length ≤ safeLimit page.1 500) ∧
      (s.cursor = .done → ∀ row ∈ s.first.rows, row ∈ s.last.rows → query.Selects row →
        ∃ event, timelineFromRow row = .ok event ∧
          s.received.filter (·.1 = row.1) = [event]) := by
  have h := pagingInvariant_of_run hrun
  refine ⟨h.descending, h.bounded, ?_⟩
  intro hdone row hfirst hlast hselects
  obtain ⟨event, hevent, hread⟩ := h.complete hdone row hfirst hlast hselects
  rw [← fst_timelineFromRow hread]
  refine ⟨event, hread, RowTable.filter_key_eq ?_ hevent⟩
  exact h.descending.imp fun hgt => Nat.ne_of_gt hgt

/-- What a client asks for that reads its whole timeline. -/
def sampleQuery : TimelineQuery := ⟨"owner-a", none, none, none⟩

/-- Three events, two pages of at most two rows, and an event in between. -/
def sampleActions : List PagingAction :=
  [.operate (none, .recordEvent "owner-a" sampleEvent),
    .operate (none, .recordEvent "" sampleEvent),
    .operate (none, .recordEvent "owner-a" sampleEvent), .request none 2,
    .operate (none, .recordEvent "owner-a" sampleEvent), .request none 2]

/-- `pages_lose_nothing` for the sample, which comes to its end. -/
theorem pages_lose_nothing_sample :
    ∃ s, run (pagingStep sampleQuery) (.start Database.created) sampleActions = some s ∧
      s.cursor = .done ∧ s.first.rows.length = 3 ∧
      ∀ row ∈ s.first.rows, row ∈ s.last.rows → sampleQuery.Selects row →
        ∃ event, timelineFromRow row = .ok event ∧
          s.received.filter (·.1 = row.1) = [event] := by
  have hends : ((run (pagingStep sampleQuery) (.start Database.created) sampleActions).map
      fun s => (s.cursor, s.first.rows.length)) = some (.done, 3) := by decide +kernel
  obtain ⟨s, hrun, hs⟩ := Option.map_eq_some_iff.mp hends
  obtain ⟨hdone, hlength⟩ := Prod.mk.inj hs
  exact ⟨s, hrun, hdone, hlength,
    (pages_lose_nothing sampleQuery Database.created sampleActions s hrun).2.2 hdone⟩

end OpenGuard.Storage
