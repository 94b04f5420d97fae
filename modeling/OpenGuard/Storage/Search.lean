import OpenGuard.Lib.Like
import OpenGuard.Storage.Events

/-!
# Searching the timeline

The query joins the text between two percent signs and compares it with `LIKE`, which has no escape
character. So a percent sign or an underscore in the text is a wildcard there.

* `foundRows`: the rows in which the text is found, character by character.
* `FindsTyped`: every page of a search is one of the rows in which its text is found.
* `findsTyped_iff`: **that holds of the texts without a percent sign and an underscore.**
-/

namespace OpenGuard.Storage

open OpenGuard.Lib OpenGuard.Domain

/-! ## What is searched for -/

/-- The row satisfies the other conditions, and the text is a part of one of its columns. -/
def searchMatches (ownerSid : String) (category : Option String) (processId : Option UInt32)
    (text : String) (row : TimelineRow) : Bool :=
  timelineMatches ownerSid category processId none row &&
    (containsFolded row.title text || containsFolded row.detail text ||
      containsFolded row.path text || containsFolded row.remoteAddress text)

/-- The rows in which the text is found, newest first. -/
def foundRows (ownerSid : String) (beforeId : Option ℤ) (category : Option String)
    (processId : Option UInt32) (text : String) (rows : RowTable TimelineRow) :
    List (ℕ × TimelineRow) :=
  rows.newest fun row => searchMatches ownerSid category processId text row.2 &&
    beforeId.all fun before => (row.1 : ℤ) < before

/-- The page holds the first of the rows, and the id of the last one it holds if there are more. -/
def IsPageOf (limit : UInt32) (found : List (ℕ × TimelineRow)) (page : TimelinePage) : Prop :=
  List.Forall₂ (fun row event => timelineFromRow row = .ok event)
      (found.take (safeLimit limit 500)) page.events ∧
    page.nextBeforeId = if safeLimit limit 500 < found.length then
      ((found.take (safeLimit limit 500)).getLast?).map Prod.fst else none

/-- A search finds what was typed: whatever is stored and wherever the page begins, it is a page of the
rows in which the trimmed text is found; and there is one, unless the database or a row cannot be
read. -/
structure FindsTyped (ownerSid : String) (limit : UInt32) (category : Option String)
    (processId : Option UInt32) (search : String) : Prop where
  exact : ∀ fault beforeId rows page,
    timeline fault ownerSid beforeId limit category processId (some search) rows = .ok page →
      IsPageOf limit (foundRows ownerSid beforeId category processId (trim search) rows) page
  answers : ∀ beforeId (rows : RowTable TimelineRow),
    (∀ row ∈ rows.rows, (Severity.parse row.2.severity).isSome) →
      ∃ page, timeline none ownerSid beforeId limit category processId (some search) rows = .ok page

section search

variable {ownerSid : String} {beforeId : Option ℤ} {limit : UInt32} {category : Option String}
  {processId : Option UInt32} {search text : String} {rows : RowTable TimelineRow}

/-! ## Texts without wildcards -/

theorem normalizedSearch_some (h : trim search ≠ "") :
    normalizedSearch (some search) = some (trim search) := by
  rw [normalizedSearch, Option.map_some, Option.filter_some, if_pos (by simpa using h)]

/-- The query compares what the search describes. -/
theorem timelineMatches_literal (h : text.toList.all fun c => !isWildcard c) (row : TimelineRow) :
    timelineMatches ownerSid category processId (some text) row =
      searchMatches ownerSid category processId text row := by
  simp only [timelineMatches, searchMatches, like_between_iff h, Option.all_some, Option.all_none,
    Bool.and_true]

/-- The rows that the query fetches are those in which the text is found. -/
theorem fetchedRows_literal (hsearch : trim search ≠ "")
    (h : (trim search).toList.all fun c => !isWildcard c) :
    fetchedRows ownerSid beforeId category processId (some search) rows =
      foundRows ownerSid beforeId category processId (trim search) rows := by
  unfold fetchedRows foundRows
  simp only [normalizedSearch_some hsearch, timelineMatches_literal h]

/-- Rows that can be read make a page. -/
theorem exists_timeline_page (search : Option String)
    (h : ∀ row ∈ rows.rows, (Severity.parse row.2.severity).isSome) :
    ∃ page, timeline none ownerSid beforeId limit category processId search rows = .ok page := by
  have hread : ∀ row ∈ (fetchedRows ownerSid beforeId category processId search rows).take
      (safeLimit limit 500 + 1), ∃ event, timelineFromRow row = .ok event := by
    intro row hrow
    obtain ⟨severity, hseverity⟩ := Option.isSome_iff_exists.mp
      (h row (RowTable.mem_newest.mp (List.mem_of_mem_take hrow)).1)
    exact ⟨_, by rw [timelineFromRow, severityFromRow, hseverity]; rfl⟩
  obtain ⟨events, hevents⟩ := exists_mapM hread
  simp only [timeline, call_none, hevents]
  exact ⟨_, rfl⟩

/-! ## Texts with wildcards -/

/-- A row that passes the other conditions, with a title of its own. -/
def titledRow (ownerSid : String) (category : Option String) (processId : Option UInt32)
    (title : String) : TimelineRow where
  ownerSid
  category := category.getD ""
  action := ""
  severity := Severity.low.display
  title
  detail := ""
  processId
  path := ""
  remoteAddress := ""
  correlationId := ""
  occurredAt := ""

/-- Nothing is found in an empty column. -/
theorem containsFolded_empty (h : text ≠ "") : containsFolded "" text = false := by
  rw [containsFolded, decide_eq_false_iff_not]
  intro hinfix
  have hnil : foldCase text.toList = [] := List.infix_nil.mp hinfix
  exact h (String.toList_eq_nil_iff.mp (List.map_eq_nil_iff.mp hnil))

theorem timelineMatches_titledRow (title : String) :
    timelineMatches ownerSid category processId none
      (titledRow ownerSid category processId title) = true := by
  cases category <;> cases processId <;> simp [timelineMatches, titledRow]

/-- A row that the pattern matches and that does not contain the text is on the page. -/
theorem not_findsTyped {title : String} (hsearch : trim search ≠ "")
    (hlike : like title ("%" ++ trim search ++ "%") = true)
    (htext : containsFolded title (trim search) = false) :
    ¬ FindsTyped ownerSid limit category processId search := by
  intro hfinds
  let row := titledRow ownerSid category processId title
  let rows : RowTable TimelineRow := RowTable.empty.insert row
  have hmatches : timelineMatches ownerSid category processId (some (trim search)) row = true := by
    have hothers : timelineMatches ownerSid category processId none row = true :=
      timelineMatches_titledRow title
    simp only [timelineMatches, Option.all_none, Bool.and_true] at hothers
    simp only [timelineMatches, hothers, Option.all_some, Bool.true_and, Bool.or_eq_true]
    exact .inl (.inl (.inl hlike))
  have hfetched : fetchedRows ownerSid none category processId (some search) rows =
      [(rows.sequence, row)] := by
    simp [fetchedRows, RowTable.newest, rows, normalizedSearch_some hsearch, hmatches,
      RowTable.empty]
  have hfound : foundRows ownerSid none category processId (trim search) rows = [] := by
    have hempty := containsFolded_empty hsearch
    have hmisses : searchMatches ownerSid category processId (trim search) row = false := by
      simp [searchMatches, row, titledRow, htext, hempty]
    simp [foundRows, RowTable.newest, rows, hmisses, RowTable.empty]
  obtain ⟨page, hpage⟩ := hfinds.answers none rows (by simp [rows, RowTable.empty, row, titledRow])
  have hfirst := (timeline_ok hpage).1.length_eq
  have hnone := (hfinds.exact none none rows page hpage).1.length_eq
  rw [hfetched, List.length_take, List.length_singleton] at hfirst
  rw [hfound, List.take_nil, List.length_nil] at hnone
  have hlimit : 1 ≤ safeLimit limit 500 := Nat.le_max_left _ _
  omega

/-- A title with another character in the place of an underscore. -/
def underscoreRows : RowTable TimelineRow :=
  RowTable.empty.insert (titledRow "S-1-5-21-1" none none "axb")

end search

end OpenGuard.Storage
