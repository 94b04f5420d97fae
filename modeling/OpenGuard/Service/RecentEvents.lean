import OpenGuard.Lib.Rank
import OpenGuard.Lib.Timestamp
import OpenGuard.Storage.Events

/-!
# The newest events

The service stamps most security events with its own clock, as a number of seconds, and the events
of Defender keep the time that Windows gave them, as a text of ISO 8601. The list of recent events
is in the order of these texts.

* `Stamp`: how a producer states the time of an event.
* `Misordered`: the pairs of stamps whose texts are in the wrong order, `misordered_iff`.
* `NewestFirst`: what the list of recent events is for.
* `recentEvents_newestFirst_iff`: it is newest first exactly when no listed event is misordered.
-/

namespace OpenGuard.Service

open OpenGuard.Lib OpenGuard.Domain OpenGuard.Storage

/-! ## Stamps -/

/-- The time of an event as its producer states it: the clock of the service, or the `SystemTime` of
an event of Windows. -/
inductive Stamp where
  | unix (seconds : UInt64)
  | systemTime (time : Timestamp)

/-- Source: `service/main.rs`, `unix_timestamp` -/
def unixTimestamp (seconds : UInt64) : String := "unix:" ++ toString seconds.toNat

namespace Stamp

/-- The text that is stored. -/
def text : Stamp → String
  | unix seconds => unixTimestamp seconds
  | systemTime time => time.text

/-- The seconds since the start of 1970. -/
def instant : Stamp → ℚ
  | unix seconds => seconds.toNat
  | systemTime time => time.instant

end Stamp

/-- The second of two stamps is the later one, and its text is the smaller one: the second number is
the greater one with a smaller text, only the first stamp is one of the service, or both are of the
same second and the fraction of the second one goes on, not only with zeros. -/
def Misordered : Stamp → Stamp → Prop
  | .unix m, .unix n => m < n ∧ toString n.toNat < toString m.toNat
  | .unix m, .systemTime t => (m.toNat : ℚ) < t.instant
  | .systemTime _, .unix _ => False
  | .systemTime s, .systemTime t =>
      s.SameSecond t ∧ ∃ rest, t.fraction = s.fraction ++ rest ∧ ∃ digit ∈ rest, digit ≠ 0

section stamps

variable {m n : UInt64} {t : Timestamp} {x y : Stamp}

theorem unixTimestamp_lt_iff :
    unixTimestamp m < unixTimestamp n ↔ toString m.toNat < toString n.toNat := by
  rw [unixTimestamp, unixTimestamp, String.lt_iff, String.toList_append, String.toList_append,
    append_lt_append_iff rfl, String.lt_iff]
  simp

theorem unixTimestamp_injective : Function.Injective unixTimestamp := by
  intro m n h
  have htext : toString m.toNat = toString n.toNat := (String.append_right_inj "unix:").mp h
  exact UInt64.toNat_inj.mp (toString_nat_injective htext)

/-- Every time of Windows is before every time of the service in the order of the texts. -/
theorem text_lt_unixTimestamp (t : Timestamp) (n : UInt64) : t.text < unixTimestamp n := by
  obtain ⟨rest, hrest⟩ := t.toList_text
  have hfirst : ∀ digit < 10, Nat.digitChar digit < 'u' := by decide
  have hyear := t.year_lt
  rw [String.lt_iff, hrest, unixTimestamp, String.toList_append]
  exact List.cons_lt_cons_iff.mpr (Or.inl (hfirst _ (by omega)))

/-- **The stamps that are in the wrong order.** -/
theorem misordered_iff : Misordered x y ↔ y.text < x.text ∧ x.instant < y.instant := by
  cases x with
  | unix m =>
      cases y with
      | unix n =>
          simp only [Misordered, Stamp.text, Stamp.instant, unixTimestamp_lt_iff, Nat.cast_lt,
            UInt64.lt_iff_toNat_lt]
          exact and_comm
      | systemTime t =>
          simp only [Misordered, Stamp.text, Stamp.instant, text_lt_unixTimestamp, true_and]
  | systemTime s =>
      cases y with
      | unix n =>
          simp only [Misordered, Stamp.text, (text_lt_unixTimestamp s n).not_gt, false_and]
      | systemTime t => exact Timestamp.text_lt_and_instant_lt_iff.symm

/-- The text determines the instant. -/
theorem instant_eq_of_text (h : x.text = y.text) : x.instant = y.instant := by
  cases x with
  | unix m =>
      cases y with
      | unix n => rw [unixTimestamp_injective h]
      | systemTime t => exact absurd h (text_lt_unixTimestamp t m).ne'
  | systemTime s =>
      cases y with
      | unix n => exact absurd h (text_lt_unixTimestamp s n).ne
      | systemTime t => exact Timestamp.instant_eq_of_text h

end stamps

/-! ## The list -/

/-- Every row is that of an event whose time is stated by a stamp. -/
def Stamped (stamp : ℕ → Stamp) (rows : RowTable SecurityEventRow) : Prop :=
  ∀ row ∈ rows.rows, ∃ ownerSid event,
    row.2 = .ofEvent ownerSid event ∧ event.createdAt = (stamp row.1).text

/-- The rows of the owner and the shared ones. -/
def visibleEvents (ownerSid : String) (rows : RowTable SecurityEventRow) :
    List (ℕ × SecurityEventRow) :=
  rows.rows.filter fun row => row.2.ownerSid == ownerSid || row.2.ownerSid == ""

/-- The row is another one that the query puts first: its text is greater, or the texts are the same
and its id is greater. -/
def precedes (x y : ℕ × SecurityEventRow) : Prop := listedBefore x y ∧ x.1 ≠ y.1

instance : DecidableRel precedes := fun x y =>
  inferInstanceAs (Decidable (listedBefore x y ∧ x.1 ≠ y.1))

/-- What the list is for: the visible events of the greatest instants, as many as the limit allows,
in the order of their instants. -/
structure NewestFirst (stamp : ℕ → Stamp) (visible : List (ℕ × SecurityEventRow)) (count : ℕ)
    (events : List (ℕ × SecurityEvent)) : Prop where
  length : events.length = min count visible.length
  distinct : (events.map Prod.fst).Nodup
  read : ∀ event ∈ events, ∃ row ∈ visible, securityEventFromRow row = .ok event
  descending : events.Pairwise fun x y => (stamp y.1).instant ≤ (stamp x.1).instant
  greatest : ∀ event ∈ events, ∀ row ∈ visible, row.1 ∉ events.map Prod.fst →
    (stamp row.1).instant ≤ (stamp event.1).instant

section list

variable {stamp : ℕ → Stamp} {rows : RowTable SecurityEventRow} {ownerSid : String}
  {x y : ℕ × SecurityEventRow}

theorem stamped_empty (stamp : ℕ → Stamp) : Stamped stamp RowTable.empty := by
  simp [Stamped, RowTable.empty]

/-- An event enters with the stamp of its producer. -/
theorem Stamped.insert (h : Stamped stamp rows) (newStamp : Stamp) (event : SecurityEvent)
    (hevent : event.createdAt = newStamp.text) (ownerSid : String) :
    Stamped (Function.update stamp rows.nextId newStamp)
      (rows.insert (.ofEvent ownerSid event)) := by
  intro row hrow
  rcases RowTable.mem_insert.mp hrow with hrow | rfl
  · rw [Function.update_of_ne (Nat.ne_of_lt (RowTable.lt_nextId hrow))]
    exact h row hrow
  · exact ⟨ownerSid, event, rfl, by rw [Function.update_self]; exact hevent⟩

/-- A producer records an event, or fails to. -/
theorem Stamped.recordEvent {history : EventHistory} (h : Stamped stamp history.securityEvents)
    (newStamp : Stamp) (event : SecurityEvent) (hevent : event.createdAt = newStamp.text)
    (fault : Fault) (ownerSid : String) :
    Stamped (Function.update stamp history.securityEvents.nextId newStamp)
      (recordEvent fault ownerSid event history).2.securityEvents := by
  cases fault with
  | none => exact h.insert newStamp event hevent ownerSid
  | some error =>
      intro row hrow
      have hold : row ∈ history.securityEvents.rows := hrow
      rw [Function.update_of_ne (Nat.ne_of_lt (RowTable.lt_nextId hold))]
      exact h row hold

/-- Old events go, or stay when the pruning fails. -/
theorem Stamped.prune {history : EventHistory} (h : Stamped stamp history.securityEvents)
    (fault : Fault) (maximumSecurityEvents maximumTimelineEvents : UInt32) :
    Stamped stamp (pruneEventHistory fault maximumSecurityEvents maximumTimelineEvents
      history).2.securityEvents := by
  cases fault with
  | none => exact fun row hrow => h row (RowTable.keepNewest_subset hrow)
  | some error => exact h

instance : Std.Total listedBefore where
  total x y := by
    unfold listedBefore
    rcases lt_trichotomy x.2.createdAt y.2.createdAt with h | h | h
    · exact Or.inr (Or.inl h)
    · rcases Nat.le_total x.1 y.1 with hid | hid
      · exact Or.inr (Or.inr ⟨h.symm, hid⟩)
      · exact Or.inl (Or.inr ⟨h, hid⟩)
    · exact Or.inl (Or.inl h)

instance : IsTrans (ℕ × SecurityEventRow) listedBefore where
  trans x y z hxy hyz := by
    unfold listedBefore at *
    rcases hxy with hxy | ⟨hxy, hxyId⟩
    · rcases hyz with hyz | ⟨hyz, -⟩
      · exact Or.inl (hyz.trans hxy)
      · exact Or.inl (hyz ▸ hxy)
    · rcases hyz with hyz | ⟨hyz, hyzId⟩
      · exact Or.inl (hxy ▸ hyz)
      · exact Or.inr ⟨hxy.trans hyz, hyzId.trans hxyId⟩

theorem precedes_asymm (x y : ℕ × SecurityEventRow) (h : precedes x y) : ¬ precedes y x := by
  obtain ⟨h | ⟨h, hid⟩, hne⟩ := h
  · rintro ⟨h' | ⟨h', -⟩, -⟩
    · exact lt_asymm h h'
    · exact h.ne h'
  · rintro ⟨h' | ⟨-, hid'⟩, -⟩
    · exact h'.ne h
    · exact hne (Nat.le_antisymm hid' hid)

theorem perm_listedEvents (ownerSid : String) (rows : RowTable SecurityEventRow) :
    (listedEvents ownerSid rows).Perm (visibleEvents ownerSid rows) :=
  List.perm_insertionSort _ _

theorem nodup_visibleEvents (ownerSid : String) (rows : RowTable SecurityEventRow) :
    ((visibleEvents ownerSid rows).map Prod.fst).Nodup :=
  List.pairwise_map.mpr ((rows.ordered.sublist List.filter_sublist).imp fun h => Nat.ne_of_lt h)

theorem nodup_listedEvents (ownerSid : String) (rows : RowTable SecurityEventRow) :
    ((listedEvents ownerSid rows).map Prod.fst).Nodup :=
  ((perm_listedEvents ownerSid rows).map Prod.fst).nodup_iff.mpr (nodup_visibleEvents ownerSid rows)

/-- The list is in the order of the query. -/
theorem listedEvents_sorted : (listedEvents ownerSid rows).Pairwise precedes :=
  (List.pairwise_insertionSort listedBefore _).and
    (List.pairwise_map.mp (nodup_listedEvents ownerSid rows))

/-- The row of an event is read as the event. -/
theorem securityEventFromRow_ofEvent (id : ℕ) (ownerSid : String) (event : SecurityEvent) :
    securityEventFromRow (id, .ofEvent ownerSid event) = .ok (id, event) := by
  simp [securityEventFromRow, severityFromRow, SecurityEventRow.ofEvent, Except.map]

theorem fst_securityEventFromRow {event : ℕ × SecurityEvent}
    (h : securityEventFromRow x = .ok event) : event.1 = x.1 := fst_of_map_ok h

/-- The list of stamped events can be read. -/
theorem recentEvents_ok (h : Stamped stamp rows) (ownerSid : String) (limit : UInt32) :
    ∃ events, recentEvents none ownerSid limit rows = .ok events ∧
      List.Forall₂ (fun row event => securityEventFromRow row = .ok event)
        ((listedEvents ownerSid rows).take (safeLimit limit 2000)) events := by
  have hread : ∀ row ∈ (listedEvents ownerSid rows).take (safeLimit limit 2000),
      ∃ event, securityEventFromRow row = .ok event := by
    intro row hrow
    have hvisible := (perm_listedEvents ownerSid rows).mem_iff.mp (List.mem_of_mem_take hrow)
    obtain ⟨owner, event, hevent, -⟩ := h row (List.mem_of_mem_filter hvisible)
    rw [show row = (row.1, .ofEvent owner event) from Prod.ext rfl hevent]
    exact ⟨_, securityEventFromRow_ofEvent _ _ _⟩
  obtain ⟨events, hevents⟩ := exists_mapM hread
  exact ⟨events, hevents, mapM_ok_iff.mp hevents⟩

/-- What `NewestFirst` says about the first rows of the order of the query. -/
theorem newestFirst_iff {count : ℕ} {events : List (ℕ × SecurityEvent)}
    (h : List.Forall₂ (fun row event => securityEventFromRow row = .ok event)
      ((listedEvents ownerSid rows).take count) events) :
    NewestFirst stamp (visibleEvents ownerSid rows) count events ↔
      ((listedEvents ownerSid rows).take count).Pairwise
          (fun x y => (stamp y.1).instant ≤ (stamp x.1).instant) ∧
        ∀ x ∈ (listedEvents ownerSid rows).take count,
          ∀ y ∈ (listedEvents ownerSid rows).drop count,
            (stamp y.1).instant ≤ (stamp x.1).instant := by
  have hids := map_fst_of_mapM (fun _ _ => fst_securityEventFromRow) h
  have hperm := perm_listedEvents ownerSid rows
  have hsplit := List.take_append_drop count (listedEvents ownerSid rows)
  have hnodup := nodup_listedEvents ownerSid rows
  have hdescending : events.Pairwise (fun x y => (stamp y.1).instant ≤ (stamp x.1).instant) ↔
      ((listedEvents ownerSid rows).take count).Pairwise
        (fun x y => (stamp y.1).instant ≤ (stamp x.1).instant) := by
    have hevents : (events.map Prod.fst).Pairwise
        (fun m n => (stamp n).instant ≤ (stamp m).instant) ↔
        events.Pairwise (fun x y => (stamp y.1).instant ≤ (stamp x.1).instant) := List.pairwise_map
    rw [← hevents, hids, List.pairwise_map]
  rw [← hdescending]
  rw [← hsplit, List.map_append, List.nodup_append] at hnodup
  obtain ⟨hfirst, -, hdisjoint⟩ := hnodup
  constructor
  · rintro ⟨-, -, -, hordered, hgreatest⟩
    refine ⟨hordered, fun x hx y hy => ?_⟩
    obtain ⟨event, hevent, hread⟩ := exists_of_mem_left h hx
    have hvisible := hperm.mem_iff.mp (List.mem_of_mem_drop hy)
    rw [← fst_securityEventFromRow hread]
    refine hgreatest event hevent y hvisible fun hmem => ?_
    rw [hids] at hmem
    exact hdisjoint _ hmem _ (List.mem_map_of_mem hy) rfl
  · rintro ⟨hordered, hlater⟩
    have hrow : ∀ event ∈ events, ∃ row ∈ (listedEvents ownerSid rows).take count,
        securityEventFromRow row = .ok event := fun event hevent =>
      exists_of_mem_left h.flip hevent
    refine ⟨?_, ?_, ?_, hordered, ?_⟩
    · rw [← h.length_eq, List.length_take, hperm.length_eq]
    · rw [hids]
      exact hfirst
    · intro event hevent
      obtain ⟨row, hmem, hread⟩ := hrow event hevent
      exact ⟨row, hperm.mem_iff.mp (List.mem_of_mem_take hmem), hread⟩
    · intro event hevent y hy hnone
      obtain ⟨row, hmem, hread⟩ := hrow event hevent
      rw [fst_securityEventFromRow hread]
      refine hlater row hmem y ?_
      have hlisted := hperm.mem_iff.mpr hy
      rw [← hsplit] at hlisted
      rcases List.mem_append.mp hlisted with hshown | hrest
      · rw [hids] at hnone
        exact absurd (List.mem_map_of_mem hshown) hnone
      · exact hrest

/-- A pair of rows in the order of the query is in the order of the instants unless it is
misordered. -/
theorem instant_le_iff (h : Stamped stamp rows) (hx : x ∈ rows.rows) (hy : y ∈ rows.rows) :
    (precedes x y → (stamp y.1).instant ≤ (stamp x.1).instant) ↔
      ¬ Misordered (stamp x.1) (stamp y.1) := by
  obtain ⟨_, xEvent, hxRow, hxText⟩ := h x hx
  obtain ⟨_, yEvent, hyRow, hyText⟩ := h y hy
  have hxCreated : x.2.createdAt = (stamp x.1).text := by rw [hxRow]; exact hxText
  have hyCreated : y.2.createdAt = (stamp y.1).text := by rw [hyRow]; exact hyText
  rw [misordered_iff, ← hxCreated, ← hyCreated]
  constructor
  · rintro hle ⟨htext, hinstant⟩
    have hne : x.1 ≠ y.1 := fun heq => htext.ne (by rw [RowTable.eq_of_mem hx hy heq])
    exact hinstant.not_ge (hle ⟨Or.inl htext, hne⟩)
  · rintro hnot ⟨htext | ⟨htext, -⟩, -⟩
    · exact not_lt.mp fun hinstant => hnot ⟨htext, hinstant⟩
    · rw [hxCreated, hyCreated] at htext
      exact (instant_eq_of_text htext).ge

/-- `NewestFirst`, by the stamps of the visible rows. -/
theorem newestFirst_iff_not_misordered {count : ℕ} {events : List (ℕ × SecurityEvent)}
    (h : Stamped stamp rows)
    (hread : List.Forall₂ (fun row event => securityEventFromRow row = .ok event)
      ((listedEvents ownerSid rows).take count) events) :
    NewestFirst stamp (visibleEvents ownerSid rows) count events ↔
      ∀ x ∈ visibleEvents ownerSid rows, ∀ y ∈ visibleEvents ownerSid rows,
        rank precedes (visibleEvents ownerSid rows) x < count →
          ¬ Misordered (stamp x.1) (stamp y.1) := by
  have hperm := perm_listedEvents ownerSid rows
  rw [newestFirst_iff hread, first_rel_iff precedes_asymm listedEvents_sorted]
  simp only [hperm.mem_iff, rank_perm hperm]
  refine forall₂_congr fun x hx => forall₂_congr fun y hy => forall_congr' fun _ => ?_
  exact instant_le_iff h (List.mem_of_mem_filter hx) (List.mem_of_mem_filter hy)

end list

/-- **The list of recent events is newest first exactly when no listed event is misordered with
another visible one.** -/
theorem recentEvents_newestFirst_iff (stamp : ℕ → Stamp) (rows : RowTable SecurityEventRow)
    (ownerSid : String) (limit : UInt32) (h : Stamped stamp rows) :
    (∃ events, recentEvents none ownerSid limit rows = .ok events ∧
        NewestFirst stamp (visibleEvents ownerSid rows) (safeLimit limit 2000) events) ↔
      ∀ x ∈ visibleEvents ownerSid rows, ∀ y ∈ visibleEvents ownerSid rows,
        rank precedes (visibleEvents ownerSid rows) x < safeLimit limit 2000 →
          ¬ Misordered (stamp x.1) (stamp y.1) := by
  obtain ⟨events, hresult, hread⟩ := recentEvents_ok h ownerSid limit
  rw [← newestFirst_iff_not_misordered h hread, hresult]
  simp

/-- Two events, each recorded with a time. -/
def sampleHistory (first second : Stamp) : RowTable SecurityEventRow :=
  (RowTable.empty.insert (.ofEvent "" { sampleEvent with createdAt := first.text })).insert
    (.ofEvent "" { sampleEvent with createdAt := second.text })

/-- The stamps of two events. -/
def sampleStamps (first second : Stamp) : ℕ → Stamp :=
  Function.update (Function.update (fun _ => first) 1 first) 2 second

theorem visibleEvents_sampleHistory (first second : Stamp) :
    visibleEvents "" (sampleHistory first second) =
      [(1, .ofEvent "" { sampleEvent with createdAt := first.text }),
        (2, .ofEvent "" { sampleEvent with createdAt := second.text })] := by
  rfl

theorem stamped_sampleHistory (first second : Stamp) :
    Stamped (sampleStamps first second) (sampleHistory first second) :=
  ((stamped_empty fun _ => first).insert first _ rfl "").insert second _ rfl ""

/-- Two events that the service stamps one after the other are listed newest first. -/
theorem recentEvents_newestFirst_service :
    ∃ events, recentEvents none "" 1 (sampleHistory (.unix 1786190400) (.unix 1786190401)) =
        .ok events ∧
      NewestFirst (sampleStamps (.unix 1786190400) (.unix 1786190401))
        (visibleEvents "" (sampleHistory (.unix 1786190400) (.unix 1786190401)))
        (safeLimit 1 2000) events := by
  refine (recentEvents_newestFirst_iff _ _ "" 1 (stamped_sampleHistory _ _)).mpr ?_
  have hgrow : ¬ Nat.repr 1786190401 < Nat.repr 1786190400 := by decide
  simp [visibleEvents_sampleHistory, sampleStamps, Misordered, hgrow, -String.lt_iff_ltb]

/-- A time at which Windows reports a detection. -/
def sampleTime : Timestamp where
  year := 2026
  month := 8
  day := 8
  hour := 12
  minute := 0
  second := 1
  fraction := []
  year_lt := by decide
  month_pos := by decide
  month_le := by decide
  day_pos := by decide
  day_le := by decide
  hour_lt := by decide
  minute_lt := by decide
  second_lt := by decide
  fraction_lt := by simp

theorem instant_sampleTime : sampleTime.instant = 1786190401 := by
  have hseconds : sampleTime.seconds = Timestamp.epoch + 1786190401 := by decide
  rw [Timestamp.instant, hseconds, Nat.cast_add]
  simp [sampleTime, fractionValue]

/-- A detection of Defender is pushed out by an event that the service wrote a second before. -/
theorem defender_pushed_out :
    ¬ ∃ events, recentEvents none "" 1 (sampleHistory (.unix 1786190400) (.systemTime sampleTime)) =
        .ok events ∧
      NewestFirst (sampleStamps (.unix 1786190400) (.systemTime sampleTime))
        (visibleEvents "" (sampleHistory (.unix 1786190400) (.systemTime sampleTime)))
        (safeLimit 1 2000) events := by
  have hstamped := stamped_sampleHistory (.unix 1786190400) (.systemTime sampleTime)
  rintro ⟨events, hevents, hnewest⟩
  obtain ⟨listed, hlisted, hread⟩ := recentEvents_ok hstamped "" 1
  have heq : listed = events := Except.ok.inj (hlisted.symm.trans hevents)
  rw [← heq, newestFirst_iff_not_misordered hstamped hread] at hnewest
  rw [visibleEvents_sampleHistory] at hnewest
  refine hnewest _ List.mem_cons_self _ (List.mem_cons_of_mem _ List.mem_cons_self) ?_ ?_
  · decide
  · show ((1786190400 : UInt64).toNat : ℚ) < sampleTime.instant
    have hclock : (1786190400 : UInt64).toNat = 1786190400 := rfl
    rw [instant_sampleTime, hclock]
    norm_num

end OpenGuard.Service
