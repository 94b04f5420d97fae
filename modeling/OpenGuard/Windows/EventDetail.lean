import OpenGuard.Lib.Occurrence
import OpenGuard.Lib.Uncovered
import OpenGuard.Windows.Sysmon

/-!
# The detail of an event

The detail joins the fields of an event, each with its label. A field is left out when what was
joined so far has a part that ends with its value, which need not be the same value.

* `detail_eq`: the fields that are shown.
* `eq_of_detailOf_eq`: a detail tells which fields it shows.
* `losesNoEvidence_iff`: **every value is shown** exactly when no new value ends an earlier field
  that is the first with its own value.
-/

namespace OpenGuard.Windows

open OpenGuard.Lib

/-- A label and a value. -/
abbrev DetailField := String × String

/-- The text of a field. -/
def labelledText (field : DetailField) : String := field.1 ++ "=" ++ field.2

/-- The text of a field ends with a value. -/
def endsField (field : DetailField) (value : String) : Bool := endsWith (labelledText field) value

namespace SysmonEvent

variable (event : SysmonEvent)

/-- The fields in the order of the detail.
Source: `sysmon.rs`, `SysmonEvent::detail` -/
def detailFields : List DetailField :=
  [("image", event.image), ("command", event.field "CommandLine"), ("target", event.targetPath),
    ("destination", event.field "DestinationIp"), ("port", event.field "DestinationPort"),
    ("dns", event.field "QueryName"), ("access", event.field "GrantedAccess"),
    ("pipe", event.field "PipeName")]

/-- The detail that shows some fields.
Source: `sysmon.rs`, `SysmonEvent::detail` -/
def detailOf (shown : List DetailField) : String :=
  if shown = [] then "Sysmon event " ++ toString event.eventId.toNat
  else joinWith "; " (shown.map labelledText)

/-- The detail shows every value that is not empty, under its own label or an earlier one. -/
def LosesNoEvidence : Prop :=
  ∃ shown : List DetailField, shown.Sublist event.detailFields ∧ event.detail = event.detailOf shown ∧
    Represents Prod.snd "" event.detailFields shown

end SysmonEvent

/-! ## The fields that are shown -/

section shown

variable {event : SysmonEvent} {fields shown other : List DetailField} {field : DetailField}

theorem endsField_self (field : DetailField) : endsField field field.2 := by
  rw [endsField, endsWith, labelledText, String.toList_append, List.isSuffixOf_iff_suffix]
  exact List.suffix_append _ _

theorem foldl_appendDetail (fields : List DetailField) :
    fields.foldl (fun parts field => appendDetail parts field.1 field.2) [] =
      (uncovered Prod.snd "" endsField fields).map labelledText := by
  induction fields using List.reverseRecOn with
  | nil => rfl
  | append_singleton fields field ih =>
      rw [List.foldl_append, ih, uncovered_append_singleton, List.foldl_cons, List.foldl_nil,
        appendDetail]
      have htest : (field.2 != "" && !((uncovered Prod.snd "" endsField fields).map
          labelledText).any fun part => endsWith part field.2) = true ↔
          field.2 ≠ "" ∧ ∀ other ∈ uncovered Prod.snd "" endsField fields,
            endsField other field.2 = false := by
        simp [endsField]
      by_cases hkept : field.2 ≠ "" ∧ ∀ other ∈ uncovered Prod.snd "" endsField fields,
          endsField other field.2 = false
      · rw [if_pos (htest.mpr hkept), if_pos hkept, List.map_append]
        rfl
      · rw [if_neg fun h => hkept (htest.mp h), if_neg hkept]

/-- The detail shows the fields whose values end no part before them. -/
theorem detail_eq :
    event.detail = event.detailOf (uncovered Prod.snd "" endsField event.detailFields) := by
  have hparts := foldl_appendDetail event.detailFields
  unfold SysmonEvent.detailOf
  rw [← hparts]
  have hempty : uncovered Prod.snd "" endsField event.detailFields = [] ↔
      event.detailFields.foldl (fun parts field => appendDetail parts field.1 field.2) [] = [] := by
    rw [hparts, List.map_eq_nil_iff]
  simp only [hempty]
  rfl

/-! ## What a detail tells -/

/-- The parts that follow the first one. -/
def laterParts (fields : List DetailField) : List Char :=
  fields.flatMap fun field => "; ".toList ++ (labelledText field).toList

/-- The first parts of two details have one label. -/
theorem label_eq_of_laterParts_eq {first second : DetailField} (hfirst : '=' ∉ first.1.toList)
    (hsecond : '=' ∉ second.1.toList)
    (h : laterParts (first :: shown) = laterParts (second :: other)) : first.1 = second.1 := by
  simp only [laterParts, List.flatMap_cons, labelledText, String.toList_append,
    List.append_assoc] at h
  have hlabels := List.append_cancel_left h
  rw [show "=".toList = ['='] from rfl, List.singleton_append, List.singleton_append] at hlabels
  exact String.toList_inj.mp (split_at_separator hfirst hsecond hlabels).1

/-- Parts that show the first field of a list differ from those that do not. -/
theorem laterParts_cons_ne (hlabels : ((field :: fields).map Prod.fst).Nodup)
    (hequals : ∀ f ∈ field :: fields, '=' ∉ f.1.toList) (hother : other.Sublist fields) :
    laterParts (field :: shown) ≠ laterParts other := by
  intro h
  cases other with
  | nil => simp [laterParts, labelledText] at h
  | cons second other =>
      have hsecond : second ∈ fields := hother.subset List.mem_cons_self
      have hlabel := label_eq_of_laterParts_eq (hequals field List.mem_cons_self)
        (hequals second (List.mem_cons_of_mem _ hsecond)) h
      rw [List.map_cons, List.nodup_cons, hlabel] at hlabels
      exact hlabels.1 (List.mem_map_of_mem hsecond)

/-- The parts tell which fields of a list they show. -/
theorem eq_of_laterParts_eq (hlabels : (fields.map Prod.fst).Nodup)
    (hequals : ∀ field ∈ fields, '=' ∉ field.1.toList) (hshown : shown.Sublist fields)
    (hother : other.Sublist fields) (h : laterParts shown = laterParts other) : shown = other := by
  induction fields generalizing shown other with
  | nil => rw [List.sublist_nil.mp hshown, List.sublist_nil.mp hother]
  | cons field fields ih =>
      have hnodup := (List.nodup_cons.mp hlabels).2
      have hlater : ∀ f ∈ fields, '=' ∉ f.1.toList := fun f hf =>
        hequals f (List.mem_cons_of_mem _ hf)
      cases hshown with
      | cons _ hshown =>
          cases hother with
          | cons _ hother => exact ih hnodup hlater hshown hother h
          | cons_cons _ hother => exact absurd h.symm (laterParts_cons_ne hlabels hequals hshown)
      | cons_cons _ hshown =>
          cases hother with
          | cons _ hother => exact absurd h (laterParts_cons_ne hlabels hequals hother)
          | cons_cons _ hother =>
              simp only [laterParts, List.flatMap_cons] at h
              rw [ih hnodup hlater hshown hother (List.append_cancel_left h)]

theorem nodup_labels : (event.detailFields.map Prod.fst).Nodup := by
  rw [show event.detailFields.map Prod.fst =
    ["image", "command", "target", "destination", "port", "dns", "access", "pipe"] from rfl]
  decide

theorem equals_notMem_label (h : field ∈ event.detailFields) : '=' ∉ field.1.toList := by
  have hlabel := List.mem_map_of_mem (f := Prod.fst) h
  rw [show event.detailFields.map Prod.fst =
    ["image", "command", "target", "destination", "port", "dns", "access", "pipe"] from rfl]
    at hlabel
  have hall : ∀ label ∈
      ["image", "command", "target", "destination", "port", "dns", "access", "pipe"],
      '=' ∉ label.toList := by
    decide
  exact hall field.1 hlabel

/-- A detail tells which fields it shows. -/
theorem eq_of_detailOf_eq (hshown : shown.Sublist event.detailFields)
    (hother : other.Sublist event.detailFields)
    (h : event.detailOf shown = event.detailOf other) : shown = other := by
  have hparts {shown : List DetailField} (hne : shown ≠ []) :
      laterParts shown = "; ".toList ++ (event.detailOf shown).toList := by
    obtain ⟨first, rest, rfl⟩ := List.exists_cons_of_ne_nil hne
    rw [SysmonEvent.detailOf, if_neg hne, List.map_cons, toList_joinWith, List.flatMap_map,
      laterParts, List.flatMap_cons, List.append_assoc]
  -- the text without a part has no equals sign
  have hnone {shown : List DetailField} (hne : shown ≠ []) :
      event.detailOf shown ≠ event.detailOf [] := by
    intro h
    have hequals : '=' ∈ laterParts shown := by
      obtain ⟨first, rest, rfl⟩ := List.exists_cons_of_ne_nil hne
      simp [laterParts, labelledText]
    rw [hparts hne, h] at hequals
    have hempty : '=' ∉ (event.detailOf []).toList := by
      rw [SysmonEvent.detailOf, if_pos rfl, String.toList_append, List.mem_append, not_or]
      exact ⟨by decide, fun hdigit => absurd (isDigit_of_mem_toString hdigit) (by decide)⟩
    rcases List.mem_append.mp hequals with hseparator | hdetail
    · exact absurd hseparator (by decide)
    · exact hempty hdetail
  by_cases hfirst : shown = []
  · by_cases hsecond : other = []
    · rw [hfirst, hsecond]
    · exact absurd (hfirst ▸ h).symm (hnone hsecond)
  · by_cases hsecond : other = []
    · exact absurd (hsecond ▸ h) (hnone hfirst)
    · refine eq_of_laterParts_eq nodup_labels (fun _ => equals_notMem_label) hshown hother ?_
      rw [hparts hfirst, hparts hsecond, h]

end shown

/-- **Every value is shown** exactly when no value that no earlier field has ends an earlier field
that is the first with its own value. -/
theorem losesNoEvidence_iff (event : SysmonEvent) :
    event.LosesNoEvidence ↔ NoneCovered Prod.snd "" endsField event.detailFields := by
  rw [← represents_uncovered_iff endsField_self (List.Nodup.of_map _ nodup_labels)]
  constructor
  · rintro ⟨shown, hshown, hdetail, hall⟩
    rw [detail_eq] at hdetail
    rw [eq_of_detailOf_eq uncovered_sublist hshown hdetail]
    exact hall
  · exact fun h => ⟨_, uncovered_sublist, detail_eq, h⟩

/-- A detail that loses nothing contains the text of each field that is not empty, or of an earlier
one with its value. -/
theorem containsStr_detail {event : SysmonEvent} (h : event.LosesNoEvidence)
    {before after : List DetailField} {field : DetailField}
    (hfields : event.detailFields = before ++ field :: after) (hne : field.2 ≠ "") :
    ∃ earlier ∈ before ++ [field], earlier.2 = field.2 ∧
      containsStr event.detail (labelledText earlier) := by
  obtain ⟨shown, -, hdetail, hall⟩ := h
  have hcontains : ∀ other ∈ shown, containsStr event.detail (labelledText other) := by
    intro other hother
    obtain ⟨front, back, hjoin⟩ := exists_joinWith_eq "; " (List.mem_map_of_mem hother)
    rw [hdetail, SysmonEvent.detailOf, if_neg (List.ne_nil_of_mem hother), containsStr_iff, hjoin,
      String.toList_append, String.toList_append]
    exact ⟨front.toList, back.toList, rfl⟩
  rcases hall before field after hfields hne with hself | ⟨earlier, hearlier, hshown, hvalue⟩
  · exact ⟨field, by simp, rfl, hcontains field hself⟩
  · exact ⟨earlier, List.mem_append_left _ hearlier, hvalue, hcontains earlier hshown⟩

/-- A connection to an address that ends like the port. -/
def connectionEvent : SysmonEvent where
  eventId := 3
  occurredAt := "unix:1760000000"
  fields := AList.insert "DestinationPort" "80" (AList.insert "DestinationIp" "10.0.0.80" ∅)

/-- The detail of that connection has no port. -/
theorem port_lost : ¬ ∀ event : SysmonEvent, event.LosesNoEvidence := by
  intro h
  obtain ⟨shown, hsublist, hdetail, hall⟩ := h connectionEvent
  have hshown : uncovered Prod.snd "" endsField connectionEvent.detailFields =
      [("destination", "10.0.0.80")] := by
    decide +kernel
  rw [detail_eq] at hdetail
  have hsame := eq_of_detailOf_eq uncovered_sublist hsublist hdetail
  rw [← hsame, hshown] at hall
  have hport := hall [("image", ""), ("command", ""), ("target", ""), ("destination", "10.0.0.80")]
    ("port", "80") [("dns", ""), ("access", ""), ("pipe", "")] (by decide +kernel) (by decide)
  revert hport
  decide

end OpenGuard.Windows
