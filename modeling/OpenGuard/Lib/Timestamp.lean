import Mathlib.Data.List.Lex
import Mathlib.Data.Rat.Defs
import Mathlib.Data.String.Basic
import Mathlib.Tactic.Linarith
import Mathlib.Tactic.Positivity

/-!
# Timestamps as text

The time of an event as a text of ISO 8601 in UTC, and what the order of such texts says about the
times. The fields from the year to the second have fixed widths, so their texts are in the order of
the times; the fraction of the second has not, and its end is compared with a digit.

* `Timestamp`: a date and a time of the proleptic Gregorian calendar with a decimal fraction.
* `Timestamp.text`, `Timestamp.instant`: the text, and the seconds since the start of 1970.
* `text_lt_iff`, `seconds_lt`: both orders, field by field.
* `text_lt_and_instant_lt_iff`: the only pairs whose texts are in the wrong order.
-/

namespace OpenGuard.Lib

/-! ## Numbers of a fixed width -/

/-- The last `width` decimal digits of a number. -/
def padDigits : ℕ → ℕ → List Char
  | 0, _ => []
  | width + 1, n => padDigits width (n / 10) ++ [Nat.digitChar (n % 10)]

section digits

variable {m n width : ℕ} {x y u v : List Char}

@[simp] theorem length_padDigits (width n : ℕ) : (padDigits width n).length = width := by
  induction width generalizing n with
  | zero => rfl
  | succ width ih => simp [padDigits, ih]

theorem digitChar_lt_iff (hm : m < 10) (hn : n < 10) :
    Nat.digitChar m < Nat.digitChar n ↔ m < n := by
  revert n
  revert m
  decide

theorem digitChar_inj (hm : m < 10) (hn : n < 10) : Nat.digitChar m = Nat.digitChar n ↔ m = n := by
  revert n
  revert m
  decide

/-- Texts whose first parts have the same length are compared part by part. -/
theorem append_lt_append_iff (h : x.length = y.length) :
    x ++ u < y ++ v ↔ x < y ∨ x = y ∧ u < v := by
  induction x generalizing y with
  | nil =>
      rw [List.length_nil, eq_comm, List.length_eq_zero_iff] at h
      subst h
      simp
  | cons a x ih =>
      cases y with
      | nil => simp at h
      | cons b y =>
          simp only [List.cons_append, List.cons_lt_cons_iff, List.cons.injEq,
            ih (Nat.succ.inj h)]
          tauto

theorem padDigits_lt (h : m < n) (hn : n < 10 ^ width) : padDigits width m < padDigits width n := by
  induction width generalizing m n with
  | zero =>
      rw [Nat.pow_zero] at hn
      omega
  | succ width ih =>
      rw [Nat.pow_succ] at hn
      rw [padDigits, padDigits, append_lt_append_iff (by simp)]
      by_cases hfront : m / 10 < n / 10
      · exact Or.inl (ih hfront (by omega))
      · have hsame : m / 10 = n / 10 := by omega
        have hlast : m % 10 < n % 10 := by omega
        refine Or.inr ⟨by rw [hsame], List.cons_lt_cons_iff.mpr (Or.inl ?_)⟩
        exact (digitChar_lt_iff (Nat.mod_lt _ (by decide)) (Nat.mod_lt _ (by decide))).mpr hlast

/-- Numbers of the same width are in the order of their texts. -/
theorem padDigits_lt_iff (hm : m < 10 ^ width) (hn : n < 10 ^ width) :
    padDigits width m < padDigits width n ↔ m < n := by
  refine ⟨fun h => ?_, fun h => padDigits_lt h hn⟩
  rcases lt_trichotomy m n with hlt | rfl | hgt
  · exact hlt
  · exact absurd h (lt_irrefl _)
  · exact absurd h (lt_asymm (padDigits_lt hgt hm))

theorem padDigits_inj (hm : m < 10 ^ width) (hn : n < 10 ^ width) :
    padDigits width m = padDigits width n ↔ m = n := by
  refine ⟨fun h => ?_, fun h => by rw [h]⟩
  rcases lt_trichotomy m n with hlt | rfl | hgt
  · exact absurd (padDigits_lt hlt hn) (h ▸ lt_irrefl _)
  · rfl
  · exact absurd (padDigits_lt hgt hm) (h ▸ lt_irrefl _)

end digits

/-! ## The calendar -/

/-- A leap year of the Gregorian calendar. -/
def IsLeapYear (year : ℕ) : Prop := year % 4 = 0 ∧ (year % 100 ≠ 0 ∨ year % 400 = 0)

instance (year : ℕ) : Decidable (IsLeapYear year) :=
  inferInstanceAs (Decidable (year % 4 = 0 ∧ (year % 100 ≠ 0 ∨ year % 400 = 0)))

/-- The days of a month. -/
def daysInMonth (year month : ℕ) : ℕ :=
  match month with
  | 0 => 0
  | 2 => if IsLeapYear year then 29 else 28
  | 4 | 6 | 9 | 11 => 30
  | _ => 31

/-- The days of the months of a year before a month. -/
def daysBeforeMonth (year : ℕ) : ℕ → ℕ
  | 0 => 0
  | month + 1 => daysBeforeMonth year month + daysInMonth year month

/-- The days of the years before a year. -/
def daysBeforeYear (year : ℕ) : ℕ :=
  365 * year + (year + 3) / 4 + (year + 399) / 400 - (year + 99) / 100

/-- The number of a day. -/
def dayNumber (year month day : ℕ) : ℕ := daysBeforeYear year + daysBeforeMonth year month + day

section calendar

variable {year year' month month' day day' : ℕ}

theorem daysBeforeMonth_thirteen (year : ℕ) :
    daysBeforeMonth year 13 = if IsLeapYear year then 366 else 365 := by
  simp only [daysBeforeMonth, daysInMonth]
  split <;> rfl

/-- The rounded quotient grows with each multiple. -/
theorem div_succ_eq (year : ℕ) {period : ℕ} (h : 0 < period) :
    (year + 1 + (period - 1)) / period =
      (year + (period - 1)) / period + if year % period = 0 then 1 else 0 := by
  have hshift : year + 1 + (period - 1) = year + (period - 1) + 1 := by omega
  have hmultiple : period ∣ year + (period - 1) + 1 ↔ year % period = 0 := by
    rw [show year + (period - 1) + 1 = year + period by omega, Nat.dvd_add_left (dvd_refl period),
      Nat.dvd_iff_mod_eq_zero]
  rw [hshift, Nat.succ_div]
  simp only [hmultiple]

theorem daysBeforeYear_succ (year : ℕ) :
    daysBeforeYear (year + 1) = daysBeforeYear year + daysBeforeMonth year 13 := by
  have hfour := div_succ_eq year (show 0 < 4 by decide)
  have hcentury := div_succ_eq year (show 0 < 100 by decide)
  have hfourth := div_succ_eq year (show 0 < 400 by decide)
  have hle : (year + 99) / 100 ≤ 365 * year + (year + 3) / 4 := by omega
  simp only [Nat.reduceSub] at hfour hcentury hfourth
  rw [daysBeforeMonth_thirteen, daysBeforeYear, daysBeforeYear, hfour, hcentury, hfourth]
  generalize (year + 3) / 4 = fours at *
  generalize (year + 99) / 100 = centuries at *
  generalize (year + 399) / 400 = fourths at *
  have hfourth : year % 400 = 0 → year % 100 = 0 := by omega
  have hcentury : year % 100 = 0 → year % 4 = 0 := by omega
  unfold IsLeapYear
  by_cases h400 : year % 400 = 0
  · simp [h400, hfourth h400, hcentury (hfourth h400)]
    omega
  by_cases h100 : year % 100 = 0
  · simp [h400, h100, hcentury h100]
    omega
  by_cases h4 : year % 4 = 0
  · simp [h400, h100, h4]
    omega
  · simp [h400, h100, h4]
    omega

theorem daysBeforeMonth_lt (year : ℕ) (h : month < month') :
    daysBeforeMonth year month + daysInMonth year month ≤ daysBeforeMonth year month' := by
  induction h with
  | refl => exact Nat.le_refl _
  | step _ ih => exact ih.trans (Nat.le_add_right _ _)

theorem daysBeforeYear_lt (h : year < year') :
    daysBeforeYear year + daysBeforeMonth year 13 ≤ daysBeforeYear year' := by
  induction h with
  | refl => exact (daysBeforeYear_succ year).ge
  | step _ ih => exact ih.trans (daysBeforeYear_succ _ ▸ Nat.le_add_right _ _)

/-- Dates are numbered in their order. -/
theorem dayNumber_lt (hmonth : month ≤ 12) (hday : day ≤ daysInMonth year month)
    (hday' : 1 ≤ day')
    (h : year < year' ∨ year = year' ∧ (month < month' ∨ month = month' ∧ day < day')) :
    dayNumber year month day < dayNumber year' month' day' := by
  unfold dayNumber
  rcases h with h | ⟨rfl, h | ⟨rfl, h⟩⟩
  · have hyear := daysBeforeYear_lt h
    have hend := daysBeforeMonth_lt year (show month < 13 by omega)
    omega
  · have hend := daysBeforeMonth_lt year h
    omega
  · omega

end calendar

/-! ## Timestamps -/

/-- A date and a time in UTC with the decimal digits of the fraction of the second. -/
structure Timestamp where
  year : ℕ
  month : ℕ
  day : ℕ
  hour : ℕ
  minute : ℕ
  second : ℕ
  fraction : List ℕ
  year_lt : year < 10000
  month_pos : 1 ≤ month
  month_le : month ≤ 12
  day_pos : 1 ≤ day
  day_le : day ≤ daysInMonth year month
  hour_lt : hour < 24
  minute_lt : minute < 60
  second_lt : second < 60
  fraction_lt : ∀ digit ∈ fraction, digit < 10

/-- The value of the digits after the point. -/
def fractionValue : List ℕ → ℚ
  | [] => 0
  | digit :: rest => (digit + fractionValue rest) / 10

/-- The end of a text: the fraction, if there is one, and the sign of UTC. -/
def fractionText (fraction : List ℕ) : List Char :=
  if fraction = [] then ['Z'] else '.' :: (fraction.map Nat.digitChar ++ ['Z'])

namespace Timestamp

/-- The seconds since the start of the calendar. -/
def seconds (t : Timestamp) : ℕ :=
  ((dayNumber t.year t.month t.day * 24 + t.hour) * 60 + t.minute) * 60 + t.second

/-- The seconds before the start of 1970. -/
def epoch : ℕ := dayNumber 1970 1 1 * 24 * 60 * 60

/-- The seconds since the start of 1970. -/
def instant (t : Timestamp) : ℚ := (t.seconds : ℚ) - epoch + fractionValue t.fraction

/-- The text, such as `2026-08-08T12:00:00.125Z`. -/
def text (t : Timestamp) : String :=
  String.ofList (padDigits 4 t.year ++ '-' :: (padDigits 2 t.month ++ '-' ::
    (padDigits 2 t.day ++ 'T' :: (padDigits 2 t.hour ++ ':' :: (padDigits 2 t.minute ++ ':' ::
      (padDigits 2 t.second ++ fractionText t.fraction))))))

/-- The timestamps agree up to the second. -/
@[mk_iff] structure SameSecond (s t : Timestamp) : Prop where
  year : s.year = t.year
  month : s.month = t.month
  day : s.day = t.day
  hour : s.hour = t.hour
  minute : s.minute = t.minute
  second : s.second = t.second

/-- The second of one timestamp is before that of the other. -/
def SecondBefore (s t : Timestamp) : Prop :=
  s.year < t.year ∨ s.year = t.year ∧ (s.month < t.month ∨ s.month = t.month ∧
    (s.day < t.day ∨ s.day = t.day ∧ (s.hour < t.hour ∨ s.hour = t.hour ∧
      (s.minute < t.minute ∨ s.minute = t.minute ∧ s.second < t.second))))

variable {s t : Timestamp}

/-- One field of a trichotomy that compares several. -/
theorem lex_trichotomy {before same after : Prop} (m n : ℕ) (h : before ∨ same ∨ after) :
    (m < n ∨ m = n ∧ before) ∨ m = n ∧ same ∨ (n < m ∨ n = m ∧ after) := by
  rcases lt_trichotomy m n with hlt | rfl | hgt
  · exact Or.inl (Or.inl hlt)
  · simpa using h
  · exact Or.inr (Or.inr (Or.inl hgt))

theorem secondBefore_trichotomy (s t : Timestamp) :
    SecondBefore s t ∨ SameSecond s t ∨ SecondBefore t s := by
  rw [sameSecond_iff]
  apply lex_trichotomy
  apply lex_trichotomy
  apply lex_trichotomy
  apply lex_trichotomy
  apply lex_trichotomy
  exact lt_trichotomy _ _

theorem seconds_lt (h : SecondBefore s t) : s.seconds < t.seconds := by
  have hs := s.hour_lt
  have hsMinute := s.minute_lt
  have hsSecond := s.second_lt
  have hdate : dayNumber s.year s.month s.day < dayNumber t.year t.month t.day ∨
      dayNumber s.year s.month s.day = dayNumber t.year t.month t.day ∧
        (s.hour < t.hour ∨ s.hour = t.hour ∧
          (s.minute < t.minute ∨ s.minute = t.minute ∧ s.second < t.second)) := by
    rcases h with h | ⟨hyear, h | ⟨hmonth, h | ⟨hday, h⟩⟩⟩
    · exact Or.inl (dayNumber_lt s.month_le s.day_le t.day_pos (Or.inl h))
    · exact Or.inl (dayNumber_lt s.month_le s.day_le t.day_pos (Or.inr ⟨hyear, Or.inl h⟩))
    · exact Or.inl (dayNumber_lt s.month_le s.day_le t.day_pos
        (Or.inr ⟨hyear, Or.inr ⟨hmonth, h⟩⟩))
    · exact Or.inr ⟨by rw [hyear, hmonth, hday], h⟩
  unfold seconds
  omega

theorem SameSecond.symm (h : SameSecond s t) : SameSecond t s :=
  ⟨h.year.symm, h.month.symm, h.day.symm, h.hour.symm, h.minute.symm, h.second.symm⟩

theorem SameSecond.seconds (h : SameSecond s t) : s.seconds = t.seconds := by
  simp only [Timestamp.seconds, h.year, h.month, h.day, h.hour, h.minute, h.second]

/-- The texts are compared field by field. -/
theorem text_lt_iff : s.text < t.text ↔ SecondBefore s t ∨
    SameSecond s t ∧ fractionText s.fraction < fractionText t.fraction := by
  have hhour : ∀ t : Timestamp, t.hour < 10 ^ 2 := fun t => t.hour_lt.trans (by decide)
  have hminute : ∀ t : Timestamp, t.minute < 10 ^ 2 := fun t => t.minute_lt.trans (by decide)
  have hsecond : ∀ t : Timestamp, t.second < 10 ^ 2 := fun t => t.second_lt.trans (by decide)
  have hmonth : ∀ t : Timestamp, t.month < 10 ^ 2 := fun t => t.month_le.trans_lt (by decide)
  have hday : ∀ t : Timestamp, t.day < 10 ^ 2 := by
    intro t
    refine t.day_le.trans_lt ?_
    unfold daysInMonth
    split <;> try split_ifs
    all_goals decide
  have hyear : ∀ t : Timestamp, t.year < 10 ^ 4 := fun t => t.year_lt
  rw [text, text, String.lt_iff, String.toList_ofList, String.toList_ofList]
  rw [append_lt_append_iff (by simp), padDigits_lt_iff (hyear s) (hyear t),
    padDigits_inj (hyear s) (hyear t), List.cons_lt_cons_iff,
    append_lt_append_iff (by simp), padDigits_lt_iff (hmonth s) (hmonth t),
    padDigits_inj (hmonth s) (hmonth t), List.cons_lt_cons_iff,
    append_lt_append_iff (by simp), padDigits_lt_iff (hday s) (hday t),
    padDigits_inj (hday s) (hday t), List.cons_lt_cons_iff,
    append_lt_append_iff (by simp), padDigits_lt_iff (hhour s) (hhour t),
    padDigits_inj (hhour s) (hhour t), List.cons_lt_cons_iff,
    append_lt_append_iff (by simp), padDigits_lt_iff (hminute s) (hminute t),
    padDigits_inj (hminute s) (hminute t), List.cons_lt_cons_iff,
    append_lt_append_iff (by simp), padDigits_lt_iff (hsecond s) (hsecond t),
    padDigits_inj (hsecond s) (hsecond t)]
  simp only [lt_irrefl, false_or, true_and, SecondBefore, sameSecond_iff, and_or_left, or_assoc,
    and_assoc]

end Timestamp

/-! ## Fractions -/

section fraction

variable {f g : List ℕ}

theorem fractionValue_nonneg (f : List ℕ) : 0 ≤ fractionValue f := by
  induction f with
  | nil => exact le_refl _
  | cons digit f ih =>
      unfold fractionValue
      positivity

theorem fractionValue_lt_one (h : ∀ digit ∈ f, digit < 10) : fractionValue f < 1 := by
  induction f with
  | nil => exact one_pos
  | cons digit f ih =>
      have hrest := ih fun other hother => h other (List.mem_cons_of_mem digit hother)
      have hlt := h digit List.mem_cons_self
      have hdigit : (digit : ℚ) ≤ 9 := by exact_mod_cast Nat.le_of_lt_succ hlt
      unfold fractionValue
      linarith

theorem fractionValue_pos_iff : 0 < fractionValue f ↔ ∃ digit ∈ f, digit ≠ 0 := by
  induction f with
  | nil => simp [fractionValue]
  | cons digit f ih =>
      have hrest := fractionValue_nonneg f
      have hdigit : (0 : ℚ) ≤ digit := digit.cast_nonneg
      simp only [List.mem_cons, exists_eq_or_imp, ← ih, fractionValue]
      constructor
      · intro h
        by_contra hnone
        simp only [not_or, not_not, not_lt] at hnone
        obtain ⟨rfl, hle⟩ := hnone
        simp only [Nat.cast_zero, zero_add] at h
        linarith
      · rintro (hne | hpos)
        · have hone : (1 : ℚ) ≤ digit := by exact_mod_cast Nat.one_le_iff_ne_zero.mpr hne
          linarith
        · linarith

/-- The digits of a fraction and what follows them. -/
def fractionBody (f : List ℕ) : List Char := f.map Nat.digitChar ++ ['Z']

theorem digitChar_lt_Z {digit : ℕ} (h : digit < 10) : Nat.digitChar digit < 'Z' := by
  revert digit
  decide

theorem fractionText_lt_iff (hf : ∀ digit ∈ f, digit < 10) (hg : ∀ digit ∈ g, digit < 10) :
    fractionText g < fractionText f ↔ fractionBody g < fractionBody f := by
  cases f with
  | nil =>
      cases g with
      | nil => exact Iff.rfl
      | cons d g =>
          have hd := digitChar_lt_Z (hg d List.mem_cons_self)
          simp [fractionText, fractionBody, List.cons_lt_cons_iff, hd]
  | cons c f =>
      cases g with
      | nil =>
          have hc := digitChar_lt_Z (hf c List.mem_cons_self)
          simp [fractionText, fractionBody, List.cons_lt_cons_iff, hc.not_gt, hc.ne']
      | cons d g => simp [fractionText, fractionBody, List.cons_lt_cons_iff]

/-- Fractions whose texts are in the wrong order: the digits of the earlier one go on, and not only
with zeros. -/
theorem fractionText_lt_and_value_lt_iff (hf : ∀ digit ∈ f, digit < 10)
    (hg : ∀ digit ∈ g, digit < 10) :
    fractionText g < fractionText f ∧ fractionValue f < fractionValue g ↔
      ∃ rest, g = f ++ rest ∧ ∃ digit ∈ rest, digit ≠ 0 := by
  rw [fractionText_lt_iff hf hg]
  induction f generalizing g with
  | nil =>
      cases g with
      | nil => simp [fractionValue]
      | cons d g =>
          have hd := digitChar_lt_Z (hg d List.mem_cons_self)
          have hbody : fractionBody (d :: g) < fractionBody [] :=
            List.cons_lt_cons_iff.mpr (Or.inl hd)
          have hzero : fractionValue [] = 0 := rfl
          simp [hbody, hzero, fractionValue_pos_iff]
  | cons c f ih =>
      have hc := hf c List.mem_cons_self
      cases g with
      | nil =>
          have hbody : ¬ fractionBody [] < fractionBody (c :: f) := by
            simp [fractionBody, List.cons_lt_cons_iff, (digitChar_lt_Z hc).not_gt,
              (digitChar_lt_Z hc).ne']
          simp [hbody]
      | cons d g =>
          have hd := hg d List.mem_cons_self
          have hfTail : ∀ digit ∈ f, digit < 10 := fun e he => hf e (List.mem_cons_of_mem c he)
          have hgTail : ∀ digit ∈ g, digit < 10 := fun e he => hg e (List.mem_cons_of_mem d he)
          have hbody : fractionBody (d :: g) < fractionBody (c :: f) ↔
              d < c ∨ d = c ∧ fractionBody g < fractionBody f := by
            simp [fractionBody, List.cons_lt_cons_iff, digitChar_lt_iff hd hc,
              digitChar_inj hd hc]
          rw [hbody]
          rcases Nat.lt_trichotomy d c with hlt | rfl | hgt
          · -- a smaller digit makes the smaller value, whatever follows
            have hvalue : fractionValue (d :: g) < fractionValue (c :: f) := by
              have hone := fractionValue_lt_one hgTail
              have hnonneg := fractionValue_nonneg f
              have hdigit : (d : ℚ) + 1 ≤ c := by exact_mod_cast hlt
              unfold fractionValue
              linarith
            simp [hvalue.not_gt, hlt.ne]
          · have hvalue : fractionValue (d :: f) < fractionValue (d :: g) ↔
                fractionValue f < fractionValue g := by
              rw [fractionValue, fractionValue, div_lt_div_iff_of_pos_right (by norm_num),
                add_lt_add_iff_left]
            simpa [hvalue] using ih hfTail hgTail
          · simp [hgt.not_gt, hgt.ne']

theorem digitChars_inj (hf : ∀ digit ∈ f, digit < 10) (hg : ∀ digit ∈ g, digit < 10)
    (h : f.map Nat.digitChar = g.map Nat.digitChar) : f = g := by
  induction f generalizing g with
  | nil => exact (List.map_eq_nil_iff.mp h.symm).symm
  | cons c f ih =>
      cases g with
      | nil => simp at h
      | cons d g =>
          rw [List.map_cons, List.map_cons, List.cons.injEq] at h
          rw [(digitChar_inj (hf c List.mem_cons_self) (hg d List.mem_cons_self)).mp h.1,
            ih (fun e he => hf e (List.mem_cons_of_mem c he))
              (fun e he => hg e (List.mem_cons_of_mem d he)) h.2]

theorem fractionText_inj (hf : ∀ digit ∈ f, digit < 10) (hg : ∀ digit ∈ g, digit < 10)
    (h : fractionText f = fractionText g) : f = g := by
  unfold fractionText at h
  split_ifs at h with hfNil hgNil hgNil
  · rw [hfNil, hgNil]
  · simp at h
  · simp at h
  · exact digitChars_inj hf hg (List.append_cancel_right (List.cons.inj h).2)

end fraction

namespace Timestamp

variable {s t : Timestamp}

/-- The instants are in the order of the seconds, and within a second of the fractions. -/
theorem instant_lt_of_secondBefore (h : SecondBefore s t) : s.instant < t.instant := by
  have hseconds : (s.seconds : ℚ) + 1 ≤ t.seconds := by exact_mod_cast seconds_lt h
  have hone := fractionValue_lt_one s.fraction_lt
  have hnonneg := fractionValue_nonneg t.fraction
  unfold instant
  linarith

theorem SameSecond.instant_lt_iff (h : SameSecond s t) :
    s.instant < t.instant ↔ fractionValue s.fraction < fractionValue t.fraction := by
  rw [instant, instant, h.seconds]
  exact add_lt_add_iff_left _

/-- **The only pairs of timestamps whose texts are in the wrong order** agree up to the second, and
the fraction of the later one is that of the earlier one with more digits. -/
theorem text_lt_and_instant_lt_iff :
    t.text < s.text ∧ s.instant < t.instant ↔
      SameSecond s t ∧ ∃ rest, t.fraction = s.fraction ++ rest ∧ ∃ digit ∈ rest, digit ≠ 0 := by
  rw [text_lt_iff]
  rcases secondBefore_trichotomy s t with h | h | h
  · have hseconds := seconds_lt h
    have hsame : ¬ SameSecond s t := fun hsame => hseconds.ne hsame.seconds
    have hsame' : ¬ SameSecond t s := fun hsame => hseconds.ne hsame.seconds.symm
    have hafter : ¬ SecondBefore t s := fun hafter => hseconds.asymm (seconds_lt hafter)
    simp [hsame, hsame', hafter]
  · have hafter : ¬ SecondBefore t s := fun hafter => (seconds_lt hafter).ne h.symm.seconds
    simp only [hafter, h, h.symm, h.instant_lt_iff, true_and, false_or]
    exact fractionText_lt_and_value_lt_iff s.fraction_lt t.fraction_lt
  · have hinstant : ¬ s.instant < t.instant := (instant_lt_of_secondBefore h).not_gt
    have hsame : ¬ SameSecond s t := fun hsame => (seconds_lt h).ne hsame.seconds.symm
    simp [hinstant, hsame]

/-- The text determines the instant. -/
theorem instant_eq_of_text (h : s.text = t.text) : s.instant = t.instant := by
  have hst : ¬ s.text < t.text := h ▸ lt_irrefl _
  have hts : ¬ t.text < s.text := h ▸ lt_irrefl _
  rw [text_lt_iff] at hst hts
  rcases secondBefore_trichotomy s t with hbefore | hsame | hafter
  · exact absurd (Or.inl hbefore) hst
  · have hfraction : fractionText s.fraction = fractionText t.fraction := by
      rcases lt_trichotomy (fractionText s.fraction) (fractionText t.fraction) with hlt | heq | hgt
      · exact absurd (Or.inr ⟨hsame, hlt⟩) hst
      · exact heq
      · exact absurd (Or.inr ⟨hsame.symm, hgt⟩) hts
    rw [instant, instant, hsame.seconds, fractionText_inj s.fraction_lt t.fraction_lt hfraction]
  · exact absurd (Or.inl hafter) hts

/-- A text starts with a digit. -/
theorem toList_text (t : Timestamp) :
    ∃ rest, t.text.toList = Nat.digitChar (t.year / 1000) :: rest := by
  have hyear := t.year_lt
  rw [text, String.toList_ofList]
  simp only [padDigits, List.nil_append, List.cons_append, Nat.div_div_eq_div_mul, Nat.reduceMul]
  rw [Nat.mod_eq_of_lt (show t.year / 1000 < 10 by omega)]
  exact ⟨_, rfl⟩

end Timestamp

end OpenGuard.Lib
