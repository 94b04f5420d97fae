import OpenGuard.Lib.Window
import Mathlib.Data.List.Nodup

/-!
# Tables with automatic keys

A table whose key is given by the database: a row that is inserted gets a key larger than every key
given before, also when the rows with those keys are gone. So a key names one row for ever, and the
order of the keys is the order of the insertions.

* `RowTable`: the rows in the order of their keys, and the largest key that was given.
* `insert`, `keepNewest`: a row enters with the next key, or all but the newest rows leave.
* `Grows`: what a sequence of insertions and deletions can do; a row that is there afterwards was
  there before or has a new key.
* `newest`: the rows that satisfy a condition, newest first.
-/

namespace OpenGuard.Lib

/-- A table with automatic keys. -/
structure RowTable (ρ : Type*) where
  rows : List (ℕ × ρ)
  /-- The largest key that was given. -/
  sequence : ℕ
  ordered : rows.Pairwise fun x y => x.1 < y.1
  given : ∀ row ∈ rows, row.1 ≤ sequence

namespace RowTable

variable {ρ : Type*}

/-- The table without rows. -/
def empty : RowTable ρ := ⟨[], 0, List.Pairwise.nil, by simp⟩

instance : Inhabited (RowTable ρ) := ⟨empty⟩

/-- The key of the next row. -/
def nextId (t : RowTable ρ) : ℕ := t.sequence + 1

/-- The row enters with the next key. -/
def insert (row : ρ) (t : RowTable ρ) : RowTable ρ where
  rows := t.rows ++ [(t.nextId, row)]
  sequence := t.nextId
  ordered := by
    refine List.pairwise_append.mpr ⟨t.ordered, List.pairwise_singleton _ _, ?_⟩
    intro x hx y hy
    rw [List.mem_singleton.mp hy]
    exact Nat.lt_succ_of_le (t.given x hx)
  given := by
    intro x hx
    rcases List.mem_append.mp hx with hx | hx
    · exact (t.given x hx).trans (Nat.le_succ _)
    · rw [List.mem_singleton.mp hx]

/-- All rows but the newest leave. -/
def keepNewest (count : ℕ) (t : RowTable ρ) : RowTable ρ where
  rows := t.rows.rtake count
  sequence := t.sequence
  ordered := t.ordered.sublist (List.drop_sublist _ _)
  given row hrow := t.given row (List.mem_of_mem_drop hrow)

/-- The rows change in place. -/
def mapRows {σ : Type*} (f : ρ → σ) (t : RowTable ρ) : RowTable σ where
  rows := t.rows.map fun row => (row.1, f row.2)
  sequence := t.sequence
  ordered := List.pairwise_map.mpr t.ordered
  given := by
    intro row hrow
    obtain ⟨old, hold, rfl⟩ := List.mem_map.mp hrow
    exact t.given old hold

/-- The rows that satisfy a condition, newest first. -/
def newest (p : ℕ × ρ → Bool) (t : RowTable ρ) : List (ℕ × ρ) := (t.rows.filter p).reverse

section rows

variable {t : RowTable ρ} {row : ρ} {x y : ℕ × ρ} {count : ℕ} {p : ℕ × ρ → Bool}

@[ext] theorem ext {t u : RowTable ρ} (hrows : t.rows = u.rows)
    (hsequence : t.sequence = u.sequence) : t = u := by
  cases t
  cases u
  cases hrows
  cases hsequence
  rfl

@[simp] theorem rows_insert : (t.insert row).rows = t.rows ++ [(t.nextId, row)] := rfl

@[simp] theorem sequence_insert : (t.insert row).sequence = t.nextId := rfl

@[simp] theorem rows_keepNewest : (t.keepNewest count).rows = t.rows.rtake count := rfl

@[simp] theorem sequence_keepNewest : (t.keepNewest count).sequence = t.sequence := rfl

theorem mem_insert : x ∈ (t.insert row).rows ↔ x ∈ t.rows ∨ x = (t.nextId, row) := by simp

/-- No row has the next key yet. -/
theorem lt_nextId (h : x ∈ t.rows) : x.1 < t.nextId := Nat.lt_succ_of_le (t.given x h)

/-- A key names one row. -/
theorem eq_of_mem (hx : x ∈ t.rows) (hy : y ∈ t.rows) (h : x.1 = y.1) : x = y := by
  have hnodup : (t.rows.map Prod.fst).Nodup :=
    List.pairwise_map.mpr (t.ordered.imp fun hlt => Nat.ne_of_lt hlt)
  exact List.inj_on_of_nodup_map hnodup hx hy h

/-- Rows that are all the same are one row. -/
theorem length_filter_le_one (h : ∀ x ∈ t.rows, ∀ y ∈ t.rows, p x → p y → x = y) :
    (t.rows.filter p).length ≤ 1 := by
  have hordered := t.ordered.sublist (List.filter_sublist (p := p))
  have hsame : ∀ x ∈ t.rows.filter p, ∀ y ∈ t.rows.filter p, x = y := fun x hx y hy =>
    h x (List.mem_of_mem_filter hx) y (List.mem_of_mem_filter hy) (List.of_mem_filter hx)
      (List.of_mem_filter hy)
  rcases hrows : t.rows.filter p with _ | ⟨x, _ | ⟨y, rest⟩⟩
  · simp
  · simp
  · rw [hrows] at hordered hsame
    have hlt := (List.pairwise_cons.mp hordered).1 y List.mem_cons_self
    rw [hsame x List.mem_cons_self y (by simp)] at hlt
    exact absurd hlt (Nat.lt_irrefl _)

theorem keepNewest_subset (h : x ∈ (t.keepNewest count).rows) : x ∈ t.rows := List.mem_of_mem_drop h

theorem mem_newest : x ∈ t.newest p ↔ x ∈ t.rows ∧ p x := by simp [newest]

/-- The keys of `newest` go down. -/
theorem newest_descending : (t.newest p).Pairwise fun x y => y.1 < x.1 := by
  rw [newest, List.pairwise_reverse]
  exact t.ordered.sublist List.filter_sublist

end rows

/-! ## Pages -/

section pages

variable {l : List (ℕ × ρ)} {count : ℕ} {x last : ℕ × ρ}

/-- A page of rows that go down holds exactly the rows down to its last one. -/
theorem mem_take_iff (h : l.Pairwise fun x y => y.1 < x.1)
    (hlast : (l.take count).getLast? = some last) (hx : x ∈ l) :
    x ∈ l.take count ↔ last.1 ≤ x.1 := by
  have hmem : last ∈ l.take count := List.mem_of_getLast? hlast
  constructor
  · intro htake
    obtain ⟨front, hfront⟩ := List.getLast?_eq_some_iff.mp hlast
    have hpage := h.sublist (List.take_sublist count l)
    rw [hfront] at htake hpage
    rcases List.mem_append.mp htake with htake | htake
    · exact Nat.le_of_lt ((List.pairwise_append.mp hpage).2.2 x htake last List.mem_cons_self)
    · rw [List.mem_singleton.mp htake]
  · intro hle
    rw [← List.take_append_drop count l] at hx h
    rcases List.mem_append.mp hx with hx | hx
    · exact hx
    · have hlt := (List.pairwise_append.mp h).2.2 last hmem x hx
      omega

/-- In a list of rows with distinct keys a key finds its row and no other. -/
theorem filter_key_eq {l : List (ℕ × ρ)} (hnodup : (l.map Prod.fst).Nodup) {x : ℕ × ρ}
    (hx : x ∈ l) : l.filter (·.1 = x.1) = [x] := by
  induction l with
  | nil => simp at hx
  | cons y l ih =>
      rw [List.map_cons, List.nodup_cons] at hnodup
      obtain ⟨hfresh, hnodup⟩ := hnodup
      rcases List.mem_cons.mp hx with rfl | hx
      · have hnone : l.filter (·.1 = x.1) = [] := by
          apply List.filter_eq_nil_iff.mpr
          intro z hz hsame
          exact hfresh (List.mem_map.mpr ⟨z, hz, of_decide_eq_true hsame⟩)
        rw [List.filter_cons_of_pos (by simp), hnone]
      · have hne : y.1 ≠ x.1 := fun hsame => hfresh (hsame ▸ List.mem_map_of_mem hx)
        rw [List.filter_cons_of_neg (by simpa using hne), ih hnodup hx]

end pages

/-! ## Tables over time -/

/-- What insertions and deletions can do: a row that is there afterwards was there before or has a
key that was not given before. -/
structure Grows (before after : RowTable ρ) : Prop where
  sequence : before.sequence ≤ after.sequence
  rows : ∀ x ∈ after.rows, x ∈ before.rows ∨ before.sequence < x.1

section grows

variable {t t₁ t₂ t₃ : RowTable ρ}

theorem Grows.refl (t : RowTable ρ) : Grows t t := ⟨Nat.le_refl _, fun _ hx => Or.inl hx⟩

theorem Grows.trans (h₁ : Grows t₁ t₂) (h₂ : Grows t₂ t₃) : Grows t₁ t₃ where
  sequence := h₁.sequence.trans h₂.sequence
  rows x hx := by
    rcases h₂.rows x hx with hx | hx
    · exact h₁.rows x hx
    · exact Or.inr (h₁.sequence.trans_lt hx)

theorem grows_insert (row : ρ) : Grows t (t.insert row) where
  sequence := Nat.le_succ _
  rows x hx := by
    rcases mem_insert.mp hx with hx | rfl
    · exact Or.inl hx
    · exact Or.inr (Nat.lt_succ_self _)

theorem grows_keepNewest (count : ℕ) : Grows t (t.keepNewest count) :=
  ⟨Nat.le_refl _, fun _ hx => Or.inl (keepNewest_subset hx)⟩

/-- An insertion of several rows. -/
theorem grows_foldl_insert {ι : Type*} (f : ι → ρ) (l : List ι) (t : RowTable ρ) :
    Grows t (l.foldl (fun t i => t.insert (f i)) t) := by
  induction l generalizing t with
  | nil => exact .refl t
  | cons i l ih => exact (grows_insert (f i)).trans (ih _)

theorem sequence_foldl_insert {ι : Type*} (f : ι → ρ) (l : List ι) (t : RowTable ρ) :
    (l.foldl (fun t i => t.insert (f i)) t).sequence = t.sequence + l.length := by
  induction l generalizing t with
  | nil => rfl
  | cons i l ih =>
      rw [List.foldl_cons, ih, sequence_insert, nextId, List.length_cons]
      omega

/-- An insertion of several rows keeps the rows that are there. -/
theorem mem_foldl_insert {ι : Type*} (f : ι → ρ) (l : List ι) {t : RowTable ρ} {x : ℕ × ρ}
    (h : x ∈ t.rows) : x ∈ (l.foldl (fun t i => t.insert (f i)) t).rows := by
  induction l generalizing t with
  | nil => exact h
  | cons i l ih => exact ih (mem_insert.mpr (Or.inl h))

/-- Each of several rows that are inserted is there afterwards. -/
theorem exists_mem_foldl_insert {ι : Type*} (f : ι → ρ) {l : List ι} (t : RowTable ρ) {i : ι}
    (h : i ∈ l) : ∃ id, (id, f i) ∈ (l.foldl (fun t i => t.insert (f i)) t).rows := by
  induction l generalizing t with
  | nil => simp at h
  | cons j l ih =>
      rcases List.mem_cons.mp h with rfl | h
      · exact ⟨t.nextId, mem_foldl_insert f l (mem_insert.mpr (Or.inr rfl))⟩
      · exact ih _ h

/-- A property of all rows stays one when a row with it enters, -/
theorem forall_insert (P : ρ → Prop) {row : ρ} (h : ∀ x ∈ t.rows, P x.2) (hrow : P row) :
    ∀ x ∈ (t.insert row).rows, P x.2 := by
  intro x hx
  rcases mem_insert.mp hx with hx | rfl
  · exact h x hx
  · exact hrow

/-- or several do. -/
theorem forall_foldl_insert (P : ρ → Prop) {ι : Type*} {f : ι → ρ} (l : List ι)
    (h : ∀ x ∈ t.rows, P x.2) (hl : ∀ i ∈ l, P (f i)) :
    ∀ x ∈ (l.foldl (fun t i => t.insert (f i)) t).rows, P x.2 := by
  induction l generalizing t with
  | nil => exact h
  | cons i l ih =>
      obtain ⟨hfirst, hrest⟩ := List.forall_mem_cons.mp hl
      exact ih (forall_insert P h hfirst) hrest

/-- A row with an old key was there before. -/
theorem Grows.mem_of_le (h : Grows t₁ t₂) {x : ℕ × ρ} (hx : x ∈ t₂.rows) (hle : x.1 ≤ t₁.sequence) :
    x ∈ t₁.rows := (h.rows x hx).resolve_right (Nat.not_lt.mpr hle)

end grows

end RowTable

end OpenGuard.Lib
