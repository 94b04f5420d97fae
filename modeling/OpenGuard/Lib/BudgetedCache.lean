import Mathlib.Algebra.Order.Group.Nat
import Mathlib.Data.Finset.Card
import Mathlib.Data.Finset.Union
import OpenGuard.Lib.Table

/-!
# Caches that are filled within a budget

A pass goes over some keys and takes the value of each from a cache. It computes the values that are
not there and caches them, as long as its budget lasts, and goes without the others.

* `Fill.pass`: a pass.
* `Filled`: what it leaves; `card_missing_pass`: **it fills in as much as the budget allows.**
-/

namespace OpenGuard.Lib

variable {κ ν : Type*}

/-- A cache, and how much of the budget is used. -/
structure Fill (κ ν : Type*) where
  cache : Table κ ν
  used : ℕ

namespace Fill

variable [DecidableEq κ]

/-- Looks a key up. A value that is missing is computed if the budget allows it. -/
def look (budget : ℕ) (s : Fill κ ν) (key : κ) (value : ν) : Fill κ ν :=
  match s.cache.lookup key with
  | some _ => s
  | none => if s.used < budget then ⟨s.cache.insert key value, s.used + 1⟩ else s

/-- A pass over some keys, with what their values would be computed to. -/
def pass (budget : ℕ) (entries : List (κ × ν)) (s : Fill κ ν) : Fill κ ν :=
  entries.foldl (fun s entry => s.look budget entry.1 entry.2) s

/-- The keys of a list that the cache does not have. -/
def missing (keys : List κ) (cache : Table κ ν) : Finset κ :=
  keys.toFinset.filter fun key => (cache.lookup key).isNone

section pass

variable {budget : ℕ} {s : Fill κ ν} {entries : List (κ × ν)} {keys : List κ} {key other : κ}
  {value : ν}

theorem mem_missing {cache : Table κ ν} : key ∈ missing keys cache ↔ key ∈ keys ∧ key ∉ cache := by
  rw [missing, Finset.mem_filter, List.mem_toFinset, Option.isNone_iff_eq_none,
    AList.lookup_eq_none]

/-- What a look does: nothing, or one key more, for one of the budget. -/
theorem look_cases (budget : ℕ) (s : Fill κ ν) (key : κ) (value : ν) :
    s.look budget key value = s ∧ (key ∈ s.cache ∨ budget ≤ s.used) ∨
      key ∉ s.cache ∧ s.used < budget ∧
        s.look budget key value = ⟨s.cache.insert key value, s.used + 1⟩ := by
  unfold look
  cases hlookup : s.cache.lookup key with
  | some value => exact .inl ⟨rfl, .inl (Table.mem_of_lookup_eq_some hlookup)⟩
  | none =>
      dsimp only
      split_ifs with hroom
      · exact .inr ⟨AList.lookup_eq_none.mp hlookup, hroom, rfl⟩
      · exact .inl ⟨rfl, .inr (Nat.not_lt.mp hroom)⟩

/-- A key that is filled in is one less. -/
theorem card_missing_insert {cache : Table κ ν} (hkey : key ∈ keys) (hnot : key ∉ cache) :
    (missing keys (cache.insert key value)).card + 1 = (missing keys cache).card := by
  have hmem : key ∈ missing keys cache := mem_missing.mpr ⟨hkey, hnot⟩
  have herase : missing keys (cache.insert key value) = (missing keys cache).erase key := by
    ext other
    rw [Finset.mem_erase, mem_missing, mem_missing, AList.mem_insert]
    tauto
  rw [herase, Finset.card_erase_add_one hmem]

/-- What the looks at some of the keys leave. -/
structure Filled (budget : ℕ) (keys passed : List κ) (s t : Fill κ ν) : Prop where
  /-- What was filled in was paid for. -/
  paid : (missing keys t.cache).card + t.used = (missing keys s.cache).card + s.used
  within : s.used ≤ budget → t.used ≤ budget
  grows : s.used ≤ t.used
  size : t.cache.size + s.used = s.cache.size + t.used
  kept : ∀ key value, s.cache.lookup key = some value → t.cache.lookup key = some value
  /-- A key is passed over only when the budget is used up. -/
  spent : ∀ key ∈ passed, key ∈ t.cache ∨ budget ≤ t.used

theorem filled_look (hkey : key ∈ keys) : Filled budget keys [key] s (s.look budget key value) := by
  rcases look_cases budget s key value with ⟨hsame, hspent⟩ | ⟨hnot, hroom, hmore⟩
  · rw [hsame]
    refine ⟨rfl, id, le_rfl, rfl, fun _ _ => id, fun other hother => ?_⟩
    rwa [List.mem_singleton.mp hother]
  · rw [hmore]
    refine ⟨?_, fun _ => hroom, Nat.le_succ _, ?_, fun other v hother => ?_, fun other hother => ?_⟩
    · have hcard := @card_missing_insert κ ν _ keys key value s.cache hkey hnot
      dsimp only
      omega
    · rw [Table.size_eq_length_keys, Table.size_eq_length_keys, AList.keys_insert,
        List.erase_of_not_mem fun hmem => hnot (AList.mem_keys.mpr hmem), List.length_cons]
      dsimp only
      omega
    · refine Table.lookup_insert_eq_some_iff.mpr (.inr ⟨?_, hother⟩)
      rintro rfl
      exact hnot (Table.mem_of_lookup_eq_some hother)
    · rw [List.mem_singleton.mp hother]
      exact .inl ((AList.mem_insert _).mpr (.inl rfl))

theorem Filled.mem {t : Fill κ ν} {passed : List κ} (h : Filled budget keys passed s t)
    (hkey : key ∈ s.cache) : key ∈ t.cache := by
  obtain ⟨value, hvalue⟩ := Table.exists_lookup_of_mem hkey
  exact Table.mem_of_lookup_eq_some (h.kept key value hvalue)

theorem Filled.trans {t u : Fill κ ν} {passed more : List κ} (h : Filled budget keys passed s t)
    (h' : Filled budget keys more t u) : Filled budget keys (passed ++ more) s u where
  paid := h'.paid.trans h.paid
  within hle := h'.within (h.within hle)
  grows := h.grows.trans h'.grows
  size := by
    have hfirst := h.size
    have hsecond := h'.size
    omega
  kept key value hkey := h'.kept key value (h.kept key value hkey)
  spent key hkey := by
    rcases List.mem_append.mp hkey with hkey | hkey
    · exact (h.spent key hkey).imp h'.mem fun hle => hle.trans h'.grows
    · exact h'.spent key hkey

theorem filled_pass (hkeys : ∀ entry ∈ entries, entry.1 ∈ keys) :
    Filled budget keys (entries.map Prod.fst) s (pass budget entries s) := by
  induction entries generalizing s with
  | nil => exact ⟨rfl, id, le_rfl, rfl, fun _ _ => id, nofun⟩
  | cons entry entries ih =>
      obtain ⟨hfirst, hrest⟩ := List.forall_mem_cons.mp hkeys
      exact (filled_look hfirst).trans (ih hrest)

/-- What a pass caches is a value of its own. -/
theorem of_lookup_pass (hlookup : (pass budget entries s).cache.lookup key = some value) :
    s.cache.lookup key = some value ∨ (key, value) ∈ entries := by
  induction entries generalizing s with
  | nil => exact .inl hlookup
  | cons entry entries ih =>
      rcases ih hlookup with hlookup | hmem
      · dsimp only at hlookup
        rcases look_cases budget s entry.1 entry.2 with ⟨hsame, -⟩ | ⟨-, -, hmore⟩
        · rw [hsame] at hlookup
          exact .inl hlookup
        · rw [hmore] at hlookup
          rcases Table.lookup_insert_eq_some_iff.mp hlookup with ⟨rfl, rfl⟩ | ⟨-, hlookup⟩
          · exact .inr List.mem_cons_self
          · exact .inl hlookup
      · exact .inr (List.mem_cons_of_mem _ hmem)

/-- **A pass over the keys fills in as many as the budget allows.** -/
theorem card_missing_pass (hkeys : ∀ key, key ∈ entries.map Prod.fst ↔ key ∈ keys)
    (cache : Table κ ν) :
    (missing keys (pass budget entries ⟨cache, 0⟩).cache).card =
      (missing keys cache).card - budget := by
  have hfilled : Filled budget keys (entries.map Prod.fst) ⟨cache, 0⟩
      (pass budget entries ⟨cache, 0⟩) :=
    filled_pass fun entry hentry => (hkeys entry.1).mp (List.mem_map_of_mem hentry)
  have hpaid := hfilled.paid
  have hwithin := hfilled.within (Nat.zero_le budget)
  by_cases hspent : budget ≤ (pass budget entries ⟨cache, 0⟩).used
  · dsimp only at hpaid
    omega
  · -- with some budget left, nothing is missing
    have hnone : missing keys (pass budget entries ⟨cache, 0⟩).cache = ∅ := by
      refine Finset.eq_empty_of_forall_notMem fun key hkey => ?_
      obtain ⟨hmem, hnot⟩ := mem_missing.mp hkey
      exact (hfilled.spent key ((hkeys key).mpr hmem)).elim hnot hspent
    rw [hnone, Finset.card_empty] at hpaid ⊢
    dsimp only at hpaid
    omega

end pass

end Fill

end OpenGuard.Lib
