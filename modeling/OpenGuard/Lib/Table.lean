import Mathlib.Data.List.AList
import Mathlib.Data.List.Perm.Subperm

/-!
# Hash tables as association lists

`Table κ ν` is Mathlib's `AList`: a list of key-value entries whose keys are distinct, with
`lookup`, `insert` and `erase`. This file adds what a program does with a hash table beyond
those three.

* `Table.size`: the number of entries, and `Table.length_le_size`: distinct keys of a table are at
  most as many.
* `Table.filterMap` and `Table.retain`: drop or change the entries in place, with their
  `lookup` lemmas.
* `Table.collect`: the table a sequence of insertions builds; the last insertion of a key wins
  (`lookup_collect`).
* `IterOrder`: the order in which a loop over a table meets its entries. A hash table promises
  only that each entry is met once, so what a loop does is stated for every `IterOrder`;
  `IterOrder.last k` meets the key `k` after all the others, so a loop that stops early misses it
  (`notMem_take_filter_last`).
-/

namespace OpenGuard.Lib

/-- A hash table: entries with pairwise distinct keys. -/
abbrev Table (κ ν : Type*) := AList fun _ : κ => ν

namespace Table

variable {κ ν : Type*}

/-- The number of entries. -/
def size (t : Table κ ν) : ℕ := t.entries.length

variable [DecidableEq κ]

theorem mem_entries_iff {t : Table κ ν} {k : κ} {v : ν} :
    (⟨k, v⟩ : Sigma fun _ => ν) ∈ t.entries ↔ t.lookup k = some v :=
  AList.mem_lookup_iff.symm

/-- The entries after an insertion. -/
theorem lookup_insert_eq_some_iff {t : Table κ ν} {k k' : κ} {v v' : ν} :
    (t.insert k v).lookup k' = some v' ↔ k' = k ∧ v' = v ∨ k' ≠ k ∧ t.lookup k' = some v' := by
  by_cases hk : k' = k
  · rw [hk, AList.lookup_insert, Option.some_inj]
    simp [eq_comm]
  · rw [AList.lookup_insert_ne hk]
    simp [hk]

theorem isSome_lookup_insert {t : Table κ ν} {k k' : κ} {v : ν} :
    ((t.insert k v).lookup k').isSome ↔ (t.lookup k').isSome ∨ k' = k := by
  rw [AList.lookup_isSome, AList.lookup_isSome, AList.mem_insert, or_comm]

/-! ### Size -/

omit [DecidableEq κ] in
theorem size_eq_length_keys (t : Table κ ν) : t.size = t.keys.length := by
  rw [size, AList.keys, List.keys, List.length_map]

omit [DecidableEq κ] in
/-- Distinct keys of a table are at most as many as its entries. -/
theorem length_le_size {t : Table κ ν} {keys : List κ} (hnodup : keys.Nodup)
    (h : ∀ k ∈ keys, k ∈ t) : keys.length ≤ t.size := by
  rw [size_eq_length_keys]
  exact (List.Nodup.subperm hnodup fun k hk => AList.mem_keys.mp (h k hk)).length_le

omit [DecidableEq κ] in
/-- A table whose keys are on a list has at most as many entries. -/
theorem size_le_length {t : Table κ ν} {keys : List κ} (h : ∀ k ∈ t, k ∈ keys) :
    t.size ≤ keys.length := by
  rw [size_eq_length_keys]
  exact (List.Nodup.subperm t.keys_nodup fun k hk => h k (AList.mem_keys.mpr hk)).length_le

omit [DecidableEq κ] in
theorem size_le_of_subset {t u : Table κ ν} (h : ∀ k ∈ t, k ∈ u) : t.size ≤ u.size := by
  rw [size_eq_length_keys t]
  exact length_le_size t.keys_nodup fun k hk => h k (AList.mem_keys.mpr hk)

theorem size_erase {t : Table κ ν} {k : κ} (h : k ∈ t) : size (t.erase k) + 1 = t.size := by
  have hpos := List.length_pos_of_mem (AList.mem_keys.mp h)
  rw [size_eq_length_keys, size_eq_length_keys, AList.keys_erase,
    List.length_erase_of_mem (AList.mem_keys.mp h)]
  omega

theorem size_insert_le (t : Table κ ν) (k : κ) (v : ν) : size (t.insert k v) ≤ t.size + 1 := by
  rw [size_eq_length_keys, size_eq_length_keys, AList.keys_insert, List.length_cons]
  have herase := List.length_erase_le (a := k) (l := t.keys)
  omega

theorem size_erase_le (t : Table κ ν) (k : κ) : size (t.erase k) ≤ t.size := by
  rw [size_eq_length_keys, size_eq_length_keys, AList.keys_erase]
  exact List.length_erase_le

theorem mem_of_lookup_eq_some {t : Table κ ν} {k : κ} {v : ν} (h : t.lookup k = some v) : k ∈ t :=
  AList.lookup_isSome.mp (by simp [h])

theorem exists_lookup_of_mem {t : Table κ ν} {k : κ} (h : k ∈ t) : ∃ v, t.lookup k = some v :=
  Option.isSome_iff_exists.mp (AList.lookup_isSome.mpr h)

/-! ### Dropping and changing entries -/

/-- Keeps the entries on which `f` is defined, with the value it gives. -/
def filterMap (f : κ → ν → Option ν) (t : Table κ ν) : Table κ ν where
  entries := t.entries.filterMap fun e => (f e.1 e.2).map (Sigma.mk e.1)
  nodupKeys := by
    refine List.nodupKeys_iff_pairwise.mpr
      (List.Pairwise.filterMap _ ?_ (List.nodupKeys_iff_pairwise.mp t.nodupKeys))
    intro a b hab a' ha b' hb
    obtain ⟨va, -, rfl⟩ := Option.map_eq_some_iff.mp ha
    obtain ⟨vb, -, rfl⟩ := Option.map_eq_some_iff.mp hb
    exact hab

@[simp] theorem lookup_filterMap (f : κ → ν → Option ν) (t : Table κ ν) (k : κ) :
    (filterMap f t).lookup k = (t.lookup k).bind (f k) := by
  refine Option.ext fun w => ?_
  rw [← mem_entries_iff, Option.bind_eq_some_iff]
  simp only [filterMap, List.mem_filterMap]
  constructor
  · rintro ⟨⟨k', v⟩, he, hf⟩
    obtain ⟨w', hw', heq⟩ := Option.map_eq_some_iff.mp hf
    cases heq
    exact ⟨v, mem_entries_iff.mp he, hw'⟩
  · rintro ⟨v, hv, hf⟩
    exact ⟨⟨k, v⟩, mem_entries_iff.mpr hv, by simp [hf]⟩

omit [DecidableEq κ] in
theorem size_filterMap_le (f : κ → ν → Option ν) (t : Table κ ν) : size (filterMap f t) ≤ t.size :=
  List.length_filterMap_le _ _

/-- A table all of whose entries are kept as they are does not change. -/
theorem filterMap_eq_self {f : κ → ν → Option ν} {t : Table κ ν}
    (h : ∀ k v, t.lookup k = some v → f k v = some v) : filterMap f t = t := by
  apply AList.ext
  have hkept : ∀ e ∈ t.entries, (f e.1 e.2).map (Sigma.mk e.1) = some e := by
    rintro ⟨k, v⟩ he
    rw [h k v (mem_entries_iff.mp he)]
    rfl
  exact (List.filterMap_congr hkept).trans (List.filterMap_some)

/-- Keeps the entries that satisfy `p`. -/
def retain (p : κ → ν → Bool) (t : Table κ ν) : Table κ ν :=
  filterMap (fun k v => if p k v then some v else none) t

@[simp] theorem lookup_retain (p : κ → ν → Bool) (t : Table κ ν) (k : κ) :
    (retain p t).lookup k = (t.lookup k).filter (p k) := by
  rw [retain, lookup_filterMap]
  cases t.lookup k <;> simp [Option.filter]

/-- A test on the keys keeps all entries of a key or none. -/
theorem lookup_retain_key (p : κ → Bool) (t : Table κ ν) (k : κ) :
    (retain (fun k' _ => p k') t).lookup k = if p k then t.lookup k else none := by
  rw [lookup_retain]
  cases t.lookup k <;> simp [Option.filter]

theorem retain_eq_self {p : κ → ν → Bool} {t : Table κ ν}
    (h : ∀ k v, t.lookup k = some v → p k v) : retain p t = t :=
  filterMap_eq_self fun k v hv => if_pos (h k v hv)

omit [DecidableEq κ] in
theorem entries_retain (p : κ → ν → Bool) (t : Table κ ν) :
    (retain p t).entries = t.entries.filter fun e => p e.1 e.2 := by
  simp only [retain, filterMap]
  rw [← List.filterMap_eq_filter]
  apply List.filterMap_congr
  rintro ⟨k, v⟩ -
  by_cases h : p k v <;> simp [h, Option.guard]

theorem entries_erase (t : Table κ ν) (k : κ) :
    (t.erase k).entries = t.entries.filter fun e => e.1 ≠ k := by
  show List.kerase k t.entries = _
  have hnodup := t.nodupKeys
  generalize t.entries = l at hnodup ⊢
  induction l with
  | nil => rfl
  | cons e l ih =>
      obtain ⟨hfresh, hnodup⟩ := List.nodupKeys_cons.mp hnodup
      by_cases hk : k = e.1
      · subst hk
        rw [List.kerase_cons_eq rfl, List.filter_cons_of_neg (by simp)]
        refine (List.filter_eq_self.mpr fun e' he' => ?_).symm
        simp only [ne_eq, decide_not, Bool.not_eq_true', decide_eq_false_iff_not]
        intro hsame
        exact hfresh (hsame ▸ List.mem_map_of_mem he')
      · rw [List.kerase_cons_ne hk, List.filter_cons_of_pos (by simpa using Ne.symm hk), ih hnodup]

theorem retain_erase (p : κ → ν → Bool) (t : Table κ ν) (k : κ) :
    retain p (t.erase k) = AList.erase k (retain p t) := by
  apply AList.ext
  rw [entries_retain, entries_erase, entries_erase, entries_retain, List.filter_filter,
    List.filter_filter]
  simp only [Bool.and_comm]

/-- An entry that is kept enters what is kept. -/
theorem retain_insert_of_pos {p : κ → ν → Bool} {k : κ} {v : ν} (h : p k v) (t : Table κ ν) :
    retain p (t.insert k v) = (retain p t).insert k v := by
  apply AList.ext
  have herase := congrArg AList.entries (retain_erase p t k)
  rw [entries_retain] at herase
  rw [entries_retain, AList.entries_insert, AList.entries_insert,
    List.filter_cons_of_pos (by simpa using h)]
  exact congrArg _ herase

/-- An entry that is not kept only removes what was kept under its key. -/
theorem retain_insert_of_neg {p : κ → ν → Bool} {k : κ} {v : ν} (h : ¬p k v) (t : Table κ ν) :
    retain p (t.insert k v) = AList.erase k (retain p t) := by
  rw [← retain_erase]
  apply AList.ext
  rw [entries_retain, entries_retain, AList.entries_insert,
    List.filter_cons_of_neg (by simpa using h)]
  rfl

/-- Nothing is removed under a key without an entry. -/
theorem erase_eq_self {t : Table κ ν} {k : κ} (h : t.lookup k = none) : t.erase k = t := by
  apply AList.ext
  refine List.kerase_of_notMem_keys fun hmem => ?_
  obtain ⟨v, hv⟩ := Table.exists_lookup_of_mem (AList.mem_keys.mpr hmem)
  rw [h] at hv
  cases hv

@[simp] theorem retain_retain (p : κ → ν → Bool) (t : Table κ ν) :
    retain p (retain p t) = retain p t := by
  refine retain_eq_self fun k v hv => ?_
  rw [lookup_retain] at hv
  exact (Option.filter_eq_some_iff.mp hv).2

/-! ### Collecting a sequence of insertions -/

/-- The table a sequence of insertions builds. -/
def collect (l : List (κ × ν)) : Table κ ν := l.foldl (fun t e => t.insert e.1 e.2) ∅

theorem lookup_foldl_insert (l : List (κ × ν)) (t : Table κ ν) (k : κ) :
    (l.foldl (fun t e => t.insert e.1 e.2) t).lookup k =
      ((l.reverse.find? fun e => e.1 = k).map Prod.snd).or (t.lookup k) := by
  induction l generalizing t with
  | nil => simp
  | cons e l ih =>
      rw [List.foldl_cons, ih, List.reverse_cons, List.find?_append]
      cases h : l.reverse.find? fun e => e.1 = k with
      | some e' => simp
      | none =>
          by_cases hk : e.1 = k
          · subst hk
            simp [AList.lookup_insert]
          · simp [hk, AList.lookup_insert_ne (Ne.symm hk)]

/-- The last insertion of a key wins. -/
theorem lookup_collect (l : List (κ × ν)) (k : κ) :
    (collect l).lookup k = (l.reverse.find? fun e => e.1 = k).map Prod.snd := by
  rw [collect, lookup_foldl_insert, AList.lookup_empty, Option.or_none]

/-- A sequence of insertions of distinct keys. -/
theorem lookup_collect_of_nodup {l : List (κ × ν)} (hnodup : (l.map Prod.fst).Nodup) {k : κ}
    {v : ν} : (collect l).lookup k = some v ↔ (k, v) ∈ l := by
  rw [lookup_collect]
  constructor
  · intro h
    obtain ⟨⟨k', v'⟩, hfind, rfl⟩ := Option.map_eq_some_iff.mp h
    have hkey : k' = k := by simpa using List.find?_some hfind
    exact hkey ▸ List.mem_reverse.mp (List.mem_of_find?_eq_some hfind)
  · intro hmem
    cases hfind : l.reverse.find? fun e => e.1 = k with
    | none =>
        have hnone := List.find?_eq_none.mp hfind (k, v) (List.mem_reverse.mpr hmem)
        simp at hnone
    | some e =>
        have hkey : e.1 = k := by simpa using List.find?_some hfind
        have hfound := List.mem_reverse.mp (List.mem_of_find?_eq_some hfind)
        have hsame : e = (k, v) := List.inj_on_of_nodup_map hnodup hfound hmem hkey
        rw [hsame, Option.map_some]

end Table

/-! ## The order of a loop over a table -/

/-- The order in which loops over a table meet its entries: each entry once. -/
structure IterOrder (κ ν : Type*) where
  /-- The entries in the order they are met. -/
  entries : Table κ ν → List (Sigma fun _ : κ => ν)
  /-- Each entry is met exactly once. -/
  perm : ∀ t, (entries t).Perm t.entries

namespace IterOrder

variable {κ ν : Type*}

/-- The order in which the entries are stored. -/
def stored : IterOrder κ ν := ⟨fun t => t.entries, fun _ => .rfl⟩

instance : Inhabited (IterOrder κ ν) := ⟨stored⟩

/-- The order that meets the key `k` after all the others. -/
def last [DecidableEq κ] (k : κ) : IterOrder κ ν where
  entries t := (t.entries.filter fun e => e.1 ≠ k) ++ t.entries.filter fun e => e.1 = k
  perm t := by
    have h := List.filter_append_perm (fun e : Sigma fun _ : κ => ν => decide (e.1 ≠ k)) t.entries
    simpa using h

/-- The order that meets the key `k` before all the others. -/
def first [DecidableEq κ] (k : κ) : IterOrder κ ν where
  entries t := (t.entries.filter fun e => e.1 = k) ++ t.entries.filter fun e => e.1 ≠ k
  perm t := by
    have h := List.filter_append_perm (fun e : Sigma fun _ : κ => ν => decide (e.1 = k)) t.entries
    simpa using h

theorem mem_entries (o : IterOrder κ ν) {t : Table κ ν} {e : Sigma fun _ : κ => ν} :
    e ∈ o.entries t ↔ e ∈ t.entries := (o.perm t).mem_iff

section last

variable [DecidableEq κ] {t : Table κ ν} {k : κ}

/-- A table has at most one entry with a key. -/
theorem length_filter_key_le (t : Table κ ν) (k : κ) :
    (t.entries.filter fun e => e.1 = k).length ≤ 1 := by
  have hnodup : (t.entries.filter fun e => e.1 = k).NodupKeys :=
    (List.filter_sublist.map Sigma.fst).nodup t.nodupKeys
  have hkey : ∀ e ∈ t.entries.filter fun e => e.1 = k, e.1 = k := fun e he =>
    of_decide_eq_true (List.mem_filter.mp he).2
  generalize (t.entries.filter fun e => e.1 = k) = l at hnodup hkey ⊢
  rcases l with _ | ⟨a, _ | ⟨b, rest⟩⟩
  · exact Nat.zero_le _
  · exact Nat.le_refl _
  · have ha : a.1 = k := hkey a List.mem_cons_self
    have hb : b.1 = k := hkey b (List.mem_cons_of_mem a List.mem_cons_self)
    have hfresh := (List.nodupKeys_cons.mp hnodup).1
    exact absurd (by simp [List.keys, ha, hb]) hfresh

/-- Fewer entries than satisfy `p` do not reach a key that comes last. -/
theorem notMem_take_filter_last {p : (Sigma fun _ : κ => ν) → Bool} {room : ℕ}
    (h : room < (t.entries.filter p).length) :
    k ∉ ((((last k).entries t).filter p).take room).map Sigma.fst := by
  have hperm := (((last k).perm t).filter p).length_eq
  have hone := Nat.le_trans (List.length_filter_le p _) (length_filter_key_le t k)
  simp only [last, List.filter_append, List.length_append] at hperm ⊢
  rw [List.take_append_of_le_length (by omega)]
  intro hmem
  obtain ⟨e, he, hek⟩ := List.mem_map.mp hmem
  have hne := (List.mem_filter.mp (List.mem_filter.mp (List.mem_of_mem_take he)).1).2
  exact absurd hek (by simpa using hne)

/-- With another entry in the table, the first one met is not the key that comes last. -/
theorem head?_last_ne (h : 1 < t.size) {e : Sigma fun _ : κ => ν}
    (he : ((last k).entries t).head? = some e) : e.1 ≠ k := by
  have hperm := ((last k).perm t).length_eq
  have hone := length_filter_key_le t k
  simp only [last, List.length_append, Table.size] at hperm he h
  rcases hothers : t.entries.filter fun e => e.1 ≠ k with _ | ⟨a, rest⟩
  · rw [hothers] at hperm
    simp only [List.length_nil] at hperm
    omega
  · rw [hothers, List.cons_append, List.head?_cons, Option.some_inj] at he
    have hmem : a ∈ t.entries.filter fun e => e.1 ≠ k := hothers ▸ List.mem_cons_self
    rw [← he]
    simpa using (List.mem_filter.mp hmem).2

/-- An entry of the key that comes first is the first one that satisfies `p`. -/
theorem head?_filter_first {p : (Sigma fun _ : κ => ν) → Bool} {v : ν} (h : t.lookup k = some v)
    (hp : p ⟨k, v⟩ = true) :
    (((first k).entries t).filter p).head? = some ⟨k, v⟩ := by
  have hmem : (⟨k, v⟩ : Sigma fun _ : κ => ν) ∈ t.entries.filter fun e => e.1 = k :=
    List.mem_filter.mpr ⟨Table.mem_entries_iff.mpr h, by simp⟩
  have hone := length_filter_key_le t k
  obtain ⟨e, hsingle⟩ : ∃ e, t.entries.filter (fun e => e.1 = k) = [e] := by
    rcases hl : t.entries.filter (fun e => e.1 = k) with _ | ⟨a, _ | ⟨b, rest⟩⟩
    · rw [hl] at hmem
      cases hmem
    · exact ⟨a, hl⟩
    · rw [hl] at hone
      simp at hone
  rw [hsingle, List.mem_singleton] at hmem
  simp [first, hsingle, ← hmem, hp]

end last

end IterOrder

end OpenGuard.Lib
