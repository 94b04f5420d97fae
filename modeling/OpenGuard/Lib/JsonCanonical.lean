import OpenGuard.Lib.JsonTokens

/-!
# The canonical text of a JSON value

The compact text of a value with its keys in order says which value it is, and nothing about the
order that the keys had.

* `SameValue`: equality of values whose objects are compared as maps; `sameValue_object` is its rule
  for objects.
* `sortKeys_eq_iff`: values are the same exactly when they are equal with their keys in order.
* `canonicalText_eq_iff`: values are the same exactly when they have one canonical text.
-/

namespace OpenGuard.Lib

namespace Json

mutual

/-- Equality of values whose objects are compared as maps. -/
def SameValue : Json → Json → Prop
  | null, null => True
  | bool a, bool b => a = b
  | int a, int b => a = b
  | float a, float b => a = b
  | string a, string b => a = b
  | array a, array b => SameItems a b
  | object a, object b => SameEntries a b ∧ b.map Prod.fst ⊆ a.map Prod.fst
  | _, _ => False

def SameItems : List Json → List Json → Prop
  | [], [] => True
  | item :: rest, item' :: rest' => SameValue item item' ∧ SameItems rest rest'
  | _, _ => False

/-- Every entry has a partner among others. -/
def SameEntries : List (String × Json) → List (String × Json) → Prop
  | [], _ => True
  | (name, value) :: rest, others =>
      (∃ value', others.lookup name = some value' ∧ SameValue value value') ∧
        SameEntries rest others

end

mutual

/-- No object in the value has a key twice. -/
def DistinctKeys : Json → Prop
  | array items => DistinctKeysItems items
  | object entries => (entries.map Prod.fst).Nodup ∧ DistinctKeysEntries entries
  | null => True
  | bool _ => True
  | int _ => True
  | float _ => True
  | string _ => True

def DistinctKeysItems : List Json → Prop
  | [] => True
  | item :: rest => DistinctKeys item ∧ DistinctKeysItems rest

def DistinctKeysEntries : List (String × Json) → Prop
  | [] => True
  | (_, value) :: rest => DistinctKeys value ∧ DistinctKeysEntries rest

end

section maps

variable {entries others : List (String × Json)} {name : String} {value : Json}

/-- With distinct keys the entries are those that are found. -/
theorem mem_iff_lookup (h : (entries.map Prod.fst).Nodup) :
    (name, value) ∈ entries ↔ entries.lookup name = some value := by
  rw [List.lookup_eq_some_iff]
  constructor
  · intro hmem
    obtain ⟨front, back, rfl⟩ := List.append_of_mem hmem
    refine ⟨front, back, rfl, fun entry hentry => ?_⟩
    rw [List.map_append, List.map_cons, List.nodup_append] at h
    have hne := h.2.2 entry.1 (List.mem_map_of_mem hentry) name (by simp)
    simpa using hne.symm
  · rintro ⟨front, back, rfl, -⟩
    simp

theorem sortKeysEntries_eq_map (entries : List (String × Json)) :
    sortKeysEntries entries = entries.map fun entry => (entry.1, sortKeys entry.2) := by
  induction entries with
  | nil => rfl
  | cons entry rest ih => rw [sortKeysEntries, ih, List.map_cons]

theorem distinctKeysEntries_iff :
    DistinctKeysEntries entries ↔ ∀ entry ∈ entries, DistinctKeys entry.2 := by
  induction entries with
  | nil => exact iff_of_true trivial nofun
  | cons entry rest ih => rw [DistinctKeysEntries, ih, List.forall_mem_cons]

theorem distinctKeysItems_iff {items : List Json} :
    DistinctKeysItems items ↔ ∀ item ∈ items, DistinctKeys item := by
  induction items with
  | nil => exact iff_of_true trivial nofun
  | cons item rest ih => rw [DistinctKeysItems, ih, List.forall_mem_cons]

/-- Entries with distinct keys are in one order exactly when they are the same. -/
theorem insertionSort_eq_iff (h : (entries.map Prod.fst).Nodup)
    (h' : (others.map Prod.fst).Nodup) :
    (entries.insertionSort fun a b => a.1 ≤ b.1) = (others.insertionSort fun a b => a.1 ≤ b.1) ↔
      entries ⊆ others ∧ others.map Prod.fst ⊆ entries.map Prod.fst := by
  have hperm : entries.Perm others ↔
      entries ⊆ others ∧ others.map Prod.fst ⊆ entries.map Prod.fst := by
    constructor
    · exact fun hperm => ⟨hperm.subset, (hperm.map Prod.fst).symm.subset⟩
    · rintro ⟨hsub, hkeys⟩
      refine (List.perm_ext_iff_of_nodup h.of_map h'.of_map).mpr fun entry =>
        ⟨fun hentry => hsub hentry, fun hentry => ?_⟩
      obtain ⟨other, hother, hkey⟩ := List.mem_map.mp (hkeys (List.mem_map_of_mem hentry))
      rwa [← List.inj_on_of_nodup_map h' (hsub hother) hentry hkey]
  have htotal : Std.Total fun a b : String × Json => a.1 ≤ b.1 := ⟨fun a b => le_total a.1 b.1⟩
  have htrans : IsTrans (String × Json) fun a b => a.1 ≤ b.1 := ⟨fun a b c => le_trans⟩
  rw [← hperm]
  constructor
  · intro heq
    have hsorted := List.perm_insertionSort (fun a b : String × Json => a.1 ≤ b.1) entries
    rw [heq] at hsorted
    exact hsorted.symm.trans (List.perm_insertionSort _ others)
  · intro hperm
    refine List.Perm.eq_of_pairwise ?_ (List.pairwise_insertionSort _ _)
      (List.pairwise_insertionSort _ _)
      (((List.perm_insertionSort _ entries).trans hperm).trans
        (List.perm_insertionSort _ others).symm)
    intro a b ha hb hab hba
    have hkey : a.1 = b.1 := le_antisymm hab hba
    have ha' := hperm.subset ((List.mem_insertionSort _).mp ha)
    exact List.inj_on_of_nodup_map h' ha' ((List.mem_insertionSort _).mp hb) hkey

theorem map_fst_sortKeysEntries (entries : List (String × Json)) :
    (sortKeysEntries entries).map Prod.fst = entries.map Prod.fst := by
  rw [sortKeysEntries_eq_map, List.map_map]
  rfl

/-- An entry is among others, with its keys in order, when they have a value of its key that is the
same. -/
theorem mem_sortKeysEntries_iff (h : (others.map Prod.fst).Nodup) :
    (name, sortKeys value) ∈ sortKeysEntries others ↔
      ∃ value', others.lookup name = some value' ∧ sortKeys value = sortKeys value' := by
  rw [sortKeysEntries_eq_map, List.mem_map]
  constructor
  · rintro ⟨⟨name', value'⟩, hmem, heq⟩
    obtain ⟨rfl, hvalue⟩ := Prod.mk.inj heq
    exact ⟨value', (mem_iff_lookup h).mp hmem, hvalue.symm⟩
  · rintro ⟨value', hlookup, hvalue⟩
    exact ⟨(name, value'), (mem_iff_lookup h).mpr hlookup, by rw [hvalue]⟩

end maps

mutual

/-- **Values are the same exactly when they are equal with their keys in order.** -/
theorem sortKeys_eq_iff : ∀ j j' : Json, DistinctKeys j → DistinctKeys j' →
    (sortKeys j = sortKeys j' ↔ SameValue j j')
  | null, j', _, _ => by cases j' <;> simp [sortKeys, SameValue]
  | bool value, j', _, _ => by cases j' <;> simp [sortKeys, SameValue]
  | int n, j', _, _ => by cases j' <;> simp [sortKeys, SameValue]
  | float text, j', _, _ => by cases j' <;> simp [sortKeys, SameValue]
  | string value, j', _, _ => by cases j' <;> simp [sortKeys, SameValue]
  | array items, j', hj, hj' => by
      cases j' with
      | array items' =>
          rw [sortKeys, sortKeys, array.injEq, SameValue]
          exact sortKeysItems_eq_iff items items' hj hj'
      | _ => simp [sortKeys, SameValue]
  | object entries, j', hj, hj' => by
      cases j' with
      | object entries' =>
          have hkeys := map_fst_sortKeysEntries entries
          have hkeys' := map_fst_sortKeysEntries entries'
          rw [sortKeys, sortKeys, object.injEq, SameValue,
            insertionSort_eq_iff (hkeys ▸ hj.1) (hkeys' ▸ hj'.1), hkeys, hkeys',
            sortKeysEntries_subset_iff entries entries' hj.2 hj'.1 hj'.2]
      | _ => simp [sortKeys, SameValue]

theorem sortKeysItems_eq_iff : ∀ items items' : List Json, DistinctKeysItems items →
    DistinctKeysItems items' → (sortKeysItems items = sortKeysItems items' ↔ SameItems items items')
  | [], items', _, _ => by cases items' <;> simp [sortKeysItems, SameItems]
  | item :: items, items', hitems, hitems' => by
      cases items' with
      | nil => simp [sortKeysItems, SameItems]
      | cons item' items' =>
          rw [sortKeysItems, sortKeysItems, List.cons.injEq, SameItems,
            sortKeys_eq_iff item item' hitems.1 hitems'.1,
            sortKeysItems_eq_iff items items' hitems.2 hitems'.2]

theorem sortKeysEntries_subset_iff : ∀ entries others : List (String × Json),
    DistinctKeysEntries entries → (others.map Prod.fst).Nodup → DistinctKeysEntries others →
      (sortKeysEntries entries ⊆ sortKeysEntries others ↔ SameEntries entries others)
  | [], others, _, _, _ => by simp [sortKeysEntries, SameEntries]
  | (name, value) :: entries, others, hentries, hothers, hothers' => by
      rw [sortKeysEntries, List.cons_subset, SameEntries, mem_sortKeysEntries_iff hothers,
        sortKeysEntries_subset_iff entries others hentries.2 hothers hothers']
      refine and_congr_left fun _ => exists_congr fun value' => and_congr_right fun hlookup => ?_
      have hvalue' := distinctKeysEntries_iff.mp hothers' _ ((mem_iff_lookup hothers).mpr hlookup)
      exact sortKeys_eq_iff value value' hentries.1 hvalue'

end

theorem noFloatEntries_iff {entries : List (String × Json)} :
    NoFloatEntries entries ↔ ∀ entry ∈ entries, NoFloat entry.2 := by
  induction entries with
  | nil => exact iff_of_true trivial nofun
  | cons entry rest ih => rw [NoFloatEntries, ih, List.forall_mem_cons]

theorem noFloatItems_iff {items : List Json} :
    NoFloatItems items ↔ ∀ item ∈ items, NoFloat item := by
  induction items with
  | nil => exact iff_of_true trivial nofun
  | cons item rest ih => rw [NoFloatItems, ih, List.forall_mem_cons]

mutual

/-- Putting keys in order makes no floating-point number. -/
theorem NoFloat.sortKeys : ∀ {j : Json}, NoFloat j → NoFloat (sortKeys j)
  | null, _ => trivial
  | bool _, _ => trivial
  | int _, _ => trivial
  | float _, h => h.elim
  | string _, _ => trivial
  | array _, h => NoFloatItems.sortKeys h
  | object _, h => noFloatEntries_iff.mpr fun entry hentry =>
      noFloatEntries_iff.mp (NoFloatEntries.sortKeys h) entry
        ((List.mem_insertionSort _).mp hentry)

theorem NoFloatItems.sortKeys : ∀ {items : List Json}, NoFloatItems items →
    NoFloatItems (sortKeysItems items)
  | [], _ => trivial
  | _ :: _, h => ⟨h.1.sortKeys, NoFloatItems.sortKeys h.2⟩

theorem NoFloatEntries.sortKeys : ∀ {entries : List (String × Json)}, NoFloatEntries entries →
    NoFloatEntries (sortKeysEntries entries)
  | [], _ => trivial
  | (_, _) :: _, h => ⟨h.1.sortKeys, NoFloatEntries.sortKeys h.2⟩

end

section canonical

variable {j j' : Json}

/-- The order of keys does not show in the canonical text. -/
theorem canonicalText_congr (hj : DistinctKeys j) (hj' : DistinctKeys j') (h : SameValue j j') :
    canonicalText j = canonicalText j' := by
  rw [canonicalText, canonicalText, (sortKeys_eq_iff j j' hj hj').mpr h]

/-- **Values are the same exactly when they have one canonical text.** -/
theorem canonicalText_eq_iff (hj : DistinctKeys j) (hj' : DistinctKeys j') (hfloat : NoFloat j)
    (hfloat' : NoFloat j') : canonicalText j = canonicalText j' ↔ SameValue j j' := by
  refine ⟨fun h => ?_, canonicalText_congr hj hj'⟩
  exact (sortKeys_eq_iff j j' hj hj').mp (render_injective hfloat.sortKeys hfloat'.sortKeys h)

theorem SameValue.refl (hj : DistinctKeys j) : SameValue j j :=
  (sortKeys_eq_iff j j hj hj).mp rfl

theorem SameValue.symm (hj : DistinctKeys j) (hj' : DistinctKeys j') (h : SameValue j j') :
    SameValue j' j :=
  (sortKeys_eq_iff j' j hj' hj).mp ((sortKeys_eq_iff j j' hj hj').mpr h).symm

end canonical

/-! ## Values of texts -/

mutual

/-- In the value of a text no key occurs twice. -/
theorem distinctKeys_toValue : ∀ j : Json, DistinctKeys (toValue j)
  | null => trivial
  | bool _ => trivial
  | int _ => trivial
  | float _ => trivial
  | string _ => trivial
  | array items => distinctKeysItems_toValue items
  | object entries => distinctKeysEntries_toValue entries

theorem distinctKeysItems_toValue : ∀ items : List Json, DistinctKeysItems (toValueItems items)
  | [] => trivial
  | item :: rest => ⟨distinctKeys_toValue item, distinctKeysItems_toValue rest⟩

theorem distinctKeysEntries_toValue : ∀ entries : List (String × Json),
    ((toValueEntries entries).map Prod.fst).Nodup ∧ DistinctKeysEntries (toValueEntries entries)
  | [] => ⟨List.nodup_nil, trivial⟩
  | (name, value) :: rest => by
      obtain ⟨hnodup, hrest⟩ := distinctKeysEntries_toValue rest
      rw [toValueEntries]
      split_ifs with hmem
      · exact ⟨hnodup, hrest⟩
      · exact ⟨List.nodup_cons.mpr ⟨hmem, hnodup⟩, distinctKeys_toValue value, hrest⟩

end

mutual

/-- A text in which no key occurs twice is its value. -/
theorem toValue_eq_self : ∀ {j : Json}, DistinctKeys j → toValue j = j
  | null, _ => rfl
  | bool _, _ => rfl
  | int _, _ => rfl
  | float _, _ => rfl
  | string _, _ => rfl
  | array _, h => congrArg array (toValueItems_eq_self h)
  | object _, h => congrArg object (toValueEntries_eq_self h.1 h.2)

theorem toValueItems_eq_self : ∀ {items : List Json}, DistinctKeysItems items →
    toValueItems items = items
  | [], _ => rfl
  | _ :: _, h => by rw [toValueItems, toValue_eq_self h.1, toValueItems_eq_self h.2]

theorem toValueEntries_eq_self : ∀ {entries : List (String × Json)},
    (entries.map Prod.fst).Nodup → DistinctKeysEntries entries → toValueEntries entries = entries
  | [], _, _ => rfl
  | (name, value) :: rest, hnodup, h => by
      obtain ⟨hnot, hrest⟩ := List.nodup_cons.mp hnodup
      rw [toValueEntries, toValue_eq_self h.1, toValueEntries_eq_self hrest h.2]
      exact if_neg hnot

end

/-! ## Fields of the same objects -/

section fields

variable {entries others : List (String × Json)} {name : String} {value : Json}

theorem sameEntries_iff : SameEntries entries others ↔ ∀ entry ∈ entries,
    ∃ value', others.lookup entry.1 = some value' ∧ SameValue entry.2 value' := by
  induction entries with
  | nil => exact iff_of_true trivial nofun
  | cons entry rest ih => rw [SameEntries, ih, List.forall_mem_cons]

theorem mem_of_lookup (h : entries.lookup name = some value) : (name, value) ∈ entries := by
  obtain ⟨front, back, rfl, -⟩ := List.lookup_eq_some_iff.mp h
  simp

theorem lookup_eq_none_iff_fst : entries.lookup name = none ↔ name ∉ entries.map Prod.fst := by
  rw [List.lookup_eq_none_iff]
  constructor
  · intro h hmem
    obtain ⟨entry, hentry, rfl⟩ := List.mem_map.mp hmem
    simpa using h entry hentry
  · intro h entry hentry
    have hne : name ≠ entry.1 := fun heq => h (heq ▸ List.mem_map_of_mem hentry)
    simpa using hne

/-- **Objects are the same exactly when every key has the same value in both, or none.** -/
theorem sameValue_object (h : (entries.map Prod.fst).Nodup) :
    SameValue (object entries) (object others) ↔
      ∀ name, Option.Rel SameValue (entries.lookup name) (others.lookup name) := by
  rw [SameValue, sameEntries_iff]
  constructor
  · rintro ⟨hentries, hkeys⟩ name
    cases hvalue : entries.lookup name with
    | none =>
        have hnot := lookup_eq_none_iff_fst.mp hvalue
        rw [lookup_eq_none_iff_fst.mpr fun hmem => hnot (hkeys hmem)]
        exact .none
    | some value =>
        obtain ⟨value', hvalue', hsame⟩ := hentries _ (mem_of_lookup hvalue)
        rw [hvalue']
        exact .some hsame
  · intro hrel
    constructor
    · rintro ⟨name, value⟩ hentry
      have hname := hrel name
      rw [(mem_iff_lookup h).mp hentry] at hname
      cases hlookup : others.lookup name with
      | none =>
          rw [hlookup] at hname
          cases hname
      | some value' =>
          rw [hlookup] at hname
          cases hname with
          | some hsame => exact ⟨value', rfl, hsame⟩
    · intro name hmem
      by_contra hnot
      have hname := hrel name
      rw [lookup_eq_none_iff_fst.mpr hnot] at hname
      cases hlookup : others.lookup name with
      | none => exact lookup_eq_none_iff_fst.mp hlookup hmem
      | some value' =>
          rw [hlookup] at hname
          cases hname

/-- What is found under a key has its counterpart. -/
theorem SameValue.lookup (hsame : SameValue (object entries) (object others))
    (hvalue : entries.lookup name = some value) :
    ∃ value', others.lookup name = some value' ∧ SameValue value value' :=
  sameEntries_iff.mp hsame.1 _ (mem_of_lookup hvalue)

/-- What is found has distinct keys. -/
theorem DistinctKeys.lookup (h : DistinctKeys (object entries))
    (hvalue : entries.lookup name = some value) : DistinctKeys value :=
  distinctKeysEntries_iff.mp h.2 _ (mem_of_lookup hvalue)

end fields

end Json

end OpenGuard.Lib
