import OpenGuard.Lib.Fallible
import OpenGuard.Lib.JsonCanonical
import OpenGuard.Lib.Serde

/-!
# Decoders do not see the order of keys

A decoder that gets its fields by their names gives the same for values that are the same, and one
that denies what it does not know accepts no floating-point number where it expects none.

* `OfValues`: both, for a decoder.
* `ofValues_leaf`, `ofValues_decodeVec`: single values and lists.
* `structEntries_same`, `noFloat_of_structEntries`: the fields of a struct.
-/

namespace OpenGuard.Lib

open Json

variable {α : Type} {decode : Json → Except DecodeError α} {names : List String} {required : ℕ}
  {deny : Bool} {j j' : Json} {found found' : List (String × Json)} {name : String} {value : Json}

/-- The decoder does not see the order of keys, and accepts no floating-point number. -/
structure OfValues (decode : Json → Except DecodeError α) : Prop where
  same : ∀ ⦃j j' a⦄, DistinctKeys j → DistinctKeys j' → SameValue j j' → decode j = .ok a →
    decode j' = .ok a
  noFloat : ∀ ⦃j a⦄, DistinctKeys j → decode j = .ok a → NoFloat j

/-- What accepts only values without parts, and no floating-point numbers. -/
theorem ofValues_leaf (h : ∀ j, (decode j).isOk → j.isContainer = false)
    (hfloat : ∀ text, ¬(decode (.float text)).isOk) : OfValues decode := by
  constructor
  · intro j j' a _ _ hsame hdecode
    have hleaf := h j (isOk_iff.mpr ⟨a, hdecode⟩)
    have heq : j' = j := by
      cases j <;> cases j' <;> simp_all [SameValue, isContainer]
    rwa [heq]
  · intro j a _ hdecode
    have hok := isOk_iff.mpr ⟨a, hdecode⟩
    have hleaf := h j hok
    cases j with
    | float text => exact hfloat text hok
    | array items => cases hleaf
    | object entries => cases hleaf
    | _ => trivial

theorem ofValues_decodeString : OfValues decodeString :=
  ofValues_leaf (fun j => by cases j <;> simp [decodeString, isContainer]) nofun

theorem ofValues_decodeUnsigned (bits : ℕ) (ofNat : ℕ → α) :
    OfValues (decodeUnsigned bits ofNat) :=
  ofValues_leaf (fun j => by cases j <;> simp [decodeUnsigned, isContainer]) nofun

theorem ofValues_decodeVec (h : OfValues decode) : OfValues (decodeVec decode) := by
  constructor
  · intro j j' results hj hj' hsame hdecode
    cases j with
    | array items =>
        cases j' with
        | array items' =>
            rw [decodeVec, mapM_eq_ok] at hdecode ⊢
            change SameItems items items' at hsame
            induction hdecode generalizing items' with
            | nil =>
                cases items' with
                | nil => exact .nil
                | cons item' items' => exact hsame.elim
            | cons hitem _ ih =>
                cases items' with
                | nil => exact hsame.elim
                | cons item' items' =>
                    exact .cons (h.same hj.1 hj'.1 hsame.1 hitem) (ih hj.2 items' hj'.2 hsame.2)
        | _ => exact hsame.elim
    | _ => cases hdecode
  · intro j results hj hdecode
    cases j with
    | array items =>
        refine noFloatItems_iff.mpr fun item hitem => ?_
        obtain ⟨result, -, hresult⟩ := exists_of_forall₂ (mapM_eq_ok.mp hdecode) hitem
        exact h.noFloat (distinctKeysItems_iff.mp hj item hitem) hresult
    | _ => cases hdecode

/-! ## Structs -/

/-- Whatever is found has its counterpart. -/
def SameFound (found found' : List (String × Json)) : Prop :=
  ∀ ⦃name value⦄, found.lookup name = some value → DistinctKeys value ∧
    ∃ value', found'.lookup name = some value' ∧ SameValue value value' ∧ DistinctKeys value'

theorem readField_same {a : α} (h : OfValues decode) (hfound : SameFound found found')
    (hread : readField found name decode = .ok a) : readField found' name decode = .ok a := by
  unfold readField at hread
  split at hread
  · next value hvalue =>
      obtain ⟨hdistinct, value', hvalue', hsame, hdistinct'⟩ := hfound hvalue
      rw [readField_of_lookup hvalue']
      exact h.same hdistinct hdistinct' hsame hread
  · cases hread

theorem noFloat_of_readField {a : α} (h : OfValues decode)
    (hread : readField found name decode = .ok a) (hvalue : found.lookup name = some value)
    (hdistinct : DistinctKeys value) : NoFloat value := by
  rw [readField_of_lookup hvalue] at hread
  exact h.noFloat hdistinct hread

/-- The known fields of the same objects are the same. -/
theorem knownEntries_same {entries others : List (String × Json)}
    (hentries : DistinctKeys (object entries)) (hothers : DistinctKeys (object others))
    (hsame : SameValue (object entries) (object others))
    (h : knownEntries names deny entries = .ok found) :
    ∃ found', knownEntries names deny others = .ok found' ∧ SameFound found found' := by
  obtain ⟨hdeny, -, rfl⟩ := knownEntries_eq_ok_iff.mp h
  refine ⟨_, knownEntries_eq_ok_iff.mpr ⟨fun hd entry hentry => ?_, ?_, rfl⟩, ?_⟩
  · obtain ⟨entry', hentry', hname⟩ := List.mem_map.mp (hsame.2 (List.mem_map_of_mem hentry))
    rw [← hname]
    exact hdeny hd entry' hentry'
  · exact hothers.1.sublist (List.filter_sublist.map Prod.fst)
  · intro name value hvalue
    have hmem := mem_of_lookup hvalue
    have hknown : decide (name ∈ names) = true := by simpa using (List.mem_filter.mp hmem).2
    rw [lookup_filter (fun key => decide (key ∈ names)) hknown] at hvalue
    obtain ⟨value', hvalue', hsame'⟩ := hsame.lookup hvalue
    refine ⟨hentries.lookup hvalue, value', ?_, hsame', hothers.lookup hvalue'⟩
    rw [lookup_filter (fun key => decide (key ∈ names)) hknown]
    exact hvalue'

/-- The same holds of fields that are given in their order. -/
theorem sameFound_zip {items items' : List Json} (hitems : DistinctKeysItems items)
    (hitems' : DistinctKeysItems items') (hsame : SameItems items items') :
    SameFound (names.zip items) (names.zip items') := by
  induction names generalizing items items' with
  | nil => exact nofun
  | cons first names ih =>
      cases items with
      | nil => exact nofun
      | cons item items =>
          cases items' with
          | nil => exact hsame.elim
          | cons item' items' =>
              intro name value hvalue
              rw [List.zip_cons_cons, List.lookup_cons] at hvalue ⊢
              split at hvalue
              · rw [← Option.some.inj hvalue]
                exact ⟨hitems.1, item', rfl, hsame.1, hitems'.1⟩
              · exact ih hitems.2 hitems'.2 hsame.2 hvalue

theorem SameItems.length_eq {items items' : List Json} (h : SameItems items items') :
    items.length = items'.length := by
  induction items generalizing items' with
  | nil =>
      cases items' with
      | nil => rfl
      | cons item' items' => exact h.elim
  | cons item items ih =>
      cases items' with
      | nil => exact h.elim
      | cons item' items' => exact congrArg (· + 1) (ih h.2)

theorem structEntries_same (hj : DistinctKeys j) (hj' : DistinctKeys j') (hsame : SameValue j j')
    (h : structEntries names required deny j = .ok found) :
    ∃ found', structEntries names required deny j' = .ok found' ∧ SameFound found found' := by
  cases j with
  | array items =>
      cases j' with
      | array items' =>
          have hlength : items.length = items'.length := SameItems.length_eq hsame
          rw [structEntries] at h ⊢
          rw [← hlength]
          split_ifs at h ⊢ with hrange
          rw [← Except.ok.inj h]
          exact ⟨_, rfl, sameFound_zip hj hj' hsame⟩
      | _ => exact hsame.elim
  | object entries =>
      cases j' with
      | object others => exact knownEntries_same hj hj' hsame h
      | _ => exact hsame.elim
  | _ => cases h

/-- What is found has distinct keys. -/
theorem distinctKeys_of_structEntries (hj : DistinctKeys j)
    (h : structEntries names required deny j = .ok found)
    (hvalue : found.lookup name = some value) : DistinctKeys value := by
  obtain ⟨found', -, hfound⟩ := structEntries_same hj hj (SameValue.refl hj) h
  exact (hfound hvalue).1

/-- A struct that denies unknown fields and has read all of its own has read everything. -/
theorem noFloat_of_structEntries (hnames : names.Nodup) (hj : DistinctKeys j)
    (h : structEntries names required true j = .ok found)
    (hread : ∀ ⦃name value⦄, name ∈ names → found.lookup name = some value → NoFloat value) :
    NoFloat j := by
  cases j with
  | array items =>
      rw [structEntries] at h
      split_ifs at h with hrange
      rw [← Except.ok.inj h] at hread
      refine noFloatItems_iff.mpr fun item hitem => ?_
      rw [← List.map_snd_zip hrange.2] at hitem
      obtain ⟨⟨name, item⟩, hentry, rfl⟩ := List.mem_map.mp hitem
      exact hread (List.of_mem_zip hentry).1 ((mem_iff_lookup (nodup_zip hnames items)).mp hentry)
  | object entries =>
      obtain ⟨hdeny, -, rfl⟩ := knownEntries_eq_ok_iff.mp h
      refine noFloatEntries_iff.mpr fun entry hentry => hread (hdeny rfl entry hentry) ?_
      have hknown : decide (entry.1 ∈ names) = true := by simpa using hdeny rfl entry hentry
      rw [lookup_filter (fun key => decide (key ∈ names)) hknown]
      exact (mem_iff_lookup hj.1).mp hentry
  | _ => cases h

end OpenGuard.Lib
