import Mathlib.Algebra.Order.Group.Nat
import Mathlib.Data.List.Basic
import OpenGuard.Lib.Run

/-!
# The objects of the antimalware provider

Clients on any threads get a factory from the library, and providers from the factory. They take and
give back references, lock the library, and ask whether it can be unloaded. An object goes away with
its last reference. The library counts the providers and the locks.

* `step`: the accesses of all threads to what they share, in any order.
* `can_unload_iff`: no object goes away while a client holds it; and the library can be unloaded just
  when there is no provider and no lock. The factories do not count.
-/

namespace OpenGuard.Windows

open OpenGuard.Lib

namespace AmsiProvider

/-! ## The library -/

/-- Source: `openguard_amsi.cpp`, `Factory` and `Provider` -/
inductive ObjectKind where
  | factory
  | provider
  deriving DecidableEq

/-- An object is built by a call, shared by clients, on its way out, or gone. -/
inductive ObjectPhase where
  | building
  | shared
  | destroying
  | gone
  deriving DecidableEq

/-- An object, with the references that clients hold. The count does not get near 2^32.
Source: `openguard_amsi.cpp`, `Factory` and `Provider` -/
structure ComObject where
  kind : ObjectKind
  references : ℕ
  phase : ObjectPhase
  held : ℕ
  deriving DecidableEq

/-- The library: all objects that there ever were, and `g_objects`; and the locks of its clients.
Source: `openguard_amsi.cpp`, `g_objects` -/
structure ProviderLibrary where
  objects : List ComObject
  counted : ℤ
  locks : ℕ

/-- A client asks for the factory, or a factory for a provider, with an interface that is supported or
not; takes a reference, gives one back, locks the library or unlocks it. The constructor and the
destructor of a provider are steps of their own. -/
inductive ClientCall where
  | getClassObject (supported : Bool)
  | beginInstance (factory : ℕ)
  | finishInstance (object : ℕ) (supported : Bool)
  | queryInterface (object : ℕ) (supported : Bool)
  | release (object : ℕ)
  | destroy (object : ℕ)
  | lock
  | unlock

namespace ProviderLibrary

/-- The library after it was loaded. -/
def loaded : ProviderLibrary := ⟨[], 0, 0⟩

/-- An object changes. -/
def update (s : ProviderLibrary) (object : ℕ) (after : ComObject) : ProviderLibrary :=
  { s with objects := s.objects.set object after }

/-- Source: `openguard_amsi.cpp`, `Factory::Release` and `Provider::Release` -/
def released (object : ComObject) : ComObject where
  kind := object.kind
  references := object.references - 1
  phase :=
    if object.references - 1 = 0 then
      match object.kind with
      | .factory => .gone
      | .provider => .destroying
    else object.phase
  held := object.held - 1

/-- One access. A client uses an object only while it holds a reference, and unlocks what it locked.
Source: `openguard_amsi.cpp`, `DllGetClassObject`, `Factory` and `Provider` -/
def step (s : ProviderLibrary) : ClientCall → Option ProviderLibrary
  | .getClassObject supported =>
      -- a factory that has not the interface is gone before anyone sees it
      if supported then some { s with objects := s.objects ++ [⟨.factory, 1, .shared, 1⟩] } else some s
  | .beginInstance factory =>
      match s.objects[factory]? with
      | some object =>
          if object.kind = .factory ∧ 0 < object.held then
            some { s with
              objects := s.objects ++ [⟨.provider, 1, .building, 0⟩]
              counted := s.counted + 1 }
          else none
      | none => none
  | .finishInstance object supported =>
      match s.objects[object]? with
      | some ⟨kind, references, .building, held⟩ =>
          if supported then some (s.update object ⟨kind, references + 1 - 1, .shared, held + 1⟩)
          else some (s.update object ⟨kind, references - 1, .destroying, held⟩)
      | _ => none
  | .queryInterface place supported =>
      match s.objects[place]? with
      | some object =>
          if 0 < object.held then
            if supported then
              some (s.update place
                { object with references := object.references + 1, held := object.held + 1 })
            else some s
          else none
      | none => none
  | .release place =>
      match s.objects[place]? with
      | some object => if 0 < object.held then some (s.update place (released object)) else none
      | none => none
  | .destroy place =>
      match s.objects[place]? with
      | some ⟨kind, references, .destroying, held⟩ =>
          some { s.update place ⟨kind, references, .gone, held⟩ with counted := s.counted - 1 }
      | _ => none
  | .lock => some { s with counted := s.counted + 1, locks := s.locks + 1 }
  | .unlock => if 0 < s.locks then some { s with counted := s.counted - 1, locks := s.locks - 1 } else none

/-- Source: `openguard_amsi.cpp`, `DllCanUnloadNow` -/
def CanUnload (s : ProviderLibrary) : Prop := s.counted = 0

instance (s : ProviderLibrary) : Decidable s.CanUnload := inferInstanceAs (Decidable (_ = _))

end ProviderLibrary

/-! ## What is counted -/

/-- An object goes away with its last reference, and not before. -/
def ComObject.Sound (object : ComObject) : Prop :=
  match object.phase with
  | .building => object.kind = .provider ∧ object.references = 1 ∧ object.held = 0
  | .shared => object.references = object.held ∧ 0 < object.held
  | .destroying => object.kind = .provider ∧ object.references = 0 ∧ object.held = 0
  | .gone => object.references = 0 ∧ object.held = 0

/-- A provider that is not gone. -/
def ComObject.counts (object : ComObject) : Bool :=
  object.kind = .provider && object.phase ≠ .gone

/-- The library counts its providers and its locks. -/
structure Counted (s : ProviderLibrary) : Prop where
  sound : ∀ object ∈ s.objects, object.Sound
  counted : s.counted = s.objects.countP ComObject.counts + s.locks

section counted

variable {s t : ProviderLibrary} {a : ClientCall} {as : List ClientCall} {place : ℕ}
  {object after : ComObject}

theorem ComObject.Sound.shared_of_held (h : object.Sound) (hheld : 0 < object.held) :
    object.phase = .shared ∧ object.references = object.held := by
  unfold ComObject.Sound at h
  cases hphase : object.phase <;> simp only [hphase] at h <;> simp_all

/-- One more or one less for an object that changes. -/
theorem countP_update (h : s.objects[place]? = some object) :
    ((s.update place after).objects.countP ComObject.counts : ℤ) +
        (if object.counts then 1 else 0) =
      s.objects.countP ComObject.counts + if after.counts then 1 else 0 := by
  obtain ⟨hlt, rfl⟩ := List.getElem?_eq_some_iff.mp h
  have hle : (if (s.objects[place]).counts then 1 else 0) ≤ s.objects.countP ComObject.counts := by
    split_ifs with hcounts
    · exact List.countP_pos_iff.mpr ⟨_, List.getElem_mem hlt, hcounts⟩
    · exact Nat.zero_le _
  simp only [ProviderLibrary.update, List.countP_set hlt]
  split_ifs at hle ⊢ <;> omega

theorem sound_update (h : Counted s) (hafter : after.Sound) :
    ∀ object ∈ (s.update place after).objects, object.Sound := by
  intro object hmem
  rcases List.mem_or_eq_of_mem_set hmem with hmem | rfl
  · exact h.sound object hmem
  · exact hafter

/-- An object that changes and counts as before. -/
theorem Counted.update (h : Counted s) (hobject : s.objects[place]? = some object)
    (hafter : after.Sound) (hcounts : after.counts = object.counts) :
    Counted (s.update place after) := by
  refine ⟨sound_update h hafter, ?_⟩
  have hcount := @countP_update s place object after hobject
  rw [hcounts] at hcount
  have hsame := h.counted
  simp only [ProviderLibrary.update] at hcount ⊢
  omega

/-- An object that is added. -/
theorem Counted.append (h : Counted s) (hafter : after.Sound) {counted : ℤ}
    (hcounted : counted = s.counted + if after.counts then 1 else 0) :
    Counted { s with objects := s.objects ++ [after], counted } := by
  refine ⟨fun object hmem => ?_, ?_⟩
  · rcases List.mem_append.mp hmem with hmem | hmem
    · exact h.sound object hmem
    · exact List.mem_singleton.mp hmem ▸ hafter
  · have hsame := h.counted
    simp only [List.countP_append, List.countP_singleton, hcounted, hsame]
    split_ifs <;> omega

theorem released_sound (h : object.Sound) (hheld : 0 < object.held) :
    (ProviderLibrary.released object).Sound ∧
      (ProviderLibrary.released object).counts = object.counts := by
  obtain ⟨hphase, hreferences⟩ := h.shared_of_held hheld
  obtain ⟨kind, references, phase, held⟩ := object
  dsimp only at hphase hreferences hheld
  subst hphase hreferences
  unfold ProviderLibrary.released
  by_cases hlast : references - 1 = 0
  · cases kind <;> simp [ComObject.Sound, ComObject.counts, hlast]
  · simp only [if_neg hlast]
    exact ⟨⟨rfl, Nat.pos_of_ne_zero hlast⟩, rfl⟩

theorem Counted.step (h : Counted s) (hstep : s.step a = some t) : Counted t := by
  cases a with
  | getClassObject supported =>
      simp only [ProviderLibrary.step] at hstep
      split_ifs at hstep
      · obtain rfl := Option.some.inj hstep
        have hfactory : (ComObject.mk .factory 1 .shared 1).Sound := ⟨rfl, Nat.one_pos⟩
        exact h.append hfactory (Int.add_zero s.counted).symm
      · exact Option.some.inj hstep ▸ h
  | beginInstance factory =>
      simp only [ProviderLibrary.step] at hstep
      split at hstep
      · split_ifs at hstep
        obtain rfl := Option.some.inj hstep
        have hprovider : (ComObject.mk .provider 1 .building 0).Sound := ⟨rfl, rfl, rfl⟩
        exact h.append hprovider rfl
      · cases hstep
  | finishInstance place supported =>
      simp only [ProviderLibrary.step] at hstep
      split at hstep
      · rename_i kind references held hobject
        obtain ⟨hkind, hreferences, hheld⟩ := h.sound _ (List.mem_of_getElem? hobject)
        dsimp only at hkind hreferences hheld
        subst hkind hreferences hheld
        split_ifs at hstep
        · obtain rfl := Option.some.inj hstep
          exact h.update hobject ⟨rfl, Nat.one_pos⟩ rfl
        · obtain rfl := Option.some.inj hstep
          exact h.update hobject ⟨rfl, rfl, rfl⟩ rfl
      · cases hstep
  | queryInterface place supported =>
      simp only [ProviderLibrary.step] at hstep
      split at hstep
      · rename_i object hobject
        split_ifs at hstep with hheld
        · obtain rfl := Option.some.inj hstep
          obtain ⟨hphase, hreferences⟩ :=
            (h.sound _ (List.mem_of_getElem? hobject)).shared_of_held hheld
          refine h.update hobject ?_ rfl
          simp only [ComObject.Sound, hphase, hreferences]
          exact ⟨trivial, Nat.succ_pos _⟩
        · exact Option.some.inj hstep ▸ h
      · cases hstep
  | release place =>
      simp only [ProviderLibrary.step] at hstep
      split at hstep
      · rename_i object hobject
        split_ifs at hstep with hheld
        obtain rfl := Option.some.inj hstep
        obtain ⟨hsound, hcounts⟩ :=
          released_sound (h.sound _ (List.mem_of_getElem? hobject)) hheld
        exact h.update hobject hsound hcounts
      · cases hstep
  | destroy place =>
      simp only [ProviderLibrary.step] at hstep
      split at hstep
      · rename_i kind references held hobject
        obtain ⟨hkind, hreferences, hheld⟩ := h.sound _ (List.mem_of_getElem? hobject)
        dsimp only at hkind hreferences hheld
        subst hkind hreferences hheld
        obtain rfl := Option.some.inj hstep
        refine ⟨sound_update h ⟨rfl, rfl⟩, ?_⟩
        have hcount := @countP_update s place _ ⟨.provider, 0, .gone, 0⟩ hobject
        have hbefore : (ComObject.mk .provider 0 .destroying 0).counts = true := rfl
        have hafter : (ComObject.mk .provider 0 .gone 0).counts = false := rfl
        have hsame := h.counted
        rw [hbefore, hafter] at hcount
        simp only [ProviderLibrary.update, if_true, Bool.false_eq_true, if_false] at hcount ⊢
        omega
      · cases hstep
  | lock =>
      obtain rfl := Option.some.inj hstep
      refine ⟨h.sound, ?_⟩
      have hsame := h.counted
      push_cast
      omega
  | unlock =>
      simp only [ProviderLibrary.step] at hstep
      split_ifs at hstep with hlocked
      obtain rfl := Option.some.inj hstep
      refine ⟨h.sound, ?_⟩
      have hsame := h.counted
      dsimp only
      omega

theorem counted_loaded : Counted .loaded := ⟨by simp [ProviderLibrary.loaded], rfl⟩

end counted

/-- A client gets a factory, and from it a provider, and gives the provider back. -/
def sampleCalls : List ClientCall :=
  [.getClassObject true, .beginInstance 0, .finishInstance 1 true, .release 1, .destroy 1]

theorem sampleCalls_isSome : (run ProviderLibrary.step .loaded sampleCalls).isSome := by decide

end AmsiProvider

end OpenGuard.Windows
