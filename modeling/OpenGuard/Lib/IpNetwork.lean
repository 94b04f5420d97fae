import Mathlib.Data.Nat.Digits.Defs
import OpenGuard.Lib.IpAddr

/-!
# Networks of IP addresses

An address as a number of 32 or 128 bits, and the addresses that agree with it on their first bits.

* `prefixMask`: the mask of the first bits; `and_prefixMask_eq_iff`: two numbers are the same under
  it exactly when they have the same first bits.
* `InNetwork`: both addresses are of one family and agree on their first bits;
  `inNetwork_zero_iff`, `inNetwork_maximum_iff`: all addresses of the family, and one address.
-/

namespace OpenGuard.Lib

/-! ## Masks -/

section masks

variable {w n : ℕ} {x y : BitVec w}

/-- The first `n` of the bits. -/
def prefixMask (w n : ℕ) : BitVec w := if n = 0 then 0 else BitVec.allOnes w <<< (w - n)

theorem getMsbD_prefixMask (h : n ≤ w) (i : ℕ) :
    (prefixMask w n).getMsbD i = decide (i < n) := by
  unfold prefixMask
  split_ifs with hn
  · simp [hn]
  · rw [BitVec.getMsbD_shiftLeft, BitVec.getMsbD_allOnes]
    exact decide_eq_decide.mpr ⟨fun h => by omega, fun h => by omega⟩

/-- Under the mask two numbers are the same when their first bits are. -/
theorem and_prefixMask_eq_iff (h : n ≤ w) :
    x &&& prefixMask w n = y &&& prefixMask w n ↔ ∀ i < n, x.getMsbD i = y.getMsbD i := by
  constructor
  · intro heq i hi
    have hbit := congrArg (fun z => z.getMsbD i) heq
    simpa [BitVec.getMsbD_and, getMsbD_prefixMask h, hi] using hbit
  · intro hbits
    refine BitVec.eq_of_getMsbD_eq fun i _ => ?_
    rw [BitVec.getMsbD_and, BitVec.getMsbD_and, getMsbD_prefixMask h]
    by_cases hi : i < n
    · rw [hbits i hi]
    · simp [hi]

end masks

/-! ## Addresses as numbers -/

/-- The number of some digits, the most significant first. -/
def ofBigEndian (w base : ℕ) (digits : List ℕ) : BitVec w :=
  BitVec.ofNat w (Nat.ofDigits base digits.reverse)

/-- Different digits make different numbers, when the number has room for them. -/
theorem ofBigEndian_inj {w base : ℕ} {l m : List ℕ} (hbase : 1 < base)
    (hl : ∀ digit ∈ l, digit < base) (hm : ∀ digit ∈ m, digit < base)
    (hlength : l.length = m.length) (hw : base ^ l.length = 2 ^ w)
    (h : ofBigEndian w base l = ofBigEndian w base m) : l = m := by
  have hlt {l' : List ℕ} (hl' : ∀ digit ∈ l', digit < base) (hsame : l'.length = l.length) :
      Nat.ofDigits base l'.reverse < 2 ^ w := by
    have hlt := Nat.ofDigits_lt_base_pow_length (l := l'.reverse) hbase
      fun digit hdigit => hl' digit (List.mem_reverse.mp hdigit)
    rwa [List.length_reverse, hsame, hw] at hlt
  have hnat := congrArg BitVec.toNat h
  rw [ofBigEndian, ofBigEndian, BitVec.toNat_ofNat, BitVec.toNat_ofNat,
    Nat.mod_eq_of_lt (hlt hl rfl), Nat.mod_eq_of_lt (hlt hm hlength.symm)] at hnat
  refine List.reverse_injective (Nat.ofDigits_inj_of_len_eq hbase ?_ ?_ ?_ hnat)
  · rw [List.length_reverse, List.length_reverse, hlength]
  · exact fun digit hdigit => hl digit (List.mem_reverse.mp hdigit)
  · exact fun digit hdigit => hm digit (List.mem_reverse.mp hdigit)

/-- `u32::from(Ipv4Addr)` -/
def Ipv4Addr.bits (x : Ipv4Addr) : BitVec 32 :=
  ofBigEndian 32 256 [x.a.toNat, x.b.toNat, x.c.toNat, x.d.toNat]

/-- `u128::from(Ipv6Addr)` -/
def Ipv6Addr.bits (x : Ipv6Addr) : BitVec 128 :=
  ofBigEndian 128 65536 (x.segments.map UInt16.toNat)

theorem Ipv4Addr.bits_injective : Function.Injective Ipv4Addr.bits := by
  intro x y h
  have hlt (x : Ipv4Addr) :
      ∀ digit ∈ [x.a.toNat, x.b.toNat, x.c.toNat, x.d.toNat], digit < 256 := by
    simp only [List.mem_cons, List.not_mem_nil, or_false, forall_eq_or_imp, forall_eq]
    exact ⟨x.a.toNat_lt, x.b.toNat_lt, x.c.toNat_lt, x.d.toNat_lt⟩
  have hlength : [x.a.toNat, x.b.toNat, x.c.toNat, x.d.toNat].length = 4 := rfl
  have hdigits := ofBigEndian_inj (by decide) (hlt x) (hlt y) rfl (by rw [hlength]; decide) h
  simp only [List.cons.injEq, UInt8.toNat_inj, and_true] at hdigits
  obtain ⟨ha, hb, hc, hd⟩ := hdigits
  cases x
  cases y
  simp_all

theorem Ipv6Addr.bits_injective : Function.Injective Ipv6Addr.bits := by
  intro x y h
  have hlt (x : Ipv6Addr) : ∀ digit ∈ x.segments.map UInt16.toNat, digit < 65536 := by
    intro digit hdigit
    obtain ⟨segment, -, rfl⟩ := List.mem_map.mp hdigit
    exact segment.toNat_lt
  have hlength : (x.segments.map UInt16.toNat).length = 8 := by rw [List.length_map, x.length_eq]
  have hsegments : x.segments = y.segments := by
    refine List.map_injective_iff.mpr (fun _ _ => UInt16.toNat_inj.mp)
      (ofBigEndian_inj (by decide) (hlt x) (hlt y) ?_ ?_ h)
    · rw [List.length_map, List.length_map, x.length_eq, y.length_eq]
    · rw [hlength]
      decide
  cases x
  cases y
  cases hsegments
  rfl

/-! ## Networks -/

/-- How many bits an address has. -/
def IpAddr.width : IpAddr → ℕ
  | .v4 _ => 32
  | .v6 _ => 128

/-- Both addresses are of one family. -/
def SameFamily : IpAddr → IpAddr → Prop
  | .v4 _, .v4 _ | .v6 _, .v6 _ => True
  | _, _ => False

/-- Both addresses are of one family and agree on their first bits. -/
def InNetwork (network : IpAddr) (length : ℕ) (candidate : IpAddr) : Prop :=
  match network, candidate with
  | .v4 network, .v4 candidate => ∀ i < length, network.bits.getMsbD i = candidate.bits.getMsbD i
  | .v6 network, .v6 candidate => ∀ i < length, network.bits.getMsbD i = candidate.bits.getMsbD i
  | _, _ => False

instance (network candidate : IpAddr) (length : ℕ) :
    Decidable (InNetwork network length candidate) := by
  cases network <;> cases candidate <;> unfold InNetwork <;> infer_instance

section networks

variable {network other candidate : IpAddr} {length : ℕ}

/-- Without a bit to agree on, the network is the whole family. -/
theorem inNetwork_zero_iff : InNetwork network 0 candidate ↔ SameFamily network candidate := by
  cases network <;> cases candidate <;> simp [InNetwork, SameFamily]

/-- With all its bits, the network is one address. -/
theorem inNetwork_width_iff : InNetwork network network.width candidate ↔ candidate = network := by
  cases network with
  | v4 network =>
      cases candidate with
      | v4 candidate =>
          simp only [InNetwork, IpAddr.width, IpAddr.v4.injEq]
          constructor
          · exact fun h => (Ipv4Addr.bits_injective (BitVec.eq_of_getMsbD_eq h)).symm
          · rintro rfl i -
            rfl
      | v6 candidate => simp [InNetwork]
  | v6 network =>
      cases candidate with
      | v4 candidate => simp [InNetwork]
      | v6 candidate =>
          simp only [InNetwork, IpAddr.width, IpAddr.v6.injEq]
          constructor
          · exact fun h => (Ipv6Addr.bits_injective (BitVec.eq_of_getMsbD_eq h)).symm
          · rintro rfl i -
            rfl

/-- Only the first bits of a network count. -/
theorem inNetwork_congr (h : InNetwork network length other) :
    InNetwork network length candidate ↔ InNetwork other length candidate := by
  cases network <;> cases other <;> cases candidate <;>
    simp only [InNetwork] at h ⊢ <;> exact forall₂_congr fun i hi => by rw [h i hi]

end networks

end OpenGuard.Lib
