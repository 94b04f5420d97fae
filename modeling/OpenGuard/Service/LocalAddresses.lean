import OpenGuard.Lib.IpText
import OpenGuard.Service.BehaviorChain
import OpenGuard.Windows.Classification

/-!
# Two notions of a local address

The behavior chains ask `is_external_address`, the correlation of processes asks the reputation feed
whether an address is local. Neither looks into an IPv6 address that an IPv4 address is mapped to,
and the two have different lists of special addresses.

* `mappedAlike_iff`: **when a mapped address is treated as the host it stands for.**
* `sameNotion_iff`: **when both say the same of an address.**
-/

namespace OpenGuard.Service

open OpenGuard.Lib OpenGuard.Windows

/-! ## Mapped addresses -/

/-- The text of the IPv6 address that an IPv4 address is mapped to. -/
def mappedText (address : Ipv4Addr) : String := "::ffff:" ++ address.text

/-- The verdict of the first indicator that contains the address. -/
def listedVerdict (feed : ReputationFeed) (address : IpAddr) : Option String :=
  (feed.indicators.find? fun indicator => indicator.Matches address).map (·.verdict)

/-- An address and the one it is mapped to have the same verdict, and both or neither are
external. -/
def MappedAlike (feed : ReputationFeed) (address : Ipv4Addr) : Prop :=
  (feed.classify (mappedText address)).map Prod.fst =
      (feed.classify address.text).map Prod.fst ∧
    isExternalAddress (mappedText address) = isExternalAddress address.text

section mapped

variable {parseJson : List UInt8 → Except String Json} {describe : DecodeError → String}
  {data : List UInt8} {feed : ReputationFeed} {value : IpAddr}

theorem beforeScope_of_parseIpAddr {address : String} (h : parseIpAddr address = some value) :
    beforeScope address = address := by
  have htake : address.toList.takeWhile (· != '%') = address.toList := by
    refine List.takeWhile_eq_self_iff.mpr fun c hc => ?_
    have hchar := isAddressChar_of_parseIpAddr h c hc
    rw [bne_iff_ne]
    rintro rfl
    exact absurd hchar (by decide)
  rw [beforeScope, htake, String.ofList_toList]

/-- The verdict on an address is that of its first indicator, or what it is. -/
theorem verdict_classify (h : ReputationFeed.fromJson parseJson describe data = .ok feed)
    {address : String} (hvalue : parseIpAddr address = some value) :
    (feed.classify address).map Prod.fst =
      some ((listedVerdict feed value).getD (if isLocal value then "local" else "unknown")) := by
  rw [classify_eq h, beforeScope_of_parseIpAddr hvalue, hvalue]
  unfold listedVerdict ReputationFeed.judge
  cases hfind : feed.indicators.find? fun indicator => indicator.Matches value with
  | none => simp [hfind, fst_classifyUnlisted]
  | some indicator => simp [hfind]

/-- What a feed says of an address is never that it is not known. -/
theorem listedVerdict_ne (h : ReputationFeed.fromJson parseJson describe data = .ok feed)
    (value : IpAddr) : listedVerdict feed value ≠ some "unknown" := by
  intro heq
  obtain ⟨indicator, hfind, hverdict⟩ := Option.map_eq_some_iff.mp heq
  obtain ⟨_, document, -, -, hkeeps⟩ := kept_fromJson h
  obtain ⟨entry, hentry, hkept⟩ := exists_of_forall₂ hkeeps.flip (List.mem_of_find?_eq_some hfind)
  have hrated : isRated entry.verdict := (List.mem_filter.mp hentry).2
  rw [isRated, ← hkept.verdict, hverdict] at hrated
  exact absurd hrated (by decide)

/-- An address that an IPv4 address is mapped to is not local itself. -/
theorem isLocal_mapped (address : Ipv4Addr) : isLocal (.v6 address.mapped) = false := by
  simp [isLocal, isLoopback, isUnspecified, isPrivateOrLinkLocal, Ipv6Addr.isLoopback,
    Ipv6Addr.isUnspecified, Ipv6Addr.isUniqueLocal, Ipv6Addr.isUnicastLinkLocal, Ipv4Addr.mapped]

/-- An IPv6 address is external when it is not local. -/
theorem isExternalAddress_v6 {address : String} {value : Ipv6Addr}
    (h : parseIpAddr address = some (.v6 value)) :
    isExternalAddress address = !isLocal (.v6 value) := by
  unfold isExternalAddress
  rw [h]
  simp only [isLocal, isLoopback, isUnspecified, isPrivateOrLinkLocal]
  cases value.isLoopback <;> cases value.isUnspecified <;> cases value.isUniqueLocal <;>
    cases value.isUnicastLinkLocal <;> rfl

/-- An IPv4 address is external when it is public. -/
theorem isExternalAddress_v4 {address : String} {value : Ipv4Addr}
    (h : parseIpAddr address = some (.v4 value)) :
    isExternalAddress address = !isNonPublicV4 value := by
  unfold isExternalAddress
  rw [h]

/-- A public IPv4 address is not local. -/
theorem isLocal_of_public {address : Ipv4Addr} (h : isNonPublicV4 address = false) :
    isLocal (.v4 address) = false := by
  simp only [isNonPublicV4, Bool.or_eq_false_iff] at h
  obtain ⟨⟨⟨⟨⟨hprivate, hloopback⟩, hlink⟩, hunspecified⟩, -⟩, -⟩ := h
  simp [isLocal, isLoopback, isPrivateOrLinkLocal, isUnspecified, hprivate, hloopback, hlink,
    hunspecified]

/-- With a default that neither has, two values are the same when their texts are. -/
theorem getD_eq_getD_iff {a b : Option String} {default : String} (ha : a ≠ some default)
    (hb : b ≠ some default) : a.getD default = b.getD default ↔ b = a := by
  cases a with
  | none =>
      cases b with
      | none => simp
      | some b => simpa [eq_comm] using hb
  | some a =>
      cases b with
      | none => simpa using ha
      | some b => simp [eq_comm]

/-- **A mapped address is the same host** exactly when the IPv4 address is public and the feed says
the same of both, or nothing of either. -/
theorem mappedAlike_iff (h : ReputationFeed.fromJson parseJson describe data = .ok feed)
    (address : Ipv4Addr) :
    MappedAlike feed address ↔ isNonPublicV4 address = false ∧
      listedVerdict feed (.v4 address) = listedVerdict feed (.v6 address.mapped) := by
  unfold MappedAlike
  rw [mappedText, isExternalAddress_v6 (parseIpAddr_mapped address),
    isExternalAddress_v4 (parseIpAddr_text address), verdict_classify h (parseIpAddr_mapped address),
    verdict_classify h (parseIpAddr_text address), isLocal_mapped]
  cases hpublic : isNonPublicV4 address with
  | true => simp
  | false =>
      have hdefault := getD_eq_getD_iff (listedVerdict_ne h (.v6 address.mapped))
        (listedVerdict_ne h (.v4 address))
      simpa [isLocal_of_public hpublic, eq_comm] using hdefault

/-- `mappedAlike_iff` for an address of which the feed says nothing. -/
theorem mappedAlike_unlisted : MappedAlike networkFeed ⟨8, 8, 8, 8⟩ :=
  (mappedAlike_iff fromJson_networkDocument ⟨8, 8, 8, 8⟩).mpr (by decide)

/-- A malicious address is not recognized, and a private one is external, when it is mapped. -/
theorem mapped_not_alike :
    ReputationFeed.fromJson (fun _ => .ok networkDocument) (fun _ => "") [] = .ok networkFeed ∧
      ¬MappedAlike networkFeed ⟨203, 0, 113, 42⟩ ∧ ¬MappedAlike networkFeed ⟨10, 0, 0, 5⟩ := by
  refine ⟨fromJson_networkDocument, ?_, ?_⟩
  · unfold MappedAlike
    decide
  · unfold MappedAlike
    decide

end mapped

/-! ## Scopes and special addresses -/

/-- The chains take the address as external exactly when a feed without indicators does not take it
as local. -/
def SameNotion (address : String) : Prop :=
  isExternalAddress address ↔
    (ReputationFeed.classify ⟨"", []⟩ address).map Prod.fst ≠ some "local"

/-- The addresses that only the chains take as not public: the broadcast address, and those of the
network zero but the unspecified one. -/
def onlyChains : IpAddr → Bool
  | .v4 value => value.isBroadcast || (value.a == 0 && !value.isUnspecified)
  | .v6 _ => false

section notions

variable {address : String} {value : IpAddr}

theorem verdict_classify_empty (h : parseIpAddr (beforeScope address) = some value) :
    (ReputationFeed.classify ⟨"", []⟩ address).map Prod.fst =
      some (if isLocal value then "local" else "unknown") := by
  unfold ReputationFeed.classify
  rw [h]
  simp [firstIndicator, fst_classifyUnlisted]

/-- A text with a scope is not parsed as an address. -/
theorem parseIpAddr_of_scope (h : '%' ∈ address.toList) : parseIpAddr address = none := by
  cases hparse : parseIpAddr address with
  | none => rfl
  | some value => exact absurd (isAddressChar_of_parseIpAddr hparse '%' h) (by decide)

/-- What the chains take as not public is local, or one of the addresses that only they take so. -/
theorem isNonPublicV4_iff (value : Ipv4Addr) :
    isNonPublicV4 value ↔ isLocal (.v4 value) ∨ onlyChains (.v4 value) := by
  simp only [isNonPublicV4, isLocal, isLoopback, isPrivateOrLinkLocal, isUnspecified, onlyChains]
  cases value.isPrivate <;> cases value.isLoopback <;> cases value.isLinkLocal <;>
    cases value.isUnspecified <;> simp

theorem isLocal_of_onlyChains (h : onlyChains value) : isLocal value = false := by
  cases value with
  | v6 value => cases h
  | v4 value =>
      simp only [onlyChains, Bool.or_eq_true, Bool.and_eq_true, Bool.not_eq_true',
        Ipv4Addr.isBroadcast, beq_iff_eq] at h
      rcases h with rfl | ⟨hzero, hspecified⟩
      · rfl
      · simp [isLocal, isLoopback, isPrivateOrLinkLocal, isUnspecified, hspecified,
          Ipv4Addr.isPrivate, Ipv4Addr.isLoopback, Ipv4Addr.isLinkLocal, hzero]

/-- **Both say the same of an address** exactly when it is local, if it has a scope, and when it is
none of the addresses that only the chains take as not public, if it has none. -/
theorem sameNotion_iff (h : parseIpAddr (beforeScope address) = some value) :
    SameNotion address ↔ ('%' ∈ address.toList → isLocal value) ∧
      ('%' ∉ address.toList → onlyChains value = false) := by
  unfold SameNotion
  rw [verdict_classify_empty h]
  by_cases hscope : '%' ∈ address.toList
  · have hexternal : isExternalAddress address = false := by
      unfold isExternalAddress
      rw [parseIpAddr_of_scope hscope]
    rw [hexternal]
    cases hlocal : isLocal value <;> simp [hscope]
  · have hwhole : beforeScope address = address := by
      rw [beforeScope, List.takeWhile_eq_self_iff.mpr, String.ofList_toList]
      intro c hc
      rw [bne_iff_ne]
      rintro rfl
      exact hscope hc
    rw [hwhole] at h
    have hexternal : isExternalAddress address ↔ ¬(isLocal value ∨ onlyChains value) := by
      cases value with
      | v4 value =>
          rw [isExternalAddress_v4 h, ← isNonPublicV4_iff]
          simp
      | v6 value =>
          rw [isExternalAddress_v6 h]
          simp [onlyChains]
    rw [hexternal]
    have hnot : onlyChains value → isLocal value = false := isLocal_of_onlyChains
    cases hlocal : isLocal value <;> cases honly : onlyChains value <;> simp_all

/-- `sameNotion_iff` for a public address. -/
theorem sameNotion_public : SameNotion "8.8.8.8" :=
  have h : parseIpAddr (beforeScope "8.8.8.8") = some (.v4 ⟨8, 8, 8, 8⟩) := by decide
  (sameNotion_iff h).mpr (by decide)

/-- The broadcast address, and a public address with a scope. -/
theorem broadcast_not_sameNotion :
    ¬SameNotion "255.255.255.255" ∧ ¬SameNotion "2001:db8::1%3" := by
  unfold SameNotion
  decide

end notions

end OpenGuard.Service
