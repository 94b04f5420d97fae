import OpenGuard.Lib.IpNetwork
import OpenGuard.Windows.Reputation

/-!
# What a reputation feed says of an address

An address is classified by the first indicator that contains it, or else by whether it is local.
The masks are computed by a subtraction and a shift, either of which could overflow; the parser of
feeds lets no such indicator through.

* `classify`: the classification, if the arithmetic does not overflow.
* `networkContains_eq`: for a prefix in range it is `InNetwork`.
* `kept_fromJson`: the indicators of a feed are its rated entries.
* `classify_exact`: **the classification by an accepted feed.**
-/

namespace OpenGuard.Windows

open OpenGuard.Lib

/-- The mask of a prefix; none when the subtraction or the shift overflows.
Source: `windows/lib.rs`, `network_contains` -/
def networkMask (width : ℕ) (prefixLength : UInt8) : Option (BitVec width) :=
  if prefixLength = 0 then some 0
  else if width < prefixLength.toNat then none
  else
    let amount := width - prefixLength.toNat
    if width ≤ amount then none else some (BitVec.allOnes width <<< amount)

/-- Source: `windows/lib.rs`, `network_contains` -/
def networkContains (network : IpAddr) (prefixLength : UInt8) (candidate : IpAddr) :
    Option Bool :=
  match network, candidate with
  | .v4 network, .v4 candidate =>
      (networkMask 32 prefixLength).map fun mask =>
        network.bits &&& mask == candidate.bits &&& mask
  | .v6 network, .v6 candidate =>
      (networkMask 128 prefixLength).map fun mask =>
        network.bits &&& mask == candidate.bits &&& mask
  | _, _ => some false

/-- The loop over the indicators: the first that contains the address.
Source: `windows/lib.rs`, `ReputationFeed::classify` -/
def firstIndicator (address : IpAddr) :
    List ReputationIndicator → Option (Option ReputationIndicator)
  | [] => some none
  | indicator :: rest =>
      (networkContains indicator.network indicator.prefixLength address).bind fun contained =>
        if contained then some (some indicator) else firstIndicator address rest

/-- `IpAddr::is_loopback` -/
def isLoopback : IpAddr → Bool
  | .v4 value => value.isLoopback
  | .v6 value => value.isLoopback

/-- `IpAddr::is_unspecified` -/
def isUnspecified : IpAddr → Bool
  | .v4 value => value.isUnspecified
  | .v6 value => value.isUnspecified

/-- The address is private or link-local.
Source: `windows/lib.rs`, `ReputationFeed::classify` -/
def isPrivateOrLinkLocal : IpAddr → Bool
  | .v4 value => value.isPrivate || value.isLinkLocal
  | .v6 value => value.isUniqueLocal || value.isUnicastLinkLocal

/-- What is said of an address that no indicator contains.
Source: `windows/lib.rs`, `ReputationFeed::classify` -/
def classifyUnlisted (address : IpAddr) : String × String :=
  if isLoopback address then ("local", "Loopback address")
  else if isPrivateOrLinkLocal address then ("local", "Private or link-local address")
  else if isUnspecified address then ("local", "Unspecified/listening address")
  else ("unknown", "No match in the signed local reputation feed")

/-- The text before a scope. -/
def beforeScope (address : String) : String :=
  String.ofList (address.toList.takeWhile (· != '%'))

/-- Source: `windows/lib.rs`, `ReputationFeed::classify` -/
def ReputationFeed.classify (feed : ReputationFeed) (address : String) :
    Option (String × String) :=
  match parseIpAddr (beforeScope address) with
  | none => some ("unknown", "No remote IP address")
  | some address =>
      (firstIndicator address feed.indicators).map fun
        | some indicator =>
            (indicator.verdict, "Signed local reputation feed: " ++ indicator.label)
        | none => classifyUnlisted address

/-! ## Masks in range -/

section contains

variable {width : ℕ} {network candidate address : IpAddr} {prefixLength : UInt8}
  {indicators : List ReputationIndicator}

theorem toNat_maximumPrefix (network : IpAddr) :
    (maximumPrefix network).toNat = network.width := by
  cases network <;> rfl

/-- The mask of a prefix in range is computed without an overflow. -/
theorem networkMask_eq (h : prefixLength.toNat ≤ width) :
    networkMask width prefixLength = some (prefixMask width prefixLength.toNat) := by
  unfold networkMask prefixMask
  by_cases hzero : prefixLength = 0
  · rw [if_pos hzero, if_pos (by rw [hzero]; rfl)]
  · have hpos : prefixLength.toNat ≠ 0 := fun h => hzero (UInt8.toNat_inj.mp h)
    rw [if_neg hzero, if_neg hpos, if_neg (by omega)]
    dsimp only
    rw [if_neg (by omega)]

/-- Under the mask of a prefix in range two numbers are the same when their first bits are. -/
theorem map_networkMask (x y : BitVec width) (h : prefixLength.toNat ≤ width) :
    ((networkMask width prefixLength).map fun mask => x &&& mask == y &&& mask) =
      some (decide (∀ i < prefixLength.toNat, x.getMsbD i = y.getMsbD i)) := by
  rw [networkMask_eq h, Option.map_some, Option.some_inj, Bool.eq_iff_iff, beq_iff_eq,
    decide_eq_true_eq, and_prefixMask_eq_iff h]

/-- **An address is contained** when it is of the family and has the same first bits. -/
theorem networkContains_eq (h : prefixLength ≤ maximumPrefix network) :
    networkContains network prefixLength candidate =
      some (decide (InNetwork network prefixLength.toNat candidate)) := by
  have hle : prefixLength.toNat ≤ network.width :=
    toNat_maximumPrefix network ▸ UInt8.le_iff_toNat_le.mp h
  cases network with
  | v4 network =>
      cases candidate with
      | v4 candidate => exact map_networkMask network.bits candidate.bits hle
      | v6 candidate => rfl
  | v6 network =>
      cases candidate with
      | v4 candidate => rfl
      | v6 candidate => exact map_networkMask network.bits candidate.bits hle

/-- The indicator contains the address. -/
abbrev ReputationIndicator.Matches (indicator : ReputationIndicator) (address : IpAddr) : Prop :=
  InNetwork indicator.network indicator.prefixLength.toNat address

/-- The loop finds the first indicator that contains the address. -/
theorem firstIndicator_eq
    (h : ∀ indicator ∈ indicators, indicator.prefixLength ≤ maximumPrefix indicator.network) :
    firstIndicator address indicators =
      some (indicators.find? fun indicator => indicator.Matches address) := by
  induction indicators with
  | nil => rfl
  | cons indicator rest ih =>
      have hrest := ih fun other hother => h other (List.mem_cons_of_mem _ hother)
      rw [firstIndicator, networkContains_eq (h indicator List.mem_cons_self), Option.bind_some,
        List.find?_cons, hrest]
      by_cases hmatches : indicator.Matches address
      · rw [if_pos (decide_eq_true hmatches), decide_eq_true hmatches]
      · rw [if_neg (by simpa using hmatches), decide_eq_false hmatches]

end contains

/-! ## The indicators of a feed -/

/-- The indicator is what is kept of the entry. -/
structure Keeps (entry : ReputationEntry) (indicator : ReputationIndicator) : Prop where
  network : readNetwork entry.indicator = .ok (indicator.network, indicator.prefixLength)
  inRange : indicator.prefixLength ≤ maximumPrefix indicator.network
  verdict : indicator.verdict = normalizedVerdict entry.verdict
  label : indicator.label = if trim entry.label = "" then entry.indicator else entry.label

section feed

variable {parseJson : List UInt8 → Except String Json} {describe : DecodeError → String}
  {data : List UInt8} {feed : ReputationFeed} {entry : ReputationEntry}

theorem inRange_of_readNetwork {text : String} {network : IpAddr} {length : UInt8}
    (h : readNetwork text = .ok (network, length)) : length ≤ maximumPrefix network := by
  simp only [readNetwork, bind_eq_ok, ensure_eq_ok, pure_eq_ok, Prod.mk.injEq] at h
  obtain ⟨_, -, _, -, _, hle, rfl, rfl⟩ := h
  exact hle

theorem readEntry_eq_ok {result : Option ReputationIndicator} (h : readEntry entry = .ok result) :
    (isRated entry.verdict → ∃ indicator, result = some indicator ∧ Keeps entry indicator) ∧
      (isRated entry.verdict = false → result = none) := by
  by_cases hrated : isRated entry.verdict
  · rw [readEntry, if_pos hrated] at h
    obtain ⟨⟨network, length⟩, hnetwork, hresult⟩ := bind_eq_ok.mp h
    obtain rfl := Except.ok.inj hresult
    refine ⟨fun _ => ⟨_, rfl, hnetwork, inRange_of_readNetwork hnetwork, rfl, rfl⟩, fun h => ?_⟩
    exact absurd (hrated.symm.trans h) (by decide)
  · rw [readEntry, if_neg hrated] at h
    obtain rfl := Except.ok.inj h
    exact ⟨fun h => absurd h hrated, fun _ => rfl⟩

/-- The indicators are those of the rated entries, in their order. -/
theorem keeps_filterMap {entries : List ReputationEntry}
    {results : List (Option ReputationIndicator)}
    (h : List.Forall₂ (fun entry result => readEntry entry = .ok result) entries results) :
    List.Forall₂ Keeps (entries.filter fun entry => isRated entry.verdict)
      (results.filterMap id) := by
  induction h with
  | nil => exact .nil
  | @cons entry result entries results hread _ ih =>
      obtain ⟨hkept, hskipped⟩ := readEntry_eq_ok hread
      cases hrated : isRated entry.verdict with
      | true =>
          obtain ⟨indicator, rfl, hkeeps⟩ := hkept hrated
          rw [List.filter_cons, if_pos hrated, List.filterMap_cons_some (by rfl)]
          exact .cons hkeeps ih
      | false =>
          obtain rfl := hskipped hrated
          rw [List.filter_cons, if_neg (by simp [hrated]), List.filterMap_cons_none (by rfl)]
          exact ih

/-- **Every rated entry is kept**, in the order of the document and with its prefix in range. -/
theorem kept_fromJson (h : ReputationFeed.fromJson parseJson describe data = .ok feed) :
    ∃ json document, parseJson data = .ok json ∧ decodeReputationDocument json = .ok document ∧
      List.Forall₂ Keeps (document.entries.filter fun entry => isRated entry.verdict)
        feed.indicators := by
  simp only [ReputationFeed.fromJson, bind_eq_ok, mapError_eq_ok, pure_eq_ok] at h
  obtain ⟨json, hjson, document, hdocument, _, -, results, hresults, rfl⟩ := h
  exact ⟨json, document, hjson, hdocument, keeps_filterMap (mapM_eq_ok.mp hresults)⟩

/-- The prefixes of an accepted feed are in range. -/
theorem inRange_of_fromJson (h : ReputationFeed.fromJson parseJson describe data = .ok feed) :
    ∀ indicator ∈ feed.indicators, indicator.prefixLength ≤ maximumPrefix indicator.network := by
  obtain ⟨_, _, -, -, hkeeps⟩ := kept_fromJson h
  intro indicator hindicator
  obtain ⟨_, -, hkept⟩ := exists_of_forall₂ hkeeps.flip hindicator
  exact hkept.inRange

/-- What is said of an address: what its first indicator says, or else what it is. -/
def ReputationFeed.judge (feed : ReputationFeed) (address : IpAddr) : String × String :=
  match feed.indicators.find? fun indicator => indicator.Matches address with
  | some indicator => (indicator.verdict, "Signed local reputation feed: " ++ indicator.label)
  | none => classifyUnlisted address

/-- The classification by an accepted feed, without the arithmetic. -/
theorem classify_eq (h : ReputationFeed.fromJson parseJson describe data = .ok feed)
    (address : String) :
    feed.classify address = some
      (((parseIpAddr (beforeScope address)).map feed.judge).getD
        ("unknown", "No remote IP address")) := by
  unfold ReputationFeed.classify
  cases parseIpAddr (beforeScope address) with
  | none => rfl
  | some address =>
      dsimp only
      rw [firstIndicator_eq (inRange_of_fromJson h), Option.map_some]
      rfl

/-- An address on the machine or in its networks. -/
def isLocal (address : IpAddr) : Bool :=
  isLoopback address || isPrivateOrLinkLocal address || isUnspecified address

theorem fst_classifyUnlisted (address : IpAddr) :
    (classifyUnlisted address).1 = if isLocal address then "local" else "unknown" := by
  unfold classifyUnlisted isLocal
  cases isLoopback address <;> cases isPrivateOrLinkLocal address <;>
    cases isUnspecified address <;> rfl

/-- What the indicator says of the candidates: those of one family that agree on its first bits. -/
structure ExactFor (network : IpAddr) (prefixLength : UInt8) (candidate : IpAddr)
    (answer : Bool) : Prop where
  computed : networkContains network prefixLength candidate = some answer
  bits : answer ↔ InNetwork network prefixLength.toNat candidate
  shortest : prefixLength = 0 → (answer ↔ SameFamily network candidate)
  longest : prefixLength = maximumPrefix network → (answer ↔ candidate = network)
  hostBits : ∀ other, InNetwork network prefixLength.toNat other →
    networkContains other prefixLength candidate = some answer

theorem exactFor {network : IpAddr} {prefixLength : UInt8}
    (h : prefixLength ≤ maximumPrefix network) (candidate : IpAddr) :
    ExactFor network prefixLength candidate
      (decide (InNetwork network prefixLength.toNat candidate)) where
  computed := networkContains_eq h
  bits := decide_eq_true_iff
  shortest hzero := by
    rw [decide_eq_true_iff, hzero]
    exact inNetwork_zero_iff
  longest hmaximum := by
    rw [decide_eq_true_iff, hmaximum, toNat_maximumPrefix]
    exact inNetwork_width_iff
  hostBits other hother := by
    have hfamily : maximumPrefix other = maximumPrefix network := by
      cases network <;> cases other <;> first | rfl | exact hother.elim
    rw [networkContains_eq (hfamily ▸ h)]
    exact congrArg some (decide_eq_decide.mpr (inNetwork_congr hother).symm)

/-- **Feed matching is exact to the bit**: for an accepted feed the arithmetic never overflows, an
indicator contains the addresses of its family with the same first bits, an address has the verdict
of the first indicator that contains it, or else is local or unknown, and every rated entry is kept
with its prefix in range. -/
theorem classify_exact (h : ReputationFeed.fromJson parseJson describe data = .ok feed) :
    (∀ indicator ∈ feed.indicators, ∀ candidate, ∃ answer,
      ExactFor indicator.network indicator.prefixLength candidate answer) ∧
    (∀ address, (feed.classify address).isSome) ∧
    (∀ address, parseIpAddr (beforeScope address) = none →
      (feed.classify address).map Prod.fst = some "unknown") ∧
    (∀ address value, parseIpAddr (beforeScope address) = some value →
      (∀ before indicator after, feed.indicators = before ++ indicator :: after →
        (∀ other ∈ before, ¬other.Matches value) → indicator.Matches value →
          (feed.classify address).map Prod.fst = some indicator.verdict) ∧
      ((∀ indicator ∈ feed.indicators, ¬indicator.Matches value) →
        (feed.classify address).map Prod.fst =
          some (if isLocal value then "local" else "unknown"))) ∧
    ∃ json document, parseJson data = .ok json ∧ decodeReputationDocument json = .ok document ∧
      List.Forall₂ Keeps (document.entries.filter fun entry => isRated entry.verdict)
        feed.indicators := by
  refine ⟨?_, ?_, ?_, ?_, kept_fromJson h⟩
  · intro indicator hindicator candidate
    exact ⟨_, exactFor (inRange_of_fromJson h indicator hindicator) candidate⟩
  · intro address
    rw [classify_eq h]
    rfl
  · intro address hnone
    rw [classify_eq h, hnone]
    rfl
  · intro address value hvalue
    rw [classify_eq h, hvalue]
    constructor
    · intro before indicator after hindicators hbefore hmatches
      have hfind : (feed.indicators.find? fun indicator => indicator.Matches value) =
          some indicator := by
        refine List.find?_eq_some_iff_append.mpr ⟨decide_eq_true hmatches, before, after,
          hindicators, fun other hother => ?_⟩
        simpa using hbefore other hother
      simp [ReputationFeed.judge, hfind]
    · intro hnone
      have hfind : (feed.indicators.find? fun indicator => indicator.Matches value) = none :=
        List.find?_eq_none.mpr fun indicator hindicator => by simpa using hnone indicator hindicator
      simp [ReputationFeed.judge, hfind, fst_classifyUnlisted]

end feed

/-! ## A feed with one network -/

/-- The document of a feed with one network. -/
def networkDocument : Json :=
  .object [("schema", .int 1), ("version", .string "test"),
    ("entries", .array [.object [("indicator", .string "203.0.113.0/24"),
      ("verdict", .string "malicious"), ("label", .string "test range")]])]

/-- The feed with one network. -/
def networkFeed : ReputationFeed where
  version := "test"
  indicators := [⟨.v4 ⟨203, 0, 113, 0⟩, 24, "malicious", "test range"⟩]

theorem fromJson_networkDocument :
    ReputationFeed.fromJson (fun _ => .ok networkDocument) (fun _ => "") [] = .ok networkFeed := by
  decide

/-- `classify_exact` for an address of the network. -/
theorem classify_exact_network :
    (networkFeed.classify "203.0.113.42").map Prod.fst = some "malicious" := by
  have h := ((classify_exact fromJson_networkDocument).2.2.2.1 "203.0.113.42"
    (.v4 ⟨203, 0, 113, 42⟩) (by decide)).1
  exact h [] _ [] rfl (by simp) (by decide)

end OpenGuard.Windows
