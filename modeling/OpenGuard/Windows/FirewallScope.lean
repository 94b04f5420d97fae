import OpenGuard.Lib.IpText
import OpenGuard.Windows.Classification
import OpenGuard.Windows.Firewall

/-!
# The scope of a firewall rule

Only what stands before a percent sign of an address is validated, and the whole of it is passed to
`netsh`, whose argument is a list of items.

* `readRemoteIp`: the items that `netsh` reads.
* `namesOneAddress_iff`: **the argument names the validated address alone** exactly when the address
  has a numeric scope, or none.
-/

namespace OpenGuard.Windows

open OpenGuard.Lib

/-! ## The argument as it is read -/

/-- One item of the argument `remoteip`. -/
inductive RemoteItem where
  | address (address : IpAddr)
  | range (first last : IpAddr)
  | network (address : IpAddr) (length : UInt32)
  | any
  | localSubnet
  deriving DecidableEq

/-- An address, with a numeric scope or without one. -/
def readScoped (text : String) : Option IpAddr :=
  match splitOnce '%' text with
  | (before, none) => parseIpAddr before
  | (before, some scope) =>
      if scope ≠ "" ∧ scope.toList.all Char.isDigit then parseIpAddr before else none

/-- An item: an address, a keyword, a range or a network. -/
def readItem (text : String) : Option RemoteItem :=
  match readScoped text with
  | some address => some (.address address)
  | none =>
      if eqIgnoreAsciiCase text "any" then some .any
      else if eqIgnoreAsciiCase text "localsubnet" then some .localSubnet
      else
        match splitOnce '-' text, splitOnce '/' text with
        | (first, some last), _ => do return .range (← readScoped first) (← readScoped last)
        | _, (address, some length) => do
            return .network (← readScoped address) (← parseU32 length)
        | _, _ => none

/-- The items between the commas. -/
def readRemoteIp (text : String) : Option (List RemoteItem) :=
  ((text.toList.splitOnP (· == ',')).map String.ofList).mapM readItem

/-- The arguments of `netsh`.
Source: `response.rs`, `block_remote_address` -/
def blockArguments (ruleName address actualPath : String) : List String :=
  ["advfirewall", "firewall", "add", "rule", "name=" ++ ruleName, "dir=out", "action=block",
    "remoteip=" ++ address, "enable=yes", "profile=any", "interfacetype=any",
    "program=" ++ actualPath]

/-- The items of the argument `remoteip`. -/
def blockedItems (arguments : List String) : Option (List RemoteItem) :=
  (arguments.findSome? (stripPrefix · "remoteip=")).bind readRemoteIp

/-! ## One address -/

/-- The arguments name the address that was validated, and it alone. -/
def NamesOneAddress (arguments : List String) (address : String) : Prop :=
  ∃ value, parseIpAddr (beforeScope address) = some value ∧
    blockedItems arguments = some [.address value] ∧
      ∀ c ∈ address.toList, c ≠ ',' ∧ c ≠ '-' ∧ c ≠ '/' ∧ isWhitespace c = false

/-- What follows the first percent sign, if there is one, are digits. -/
def NumericScope (address : String) : Prop :=
  ∀ scope, (splitOnce '%' address).2 = some scope → scope ≠ "" ∧ scope.toList.all Char.isDigit

section scope

variable {address program ruleName actualPath text : String} {value : IpAddr}

theorem fst_splitOnce (c : Char) (text : String) :
    (splitOnce c text).1 = String.ofList (text.toList.takeWhile (· ≠ c)) := by
  unfold splitOnce
  dsimp only
  split
  · next h =>
      have htake := List.takeWhile_prefix (l := text.toList) fun x => decide (x ≠ c)
      have hwhole : text.toList.takeWhile (fun x => decide (x ≠ c)) = text.toList := by
        refine htake.eq_of_length_le ?_
        exact List.drop_eq_nil_iff.mp h
      rw [hwhole, String.ofList_toList]
  · rfl

theorem beforeScope_eq (address : String) : beforeScope address = (splitOnce '%' address).1 := by
  rw [fst_splitOnce, beforeScope]
  congr 2
  funext c
  simp [bne, Bool.beq_eq_decide_eq]

/-- A text is read as one address when the part before a numeric scope is one. -/
theorem readScoped_eq_some_iff :
    readScoped text = some value ↔
      NumericScope text ∧ parseIpAddr (beforeScope text) = some value := by
  rw [beforeScope_eq]
  unfold readScoped NumericScope
  rcases splitOnce '%' text with ⟨before, _ | scope⟩
  · simp
  · by_cases hscope : scope ≠ "" ∧ scope.toList.all Char.isDigit
    · simp only [if_pos hscope]
      exact ⟨fun h => ⟨fun _ heq => Option.some.inj heq ▸ hscope, h⟩, And.right⟩
    · simp only [if_neg hscope, reduceCtorEq, false_iff]
      exact fun h => hscope (h.1 scope rfl)

/-- Only an address is read as one. -/
theorem readItem_eq_address_iff :
    readItem text = some (.address value) ↔ readScoped text = some value := by
  unfold readItem
  cases hscoped : readScoped text with
  | some address => simp
  | none =>
      simp only [reduceCtorEq, iff_false]
      split_ifs
      · simp
      · simp
      · split <;> simp [Option.bind_eq_some_iff]

/-- A text is what stands before a character, and the rest after it. -/
theorem toList_splitOnce (c : Char) (text : String) :
    (∃ rest, (splitOnce c text).2 = some rest ∧
      text.toList = (splitOnce c text).1.toList ++ c :: rest.toList) ∨
      (splitOnce c text).2 = none ∧ (splitOnce c text).1 = text := by
  unfold splitOnce
  dsimp only
  split
  · exact Or.inr ⟨rfl, rfl⟩
  · next d rest h =>
      refine Or.inl ⟨_, rfl, ?_⟩
      have hsplit := List.takeWhile_append_dropWhile (p := fun x => decide (x ≠ c))
        (l := text.toList)
      have hstands := List.prefix_iff_eq_append.mp
        (List.takeWhile_prefix (l := text.toList) fun x => decide (x ≠ c))
      rw [h] at hstands
      have hdrop := List.append_cancel_left (hsplit.trans hstands.symm)
      have hd : d = c := by
        have hhead := List.head?_dropWhile_not (fun x => decide (x ≠ c)) text.toList
        rw [hdrop] at hhead
        simpa using hhead
      rw [hd] at hstands
      rw [String.toList_ofList, String.toList_ofList]
      exact hstands.symm

/-- The characters of an address with a numeric scope, or without one. -/
theorem char_of_numericScope (hvalue : parseIpAddr (beforeScope address) = some value)
    (hscope : NumericScope address) {c : Char} (hc : c ∈ address.toList) :
    isAddressChar c ∨ c = '%' ∨ c.isDigit := by
  have hbefore := isAddressChar_of_parseIpAddr hvalue
  rw [beforeScope_eq] at hbefore
  rcases toList_splitOnce '%' address with ⟨rest, hrest, htext⟩ | ⟨-, hwhole⟩
  · rw [htext] at hc
    rcases List.mem_append.mp hc with hfirst | hsecond
    · exact Or.inl (hbefore c hfirst)
    · rcases List.mem_cons.mp hsecond with rfl | hdigit
      · exact Or.inr (Or.inl rfl)
      · exact Or.inr (Or.inr (List.all_eq_true.mp (hscope rest hrest).2 c hdigit))
  · rw [hwhole] at hbefore
    exact Or.inl (hbefore c hc)

/-- What one item was read of is the whole text. -/
theorem readItem_of_readRemoteIp {item : RemoteItem} (h : readRemoteIp text = some [item]) :
    readItem text = some item := by
  unfold readRemoteIp at h
  by_cases hcomma : ',' ∈ text.toList
  · obtain ⟨before, after, htext, hbefore⟩ := List.eq_append_cons_of_mem hcomma
    have hparts : text.toList.splitOnP (· == ',') = before :: after.splitOnP (· == ',') := by
      rw [htext]
      refine List.splitOnP_append_cons_of_forall_mem (fun c hc => ?_) ',' rfl after
      exact beq_eq_false_iff_ne.mpr fun heq => hbefore (heq ▸ hc)
    obtain ⟨next, others, hnext⟩ := List.exists_cons_of_ne_nil
      (List.splitOnP_ne_nil (· == ',') after)
    rw [hparts, hnext] at h
    simp [Option.bind_eq_some_iff] at h
  · have hwhole : text.toList.splitOnP (· == ',') = [text.toList] :=
      List.splitOnP_eq_singleton fun c hc =>
        beq_eq_false_iff_ne.mpr fun heq => hcomma (heq ▸ hc)
    rw [hwhole] at h
    simpa [Option.bind_eq_some_iff] using h

theorem readRemoteIp_of_readItem {item : RemoteItem} (hcomma : ',' ∉ text.toList)
    (h : readItem text = some item) : readRemoteIp text = some [item] := by
  have hwhole : text.toList.splitOnP (· == ',') = [text.toList] :=
    List.splitOnP_eq_singleton fun c hc => beq_eq_false_iff_ne.mpr fun heq => hcomma (heq ▸ hc)
  simp [readRemoteIp, hwhole, h]

/-- None of these characters separates, ranges or is white. -/
theorem char_of_address {c : Char} (h : isAddressChar c ∨ c = '%' ∨ c.isDigit) :
    c ≠ ',' ∧ c ≠ '-' ∧ c ≠ '/' ∧ isWhitespace c = false := by
  have hrange : (48 ≤ c.toNat ∧ c.toNat ≤ 58) ∨ (65 ≤ c.toNat ∧ c.toNat ≤ 90) ∨
      (97 ≤ c.toNat ∧ c.toNat ≤ 122) ∨ c.toNat = 37 ∨ c.toNat = 46 := by
    rcases h with haddress | rfl | hdigit
    · simp only [isAddressChar, Bool.or_eq_true, beq_iff_eq] at haddress
      rcases haddress with (hhex | rfl) | rfl
      · unfold toDigit at hhex
        simp only [Char.le_def, UInt32.le_iff_toNat_le] at hhex
        split_ifs at hhex with hdecimal hlower hupper
        · exact Or.inl ⟨hdecimal.1, hdecimal.2.trans (by decide)⟩
        · exact Or.inr (Or.inr (Or.inl hlower))
        · exact Or.inr (Or.inl hupper)
        · simp at hhex
      · decide
      · decide
    · decide
    · obtain ⟨hlow, hhigh⟩ := Char.isDigit_iff_toNat.mp hdigit
      exact Or.inl ⟨hlow, hhigh.trans (by decide)⟩
  have hne {d : Char} (hd : c.toNat ≠ d.toNat) : c ≠ d := fun heq => hd (heq ▸ rfl)
  refine ⟨hne ?_, hne ?_, hne ?_, ?_⟩
  · simp only [show ','.toNat = 44 from rfl]
    omega
  · simp only [show '-'.toNat = 45 from rfl]
    omega
  · simp only [show '/'.toNat = 47 from rfl]
    omega
  · simp only [isWhitespace, Bool.or_eq_false_iff, Bool.and_eq_false_iff, decide_eq_false_iff_not,
      beq_eq_false_iff_ne]
    omega

/-- The argument `remoteip` is the address. -/
theorem blockedItems_blockArguments :
    blockedItems (blockArguments ruleName address actualPath) = readRemoteIp address := by
  have hname : stripPrefix ("name=" ++ ruleName) "remoteip=" = none := by
    have hstarts : startsWith ("name=" ++ ruleName) "remoteip=" = false := by
      rw [startsWith, String.toList_append]
      rfl
    rw [stripPrefix, hstarts]
    rfl
  have hremote : stripPrefix ("remoteip=" ++ address) "remoteip=" = some address := by
    have hstarts : startsWith ("remoteip=" ++ address) "remoteip=" := by
      rw [startsWith, String.toList_append, List.isPrefixOf_iff_prefix]
      exact List.prefix_append _ _
    rw [stripPrefix, if_pos hstarts, String.toList_append, List.drop_left, String.ofList_toList]
  have hfind : (blockArguments ruleName address actualPath).findSome? (stripPrefix · "remoteip=") =
      some address := by
    unfold blockArguments
    iterate 4 rw [List.findSome?_cons_of_isNone (by decide)]
    rw [List.findSome?_cons_of_isNone (by rw [hname]; rfl)]
    iterate 2 rw [List.findSome?_cons_of_isNone (by decide)]
    rw [List.findSome?_cons, hremote]
  rw [blockedItems, hfind, Option.bind_some]

/-- **A block names one address**, the validated one, exactly when what follows a percent sign in
the address, if there is one, are digits. -/
theorem namesOneAddress_iff (h : validateFirewallScope address program = .ok ()) :
    NamesOneAddress (blockArguments ruleName address actualPath) address ↔
      NumericScope address := by
  have hparsed : ∃ value, parseIpAddr (beforeScope address) = some value := by
    unfold validateFirewallScope at h
    split_ifs at h with hnone
    exact Option.ne_none_iff_exists'.mp fun heq => hnone (Option.isNone_iff_eq_none.mpr heq)
  obtain ⟨value, hvalue⟩ := hparsed
  unfold NamesOneAddress
  rw [blockedItems_blockArguments]
  constructor
  · rintro ⟨other, -, hitems, -⟩
    exact (readScoped_eq_some_iff.mp
      (readItem_eq_address_iff.mp (readItem_of_readRemoteIp hitems))).1
  · intro hscope
    have hchar {c : Char} (hc : c ∈ address.toList) :
        c ≠ ',' ∧ c ≠ '-' ∧ c ≠ '/' ∧ isWhitespace c = false :=
      char_of_address (char_of_numericScope hvalue hscope hc)
    refine ⟨value, hvalue, readRemoteIp_of_readItem (fun hc => (hchar hc).1 rfl) ?_,
      fun c => hchar⟩
    exact readItem_eq_address_iff.mpr (readScoped_eq_some_iff.mpr ⟨hscope, hvalue⟩)

end scope

/-- The rule of an address without a scope names it. -/
theorem namesOneAddress_plain :
    validateFirewallScope "8.8.8.8" "C:\\Tools\\agent.exe" = .ok () ∧
      NamesOneAddress (blockArguments "OpenGuard" "8.8.8.8" "C:\\Tools\\agent.exe") "8.8.8.8" := by
  have haccepted : validateFirewallScope "8.8.8.8" "C:\\Tools\\agent.exe" = .ok () := by decide
  refine ⟨haccepted, (namesOneAddress_iff haccepted).mpr fun scope hscope => ?_⟩
  have hnone : (splitOnce '%' "8.8.8.8").2 = none := by decide
  rw [hnone] at hscope
  exact absurd hscope (Option.some_ne_none scope).symm

/-- The rule of an address with a network in its scope names that too. -/
theorem scopedNetwork_not_namesOneAddress :
    ¬ ∀ ruleName address program actualPath,
      validateFirewallScope address program = .ok () →
        NamesOneAddress (blockArguments ruleName address actualPath) address := by
  intro h
  obtain ⟨value, -, -, hchars⟩ :=
    h "OpenGuard" "8.8.8.8%,0.0.0.0/0" "C:\\Tools\\agent.exe" "C:\\Tools\\agent.exe" (by decide)
  exact (hchars ',' (by decide)).1 rfl

end OpenGuard.Windows
