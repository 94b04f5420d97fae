import OpenGuard.Lib.IpAddr
import OpenGuard.Lib.Table
import OpenGuard.Windows.Error

/-!
# Temporary firewall rules

The rules that are installed, by their names, and the two operations on them. What the system
tools answer is chosen by the environment: `netsh` adds a rule when it reports success, and deletes
one exactly when it works and a rule of the name is there.

* `blockRemoteAddress_ok`, `blockRemoteAddress_error`: what adding a rule leaves.
* `removeFirewallRule_ok`, `removeFirewallRule_error`: what removing one leaves;
  `removeFirewallRule_eq_ok_iff`: when it is removed.
-/

namespace OpenGuard.Windows

open OpenGuard.Lib

/-- What a rule blocks. -/
structure FirewallRule where
  remoteIp : String
  program : String
  deriving DecidableEq, Inhabited

/-- The installed rules, by their names. -/
abbrev Firewall := Table String FirewallRule

/-- Source: `response.rs`, `validate_rule_name` -/
def validateRuleName (value : String) : Except WindowsError Unit :=
  if startsWith value "OpenGuard Temporary Block " ∧ value.utf8ByteSize ≤ 120 ∧
      value.toList.all (fun c => c.isAlphanum || c == ' ' || c == '-' || c == '_') then
    .ok ()
  else .error (.api "invalid OpenGuard firewall rule name")

/-- Source: `response.rs`, `validate_firewall_scope` -/
def validateFirewallScope (address program : String) : Except WindowsError Unit :=
  if (parseIpAddr (String.ofList (address.toList.takeWhile (· != '%')))).isNone then
    .error (.api "remote address is not a valid IP address")
  else if !isAbsolutePath program ∨ program = "" ∨ 32767 < program.utf8ByteSize ∨
      program.toList.any (fun c => c == '\x00' || c == '\r' || c == '\n') then
    .error (.api "an absolute executable path is required for an application-scoped block")
  else .ok ()

/-- What the system answers while a rule is added: the image of the process, the canonical paths
of the files that exist, and the failure of `netsh`, if it fails. -/
structure BlockTools where
  processImagePath : UInt32 → Except WindowsError String
  canonicalize : String → Option String
  netsh : Option String

/-- Source: `response.rs`, `same_path` -/
def samePath (canonicalize : String → Option String) (left right : String) : Bool :=
  let normalize := fun value => toAsciiLowercase
    (trimStartMatches (replaceChar ((canonicalize value).getD value) '/' '\\') "\\\\?\\")
  normalize left == normalize right

/-- The checks before a rule is added, with the image path they find.
Source: `response.rs`, `block_remote_address` -/
def checkBlock (tools : BlockTools) (ruleName address : String) (pid : UInt32)
    (expectedPath : String) : Except WindowsError String := do
  validateFirewallScope address expectedPath
  let actualPath ← tools.processImagePath pid
  if !samePath tools.canonicalize actualPath expectedPath then
    throw (.api "process identity changed before applying the network block")
  validateRuleName ruleName
  return actualPath

/-- Source: `response.rs`, `block_remote_address` -/
def blockRemoteAddress (tools : BlockTools) (ruleName address : String) (pid : UInt32)
    (expectedPath : String) (firewall : Firewall) : Except WindowsError Unit × Firewall :=
  match checkBlock tools ruleName address pid expectedPath with
  | .error error => (.error error, firewall)
  | .ok actualPath =>
      match tools.netsh with
      | some detail => (.error (.api ("add temporary firewall rule: " ++ detail)), firewall)
      | none => (.ok (), firewall.insert ruleName ⟨address, actualPath⟩)

/-- Source: `response.rs`, `remove_firewall_rule` -/
def removeFirewallRule (netsh : Option String) (ruleName : String) (firewall : Firewall) :
    Except WindowsError Unit × Firewall :=
  match validateRuleName ruleName with
  | .error error => (.error error, firewall)
  | .ok () =>
      match netsh with
      | some detail => (.error (.api ("remove temporary firewall rule: " ++ detail)), firewall)
      | none =>
          if ruleName ∈ firewall then (.ok (), firewall.erase ruleName)
          else
            (.error (.api "remove temporary firewall rule: No rules match the specified criteria."),
              firewall)

/-! ## What the operations do -/

section operations

variable {tools : BlockTools} {netsh : Option String} {ruleName address expectedPath : String}
  {pid : UInt32} {firewall after : Firewall} {error : WindowsError}

/-- The checks only let valid names through. -/
theorem validateRuleName_of_checkBlock {actualPath : String}
    (h : checkBlock tools ruleName address pid expectedPath = .ok actualPath) :
    validateRuleName ruleName = .ok () := by
  unfold checkBlock at h
  cases hscope : validateFirewallScope address expectedPath with
  | error error => simp [hscope, bind, Except.bind] at h
  | ok _ =>
      cases hpath : tools.processImagePath pid with
      | error error => simp [hscope, hpath, bind, Except.bind] at h
      | ok path =>
          by_cases hsame : samePath tools.canonicalize path expectedPath
          · cases hname : validateRuleName ruleName with
            | ok _ => rfl
            | error error =>
                simp [hscope, hpath, hsame, hname, bind, Except.bind] at h
          · simp [hscope, hpath, hsame, bind, Except.bind, throw, throwThe,
              MonadExceptOf.throw] at h

/-- A rule that is added has a valid name. -/
theorem blockRemoteAddress_ok
    (h : blockRemoteAddress tools ruleName address pid expectedPath firewall = (.ok (), after)) :
    validateRuleName ruleName = .ok () ∧ ∃ rule, after = firewall.insert ruleName rule := by
  unfold blockRemoteAddress at h
  cases hcheck : checkBlock tools ruleName address pid expectedPath with
  | error error => simp [hcheck] at h
  | ok actualPath =>
      cases hnetsh : tools.netsh with
      | some detail => simp [hcheck, hnetsh] at h
      | none =>
          rw [hcheck, hnetsh] at h
          exact ⟨validateRuleName_of_checkBlock hcheck, _, (Prod.mk.inj h).2.symm⟩

/-- A failed addition installs nothing. -/
theorem blockRemoteAddress_error
    (h : blockRemoteAddress tools ruleName address pid expectedPath firewall =
      (.error error, after)) : after = firewall := by
  unfold blockRemoteAddress at h
  cases hcheck : checkBlock tools ruleName address pid expectedPath with
  | error error => exact (Prod.mk.inj (hcheck ▸ h)).2.symm
  | ok actualPath =>
      cases hnetsh : tools.netsh with
      | some detail =>
          rw [hcheck, hnetsh] at h
          exact (Prod.mk.inj h).2.symm
      | none => simp [hcheck, hnetsh] at h

/-- A rule is removed when the tool works, the name is valid, and the rule is there. -/
theorem removeFirewallRule_eq_ok_iff :
    (∃ after, removeFirewallRule netsh ruleName firewall = (.ok (), after)) ↔
      validateRuleName ruleName = .ok () ∧ netsh = none ∧ ruleName ∈ firewall := by
  unfold removeFirewallRule
  cases validateRuleName ruleName with
  | error error => simp
  | ok _ =>
      cases netsh with
      | some detail => simp
      | none => by_cases hmem : ruleName ∈ firewall <;> simp [hmem]

/-- A removal takes away the named rule, which was there. -/
theorem removeFirewallRule_ok
    (h : removeFirewallRule netsh ruleName firewall = (.ok (), after)) :
    ruleName ∈ firewall ∧ after = firewall.erase ruleName := by
  obtain ⟨hname, hnetsh, hmem⟩ := removeFirewallRule_eq_ok_iff.mp ⟨after, h⟩
  unfold removeFirewallRule at h
  rw [hname, hnetsh] at h
  dsimp only at h
  rw [if_pos hmem] at h
  exact ⟨hmem, (Prod.mk.inj h).2.symm⟩

/-- A failed removal takes away nothing. -/
theorem removeFirewallRule_error
    (h : removeFirewallRule netsh ruleName firewall = (.error error, after)) :
    after = firewall := by
  unfold removeFirewallRule at h
  cases hname : validateRuleName ruleName with
  | error error => exact (Prod.mk.inj (hname ▸ h)).2.symm
  | ok _ =>
      cases hnetsh : netsh with
      | some detail =>
          rw [hname, hnetsh] at h
          exact (Prod.mk.inj h).2.symm
      | none =>
          rw [hname, hnetsh] at h
          by_cases hmem : ruleName ∈ firewall
          · simp [hmem] at h
          · dsimp only at h
            rw [if_neg hmem] at h
            exact (Prod.mk.inj h).2.symm

end operations

end OpenGuard.Windows
