import OpenGuard.Lib.FileTree

/-!
# Scanners

A scanner is known by the rule sources that it was compiled from. What the rule compiler says of a
source, after the sources it has taken, is left open.

* `withRuleSources_rules`: a scanner has the rules of all its sources, in order.
-/

namespace OpenGuard.Detection

open OpenGuard.Lib

/-- Source: `scan.rs`, `ScanError` -/
inductive ScanError where
  | tooLarge (maximum : ℕ)
  | cancelled
  | notAFile (path : String)
  | ruleCompilation (message : String)
  | ruleScan (message : String)
  | io (error : IoError)
  deriving DecidableEq, Inhabited

/-- The text `Display` gives an error.
Source: `scan.rs`, `ScanError` -/
def ScanError.display (ioText : IoError → String) : ScanError → String
  | .tooLarge maximum => "file exceeds the configured " ++ toString maximum ++ " byte limit"
  | .cancelled => "scan cancelled"
  | .notAFile path => "target is not a regular file: " ++ path
  | .ruleCompilation message => "YARA-X rule compilation failed: " ++ message
  | .ruleScan message => "YARA-X scan failed: " ++ message
  | .io error => "file I/O error: " ++ ioText error

/-- The sources that a rule compiler has taken. -/
structure Compiler where
  added : List String
  deriving DecidableEq, Inhabited

/-- Source: `scan.rs`, `DEFAULT_MAXIMUM_BYTES` -/
def defaultMaximumBytes : ℕ := 8 * 1024 * 1024 * 1024

/-- Source: `scan.rs`, `FileScanner` -/
structure FileScanner where
  rules : List String
  knownHashes : List (String × String)
  maximumBytes : ℕ
  deriving DecidableEq, Inhabited

/-- `Compiler::add_source` -/
def Compiler.addSource (check : List String → String → Except String Unit) (compiler : Compiler)
    (source : String) : Except String Compiler :=
  (check compiler.added source).map fun _ => ⟨compiler.added ++ [source]⟩

/-- Source: `scan.rs`, `FileScanner::with_rule_sources` -/
def FileScanner.withRuleSources (check : List String → String → Except String Unit)
    (sources : List String) : Except ScanError FileScanner :=
  match sources.foldlM (Compiler.addSource check) ⟨[]⟩ with
  | .error error => .error (.ruleCompilation error)
  | .ok compiler =>
      .ok
        { rules := compiler.added
          knownHashes :=
            [("275a021bbfb6489e54d471899f7db9d1663fc695ec2fe2a2c4538aabf651fd0f",
              "EICAR-Test-File")]
          maximumBytes := defaultMaximumBytes }

section sources

variable {check : List String → String → Except String Unit} {sources : List String}

/-- A compiler takes every source. -/
theorem foldlM_addSource {compiler after : Compiler}
    (h : sources.foldlM (Compiler.addSource check) compiler = .ok after) :
    after.added = compiler.added ++ sources := by
  induction sources generalizing compiler with
  | nil =>
      rw [← Except.ok.inj h, List.append_nil]
  | cons source sources ih =>
      rw [List.foldlM_cons, Compiler.addSource] at h
      cases hcheck : check compiler.added source with
      | error error =>
          rw [hcheck] at h
          cases h
      | ok accepted =>
          rw [hcheck] at h
          rw [ih h, List.append_assoc, List.singleton_append]

/-- A scanner has the rules of all its sources. -/
theorem withRuleSources_rules {scanner : FileScanner}
    (h : FileScanner.withRuleSources check sources = .ok scanner) : scanner.rules = sources := by
  unfold FileScanner.withRuleSources at h
  split at h
  · cases h
  · next compiler hcompiler =>
      rw [← Except.ok.inj h]
      exact (foldlM_addSource hcompiler).trans (List.nil_append sources)

end sources

end OpenGuard.Detection
