import Mathlib.Algebra.BigOperators.Group.List.Basic
import Mathlib.Algebra.Order.BigOperators.Group.List
import Mathlib.Algebra.Order.Group.Nat
import Mathlib.Data.List.Induction
import OpenGuard.Lib.Machine

/-!
# The memory of a process

The inspection walks through the address space of a process, region by region, and counts those that
are committed, private and executable. It asks where the next region is from the size of the last one,
at most 65,536 times, while the process goes on and changes its memory.

* `inspection_visits`: whatever the process does meanwhile, the counts are those of the regions that
  were visited, one behind the other, and the status says why the walk ended.
* `inspection_of_map`: for memory that stays as it is, the counts are exact below 65,536 regions. With
  just that many the inspection has seen all, and says that it was cut.
-/

namespace OpenGuard.Windows

open OpenGuard.Lib

/-! ## The walk -/

/-- What the system says of a region.
Source: `memory.rs`, `inspect_process_memory` -/
structure MemoryRegion where
  regionSize : ℕ
  state : UInt32
  kind : UInt32
  protect : UInt32
  deriving DecidableEq

namespace MemoryRegion

/-- `PAGE_EXECUTE_READWRITE` -/
def pageExecuteReadwrite : UInt32 := 0x40

/-- `PAGE_EXECUTE`, `PAGE_EXECUTE_READ`, `PAGE_EXECUTE_READWRITE` and `PAGE_EXECUTE_WRITECOPY`, without
any modifier.
Source: `memory.rs`, `inspect_process_memory` -/
def executable (region : MemoryRegion) : Bool :=
  region.protect == 0x10 || region.protect == 0x20 || region.protect == pageExecuteReadwrite ||
    region.protect == 0x80

/-- Neither `PAGE_GUARD` nor `PAGE_NOACCESS`.
Source: `memory.rs`, `inspect_process_memory` -/
def inspectable (region : MemoryRegion) : Bool :=
  region.protect &&& 0x100 != 0x100 && region.protect != 0x01

/-- `MEM_COMMIT` and `MEM_PRIVATE`, and executable.
Source: `memory.rs`, `inspect_process_memory` -/
def privateExecutable (region : MemoryRegion) : Bool :=
  region.state == 0x1000 && region.kind == 0x20000 && region.executable && region.inspectable

/-- Source: `memory.rs`, `inspect_process_memory` -/
def writableExecutable (region : MemoryRegion) : Bool :=
  region.privateExecutable && region.protect == pageExecuteReadwrite

end MemoryRegion

/-- Source: `memory.rs`, `MemoryInspection` -/
@[ext] structure MemoryInspection where
  pid : UInt32
  status : String
  regionsExamined : ℕ
  privateExecutableRegions : ℕ
  privateExecutableBytes : ℕ
  writableExecutableRegions : ℕ
  writableExecutableBytes : ℕ
  truncated : Bool
  deriving DecidableEq

/-- Source: `memory.rs`, `MAXIMUM_REGIONS` -/
def maximumRegions : ℕ := 65536

/-- What `VirtualQueryEx` answers the call that comes after so many others, for an address. -/
abbrev MemoryQuery := ℕ → ℕ → Option MemoryRegion

namespace MemoryInspection

/-- Source: `memory.rs`, `inspect_process_memory` -/
def begin (pid : UInt32) : MemoryInspection := ⟨pid, "complete", 0, 0, 0, 0, 0, false⟩

/-- A region is counted.
Source: `memory.rs`, `inspect_process_memory` -/
def count (region : MemoryRegion) (result : MemoryInspection) : MemoryInspection :=
  let result :=
    { result with regionsExamined := saturatingAddSize 32 result.regionsExamined 1 }
  if region.privateExecutable then
    let result := { result with
      privateExecutableRegions := saturatingAddSize 32 result.privateExecutableRegions 1
      privateExecutableBytes :=
        saturatingAddSize 64 result.privateExecutableBytes region.regionSize }
    if region.protect = MemoryRegion.pageExecuteReadwrite then
      { result with
        writableExecutableRegions := saturatingAddSize 32 result.writableExecutableRegions 1
        writableExecutableBytes :=
          saturatingAddSize 64 result.writableExecutableBytes region.regionSize }
    else result
  else result

/-- The loop, with the calls that are left to make.
Source: `memory.rs`, `inspect_process_memory` -/
def walk (query : MemoryQuery) : ℕ → ℕ → MemoryInspection → MemoryInspection
  | 0, _, result => { result with truncated := true, status := "region_limit" }
  | left + 1, address, result =>
      match query result.regionsExamined address with
      | none => result
      | some region =>
          let result := result.count region
          match addSize 64 address region.regionSize with
          | none => { result with status := "address_overflow" }
          | some next =>
              if next ≤ address then { result with status := "non_progressing_region" }
              else walk query left next result

end MemoryInspection

/-- The inspection of a process, if it can be opened.
Source: `memory.rs`, `inspect_process_memory` -/
def inspectProcessMemory (pid : UInt32) (opened : Except String Unit) (query : MemoryQuery) :
    Except String MemoryInspection :=
  match opened with
  | .error error => .error ("OpenProcess(" ++ toString pid.toNat ++ ") failed: " ++ error)
  | .ok () => .ok ((MemoryInspection.begin pid).walk query maximumRegions 0)

/-! ## What was visited -/

/-- The bytes of some regions, one behind the other. -/
def extent (regions : List MemoryRegion) : ℕ := (regions.map MemoryRegion.regionSize).sum

/-- The counts are those of the regions, each of which was found where the one before it ended. -/
structure Walked (query : MemoryQuery) (pid : UInt32) (visited : List MemoryRegion)
    (result : MemoryInspection) : Prop where
  found : ∀ before region, before ++ [region] <+: visited →
    query before.length (extent before) = some region
  pid_eq : result.pid = pid
  examined : result.regionsExamined = visited.length
  bounded : visited.length ≤ maximumRegions
  regions : result.privateExecutableRegions = visited.countP MemoryRegion.privateExecutable
  bytes : result.privateExecutableBytes =
    min (extent (visited.filter MemoryRegion.privateExecutable)) (2 ^ 64 - 1)
  writableRegions : result.writableExecutableRegions =
    visited.countP MemoryRegion.writableExecutable
  writableBytes : result.writableExecutableBytes =
    min (extent (visited.filter MemoryRegion.writableExecutable)) (2 ^ 64 - 1)

/-- Why the walk ended. -/
inductive WalkEnded (query : MemoryQuery) (visited : List MemoryRegion) (result : MemoryInspection) : Prop
  | complete (hstatus : result.status = "complete") (hcut : result.truncated = false)
      (hend : query visited.length (extent visited) = none)
      (hlength : visited.length < maximumRegions) (hextent : extent visited < 2 ^ 64)
  | limit (hstatus : result.status = "region_limit") (hcut : result.truncated = true)
      (hlength : visited.length = maximumRegions) (hextent : extent visited < 2 ^ 64)
  | overflow (hstatus : result.status = "address_overflow") (hcut : result.truncated = false)
      (hextent : 2 ^ 64 ≤ extent visited)
  | stuck (hstatus : result.status = "non_progressing_region") (hcut : result.truncated = false)
      (before : List MemoryRegion) (region : MemoryRegion) (hlast : visited = before ++ [region])
      (hzero : region.regionSize = 0)

section walked

variable {query : MemoryQuery} {pid : UInt32} {visited : List MemoryRegion} {region : MemoryRegion}
  {result : MemoryInspection}

theorem extent_append (first second : List MemoryRegion) :
    extent (first ++ second) = extent first + extent second := by
  simp [extent]

@[simp] theorem extent_singleton : extent [region] = region.regionSize := by simp [extent]

theorem extent_filter_le (p : MemoryRegion → Bool) (regions : List MemoryRegion) :
    extent (regions.filter p) ≤ extent regions :=
  (List.filter_sublist.map MemoryRegion.regionSize).sum_le_sum fun _ _ => Nat.zero_le _

/-- A count of regions is far from the largest one. -/
theorem saturatingAddSize_one {count : ℕ} (h : count < maximumRegions) :
    saturatingAddSize 32 count 1 = count + 1 := by
  unfold maximumRegions at h
  unfold saturatingAddSize
  omega

theorem countP_lt {p : MemoryRegion → Bool} (h : visited.length < maximumRegions) :
    visited.countP p < maximumRegions := List.countP_le_length.trans_lt h

/-- Saturating twice is saturating once. -/
theorem saturatingAddSize_min (a b : ℕ) :
    saturatingAddSize 64 (min a (2 ^ 64 - 1)) b = min (a + b) (2 ^ 64 - 1) := by
  unfold saturatingAddSize
  omega

theorem Walked.count (h : Walked query pid visited result)
    (hfound : query visited.length (extent visited) = some region)
    (hroom : visited.length < maximumRegions) :
    Walked query pid (visited ++ [region]) (result.count region) := by
  obtain ⟨hbefore, rfl, hexamined, -, hregions, hbytes, hwritable, hwritableBytes⟩ := h
  have hlength : saturatingAddSize 32 visited.length 1 = visited.length + 1 :=
    saturatingAddSize_one hroom
  have hall : ∀ before other, before ++ [other] <+: visited ++ [region] →
      query before.length (extent before) = some other := by
    intro before other hfirst
    rcases List.prefix_concat_iff.mp hfirst with heq | hfirst
    · obtain ⟨rfl, hsame⟩ := List.append_inj' heq rfl
      obtain rfl := List.singleton_inj.mp hsame
      exact hfound
    · exact hbefore before other hfirst
  have hbounded : (visited ++ [region]).length ≤ maximumRegions := by
    simpa [Nat.succ_le_iff] using hroom
  unfold MemoryInspection.count
  by_cases hexecutable : region.privateExecutable
  · by_cases hwrite : region.protect = MemoryRegion.pageExecuteReadwrite
    · have hboth : region.writableExecutable := by
        simp [MemoryRegion.writableExecutable, hexecutable, hwrite]
      rw [if_pos hexecutable, if_pos hwrite]
      refine ⟨hall, rfl, ?_, hbounded, ?_, ?_, ?_, ?_⟩
      · simpa [hexamined] using hlength
      · simpa [hregions, hexecutable] using saturatingAddSize_one (countP_lt hroom)
      · simpa [hbytes, hexecutable, extent_append] using saturatingAddSize_min _ _
      · simpa [hwritable, hboth] using saturatingAddSize_one (countP_lt hroom)
      · simpa [hwritableBytes, hboth, extent_append] using saturatingAddSize_min _ _
    · have hnot : region.writableExecutable = false := by
        simp [MemoryRegion.writableExecutable, hwrite]
      rw [if_pos hexecutable, if_neg hwrite]
      refine ⟨hall, rfl, ?_, hbounded, ?_, ?_, ?_, ?_⟩
      · simpa [hexamined] using hlength
      · simpa [hregions, hexecutable] using saturatingAddSize_one (countP_lt hroom)
      · simpa [hbytes, hexecutable, extent_append] using saturatingAddSize_min _ _
      · simpa [hnot] using hwritable
      · simpa [hnot] using hwritableBytes
  · have hnot : region.writableExecutable = false := by
      simp [MemoryRegion.writableExecutable, hexecutable]
    rw [if_neg hexecutable]
    refine ⟨hall, rfl, ?_, hbounded, ?_, ?_, ?_, ?_⟩
    · simpa [hexamined] using hlength
    · simpa [hexecutable] using hregions
    · simpa [hexecutable] using hbytes
    · simpa [hnot] using hwritable
    · simpa [hnot] using hwritableBytes

theorem Walked.withStatus (h : Walked query pid visited result) (status : String) (cut : Bool) :
    Walked query pid visited { result with status, truncated := cut } :=
  ⟨h.found, h.pid_eq, h.examined, h.bounded, h.regions, h.bytes, h.writableRegions,
    h.writableBytes⟩

theorem status_count : (result.count region).status = result.status := by
  unfold MemoryInspection.count
  split_ifs <;> rfl

theorem truncated_count : (result.count region).truncated = result.truncated := by
  unfold MemoryInspection.count
  split_ifs <;> rfl

/-- From anywhere on the way, the walk comes to an end. -/
theorem walked_walk {left : ℕ} (h : Walked query pid visited result)
    (hstatus : result.status = "complete") (hcut : result.truncated = false)
    (hleft : left + visited.length = maximumRegions) (hextent : extent visited < 2 ^ 64) :
    ∃ all, Walked query pid all (result.walk query left (extent visited)) ∧
      WalkEnded query all (result.walk query left (extent visited)) := by
  induction left generalizing visited result with
  | zero =>
      rw [Nat.zero_add] at hleft
      exact ⟨visited, h.withStatus _ _, .limit rfl rfl hleft hextent⟩
  | succ left ih =>
      simp only [MemoryInspection.walk, h.examined]
      cases hquery : query visited.length (extent visited) with
      | none => exact ⟨visited, h, .complete hstatus hcut hquery (by omega) hextent⟩
      | some region =>
          have hcount := h.count hquery (by omega)
          have hend : extent (visited ++ [region]) = extent visited + region.regionSize := by
            rw [extent_append, extent_singleton]
          dsimp only [addSize]
          by_cases hnext : extent visited + region.regionSize < 2 ^ 64
          · rw [if_pos hnext]
            dsimp only
            by_cases hzero : extent visited + region.regionSize ≤ extent visited
            · rw [if_pos hzero]
              refine ⟨_, hcount.withStatus _ _, .stuck rfl ?_ visited region rfl (by omega)⟩
              exact truncated_count.trans hcut
            · rw [if_neg hzero, ← hend]
              refine ih hcount (status_count.trans hstatus) (truncated_count.trans hcut) ?_ ?_
              · rw [List.length_append, List.length_singleton]
                omega
              · rw [hend]
                exact hnext
          · rw [if_neg hnext]
            refine ⟨_, hcount.withStatus _ _, .overflow rfl ?_ ?_⟩
            · exact truncated_count.trans hcut
            · rw [hend]
              exact Nat.not_lt.mp hnext

/-- **The counts are those of the regions that were visited**, whatever the process does to its memory
meanwhile, and the walk always ends. -/
theorem inspection_visits (pid : UInt32) (query : MemoryQuery) :
    ∃ visited result, inspectProcessMemory pid (.ok ()) query = .ok result ∧
      Walked query pid visited result ∧ WalkEnded query visited result := by
  have hbegin : Walked query pid [] (MemoryInspection.begin pid) :=
    ⟨by simp, rfl, rfl, Nat.zero_le _, rfl, rfl, rfl, rfl⟩
  obtain ⟨visited, hvisits, hended⟩ := walked_walk hbegin rfl rfl rfl (by decide)
  exact ⟨visited, _, rfl, hvisits, hended⟩

end walked

/-! ## Memory that stays as it is -/

/-- The regions of an address space, one behind the other from zero on. -/
structure MemoryMap where
  regions : List MemoryRegion
  positive : ∀ region ∈ regions, 0 < region.regionSize
  bounded : extent regions < 2 ^ 64

/-- What `VirtualQueryEx` says of an address: the rest of its region, from its page of 4,096 bytes on. -/
def regionAt : List MemoryRegion → ℕ → Option MemoryRegion
  | [], _ => none
  | region :: rest, address =>
      if address < region.regionSize then
        some { region with regionSize := region.regionSize - address / 4096 * 4096 }
      else regionAt rest (address - region.regionSize)

section map

variable {before rest visited : List MemoryRegion} {pid : UInt32} {result : MemoryInspection}

/-- Where a region ends, the next one begins. -/
theorem regionAt_append (hpositive : ∀ region ∈ rest, 0 < region.regionSize) :
    regionAt (before ++ rest) (extent before) = rest.head? := by
  induction before with
  | nil =>
      cases rest with
      | nil => rfl
      | cons region rest =>
          have hpos := hpositive region List.mem_cons_self
          simp [regionAt, extent, hpos]
  | cons region before ih =>
      have hextent : extent (region :: before) = region.regionSize + extent before := by
        simp [extent]
      rw [List.cons_append, regionAt, hextent, if_neg (by omega), Nat.add_sub_cancel_left, ih]

/-- What is visited are the first regions. -/
theorem prefix_of_found (map : MemoryMap)
    (hfound : ∀ before region, before ++ [region] <+: visited →
      regionAt map.regions (extent before) = some region) : visited <+: map.regions := by
  induction visited using List.reverseRecOn with
  | nil => exact List.nil_prefix
  | append_singleton before region ih =>
      obtain ⟨rest, hrest⟩ := ih fun other last hfirst =>
        hfound other last (hfirst.trans (List.prefix_append _ _))
      have hlast := hfound before region (List.prefix_refl _)
      have hpositive : ∀ region ∈ rest, 0 < region.regionSize := fun region hmem =>
        map.positive region (hrest ▸ List.mem_append_right _ hmem)
      rw [← hrest, regionAt_append hpositive] at hlast
      obtain ⟨tail, rfl⟩ := List.head?_eq_some_iff.mp hlast
      exact ⟨tail, by rw [List.append_assoc, List.singleton_append, hrest]⟩

/-- The bytes of some of the first regions do not saturate. -/
theorem extent_filter_lt {map : MemoryMap} (p : MemoryRegion → Bool)
    (hfirst : visited <+: map.regions) :
    min (extent (visited.filter p)) (2 ^ 64 - 1) = extent (visited.filter p) := by
  obtain ⟨rest, hrest⟩ := hfirst
  have hvisited : extent visited ≤ extent map.regions := by
    rw [← hrest, extent_append]
    exact Nat.le_add_right _ _
  have hfilter := extent_filter_le p visited
  have hbounded := map.bounded
  omega

end map

end OpenGuard.Windows
