import MemoryUtils.Lib.Carry
import MemoryUtils.MemInfo.Rollup
import Mathlib.Algebra.BigOperators.Ring.Finset
import Mathlib.Algebra.Order.Group.Nat

/-!
`GetAppsTotalMemory` adds up the DMA memory of a list of processes, their `Pss` and `SwapPss` and
their GL memory. What the process file system, the memory tracker and `libmemmgrclient` answer is a
parameter.
-/

namespace MemoryUtils.MemInfo
open Lib

inductive MemoryTrackerType where
  | gl
  | graph
  | other
  deriving DecidableEq

structure MemoryRecord where
  flags : Int32
  size : Int64
  deriving DecidableEq

/-- How far loading `GetDmaValueByPidList` from `libmemmgrclient.z.so` gets. -/
inductive MemMgrClient where
  | noLibrary
  | noSymbol
  | found (func : List Int32 → Int32 → Int64)

structure Device where
  /-- The text of `/proc/<pid>/smaps_rollup`, if it can be opened. -/
  smapsRollup : Int32 → Option (List Char)
  /-- The tracker `Get(true)` returns while `pid` is asked for, and the records of each `GetDevMem`
  that succeeds. -/
  memtrack : Int32 → Option (MemoryTrackerType → Option (List MemoryRecord))
  memMgrClient : MemMgrClient
  flagUnmapped : UInt32

def bytePerKB : Int64 := 1024

def errorDmaOpenSo : Int64 := -1

namespace Device

def getDmaValueByPidList (D : Device) (pidList : List Int32) : Int64 :=
  match D.memMgrClient with
  | .noLibrary => errorDmaOpenSo
  | .noSymbol => errorDmaOpenSo
  | .found func => func pidList (Int32.ofNat pidList.length)

def getPssAndSwapPssByPid (D : Device) (pid : Int32) : UInt64 :=
  match D.smapsRollup pid with
  | none => 0
  | some text => pssAndSwapPss text

def isUnmapped (D : Device) (record : MemoryRecord) : Bool :=
  record.flags.toUInt32 &&& D.flagUnmapped = D.flagUnmapped

/-- The loop over `records`, left at the first unmapped one. -/
def recordValue (D : Device) : List MemoryRecord → UInt64
  | [] => 0
  | record :: records =>
    if D.isUnmapped record then (record.size / bytePerKB).toUInt64 else D.recordValue records

end Device

/-- The result of `GetGraphicsMemory` with its two reference parameters. -/
structure GraphicsMemory where
  ret : Bool
  gl : UInt64
  graph : UInt64
  deriving DecidableEq

def memoryTrackerTypes : List MemoryTrackerType := [.gl, .graph, .other]

namespace Device

def trackType (D : Device) (getDevMem : MemoryTrackerType → Option (List MemoryRecord))
    (g : GraphicsMemory) (type : MemoryTrackerType) : GraphicsMemory :=
  match getDevMem type with
  | none => g
  | some records =>
    match type with
    | .gl => { g with gl := D.recordValue records, ret := true }
    | .graph => { g with graph := D.recordValue records, ret := true }
    | .other => g

def getGraphicsMemory (D : Device) (pid : Int32) (gl graph : UInt64) : GraphicsMemory :=
  match D.memtrack pid with
  | none => ⟨false, gl, graph⟩
  | some getDevMem => memoryTrackerTypes.foldl (D.trackType getDevMem) ⟨false, gl, graph⟩

end Device

/-- The variables of the loop in `GetAppsTotalMemory`; `gl` and `graph` outlive a round. -/
structure Totals where
  pssAndSwapPssMem : Int64
  gpuMem : Int64
  gl : UInt64
  graph : UInt64
  deriving DecidableEq

namespace Device

def addPid (D : Device) (t : Totals) (pid : Int32) : Totals :=
  let g := D.getGraphicsMemory pid t.gl t.graph
  { pssAndSwapPssMem := t.pssAndSwapPssMem + (D.getPssAndSwapPssByPid pid).toInt64
    gpuMem := t.gpuMem + g.gl.toInt64
    gl := g.gl
    graph := g.graph }

def dmaMem (D : Device) (pidList : List Int32) : Int64 :=
  D.getDmaValueByPidList pidList / bytePerKB

def getAppsTotalMemory (D : Device) (pidList : List Int32) : Int64 :=
  if D.dmaMem pidList = errorDmaOpenSo then
    errorDmaOpenSo
  else
    let t := pidList.foldl D.addPid ⟨0, 0, 0, 0⟩
    D.dmaMem pidList + t.pssAndSwapPssMem + t.gpuMem

/-- The GL value a successful query for `pid` gives; `none` where the query fails or there is no
tracker. -/
def glQuery (D : Device) (pid : Int32) : Option UInt64 :=
  (D.memtrack pid).bind fun getDevMem => (getDevMem .gl).map D.recordValue

/-- The GL variable after the pids `before`: what the last successful query among them gave. -/
def lastGl (D : Device) (before : List Int32) : UInt64 := carry D.glQuery 0 before

/-- The size in KB of the first unmapped GL record of `pid`, 0 without one. -/
def glSize (D : Device) (pid : Int32) : Int :=
  match D.memtrack pid with
  | none => 0
  | some getDevMem =>
    match getDevMem .gl with
    | none => 0
    | some records => ((records.find? D.isUnmapped).map fun record => record.size.toInt.tdiv 1024).getD 0

def pssSum (D : Device) (pidList : List Int32) : Nat :=
  (pidList.map fun pid => (D.getPssAndSwapPssByPid pid).toNat).sum

/-- What the rounds add to `gpuMem`: the GL variable after each of them. -/
def gpuSum (D : Device) (pidList : List Int32) : Nat :=
  ((trail D.glQuery 0 pidList).map UInt64.toNat).sum

/-- Neither a conversion to `int64_t` nor an addition of `GetAppsTotalMemory` changes a value. -/
def NoOverflow (D : Device) (pidList : List Int32) : Prop :=
  (D.dmaMem pidList).toInt + D.pssSum pidList + D.gpuSum pidList < 2 ^ 63

instance (D : Device) (pidList : List Int32) : Decidable (D.NoOverflow pidList) :=
  inferInstanceAs (Decidable (_ < _))

end Device

theorem toInt_toInt64 {x : UInt64} (fits : x.toNat < 2 ^ 63) : x.toInt64.toInt = x.toNat := by
  show x.toBitVec.toInt = x.toBitVec.toNat
  exact BitVec.toInt_eq_toNat_of_lt (by rw [UInt64.toNat_toBitVec]; omega)

theorem toInt_add {a b : Int64} (ha : 0 ≤ a.toInt) (hb : 0 ≤ b.toInt)
    (fits : a.toInt + b.toInt < 2 ^ 63) : (a + b).toInt = a.toInt + b.toInt := by
  rw [Int64.toInt_add]
  exact Int.bmod_eq_of_le (by omega) (by omega)

theorem ne_errorDmaOpenSo {x : Int64} (nonneg : 0 ≤ x.toInt) : x ≠ errorDmaOpenSo := by
  rintro rfl
  exact absurd nonneg (by decide)

theorem toInt_div_bytePerKB (d : Int64) : (d / bytePerKB).toInt = d.toInt.tdiv 1024 :=
  Int64.toInt_div_of_ne_right d bytePerKB (by decide)

namespace Device

theorem getGraphicsMemory_gl (D : Device) (pid : Int32) (gl graph : UInt64) :
    (D.getGraphicsMemory pid gl graph).gl = (D.glQuery pid).getD gl := by
  unfold getGraphicsMemory glQuery
  cases D.memtrack pid with
  | none => rfl
  | some getDevMem =>
    -- only the first of the three rounds writes `gl`
    cases first : getDevMem .gl <;> cases second : getDevMem .graph <;>
      cases third : getDevMem .other <;> simp [memoryTrackerTypes, trackType, first, second, third]

theorem foldl_addPid (D : Device) (t : Totals) (pidList : List Int32)
    (pssNonneg : 0 ≤ t.pssAndSwapPssMem.toInt) (gpuNonneg : 0 ≤ t.gpuMem.toInt)
    (pssFits : t.pssAndSwapPssMem.toInt + D.pssSum pidList < 2 ^ 63)
    (gpuFits : t.gpuMem.toInt + ((trail D.glQuery t.gl pidList).map UInt64.toNat).sum < 2 ^ 63) :
    (pidList.foldl D.addPid t).pssAndSwapPssMem.toInt =
        t.pssAndSwapPssMem.toInt + D.pssSum pidList ∧
      (pidList.foldl D.addPid t).gpuMem.toInt =
        t.gpuMem.toInt + ((trail D.glQuery t.gl pidList).map UInt64.toNat).sum := by
  induction pidList generalizing t with
  | nil => simp [pssSum, trail]
  | cons pid pidList ih =>
    have split : D.pssSum (pid :: pidList) = (D.getPssAndSwapPssByPid pid).toNat + D.pssSum pidList := by
      simp [pssSum]
    rw [trail, List.map_cons, List.sum_cons, Nat.cast_add] at gpuFits ⊢
    rw [split, Nat.cast_add] at pssFits ⊢
    have gl : (D.addPid t pid).gl = (D.glQuery pid).getD t.gl := D.getGraphicsMemory_gl pid t.gl t.graph
    have pss : (D.addPid t pid).pssAndSwapPssMem.toInt =
        t.pssAndSwapPssMem.toInt + (D.getPssAndSwapPssByPid pid).toNat := by
      have value := toInt_toInt64 (x := D.getPssAndSwapPssByPid pid) (by omega)
      rw [← value]
      exact toInt_add pssNonneg (by omega) (by omega)
    have gpu : (D.addPid t pid).gpuMem.toInt =
        t.gpuMem.toInt + ((D.glQuery pid).getD t.gl).toNat := by
      have value := toInt_toInt64 (x := (D.glQuery pid).getD t.gl) (by omega)
      show (t.gpuMem + (D.getGraphicsMemory pid t.gl t.graph).gl.toInt64).toInt = _
      rw [D.getGraphicsMemory_gl, ← value]
      exact toInt_add gpuNonneg (by omega) (by omega)
    have rest := ih (D.addPid t pid) (by omega) (by omega) (by omega) (by rw [gl]; omega)
    rw [List.foldl_cons, rest.1, rest.2, pss, gpu, gl]
    omega

/-- Where nothing overflows and the DMA part is no error, the total is exact. -/
theorem getAppsTotalMemory_toInt {D : Device} {pidList : List Int32}
    (dmaNonneg : 0 ≤ (D.dmaMem pidList).toInt) (fits : D.NoOverflow pidList) :
    (D.getAppsTotalMemory pidList).toInt =
      (D.dmaMem pidList).toInt + D.pssSum pidList + D.gpuSum pidList := by
  have noError := ne_errorDmaOpenSo dmaNonneg
  unfold NoOverflow at fits
  have pssFits : (D.pssSum pidList : Int) < 2 ^ 63 := by omega
  have gpuFits : (D.gpuSum pidList : Int) < 2 ^ 63 := by omega
  obtain ⟨pss, gpu⟩ := D.foldl_addPid ⟨0, 0, 0, 0⟩ pidList (by decide) (by decide)
    (by simpa using pssFits) (by simpa [gpuSum] using gpuFits)
  unfold getAppsTotalMemory
  rw [if_neg noError]
  generalize pidList.foldl D.addPid ⟨0, 0, 0, 0⟩ = t at pss gpu ⊢
  rw [Int64.toInt_zero, zero_add] at pss gpu
  have gpuMem : t.gpuMem.toInt = D.gpuSum pidList := gpu
  have first : (D.dmaMem pidList + t.pssAndSwapPssMem).toInt =
      (D.dmaMem pidList).toInt + D.pssSum pidList := by
    rw [← pss]
    exact toInt_add dmaNonneg (by omega) (by omega)
  show (D.dmaMem pidList + t.pssAndSwapPssMem + t.gpuMem).toInt = _
  rw [← first, ← gpuMem]
  exact toInt_add (by omega) (by omega) (by omega)

theorem recordValue_toNat (D : Device) (records : List MemoryRecord)
    (fits : (D.recordValue records).toNat < 2 ^ 63) :
    ((D.recordValue records).toNat : Int) =
      ((records.find? D.isUnmapped).map fun record => record.size.toInt.tdiv 1024).getD 0 := by
  induction records with
  | nil => rfl
  | cons record records ih =>
    unfold recordValue at fits ⊢
    by_cases unmapped : D.isUnmapped record
    · rw [if_pos unmapped] at fits ⊢
      rw [List.find?_cons_of_pos unmapped, Option.map_some, Option.getD_some, ← toInt_div_bytePerKB,
        ← toInt_toInt64 fits, Int64.toInt64_toUInt64]
    · rw [if_neg unmapped] at fits ⊢
      rw [List.find?_cons_of_neg unmapped, ih fits]

theorem glSize_eq (D : Device) (pid : Int32)
    (fits : ∀ v, D.glQuery pid = some v → v.toNat < 2 ^ 63) :
    D.glSize pid = (((D.glQuery pid).map UInt64.toNat).getD 0 : Nat) := by
  unfold glSize
  unfold glQuery at fits ⊢
  cases found : D.memtrack pid with
  | none => rfl
  | some getDevMem =>
    cases queried : getDevMem .gl with
    | none => simp [queried]
    | some records =>
      have value := fits (D.recordValue records) (by simp [found, queried])
      simpa [queried] using (D.recordValue_toNat records value).symm

theorem glQuery_fits {D : Device} {pidList : List Int32} (dmaNonneg : 0 ≤ (D.dmaMem pidList).toInt)
    (fits : D.NoOverflow pidList) {pid : Int32} (member : pid ∈ pidList) {v : UInt64}
    (queried : D.glQuery pid = some v) : v.toNat < 2 ^ 63 := by
  have counted : v.toNat ≤ D.gpuSum pidList :=
    List.le_sum_of_mem (List.mem_map_of_mem (mem_trail queried 0 member))
  unfold NoOverflow at fits
  omega

theorem sum_pss_gl {D : Device} {pidList : List Int32} (dmaNonneg : 0 ≤ (D.dmaMem pidList).toInt)
    (fits : D.NoOverflow pidList) :
    (pidList.map fun pid => ((D.getPssAndSwapPssByPid pid).toNat : Int) + D.glSize pid).sum =
      D.pssSum pidList + ((pidList.map fun pid => ((D.glQuery pid).map UInt64.toNat).getD 0).sum : Nat) := by
  have sizes : pidList.map (fun pid => ((D.getPssAndSwapPssByPid pid).toNat : Int) + D.glSize pid) =
      pidList.map fun pid => ((D.getPssAndSwapPssByPid pid).toNat : Int) +
        (((D.glQuery pid).map UInt64.toNat).getD 0 : Nat) := by
    apply List.map_congr_left
    intro pid member
    rw [D.glSize_eq pid fun v queried => glQuery_fits dmaNonneg fits member queried]
  rw [sizes, List.sum_map_add, pssSum, Nat.cast_list_sum, Nat.cast_list_sum, List.map_map, List.map_map]
  rfl

theorem gpuSum_eq_iff (D : Device) (pidList : List Int32) :
    D.gpuSum pidList = (pidList.map fun pid => ((D.glQuery pid).map UInt64.toNat).getD 0).sum ↔
      ∀ before pid after, pidList = before ++ pid :: after → D.glQuery pid = none →
        D.lastGl before = 0 := by
  unfold gpuSum
  rw [map_trail, UInt64.toNat_zero, sum_trail_eq_iff]
  have zero : ∀ before, carry (fun pid => (D.glQuery pid).map UInt64.toNat) 0 before = 0 ↔
      D.lastGl before = 0 := by
    intro before
    rw [← UInt64.toNat_zero, ← map_carry, UInt64.toNat_inj]
    rfl
  simp only [Option.map_eq_none_iff, zero]

/-- A process whose GL query fails is counted with what the last successful query left in `gl`. -/
theorem total_is_sum_iff_nothing_left_over {D : Device} {pidList : List Int32} {d : Int64}
    (queried : D.getDmaValueByPidList pidList = d) (nonneg : 0 ≤ d.toInt)
    (fits : D.NoOverflow pidList) :
    (D.getAppsTotalMemory pidList).toInt = d.toInt / 1024 +
        (pidList.map fun pid => ((D.getPssAndSwapPssByPid pid).toNat : Int) + D.glSize pid).sum ↔
      ∀ before pid after, pidList = before ++ pid :: after → D.glQuery pid = none →
        D.lastGl before = 0 := by
  have dma : (D.dmaMem pidList).toInt = d.toInt / 1024 := by
    rw [dmaMem, queried, toInt_div_bytePerKB, Int.tdiv_eq_ediv_of_nonneg nonneg]
  have dmaNonneg : 0 ≤ (D.dmaMem pidList).toInt := by omega
  rw [getAppsTotalMemory_toInt dmaNonneg fits, sum_pss_gl dmaNonneg fits, dma, ← D.gpuSum_eq_iff]
  omega

/-- Process 1 has an unmapped GL record of 1 MB and process 2 a `Pss` line, but no GL answer. -/
def twoProcesses : Device where
  smapsRollup pid := if pid = 2 then some ['P', 's', 's', ':', ' ', '7'] else none
  memtrack pid := some fun type => if pid = 1 ∧ type = .gl then some [⟨1, 1048576⟩] else none
  memMgrClient := .found fun _ _ => 4096
  flagUnmapped := 1

theorem failing_query_first_is_sum : (twoProcesses.getAppsTotalMemory [2, 1]).toInt =
    (4096 : Int64).toInt / 1024 + ([2, 1].map fun pid =>
      ((twoProcesses.getPssAndSwapPssByPid pid).toNat : Int) + twoProcesses.glSize pid).sum := by
  apply (total_is_sum_iff_nothing_left_over (D := twoProcesses) rfl (by decide)
    (by decide +kernel)).mpr
  intro before pid after split silent
  rcases before with _ | ⟨first, _ | ⟨second, more⟩⟩
  · rfl
  · simp only [List.cons_append, List.nil_append, List.cons.injEq] at split
    rw [← split.2.1] at silent
    exact absurd silent (by decide)
  · simp at split

theorem failing_query_last_counts_again :
    twoProcesses.getDmaValueByPidList [1, 2] = 4096 ∧ twoProcesses.NoOverflow [1, 2] ∧
    (4096 : Int64).toInt / 1024 + ([1, 2].map fun pid =>
      ((twoProcesses.getPssAndSwapPssByPid pid).toNat : Int) + twoProcesses.glSize pid).sum = 1035 ∧
    (twoProcesses.getAppsTotalMemory [1, 2]).toInt = 2059 ∧
    (twoProcesses.getAppsTotalMemory [2, 1]).toInt = 1035 := by
  refine ⟨rfl, ?_, ?_, ?_, ?_⟩
  all_goals decide +kernel

theorem getDmaValueByPidList_of_found {D : Device} {func : List Int32 → Int32 → Int64}
    (found : D.memMgrClient = .found func) (pidList : List Int32) :
    D.getDmaValueByPidList pidList = func pidList (Int32.ofNat pidList.length) := by
  rw [getDmaValueByPidList, found]

theorem getDmaValueByPidList_of_not_found {D : Device} (missing : ¬∃ func, D.memMgrClient = .found func)
    (pidList : List Int32) : D.getDmaValueByPidList pidList = errorDmaOpenSo := by
  unfold getDmaValueByPidList
  cases client : D.memMgrClient with
  | noLibrary | noSymbol => rfl
  | found func => exact absurd ⟨func, client⟩ missing

/-- The error value is divided by 1024 before it is compared, and -1 / 1024 is 0. -/
theorem dmaMem_nonneg {D : Device} {pidList : List Int32}
    (answer : D.getDmaValueByPidList pidList = errorDmaOpenSo ∨
      0 ≤ (D.getDmaValueByPidList pidList).toInt) : 0 ≤ (D.dmaMem pidList).toInt := by
  unfold dmaMem
  rcases answer with error | nonneg
  · rw [error]
    decide
  · rw [toInt_div_bytePerKB]
    exact Int.tdiv_nonneg nonneg (by decide)

/-- No total is the error value, whether the query was answered or not. -/
theorem error_reported_iff_client_found {D : Device} {pidList : List Int32}
    (answered : ∀ func, D.memMgrClient = .found func →
      0 ≤ (func pidList (Int32.ofNat pidList.length)).toInt)
    (fits : D.NoOverflow pidList) :
    (D.getAppsTotalMemory pidList = errorDmaOpenSo ↔
        D.getDmaValueByPidList pidList = errorDmaOpenSo) ↔
      ∃ func, D.memMgrClient = .found func := by
  have answer : D.getDmaValueByPidList pidList = errorDmaOpenSo ∨
      0 ≤ (D.getDmaValueByPidList pidList).toInt := by
    by_cases found : ∃ func, D.memMgrClient = .found func
    · obtain ⟨func, found⟩ := found
      right
      rw [getDmaValueByPidList_of_found found]
      exact answered func found
    · left
      exact getDmaValueByPidList_of_not_found found pidList
  have total := getAppsTotalMemory_toInt (dmaMem_nonneg answer) fits
  have noError : D.getAppsTotalMemory pidList ≠ errorDmaOpenSo := by
    apply ne_errorDmaOpenSo
    have dmaNonneg := dmaMem_nonneg answer
    omega
  constructor
  · intro reported
    by_contra missing
    exact noError (reported.mpr (getDmaValueByPidList_of_not_found missing pidList))
  · rintro ⟨func, found⟩
    have value : D.getDmaValueByPidList pidList ≠ errorDmaOpenSo := by
      apply ne_errorDmaOpenSo
      rw [getDmaValueByPidList_of_found found]
      exact answered func found
    exact iff_of_false noError value

theorem answered_query_no_error : twoProcesses.getAppsTotalMemory [1, 2] = errorDmaOpenSo ↔
    twoProcesses.getDmaValueByPidList [1, 2] = errorDmaOpenSo := by
  apply (error_reported_iff_client_found (D := twoProcesses) ?_ (by decide +kernel)).mpr ⟨_, rfl⟩
  intro func found
  obtain rfl : (fun _ _ => 4096) = func := MemMgrClient.found.inj found
  decide

/-- The same processes where `libmemmgrclient.z.so` cannot be opened. -/
def noClient : Device := { twoProcesses with memMgrClient := .noLibrary }

theorem missing_library_not_reported :
    noClient.NoOverflow [2] ∧ noClient.getDmaValueByPidList [2] = errorDmaOpenSo ∧
    noClient.getAppsTotalMemory [2] = 7 ∧ (7 : Int64) ≠ errorDmaOpenSo := by
  refine ⟨?_, rfl, ?_, ?_⟩
  all_goals decide +kernel

end Device

end MemoryUtils.MemInfo
