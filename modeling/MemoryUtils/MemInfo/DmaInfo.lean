import MemoryUtils.Lib.Ledger

/-!
`GetDmaInfo` copies the records that `libmemmgrclient` reports for a process. The library and the array
that it returns have to be given back; `std::string` throws where the size of a text is negative.
-/

namespace MemoryUtils.MemInfo
open Lib

def maxStringLen : Nat := 256

/-- `char name[MAX_STRING_LEN]` and `int name_size`. -/
structure Text where
  bytes : Vector UInt8 maxStringLen
  size : Int32

structure DmaNodeInfo where
  process : Text
  pid : Int32
  fd : Int32
  sizeBytes : Int64
  ino : Int64
  expPid : Int32
  expTaskComm : Text
  bufName : Text
  expName : Text
  canReclaim : Bool
  isReclaim : Bool
  bufType : Text
  reclaimInfo : Text
  leakType : Text

structure DmaNodeInfoWrapper where
  process : List UInt8
  pid : Int32
  fd : Int32
  sizeBytes : Int64
  ino : Int64
  expPid : Int32
  expTaskComm : List UInt8
  bufName : List UInt8
  expName : List UInt8
  canReclaim : Bool
  isReclaim : Bool
  bufType : List UInt8
  reclaimInfo : List UInt8
  leakType : List UInt8

/-- How far loading `GetDmaArr` and `FreeArr` from `libmemmgrclient.z.so` gets, and what `GetDmaArr` answers: the
size, and the array unless it is null. -/
inductive DmaClient where
  | noLibrary
  | noSymbols
  | found (getDmaArr : Int32 → Int32 × Option (List DmaNodeInfo))

inductive DmaResource where
  | handle
  | array
  deriving DecidableEq

/-- A computation that may throw `std::length_error`, and has no result where it reads outside an array. -/
abbrev Copy := ExceptT Unit Option

def Text.stdString (t : Text) : Copy (List UInt8) :=
  if t.size < 0 then throw ()
  else if maxStringLen < t.size.toNatClampNeg then ExceptT.mk none
  else pure (t.bytes.toList.take t.size.toNatClampNeg)

namespace DmaNodeInfo

def wrap (node : DmaNodeInfo) : Copy DmaNodeInfoWrapper := do
  let process ← node.process.stdString
  let expTaskComm ← node.expTaskComm.stdString
  let bufName ← node.bufName.stdString
  let expName ← node.expName.stdString
  let bufType ← node.bufType.stdString
  let reclaimInfo ← node.reclaimInfo.stdString
  let leakType ← node.leakType.stdString
  pure
    { process := process, pid := node.pid, fd := node.fd, sizeBytes := node.sizeBytes, ino := node.ino,
      expPid := node.expPid, expTaskComm := expTaskComm, bufName := bufName, expName := expName,
      canReclaim := node.canReclaim, isReclaim := node.isReclaim, bufType := bufType, reclaimInfo := reclaimInfo,
      leakType := leakType }

end DmaNodeInfo

/-- The loop of `GetDmaInfo` from index `i` on, for `n` more records. -/
def copyNodes (arr : List DmaNodeInfo) (w : Ledger DmaResource) : Nat → Nat → Copy (List DmaNodeInfoWrapper)
  | _, 0 => pure []
  | i, n + 1 => do
    ExceptT.lift (w.use .array)
    let node ← ExceptT.lift (arr[i]?)
    let info ← node.wrap
    let rest ← copyNodes arr w (i + 1) n
    pure (info :: rest)

def getDmaInfo (C : DmaClient) (pid : Int32) (w : Ledger DmaResource) :
    Option (Ledger DmaResource × Except Unit (List DmaNodeInfoWrapper)) :=
  match C with
  | .noLibrary => some (w, .ok [])
  | .noSymbols => ((w.acquire .handle).release .handle).map (·, .ok [])
  | .found getDmaArr =>
    let size := (getDmaArr pid).1
    let dmaArr := (getDmaArr pid).2
    let array := dmaArr.map fun _ => DmaResource.array
    let w := (w.acquire .handle).acquireIf array
    if 0 < size ∧ dmaArr.isNone then (w.release .handle).map (·, .ok [])
    else
      (copyNodes (dmaArr.getD []) w 0 size.toNatClampNeg).run.bind fun copied =>
        match copied with
        -- The exception leaves the function before `FreeArr` and `dlclose`.
        | .error thrown => some (w, .error thrown)
        | .ok dmaVec => ((w.giveBackIf array true).bind (·.release .handle)).map (·, .ok dmaVec)

/-! ### One record -/

/-- What a text says, as its size tells it. -/
def Text.chars (t : Text) : List UInt8 := t.bytes.toList.take t.size.toNatClampNeg

def Text.Short (t : Text) : Prop := t.size.toNatClampNeg ≤ maxStringLen

def DmaNodeInfo.texts (node : DmaNodeInfo) : List Text :=
  [node.process, node.expTaskComm, node.bufName, node.expName, node.bufType, node.reclaimInfo, node.leakType]

def DmaNodeInfo.wrapped (node : DmaNodeInfo) : DmaNodeInfoWrapper where
  process := node.process.chars
  pid := node.pid
  fd := node.fd
  sizeBytes := node.sizeBytes
  ino := node.ino
  expPid := node.expPid
  expTaskComm := node.expTaskComm.chars
  bufName := node.bufName.chars
  expName := node.expName.chars
  canReclaim := node.canReclaim
  isReclaim := node.isReclaim
  bufType := node.bufType.chars
  reclaimInfo := node.reclaimInfo.chars
  leakType := node.leakType.chars

def DmaNodeInfo.Negative (node : DmaNodeInfo) : Prop := ∃ t ∈ node.texts, t.size < 0

theorem stdString_of_negative {t : Text} (negative : t.size < 0) : t.stdString = throw () := if_pos negative

theorem stdString_of_nonneg {t : Text} (short : t.Short) (nonneg : ¬ t.size < 0) : t.stdString = pure t.chars := by
  rw [Text.stdString, if_neg nonneg, if_neg (Nat.not_lt.mpr short)]
  rfl

/-- A text with a negative size throws, and one without it leaves that to the rest. -/
theorem stdString_bind_eq_throw {α : Type} {t : Text} {next : List UInt8 → Copy α} (short : t.Short)
    (later : ¬ t.size < 0 → next t.chars = throw ()) : t.stdString >>= next = throw () := by
  by_cases negative : t.size < 0
  · rw [stdString_of_negative negative]
    rfl
  · rw [stdString_of_nonneg short negative, pure_bind]
    exact later negative

section Record

variable {node : DmaNodeInfo} (short : ∀ t ∈ node.texts, t.Short)

include short

theorem wrap_of_nonneg (nonneg : ¬ node.Negative) : node.wrap = pure node.wrapped := by
  have each : ∀ t ∈ node.texts, t.stdString = pure t.chars := by
    intro t member
    apply stdString_of_nonneg (short t member)
    exact fun negative => nonneg ⟨t, member, negative⟩
  simp only [DmaNodeInfo.texts, List.forall_mem_cons] at each
  obtain ⟨process, expTaskComm, bufName, expName, bufType, reclaimInfo, leakType, -⟩ := each
  rw [DmaNodeInfo.wrap, process, expTaskComm, bufName, expName, bufType, reclaimInfo, leakType]
  rfl

/-- The texts are read in order, so the first negative size ends the copy. -/
theorem wrap_of_negative (negative : node.Negative) : node.wrap = throw () := by
  simp only [DmaNodeInfo.texts, List.forall_mem_cons] at short
  obtain ⟨process, expTaskComm, bufName, expName, bufType, reclaimInfo, leakType, -⟩ := short
  apply stdString_bind_eq_throw process
  intro nonnegProcess
  apply stdString_bind_eq_throw expTaskComm
  intro nonnegComm
  apply stdString_bind_eq_throw bufName
  intro nonnegBufName
  apply stdString_bind_eq_throw expName
  intro nonnegExpName
  apply stdString_bind_eq_throw bufType
  intro nonnegBufType
  apply stdString_bind_eq_throw reclaimInfo
  intro nonnegReclaimInfo
  apply stdString_bind_eq_throw leakType
  intro nonnegLeakType
  simp_all [DmaNodeInfo.Negative, DmaNodeInfo.texts]

end Record

/-! ### All records -/

section Loop

variable {arr : List DmaNodeInfo} {w : Ledger DmaResource} (held : DmaResource.array ∈ w.held)

include held

/-- One pass of the loop, on a record that is there. -/
theorem copyNodes_succ {i : Nat} (n : Nat) (inside : i < arr.length) :
    copyNodes arr w i (n + 1) = arr[i].wrap >>= fun info =>
      copyNodes arr w (i + 1) n >>= fun rest => pure (info :: rest) := by
  have used : w.use .array = some () := if_pos held
  rw [copyNodes, used, List.getElem?_eq_getElem inside]
  rfl

variable (short : ∀ node ∈ arr, ∀ t ∈ node.texts, t.Short)

include short

theorem copyNodes_of_nonneg {i n : Nat} (inside : i + n ≤ arr.length)
    (nonneg : ∀ node ∈ (arr.drop i).take n, ¬ node.Negative) :
    copyNodes arr w i n = pure (((arr.drop i).take n).map DmaNodeInfo.wrapped) := by
  induction n generalizing i with
  | zero => rfl
  | succ n ih =>
    have here : i < arr.length := by omega
    rw [List.drop_eq_getElem_cons here, List.take_succ_cons] at nonneg ⊢
    obtain ⟨first, later⟩ := List.forall_mem_cons.mp nonneg
    rw [copyNodes_succ held n here, wrap_of_nonneg (short _ (List.getElem_mem here)) first, pure_bind,
      ih (by omega) later, pure_bind, List.map_cons]

theorem copyNodes_of_negative {i n : Nat} (inside : i + n ≤ arr.length)
    (negative : ∃ node ∈ (arr.drop i).take n, node.Negative) : copyNodes arr w i n = throw () := by
  induction n generalizing i with
  | zero => simp at negative
  | succ n ih =>
    have here : i < arr.length := by omega
    rw [List.drop_eq_getElem_cons here, List.take_succ_cons, List.exists_mem_cons_iff] at negative
    rw [copyNodes_succ held n here]
    by_cases first : arr[i].Negative
    · rw [wrap_of_negative (short _ (List.getElem_mem here)) first]
      rfl
    · rw [wrap_of_nonneg (short _ (List.getElem_mem here)) first, pure_bind,
        ih (by omega) (negative.resolve_left first)]
      rfl

end Loop

/-- The records that `GetDmaArr` reports, if it is there. -/
def DmaClient.reported (C : DmaClient) (pid : Int32) : List DmaNodeInfo :=
  match C with
  | .noLibrary | .noSymbols => []
  | .found getDmaArr => ((getDmaArr pid).2.getD []).take (getDmaArr pid).1.toNatClampNeg

/-- An array has as many records as its size says, and no text is longer than its place. -/
def DmaClient.Sound (C : DmaClient) (pid : Int32) : Prop :=
  ∀ getDmaArr, C = .found getDmaArr → ∀ arr, (getDmaArr pid).2 = some arr →
    (getDmaArr pid).1.toNatClampNeg ≤ arr.length ∧ ∀ node ∈ arr, ∀ t ∈ node.texts, t.Short

/-- `dlclose` as the last thing. -/
theorem release_handle {base : Multiset DmaResource} {w : Ledger DmaResource} (accounts : w.Accounts base {.handle})
    (kept : w.left = 0) : ∃ w', w.release .handle = some w' ∧ w'.held = base := by
  obtain ⟨w', closed, accounts, left⟩ := accounts.release
  refine ⟨w', closed, accounts.trans ?_⟩
  rw [left, kept, Multiset.add_zero, Multiset.add_zero]

/-- On every path the array is freed after its last use and the library closed, unless some text has a negative
size: then the exception leaves both behind. Without one the result has every record, each text as long as its size
says. -/
theorem dma_info_given_back_iff {C : DmaClient} {pid : Int32} (sound : C.Sound pid) (base : Multiset DmaResource) :
    ∃ w r, getDmaInfo C pid ⟨base, 0⟩ = some (w, r) ∧
      (w.held = base ↔ ∀ node ∈ C.reported pid, ¬ node.Negative) ∧
      ((∃ node ∈ C.reported pid, node.Negative) → w.held = .array ::ₘ .handle ::ₘ base ∧ r = .error ()) ∧
      ((∀ node ∈ C.reported pid, ¬ node.Negative) → r = .ok ((C.reported pid).map DmaNodeInfo.wrapped)) := by
  have start : (⟨base, 0⟩ : Ledger DmaResource).Accounts base 0 := by
    show base = base + 0 + 0
    rw [Multiset.add_zero, Multiset.add_zero]
  have opened := start.acquire DmaResource.handle
  cases C with
  | noLibrary => exact ⟨_, _, rfl, by simp [DmaClient.reported], by simp [DmaClient.reported], fun _ => rfl⟩
  | noSymbols =>
    obtain ⟨w, closed, held⟩ := release_handle opened rfl
    refine ⟨w, .ok [], ?_, by simp [held, DmaClient.reported], by simp [DmaClient.reported], fun _ => rfl⟩
    rw [getDmaInfo, closed]
    rfl
  | found getDmaArr =>
    cases answer : (getDmaArr pid).2 with
    | none =>
      obtain ⟨w, closed, held⟩ := release_handle opened rfl
      have nothing : DmaClient.reported (.found getDmaArr) pid = [] := by simp [DmaClient.reported, answer]
      refine ⟨w, .ok [], ?_, by simp [held, nothing], by simp [nothing], by simp [nothing]⟩
      simp only [getDmaInfo, answer, Option.map_none, Ledger.acquireIf, Option.elim_none, Option.isNone_none, and_true,
        Option.getD_none]
      by_cases positive : 0 < (getDmaArr pid).1
      · rw [if_pos positive, closed]
        rfl
      · have zero : (getDmaArr pid).1.toNatClampNeg = 0 := by
          rw [Int32.lt_iff_toInt_lt] at positive
          rw [← Int32.toNat_toInt]
          exact Int.toNat_of_nonpos (by simpa using positive)
        rw [if_neg positive, zero]
        show (Ledger.release DmaResource.handle (Ledger.acquire .handle ⟨base, 0⟩)).map _ = _
        rw [closed]
        rfl
    | some arr =>
      obtain ⟨inside, short⟩ := sound getDmaArr rfl arr answer
      have mapped := opened.acquire DmaResource.array
      have array := mapped.mem (Multiset.mem_cons_self _ _)
      have all : DmaClient.reported (.found getDmaArr) pid = (arr.drop 0).take (getDmaArr pid).1.toNatClampNeg := by
        simp [DmaClient.reported, answer]
      rw [all]
      by_cases negative : ∃ node ∈ (arr.drop 0).take (getDmaArr pid).1.toNatClampNeg, node.Negative
      · have thrown := copyNodes_of_negative array short (by omega) negative
        refine ⟨Ledger.acquire .array (Ledger.acquire .handle ⟨base, 0⟩), .error (), ?_, ?_, fun _ => ⟨rfl, rfl⟩,
          fun nonneg => ?_⟩
        · simp only [getDmaInfo, answer, Option.map_some, Ledger.acquireIf, Option.elim_some, Option.isNone_some,
            Bool.false_eq_true, and_false, if_false, Option.getD_some, thrown]
          rfl
        · obtain ⟨node, member, sign⟩ := negative
          refine iff_of_false (fun same => ?_) fun nonneg => nonneg node member sign
          have more := congrArg Multiset.card same
          simp only [Ledger.acquire, Multiset.card_cons] at more
          omega
        · obtain ⟨node, member, sign⟩ := negative
          exact absurd sign (nonneg node member)
      · have nonneg : ∀ node ∈ (arr.drop 0).take (getDmaArr pid).1.toNatClampNeg, ¬ node.Negative :=
          fun node member sign => negative ⟨node, member, sign⟩
        have copied := copyNodes_of_nonneg array short (by omega) nonneg
        obtain ⟨w₁, freed, accounts, left⟩ := mapped.release
        obtain ⟨w₂, closed, held⟩ := release_handle accounts left
        refine ⟨w₂, _, ?_, by simp only [held, true_iff]; exact nonneg, fun some => absurd some negative, fun _ => rfl⟩
        simp only [getDmaInfo, answer, Option.map_some, Ledger.acquireIf, Option.elim_some, Option.isNone_some,
          Bool.false_eq_true, and_false, if_false, Option.getD_some, copied]
        show (((Ledger.release DmaResource.array _).bind (Ledger.release DmaResource.handle)).map _) = _
        rw [freed, Option.bind_some, closed]
        rfl

def emptyText : Text := ⟨Vector.replicate maxStringLen 0, 0⟩

/-- A record whose last text has a negative size. -/
def brokenNode : DmaNodeInfo where
  process := emptyText
  pid := 1
  fd := 3
  sizeBytes := 4096
  ino := 7
  expPid := 1
  expTaskComm := emptyText
  bufName := emptyText
  expName := emptyText
  canReclaim := true
  isReclaim := false
  bufType := emptyText
  reclaimInfo := emptyText
  leakType := { emptyText with size := -1 }

theorem broken_node_leaves_library_open :
    ∃ w, getDmaInfo (.found fun _ => (1, some [brokenNode])) 1 ⟨0, 0⟩ = some (w, .error ()) ∧
      w.held = {.array, .handle} := by
  have sound : (DmaClient.found fun _ => (1, some [brokenNode])).Sound 1 := by
    rintro getDmaArr ⟨⟩ arr ⟨⟩
    refine ⟨by decide, ?_⟩
    simp only [List.forall_mem_singleton, DmaNodeInfo.texts, brokenNode, List.forall_mem_cons, Text.Short]
    decide
  obtain ⟨w, r, done, -, thrown, -⟩ := dma_info_given_back_iff sound 0
  have negative : ∃ node ∈ (DmaClient.found fun _ => (1, some [brokenNode])).reported 1, node.Negative :=
    ⟨brokenNode, List.mem_singleton_self _, brokenNode.leakType, by simp [DmaNodeInfo.texts], by decide⟩
  obtain ⟨held, rfl⟩ := thrown negative
  exact ⟨w, done, held⟩

end MemoryUtils.MemInfo
