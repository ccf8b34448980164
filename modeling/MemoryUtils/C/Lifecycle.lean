import MemoryUtils.Common.UxPageTable
import MemoryUtils.C.AppendModify

/-!
`PurgMemCreate` and `PurgMemDestroy` with everything they acquire and release: the two structs, the
two mappings and the builder nodes. What is held is in the state. To free, unmap or read something
that is not held, or to unmap it with another size, has no result, so that a call with a result made
no double release and no access after a release.
-/

namespace MemoryUtils.C.Lifecycle
open Lib UxPageTable

/-- `struct PurgMem` without its lock. The pointers are null or not; there is one page table struct
that `uxPageTable` can point to. -/
structure PurgMem (A : Type) where
  dataPtr : Option UInt64
  dataSizeInput : UInt64
  builder : Option A
  uxPageTable : Bool
  buildDataCount : UInt32

/-- What is held. A struct that is allocated has its members, and a mapping its size. -/
structure World (A P : Type) (n : Nat) where
  obj : Option (PurgMem A)
  table : Option UxPageTableStruct
  data : Option UInt64
  uxpt : Option UInt64
  nodes : BuilderHeap A P
  content : Content n

/-- The address that `mmap(NULL, ...)` returns. -/
structure Mapping where
  addr : UInt64
  aligned : addr.toNat % pageSize = 0
  nonnull : 0 < addr.toNat

/-- The outcomes of the two `munmap` calls. -/
structure Unmaps where
  data : Bool
  uxpt : Bool

/-- Memory from `malloc` holds arbitrary members, and the new uxpt mapping arbitrary entries. -/
structure CreateOutcomes (A : Type) where
  mallocObj : Option (PurgMem A)
  mmapData : Option Mapping
  mallocTable : Option UxPageTableStruct
  mmapUxpt : Bool
  entries : Entries
  rwlockInit : Bool
  mallocNode : Option A
  munmap : Unmaps

/-- `entries` is what the presence check finds, which the kernel may have changed since the last call. -/
structure DestroyOutcomes where
  wrlock : Bool
  munmap : Unmaps
  entries : Entries

section Functions

variable {A P : Type} {n : Nat} (supportUxpt : Bool) (fuel : Nat)

def freeObj (w : World A P n) : Option (World A P n) :=
  w.obj.map fun _ => { w with obj := none }

def freeTable (w : World A P n) : Option (World A P n) :=
  w.table.map fun _ => { w with table := none }

/-- A failing `munmap` leaves the mapping. -/
def munmapData (size : UInt64) (unmapped : Bool) (w : World A P n) : Option (World A P n) :=
  if w.data = some size then some (if unmapped then { w with data := none } else w) else none

/-- `InitUxPageTable` on the struct that `uxPageTable` points to. -/
def initTable (mapped : Bool) (entries : Entries) (addr size : UInt64) (w : World A P n) :
    Option (World A P n × PMState) := do
  let upt ← w.table
  let (err, upt, _) ← initUxPageTable supportUxpt mapped fuel (some upt) addr size entries
  let uxpt := if supportUxpt && (upt.bind (·.uxpte)).isSome then some (getUxPageSize addr size) else w.uxpt
  some ({ w with table := upt, uxpt := uxpt }, err)

/-- `DeinitUxPageTable` on the struct that `uxPageTable` points to. -/
def deinitTable (unmapped : Bool) (w : World A P n) : Option (World A P n × PMState) := do
  let upt ← w.table
  let (err, upt') := deinitUxPageTable supportUxpt unmapped (some upt)
  if supportUxpt && upt.uxpte.isSome then
    if w.uxpt = some (getUxPageSize upt.dataAddr upt.dataSize) then
      some ({ w with table := upt', uxpt := if unmapped then none else w.uxpt }, err)
    else none
  else some ({ w with table := upt' }, err)

def setObj (f : PurgMem A → PurgMem A) (w : World A P n) : World A P n := { w with obj := w.obj.map f }

/-! The labels of `PurgMemCreate_`, from the last to the first. -/

def freePugObj (w : World A P n) : Option (World A P n) := freeObj w

def unmapData (size : UInt64) (munmap : Unmaps) (w : World A P n) : Option (World A P n) := do
  let w ← munmapData size munmap.data w
  freePugObj (setObj (fun o => { o with dataPtr := none }) w)

def freeUxpt (size : UInt64) (munmap : Unmaps) (w : World A P n) : Option (World A P n) := do
  let w ← freeTable w
  unmapData size munmap (setObj (fun o => { o with uxPageTable := false }) w)

def deinitUpt (size : UInt64) (munmap : Unmaps) (w : World A P n) : Option (World A P n) := do
  let (w, _) ← deinitTable supportUxpt munmap.uxpt w
  freeUxpt size munmap w

/-- The result says whether the returned pointer is not null. -/
def purgMemCreate_ (len : UInt64) (builder : Option A) (out : CreateOutcomes A) (w : World A P n) :
    Option (World A P n × Bool) := do
  match out.mallocObj with
  | none => some (w, false)
  | some obj =>
    let size := UxPageTable.roundUp len pageBytes
    match out.mmapData with
    | none => (freePugObj { w with obj := some { obj with dataPtr := none } }).map (·, false)
    | some mapping =>
      let w := { w with obj := some { obj with dataPtr := some mapping.addr }, data := some size }
      match out.mallocTable with
      | none => (unmapData size out.munmap (setObj (fun o => { o with uxPageTable := false }) w)).map (·, false)
      | some upt =>
        let w := { setObj (fun o => { o with uxPageTable := true }) w with table := some upt }
        let (w, err) ← initTable supportUxpt fuel out.mmapUxpt out.entries mapping.addr size w
        if err ≠ .ok then (freeUxpt size out.munmap w).map (·, false)
        else if !out.rwlockInit then (deinitUpt supportUxpt size out.munmap w).map (·, false)
        else
          some (setObj (fun o => { o with builder := builder, dataSizeInput := len, buildDataCount := 0 }) w, true)

/-- A pointer that is not null is followed. -/
def readTable (uxPageTable : Bool) (table : Option UxPageTableStruct) : Option (Option UxPageTableStruct) :=
  if uxPageTable then table.map some else some none

/-- `IsPurged`. A page table that is not null is read, and with it the uxpt mapping. -/
def isPurged (entries : Entries) (w : World A P n) : Option Bool := do
  let o ← w.obj
  if o.buildDataCount = 0 then some true
  else
    let upt ← readTable o.uxPageTable w.table
    if supportUxpt && upt.isSome && w.uxpt.isNone then none
    else
      let present ← uxpteIsPresent supportUxpt fuel upt (o.dataPtr.getD 0) o.dataSizeInput entries
      some !present

/-- The double check after `munmap`, whose result is only logged. -/
def doubleCheck (entries : Entries) (w : World A P n) : Option Unit :=
  if supportUxpt then (isPurged supportUxpt fuel entries w).map fun _ => () else some ()

def destroyData (out : DestroyOutcomes) (w : World A P n) : Option (World A P n × Bool) := do
  let o ← w.obj
  match o.dataPtr with
  | none => some (w, true)
  | some _ =>
    let w ← munmapData (UxPageTable.roundUp o.dataSizeInput pageBytes) out.munmap.data w
    if !out.munmap.data then some (w, false)
    else
      doubleCheck supportUxpt fuel out.entries w
      some (setObj (fun o => { o with dataPtr := none }) w, true)

def destroyTable (unmapped : Bool) (w : World A P n) : Option (World A P n × Bool) := do
  let o ← w.obj
  if !o.uxPageTable then some (w, true)
  else
    let (w, deinitRet) ← deinitTable supportUxpt unmapped w
    if deinitRet ≠ .ok then some (w, false)
    else
      let w ← freeTable w
      some (setObj (fun o => { o with uxPageTable := false }) w, true)

def isPurgMemPtrValid (w : World A P n) : Option Bool :=
  w.obj.map fun o => o.dataPtr.isSome && o.uxPageTable && o.builder.isSome

/-- `PurgMemBeginRead` and `PurgMemBeginWrite`: the check, and the rest of the function. -/
def purgMemBegin (rest : World A P n → Option Bool) (w : World A P n) : Option Bool := do
  if !(← isPurgMemPtrValid w) then some false else rest w

variable [DecidableEq A]

def destroyBuilder (w : World A P n) : Option (World A P n × Bool) := do
  let o ← w.obj
  match o.builder with
  | none => some (w, true)
  | some builder =>
    let (nodes, _, ret) ← purgMemBuilderDestroy fuel w.nodes (some builder)
    some (if ret then setObj (fun o => { o with builder := none }) { w with nodes := nodes }
      else { w with nodes := nodes }, ret)

/-- `PurgMemDestroy` of an object that is not null. Each of the three parts is tried whatever became
of the others. -/
def purgMemDestroy (out : DestroyOutcomes) (w : World A P n) : Option (World A P n × Bool) := do
  let _ ← w.obj
  if !out.wrlock then some (w, false)
  else
    let (w, builderGone) ← destroyBuilder fuel w
    let (w, dataGone) ← destroyData supportUxpt fuel out w
    let (w, tableGone) ← destroyTable supportUxpt out.munmap.uxpt w
    if builderGone && dataGone && tableGone then (freeObj w).map (·, true) else some (w, false)

/-- `PurgMemAppendModify` on the held object. The modifier uses the data mapping. -/
def appendModify (func : P → Builder) (funcPara : P) (malloc : Option A) (w : World A P n) :
    Option (World A P n × Bool) := do
  let o ← w.obj
  if o.dataPtr.isNone || w.data.isNone then none
  else
    let (nodes, modified, ret) ← purgMemAppendModify fuel w.nodes (some ⟨w.content, o.builder⟩) (some func) funcPara malloc
    let modified ← modified
    some ({ setObj (fun o => { o with builder := modified.builder }) w with
      nodes := nodes, content := modified.content }, ret)

def purgMemCreate (len : UInt64) (func : Option (P → Builder)) (funcPara : P) (out : CreateOutcomes A)
    (w : World A P n) : Option (World A P n × Bool) := do
  if len = 0 then some (w, false)
  else
    match func with
    | none => some (w, false)
    | some func =>
      let (w, created) ← purgMemCreate_ supportUxpt fuel len none out w
      if !created then some (w, false)
      else
        let (w, appended) ← appendModify fuel func funcPara out.mallocNode w
        if appended then some (w, true)
        else
          -- Nobody else has the object yet, so its lock is free.
          let (w, _) ← purgMemDestroy supportUxpt fuel ⟨true, out.munmap, out.entries⟩ w
          some (w, false)

/-- `PurgMemDestroy` is called until it returns true. -/
def destroyUntilDone : List DestroyOutcomes → World A P n → Option (World A P n × Bool)
  | [], w => some (w, false)
  | out :: outs, w => do
    let (w, ret) ← purgMemDestroy supportUxpt fuel out w
    if ret then some (w, true) else destroyUntilDone outs w

end Functions

/-! ### Destruction -/

structure World.HoldsNothing {A P : Type} {n : Nat} (w : World A P n) : Prop where
  obj : w.obj = none
  table : w.table = none
  data : w.data = none
  uxpt : w.uxpt = none

/-- A struct from which destruction can start or go on: a pointer that is not null points to something
that is held, and every mapping has the size that destruction will compute for it. -/
structure Resumable {A P : Type} {n : Nat} (supportUxpt : Bool) (w : World A P n) (o : PurgMem A)
    (nodes : List (A × PurgMemBuilder P)) : Prop where
  obj : w.obj = some o
  chain : Chain w.nodes o.builder nodes
  data : w.data = o.dataPtr.map fun _ => UxPageTable.roundUp o.dataSizeInput pageBytes
  table : w.table.isSome = o.uxPageTable
  uxpt : w.uxpt = if supportUxpt then w.table.map fun upt => getUxPageSize upt.dataAddr upt.dataSize else none
  ready : supportUxpt = true → ∀ upt, w.table = some upt → UxPageTable.Ready upt

section Destroy

variable {A P : Type} {n : Nat} {supportUxpt : Bool} {fuel : Nat}
variable {w : World A P n} {o : PurgMem A} {nodes : List (A × PurgMemBuilder P)} {out : DestroyOutcomes}

theorem Resumable.uxpt_none_of_table (resumable : Resumable supportUxpt w o nodes) (gone : w.table = none) :
    w.uxpt = none := by
  rw [resumable.uxpt, gone]
  cases supportUxpt <;> rfl

theorem readTable_of_resumable (resumable : Resumable supportUxpt w o nodes) :
    readTable o.uxPageTable w.table = some w.table := by
  rw [readTable, ← resumable.table]
  cases w.table <;> rfl

/-- The presence check after the data is unmapped finds the table and its mapping held, or a null
table. -/
theorem doubleCheck_of_resumable (resumable : Resumable supportUxpt w o nodes) (enough : 2 ^ 52 < fuel)
    (entries : Entries) : doubleCheck supportUxpt fuel entries { w with data := none } = some () := by
  unfold doubleCheck
  cases supported : supportUxpt with
  | false => rfl
  | true =>
    rw [if_pos rfl, Option.map_eq_some_iff]
    unfold isPurged
    rw [resumable.obj, Option.bind_eq_bind, Option.bind_some]
    split
    · exact ⟨true, rfl, rfl⟩
    · rw [resumable.uxpt, supported, readTable_of_resumable resumable]
      cases held : w.table with
      | none => exact ⟨true, rfl, rfl⟩
      | some upt =>
        have checked := @uxpteOps_eq upt (resumable.ready supported upt held) (o.dataPtr.getD 0)
          o.dataSizeInput .isPresent fuel enough entries
        obtain ⟨present, answered⟩ : ∃ present, uxpteIsPresent true fuel (some upt) (o.dataPtr.getD 0)
            o.dataSizeInput entries = some present := by
          rw [uxpteIsPresent, checked]
          exact ⟨_, rfl⟩
        simp [answered]

theorem destroyBuilder_of_resumable [DecidableEq A] (resumable : Resumable supportUxpt w o nodes)
    (enough : nodes.length < fuel) :
    destroyBuilder fuel w =
      some ({ w with nodes := free w.nodes nodes, obj := some { o with builder := none } }, true) := by
  have chain := resumable.chain
  unfold destroyBuilder
  rw [resumable.obj, Option.bind_eq_bind, Option.bind_some]
  cases builder : o.builder with
  | none =>
    rw [builder] at chain
    cases chain
    obtain ⟨obj, table, data, uxpt, heap, content⟩ := w
    obtain ⟨dataPtr, dataSizeInput, _, uxPageTable, count⟩ := o
    cases builder
    cases resumable.obj
    rfl
  | some head =>
    rw [builder] at chain
    have destroyed : purgMemBuilderDestroy fuel w.nodes (some head) = some (free w.nodes nodes, addrs nodes, true) := by
      rw [purgMemBuilderDestroy, destroyNodes_of_chain chain, if_pos enough]
      rfl
    simp [destroyed, setObj]

/-- The data mapping is gone after the call unless it was there and `munmap` failed. -/
theorem destroyData_of_resumable (resumable : Resumable supportUxpt w o nodes) (enough : 2 ^ 52 < fuel)
    (out : DestroyOutcomes) :
    destroyData supportUxpt fuel out w =
      some (if o.dataPtr.isNone || out.munmap.data
        then ({ w with data := none, obj := some { o with dataPtr := none } }, true) else (w, false)) := by
  have data := resumable.data
  unfold destroyData
  rw [resumable.obj, Option.bind_eq_bind, Option.bind_some]
  cases pointer : o.dataPtr with
  | none =>
    rw [pointer] at data
    obtain ⟨obj, table, _, uxpt, heap, content⟩ := w
    obtain ⟨_, dataSizeInput, builder, uxPageTable, count⟩ := o
    cases pointer
    cases data
    cases resumable.obj
    rfl
  | some addr =>
    rw [pointer] at data
    have unmapped : munmapData (UxPageTable.roundUp o.dataSizeInput pageBytes) out.munmap.data w =
        some (if out.munmap.data then { w with data := none } else w) := if_pos data
    simp only [unmapped, Option.bind_eq_bind, Option.bind_some]
    cases succeeds : out.munmap.data with
    | false => rfl
    | true =>
      show ((doubleCheck supportUxpt fuel out.entries { w with data := none }).bind _) = _
      rw [doubleCheck_of_resumable resumable enough]
      simp [setObj, resumable.obj]

/-- What `DeinitUxPageTable` does to a table whose mapping, if the system has any, is held. -/
theorem deinitTable_of_held {upt : UxPageTableStruct} (held : w.table = some upt)
    (uxpt : w.uxpt = if supportUxpt then some (getUxPageSize upt.dataAddr upt.dataSize) else none)
    (mapped : supportUxpt = true → upt.uxpte.isSome = true) (unmapped : Bool) :
    ∃ upt', deinitTable supportUxpt unmapped w =
      some (if !supportUxpt || unmapped then ({ w with table := some upt', uxpt := none }, .ok)
        else (w, .unmapUxptFail)) := by
  obtain ⟨obj, _, data, _, heap, content⟩ := w
  cases held
  refine ⟨if supportUxpt then ⟨0, 0, none⟩ else upt, ?_⟩
  cases supportUxpt with
  | false =>
    cases uxpt
    rfl
  | true =>
    rw [if_pos rfl] at uxpt
    cases uxpt
    have present := mapped rfl
    cases unmapped <;> simp [deinitTable, deinitUxPageTable, present]

/-- The table and its mapping are gone after the call unless the mapping was there and `munmap`
failed. -/
theorem destroyTable_of_resumable (resumable : Resumable supportUxpt w o nodes) (unmapped : Bool) :
    destroyTable supportUxpt unmapped w =
      some (if !o.uxPageTable || !supportUxpt || unmapped
        then ({ w with table := none, uxpt := none, obj := some { o with uxPageTable := false } }, true)
        else (w, false)) := by
  have points := resumable.table
  unfold destroyTable
  rw [resumable.obj, Option.bind_eq_bind, Option.bind_some]
  cases held : w.table with
  | none =>
    have gone := resumable.uxpt_none_of_table held
    rw [held] at points
    obtain ⟨obj, _, data, _, heap, content⟩ := w
    obtain ⟨dataPtr, dataSizeInput, builder, _, count⟩ := o
    cases points
    cases held
    cases gone
    cases resumable.obj
    rfl
  | some upt =>
    have uxpt := resumable.uxpt
    rw [held] at points uxpt
    obtain ⟨upt', deinit⟩ := deinitTable_of_held held uxpt
      (fun supported => by rw [(resumable.ready supported upt held).mapped]; rfl) unmapped
    rw [← points, deinit]
    cases gone : (!supportUxpt || unmapped) <;> simp [gone, freeTable, setObj, resumable.obj]

theorem Resumable.withoutBuilder [DecidableEq A] (resumable : Resumable supportUxpt w o nodes) :
    Resumable supportUxpt { w with nodes := free w.nodes nodes, obj := some { o with builder := none } }
      { o with builder := none } [] :=
  ⟨rfl, .nil, resumable.data, resumable.table, resumable.uxpt, resumable.ready⟩

theorem Resumable.withoutData (resumable : Resumable supportUxpt w o nodes) :
    Resumable supportUxpt { w with data := none, obj := some { o with dataPtr := none } }
      { o with dataPtr := none } nodes :=
  ⟨rfl, resumable.chain, rfl, resumable.table, resumable.uxpt, resumable.ready⟩

theorem Resumable.withoutTable (resumable : Resumable supportUxpt w o nodes) :
    Resumable supportUxpt { w with table := none, uxpt := none, obj := some { o with uxPageTable := false } }
      { o with uxPageTable := false } nodes where
  obj := rfl
  chain := resumable.chain
  data := resumable.data
  table := rfl
  uxpt := by cases supportUxpt <;> rfl
  ready := by
    intro _ upt held
    cases held

theorem destroyData_resumable (resumable : Resumable supportUxpt w o nodes) (enough : 2 ^ 52 < fuel)
    (out : DestroyOutcomes) :
    ∃ w' o' gone, destroyData supportUxpt fuel out w = some (w', gone) ∧ Resumable supportUxpt w' o' nodes ∧
      o'.builder = o.builder ∧ w'.nodes = w.nodes ∧ (gone = true → o'.dataPtr = none) ∧
      (out.munmap.data = true → gone = true) := by
  have result := destroyData_of_resumable resumable enough out
  cases gone : (o.dataPtr.isNone || out.munmap.data) with
  | false =>
    rw [gone] at result
    refine ⟨w, o, false, result, resumable, rfl, rfl, by simp, ?_⟩
    intro unmapped
    simp [unmapped] at gone
  | true =>
    rw [gone] at result
    exact ⟨_, _, true, result, resumable.withoutData, rfl, rfl, fun _ => rfl, fun _ => rfl⟩

theorem destroyTable_resumable (resumable : Resumable supportUxpt w o nodes) (unmapped : Bool) :
    ∃ w' o' gone, destroyTable supportUxpt unmapped w = some (w', gone) ∧ Resumable supportUxpt w' o' nodes ∧
      o'.builder = o.builder ∧ o'.dataPtr = o.dataPtr ∧ w'.nodes = w.nodes ∧
      (gone = true → o'.uxPageTable = false) ∧ (unmapped = true → gone = true) := by
  have result := destroyTable_of_resumable resumable unmapped
  cases gone : (!o.uxPageTable || !supportUxpt || unmapped) with
  | false =>
    rw [gone] at result
    refine ⟨w, o, false, result, resumable, rfl, rfl, rfl, by simp, ?_⟩
    intro done
    simp [done] at gone
  | true =>
    rw [gone] at result
    exact ⟨_, _, true, result, resumable.withoutTable, rfl, rfl, rfl, fun _ => rfl, fun _ => rfl⟩

/-- Only the struct is left, and it goes last. -/
theorem Resumable.holdsNothing (resumable : Resumable supportUxpt w o nodes) (dataGone : o.dataPtr = none)
    (tableGone : o.uxPageTable = false) : ({ w with obj := none } : World A P n).HoldsNothing := by
  have table : w.table = none := by
    rw [← Option.not_isSome_iff_eq_none, resumable.table, tableGone]
    exact Bool.false_ne_true
  refine ⟨rfl, table, ?_, resumable.uxpt_none_of_table table⟩
  show w.data = none
  rw [resumable.data, dataGone]
  rfl

/-- What one call does. A false result leaves the struct as it was, or without its builders and
resumable. -/
theorem purgMemDestroy_of_resumable [DecidableEq A] (resumable : Resumable supportUxpt w o nodes)
    (enough : 2 ^ 52 < fuel) (enough' : nodes.length < fuel) (out : DestroyOutcomes) :
    ∃ w' ret, purgMemDestroy supportUxpt fuel out w = some (w', ret) ∧
      (out.wrlock = true → out.munmap.data = true → out.munmap.uxpt = true → ret = true) ∧
      (ret = true → w'.HoldsNothing ∧ w'.nodes = free w.nodes nodes) ∧
      (ret = false → w' = w ∨
        ∃ o', Resumable supportUxpt w' o' [] ∧ o'.builder = none ∧ w'.nodes = free w.nodes nodes) := by
  unfold purgMemDestroy
  rw [resumable.obj, Option.bind_eq_bind, Option.bind_some]
  cases locked : out.wrlock with
  | false => exact ⟨w, false, rfl, by simp, by simp, fun _ => .inl rfl⟩
  | true =>
    obtain ⟨w₂, o₂, dataGone, data, resumable₂, builder₂, nodes₂, gone₂, succeeds₂⟩ :=
      destroyData_resumable resumable.withoutBuilder enough out
    obtain ⟨w₃, o₃, tableGone, table, resumable₃, builder₃, data₃, nodes₃, gone₃, succeeds₃⟩ :=
      destroyTable_resumable resumable₂ out.munmap.uxpt
    have freed : w₃.nodes = free w.nodes nodes := nodes₃.trans nodes₂
    rw [destroyBuilder_of_resumable resumable enough']
    simp only [Bool.not_true, Bool.false_eq_true, if_false, Option.bind_eq_bind, Option.bind_some,
      Bool.true_and, data, table]
    cases gone : (dataGone && tableGone) with
    | false =>
      refine ⟨w₃, false, rfl, ?_, by simp, fun _ => .inr ⟨o₃, resumable₃, builder₃.trans builder₂, freed⟩⟩
      intro _ unmapsData unmapsUxpt
      simp [succeeds₂ unmapsData, succeeds₃ unmapsUxpt] at gone
    | true =>
      rw [Bool.and_eq_true] at gone
      refine ⟨{ w₃ with obj := none }, true, ?_, fun _ _ _ => rfl, ?_, by simp⟩
      · rw [if_pos rfl, freeObj, resumable₃.obj]
        rfl
      · intro _
        exact ⟨resumable₃.holdsNothing (data₃.trans (gone₂ gone.1)) (gone₃ gone.2), freed⟩

/-- Calling `PurgMemDestroy` until it returns true, from any resumable struct. -/
theorem destroyUntilDone_of_resumable [DecidableEq A] (resumable : Resumable supportUxpt w o nodes)
    (enough : 2 ^ 52 < fuel) (enough' : nodes.length < fuel) (outs : List DestroyOutcomes) :
    ∃ w' ret, destroyUntilDone supportUxpt fuel outs w = some (w', ret) ∧
      (ret = true → w'.HoldsNothing ∧ w'.nodes = free w.nodes nodes) ∧
      (ret = false → ∃ o' nodes', Resumable supportUxpt w' o' nodes' ∧ nodes'.length ≤ nodes.length) := by
  induction outs generalizing w o nodes with
  | nil => exact ⟨w, false, rfl, by simp, fun _ => ⟨o, nodes, resumable, le_rfl⟩⟩
  | cons out outs ih =>
    obtain ⟨w₁, ret, called, -, done, again⟩ := purgMemDestroy_of_resumable resumable enough enough' out
    rw [destroyUntilDone, called, Option.bind_eq_bind, Option.bind_some]
    cases ret with
    | true => exact ⟨w₁, true, rfl, done, by simp⟩
    | false =>
      obtain rfl | ⟨o₁, resumable₁, -, freed⟩ := again rfl
      · exact ih resumable enough'
      · obtain ⟨w', ret, later, done, again⟩ := ih resumable₁ (by simp; omega)
        refine ⟨w', ret, later, fun returned => ?_, fun returned => ?_⟩
        · obtain ⟨nothing, nodes'⟩ := done returned
          exact ⟨nothing, by rw [nodes', free_nil, freed]⟩
        · obtain ⟨o', nodes', resumable', shorter⟩ := again returned
          exact ⟨o', nodes', resumable', shorter.trans (Nat.zero_le nodes.length)⟩

/-- No Begin gets past its check once the builder or a mapping is gone. -/
theorem purgMemBegin_of_gone (resumable : Resumable supportUxpt w o nodes)
    (gone : o.builder = none ∨ w.data = none ∨ supportUxpt = true ∧ w.uxpt = none)
    (rest : World A P n → Option Bool) : purgMemBegin rest w = some false := by
  have invalid : isPurgMemPtrValid w = some false := by
    rw [isPurgMemPtrValid, resumable.obj, Option.map_some, Option.some.injEq]
    rcases gone with builder | data | ⟨supported, uxpt⟩
    · simp [builder]
    · rw [resumable.data, Option.map_eq_none_iff] at data
      simp [data]
    · rw [resumable.uxpt, if_pos supported, Option.map_eq_none_iff] at uxpt
      have points := resumable.table
      rw [uxpt] at points
      simp [← points]
  rw [purgMemBegin, invalid]
  rfl

end Destroy

end MemoryUtils.C.Lifecycle
