import MemoryUtils.C.Lifecycle

/-!
The access functions on the data they work on: the fields of `struct PurgMem`, the 64-bit entries of the
process behind its page table, and the builder nodes, linked by address. `C.Access` has page numbers
and a list of builders instead; here a loop over the pages has its address, and a rebuild its node.
-/

namespace MemoryUtils.C.Code
open Lib UxPageTable Uxpte

structure Memory (T A P : Type) (n : Nat) where
  obj : Lifecycle.PurgMem A
  rwlock : RwLock T
  table : UxPageTableStruct
  entries : Entries
  nodes : BuilderHeap A P
  content : Content n

inductive Pc (A P : Type) (n : Nat) where
  | idle
  | failed (m : Mode)
  | uxpteGet (m : Mode) (off : UInt64)
  | rdlock
  | isPurged (k : Check)
  | isPresent (k : Check) (off : UInt64)
  | rdUnlock
  | wrlock (m : Mode)
  | clear (m : Mode)
  | buildAll (m : Mode) (builder : Option A)
  | building (m : Mode) (builder : A) (old mid : Content n)
  | built (m : Mode)
  | wrUnlock (m : Mode) (rebuildRet : Bool)
  | uxptePut (failed : Option Mode) (off : UInt64)
  | inside (m : Mode)
  | modifying (func : P → Builder) (funcPara : P) (old mid : Content n)
  | logging (func : P → Builder) (funcPara : P)
  | endUnlock (m : Mode)

/-- `malloc` gives the address of a new node or null, and bounds the walk to the last node. -/
inductive Choice (A P : Type) (n : Nat) where
  | step
  | lockFail
  | malloc (fuel : Nat) (node : Option A)
  | beginAccess (m : Mode)
  | endAccess
  | touch (p : Nat)
  | append (func : P → Builder) (funcPara : P) (mid : Content n) (touched : Nat → Bool)
  | call (mid : Content n) (touched : Nat → Bool)
  | ret (c : Content n) (ok : Bool)

inductive Action (T A P : Type) (n : Nat) where
  | thread (t : T) (c : Choice A P n)
  | reclaim (p : Nat)

structure State (T A P : Type) (n : Nat) where
  mem : Memory T A P n
  pc : T → Pc A P n

section Functions

variable {T A P : Type} {n : Nat} (supportUxpt : Bool) (mem : Memory T A P n)

def isPurgMemPtrValid : Bool := mem.obj.dataPtr.isSome && mem.obj.uxPageTable && mem.obj.builder.isSome

def addr : UInt64 := mem.obj.dataPtr.getD 0

/-- Where the loop of `UxpteOps` over the data starts. -/
def start : UInt64 := roundDown (addr mem) pageBytes

/-- Where it ends: at once if the range is refused, and if the functions of the page table are empty. -/
def end_ : UInt64 :=
  if supportUxpt && accepts mem.table (addr mem) mem.obj.dataSizeInput then
    UxPageTable.roundUp (addr mem + mem.obj.dataSizeInput) pageBytes
  else start mem

def pageCount : Nat := (UxPageTable.roundUp mem.obj.dataSizeInput pageBytes).toNat / 4096

def firstPage : Nat := (addr mem).toNat / 4096

/-- The kernel sets the present bits of the pages that are touched. -/
def touch (touched : Nat → Bool) : Memory T A P n :=
  { mem with entries := fun i =>
      if firstPage mem ≤ i ∧ touched (i - firstPage mem) = true then mem.entries i ||| uxptePresentMask
      else mem.entries i }

/-- The kernel takes a page of the data whose entry has no pins. -/
def reclaim (p : Nat) : Option (Memory T A P n) :=
  if supportUxpt = true ∧ p < pageCount mem ∧ refcnt (mem.entries (firstPage mem + p)) = 0 then
    some { mem with
      content := fun i => if pageOf i = p then 0 else mem.content i
      entries := Function.update mem.entries (firstPage mem + p) 0 }
  else none

def enter (m : Mode) : Pc A P n := if isPurgMemPtrValid mem then .uxpteGet m (start mem) else .failed m

def leave (m : Mode) : Pc A P n := if isPurgMemPtrValid mem then .endUnlock m else .idle

def firstLock : Mode → Pc A P n
  | .read => .rdlock
  | .write => .wrlock .write

def purged : Check → Pc A P n
  | .tryRead => .rdUnlock
  | .buildRead => .clear .read
  | .write => .clear .write

def notPurged : Check → Pc A P n
  | .tryRead => .inside .read
  | .buildRead => .wrUnlock .read false
  | .write => .inside .write

/-- `IsPurged`. A range that is refused counts as purged. -/
def checkPresent (k : Check) : Pc A P n :=
  if mem.obj.buildDataCount = 0 then purged k
  else if supportUxpt && !accepts mem.table (addr mem) mem.obj.dataSizeInput then purged k
  else .isPresent k (start mem)

def afterBuild : Mode → Pc A P n
  | .read => .wrUnlock .read true
  | .write => .inside .write

def put (failed : Option Mode) : Pc A P n := .uxptePut failed (start mem)

def afterUnlock (m : Mode) (rebuildRet : Bool) : Pc A P n :=
  if m = .read ∧ rebuildRet then .rdlock else put mem (some m)

def afterPut : Option Mode → Pc A P n
  | some m => .failed m
  | none => .idle

/-- `PurgMemBuilderBuildAll` after the call of a builder. -/
def afterBuilder (m : Mode) (nextBuilder : Option A) (ok : Bool) : Pc A P n :=
  if ok then (if nextBuilder.isNone then .built m else .buildAll m nextBuilder) else .wrUnlock m false

def afterModifier (func : P → Builder) (funcPara : P) (ok : Bool) : Pc A P n :=
  if ok then .logging func funcPara else .inside .write

def setCount (count : UInt32) : Memory T A P n := { mem with obj := { mem.obj with buildDataCount := count } }

/-- `PurgMemAppendModify` after its modifier succeeded. -/
def logNode [DecidableEq A] (fuel : Nat) (func : P → Builder) (funcPara : P) (node : Option A) :
    Option (Memory T A P n) :=
  match purgMemBuilderCreate mem.nodes (some func) funcPara node with
  | (_, none) => some mem
  | (nodes, some newcomer) =>
    match mem.obj.builder with
    | none => some { mem with nodes := nodes, obj := { mem.obj with builder := some newcomer } }
    | some builder =>
      (purgMemBuilderAppendBuilder fuel nodes (some builder) (some newcomer)).map fun r => { mem with nodes := r.1 }

variable [DecidableEq T] [DecidableEq A]

/-- One statement of thread `t`. A node that is followed has to be allocated. -/
def threadStep (t : T) : Pc A P n → Choice A P n → Option (Memory T A P n × Pc A P n)
  | .idle, .beginAccess m => some (mem, enter mem m)
  | .failed _, .beginAccess m => some (mem, enter mem m)
  | .uxpteGet m off, .step =>
    if off < end_ supportUxpt mem then
      some ({ mem with entries := mem.table.getUxpteAt off mem.entries }, .uxpteGet m (off + pageBytes))
    else some (mem, firstLock m)
  | .rdlock, .step => (mem.rwlock.rdlock t).map fun l => ({ mem with rwlock := l }, .isPurged .tryRead)
  | .rdlock, .lockFail => some (mem, put mem (some .read))
  | .isPurged k, .step => some (mem, checkPresent supportUxpt mem k)
  | .isPresent k off, .step =>
    if off < end_ supportUxpt mem then
      some (mem, if mem.table.isPresentAt off mem.entries then .isPresent k (off + pageBytes) else purged k)
    else some (mem, notPurged k)
  | .rdUnlock, .step => some ({ mem with rwlock := mem.rwlock.unlock t }, .wrlock .read)
  | .rdUnlock, .lockFail => some (mem, put mem (some .read))
  | .wrlock m, .step => (mem.rwlock.wrlock t).map fun l => ({ mem with rwlock := l }, .isPurged (checkAfter m))
  | .wrlock m, .lockFail => some (mem, put mem (some m))
  | .clear m, .step =>
    if memsetSucceeds (UxPageTable.roundUp mem.obj.dataSizeInput pageBytes).toNat mem.obj.dataSizeInput.toNat then
      some ({ touch mem (fun p => decide (p < pageCount mem)) with content := zeros }, .buildAll m mem.obj.builder)
    else some (mem, .wrUnlock m false)
  | .buildAll m none, .step => some (mem, .wrUnlock m false)
  | .buildAll m (some builder), .step =>
    (mem.nodes builder).bind fun node => if node.value.build.isNone then some (mem, .built m) else none
  | .buildAll m (some builder), .call mid touched =>
    (mem.nodes builder).bind fun node =>
      if node.value.build.isSome then
        some ({ touch mem touched with content := mid }, .building m builder mem.content mid)
      else none
  | .building m builder _ _, .ret c ok =>
    (mem.nodes builder).map fun node => ({ mem with content := c }, afterBuilder m node.next ok)
  | .built m, .step => some (setCount mem (mem.obj.buildDataCount + 1), afterBuild m)
  | .wrUnlock m ret, .step => some ({ mem with rwlock := mem.rwlock.unlock t }, afterUnlock mem m ret)
  | .wrUnlock m _, .lockFail => some (mem, put mem (some m))
  | .uxptePut r off, .step =>
    if off < end_ supportUxpt mem then
      some ({ mem with entries := mem.table.putUxpteAt off mem.entries }, .uxptePut r (off + pageBytes))
    else some (mem, afterPut r)
  | .inside m, .endAccess => some (mem, leave mem m)
  | .inside m, .touch p => if p < pageCount mem then some (touch mem (· == p), .inside m) else none
  | .inside .write, .append func funcPara mid touched =>
    some ({ touch mem touched with content := mid }, .modifying func funcPara mem.content mid)
  | .modifying func funcPara _ _, .ret c ok => some ({ mem with content := c }, afterModifier func funcPara ok)
  | .logging func funcPara, .malloc fuel node =>
    (logNode mem fuel func funcPara node).map fun mem => (mem, .inside .write)
  | .endUnlock _, .step => some ({ mem with rwlock := mem.rwlock.unlock t }, put mem none)
  | .endUnlock _, .lockFail => some (mem, put mem none)
  | _, _ => none

def step (s : State T A P n) : Action T A P n → Option (State T A P n)
  | .thread t c => (threadStep supportUxpt s.mem t (s.pc t) c).map fun r =>
      { mem := r.1, pc := Function.update s.pc t r.2 }
  | .reclaim p => (reclaim supportUxpt s.mem p).map fun mem => { s with mem := mem }

end Functions

/-! ### What `PurgMemCreate` returns -/

section Created

variable {T A P : Type} [DecidableEq A] (S : Setup)

/-- The object in the memory that a creation left. `InitUxPageTable` cleared the entries, and since then
pages were touched. -/
structure ReturnedBy (w : Lifecycle.World A P S.len) (out : Lifecycle.CreateOutcomes A) (fuel : Nat)
    (mem : Memory T A P S.len) : Prop where
  obj : w.obj = some mem.obj
  table : w.table = some mem.table
  nodes : w.nodes = mem.nodes
  rwlock : mem.rwlock = {}
  entries : S.supportUxpt = true → ∃ cleared, initUxPageTable true out.mmapUxpt fuel out.mallocTable (addr mem)
      (UxPageTable.roundUp mem.obj.dataSizeInput pageBytes) out.entries = some (.ok, some mem.table, cleared) ∧
    ∀ i, mem.entries i = cleared i ∨ mem.entries i = cleared i ||| uxptePresentMask

/-- No thread has used the object yet. The content is whatever the modifier and the kernel left. -/
def Returned (s : State T A P S.len) : Prop :=
  (∃ (before after : Lifecycle.World A P S.len) (func : Option (P → Builder)) (funcPara : P)
      (out : Lifecycle.CreateOutcomes A) (fuel : Nat),
    before.HoldsNothing ∧ (∀ x, out.mallocNode = some x → before.nodes x = none) ∧ 2 ^ 52 < fuel ∧
    Lifecycle.purgMemCreate S.supportUxpt fuel (UInt64.ofNat S.len) func funcPara out before = some (after, true) ∧
    ReturnedBy S after out fuel s.mem) ∧
  ∀ t, s.pc t = .idle

variable [DecidableEq T]

def accesses : System (State T A P S.len) (Action T A P S.len) where
  init := Returned S
  step := step S.supportUxpt

end Created

end MemoryUtils.C.Code
