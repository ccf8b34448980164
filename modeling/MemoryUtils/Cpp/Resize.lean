import MemoryUtils.Cpp.Classes

/-!
Creating and resizing objects of the two classes. `ResizeData` replaces the memory and, with it,
the page table or the ashmem file; every other field of the object stays. It does not take
`dataLock_`, but runs between the calls that do.
-/

namespace MemoryUtils.Cpp
open Lib

def maximumPurgeableMemory : Nat := 1024 * 1024 * 1024

variable {K R D D' : Type}

/-- No accepted size is too large for `memset_s`. -/
theorem memset_fits {n : Nat} (positive : 0 < n) (small : n < maximumPurgeableMemory) :
    memsetSucceeds (roundUp n pageSize) n = true := by
  rw [maximumPurgeableMemory] at small
  rw [roundUp_page (by rw [pageSize_eq]; omega), memsetSucceeds, decide_eq_true_eq, pageSize_eq,
    securecMemMaxLen]
  omega

/-- The object over a new memory, in which no rebuild has failed. -/
def Base.moved (o : Base D) (data : D') (dataPtr : Bool) : Base D' where
  data := data
  dataPtr := dataPtr
  isDataValid := o.isDataValid
  builder := o.builder
  buildDataCount := o.buildDataCount
  clears := o.clears
  rebuilds := o.rebuilds

/-! ### Objects that refuse every access -/

/-- Everything but a modification, which may give an object its first builder. -/
def Action.isAccess {n : Nat} : Action n K → Bool
  | .modify _ _ => false
  | _ => true

/-- Without a builder or without data no access is opened, and only the kernel changes the memory. -/
theorem step_refused {n : Nat} {V : Virtuals n D K} {s t : State D} {a : Action n K}
    (lacks : s.obj.builder = [] ∨ s.obj.dataPtr = false) (closed : s.opens = 0) (access : a.isAccess = true)
    (h : step V s a = some t) :
    t.obj.builder = s.obj.builder ∧ t.obj.dataPtr = s.obj.dataPtr ∧ t.opens = 0 ∧
      (t.obj.data = s.obj.data ∨ ∃ k, t.obj.data = V.kernel s.obj.data k) := by
  have reads : s.reads = 0 := by
    unfold State.opens at closed
    omega
  have writes : s.writes = 0 := by
    unfold State.opens at closed
    omega
  cases a with
  | beginRead E =>
    have refused : beginRead V E s.obj = (s.obj, false) := by
      rcases lacks with empty | absent
      · simp [beginRead, empty]
      · simp [beginRead, absent]
    simp only [step, refused, Option.some.injEq] at h
    subst h
    exact ⟨rfl, rfl, closed, .inl rfl⟩
  | beginWrite E =>
    have refused : beginWrite V E s.obj = (s.obj, false) := by
      rcases lacks with empty | absent
      · simp [beginWrite, empty]
      · simp [beginWrite, absent]
    simp only [step, refused, Option.some.injEq] at h
    subst h
    exact ⟨rfl, rfl, closed, .inl rfl⟩
  | endRead E => simp [step, reads] at h
  | endWrite E => simp [step, writes] at h
  | modify modifier E => cases access
  | setDataValid target =>
    cases h
    exact ⟨rfl, rfl, closed, .inl rfl⟩
  | touch touched => simp [step, closed] at h
  | kernel k =>
    cases h
    exact ⟨rfl, rfl, closed, .inr ⟨k, rfl⟩⟩

/-! ### Resizing -/

/-- A class whose objects can be resized. An index is what stays fixed between two resizes; `R` is
what the system answers while the memory is created. -/
structure Resizable (K R : Type) where
  Index : Type
  size : Index → Nat
  Data : Index → Type
  virtuals : (i : Index) → Virtuals (size i) (Data i) K
  Fresh : (i : Index) → Data i → Prop
  /-- The new index and memory, and whether `dataPtr_` points to it. -/
  createPurgeableData : Index → (dataSizeInput : Nat) → 0 < dataSizeInput →
    dataSizeInput < maximumPurgeableMemory → R → (i : Index) × Data i × Bool

structure Object (C : Resizable K R) where
  index : C.Index
  state : State (C.Data index)

/-- The old memory is unmapped without an error. -/
def resizeData (C : Resizable K R) (newSize : Nat) (r : R) (x : Object C) : Object C :=
  if accepted : 0 < newSize ∧ newSize < maximumPurgeableMemory then
    let created := C.createPurgeableData x.index newSize accepted.1 accepted.2 r
    { index := created.1
      state :=
        { obj := x.state.obj.moved created.2.1 created.2.2
          reads := x.state.reads
          writes := x.state.writes } }
  else x

/-- An access says what its environment does at every size the object may have. -/
inductive Call (C : Resizable K R) where
  | access (a : (i : C.Index) → Action (C.size i) K)
  | resizeData (newSize : Nat) (r : R)

def Resizable.calls (C : Resizable K R) : System (Object C) (Call C) where
  init x := (Cpp.calls (C.virtuals x.index) (C.Fresh x.index)).init x.state
  step x
    | .access a => (step (C.virtuals x.index) x.state (a x.index)).map (Object.mk x.index)
    | .resizeData newSize r => some (Cpp.resizeData C newSize r x)

/-! ### `PurgeableMem` -/

/-- How `CreatePurgeableData` fares: the `mmap` of the data, `make_unique` of the page table, and in
its constructor the `malloc` of the structure and the `mmap` of the uxpte pages. -/
structure Creation where
  mapped : Bool := true
  made : Bool := true
  malloced : Bool := true
  uxptMapped : Bool := true

/-- `UxPageTable::UxPageTable` frees its structure where `InitUxPageTable` fails. -/
def uxPageTable (supportUxpt malloced uxptMapped : Bool) : PageTable :=
  if supportUxpt && !(malloced && uxptMapped) then .noStruct else .ready

def Creation.pageTable (c : Creation) (supportUxpt : Bool) : PageTable :=
  if c.mapped && c.made then uxPageTable supportUxpt c.malloced c.uxptMapped else .null

namespace PurgeableMem

structure Index where
  setup : Setup
  pageTable : PageTable

/-- Anonymous memory is zero, and `InitUxPageTable` clears the entries. -/
def createPurgeableData (i : Index) (dataSizeInput : Nat) (positive : 0 < dataSizeInput)
    (small : dataSizeInput < maximumPurgeableMemory) (c : Creation) : (i : Index) × Region i.setup.len × Bool :=
  let setup : Setup :=
    { len := dataSizeInput
      supportUxpt := i.setup.supportUxpt
      len_pos := positive
      len_fits := by
        rw [maximumPurgeableMemory] at small
        rw [pageSize_eq]
        omega }
  ⟨⟨setup, c.pageTable i.setup.supportUxpt⟩, ⟨zeros, fun _ => {}⟩, c.mapped⟩

@[reducible] def resizable : Resizable PageStep Creation where
  Index := Index
  size i := i.setup.len
  Data i := Region i.setup.len
  virtuals i := virtuals i.setup i.pageTable
  Fresh i := Fresh i.setup
  createPurgeableData := createPurgeableData

/-- The constructor, for a size that it accepts. It keeps the builder only after `CreatePurgeableData`
returned true. -/
def construct (S : Setup) (c : Creation) (builder : List Builder) (r : Region S.len) : State (Region S.len) :=
  { obj := { data := r, dataPtr := c.mapped, builder := if c.mapped && c.made then builder else [] } }

end PurgeableMem

/-! ### `PurgeableAshMem` -/

/-- How `CreatePurgeableData` fares: what `AshmemCreate` returns, and whether `AshmemSetProt` and `mmap`
succeed. -/
structure AshmemCreation where
  fd : Int
  protSet : Bool := true
  mapped : Bool := true

namespace PurgeableAshMem

structure Index where
  dataSizeInput : Nat
  ashmemFd : Int

/-- The file is not purged; it is pinned by `ASHMEM_SET_PURGEABLE` and then unpinned by the library. -/
def createPurgeableData (isSupport : Bool) (i : Index) (dataSizeInput : Nat) (c : AshmemCreation) :
    (i : Index) × Ashmem i.dataSizeInput × Bool :=
  let mapped : Ashmem dataSizeInput := { content := zeros, pinCount := 1, purged := false }
  if c.fd < 0 ∨ c.protSet = false then ⟨⟨dataSizeInput, i.ashmemFd⟩, mapped, false⟩
  else if c.mapped = false then ⟨⟨dataSizeInput, c.fd⟩, mapped, false⟩
  else ⟨⟨dataSizeInput, c.fd⟩, unpin isSupport c.fd (fun _ d => d) mapped, true⟩

/-- `isSupport` is the answer of the system to `ASHMEM_GET_PURGEABLE`. -/
@[reducible] def resizable (isSupport : Bool) : Resizable AshmemStep AshmemCreation where
  Index := Index
  size i := i.dataSizeInput
  Data i := Ashmem i.dataSizeInput
  virtuals i := virtuals i.dataSizeInput isSupport i.ashmemFd
  Fresh i := Fresh isSupport i.ashmemFd
  createPurgeableData i dataSizeInput _ _ c := createPurgeableData isSupport i dataSizeInput c

end PurgeableAshMem

end MemoryUtils.Cpp
