import MemoryUtils.Lib.System
import Mathlib.Data.List.TakeWhile

/-!
The dma-buf heap library: opening a heap by name, allocating buffers from it and giving both back.
What it calls, `strcat_s`, `open`, `close` and the two `ioctl` requests, is a parameter; the results
about runs name what these calls are documented to do with the descriptors of the process.
-/

namespace MemoryUtils.Dmabuf
open Lib

/-! ### Heap names -/

def nul : Char := Char.ofNat 0

/-- The bytes of a string before its terminator. -/
abbrev CString := { s : List Char // nul ∉ s }

def dmaBufHeapRoot : List Char := ['/', 'd', 'e', 'v', '/', 'd', 'm', 'a', '_', 'h', 'e', 'a', 'p', '/']
def heapRootLen : Nat := dmaBufHeapRoot.length
def heapNameMaxLen : Nat := 128
def heapPathLen : Nat := heapRootLen + heapNameMaxLen + 1
def securecStringMaxLen : Nat := 0x7fffffff
def eok : Int := 0
def einval : Int := 22

def isHeapNameValid : Option CString → Bool
  | none => false
  | some heapName => !(heapName.1.length == 0 || decide (heapName.1.length > heapNameMaxLen))

/-- The string in a buffer. -/
def stringIn (buffer : List Char) : List Char := buffer.takeWhile (· ≠ nul)

/-- `char heapPath[HEAP_PATH_LEN] = DMA_BUF_HEAP_ROOT`. -/
def heapPathInit : List Char := dmaBufHeapRoot ++ List.replicate (heapPathLen - heapRootLen) nul

/-! ### The calls into other code -/

inductive DmaHeapFlagOwnerId where
  | dmaOwnerDefault | dmaOwnerGpu | dmaOwnerMediaCodec | countDmaOwner

/-- What a descriptor is open on. -/
inductive File where
  | opened (path : List Char)
  | dmabuf (len heapFlags : Nat)
  | other (id : Nat)
  deriving DecidableEq

abbrev FileTable := Nat → Option File

/-- The functions that the library calls, with `K` for the state of the kernel. `ioctlAlloc` gives the `fd`
of the allocation data next to the result, and `files` is what can be said of a kernel state here. -/
structure Platform (K : Type) where
  strcatS : List Char → Nat → CString → List Char × Int
  open_ : K → List Char → K × Int
  close : K → Nat → K × Int
  ioctlAlloc : K → Nat → Nat → Nat → K × Nat × Int
  ioctlSync : K → Nat → Nat → K × Int
  setOwnerIdForHeapFlags : Nat → DmaHeapFlagOwnerId → Nat
  files : K → FileTable

/-- What the manuals say of these calls. `strcat_s` appends where the result fits. A successful `open` or
allocation gives a descriptor that was not in use, and a failing one gives none; `close` gives the
descriptor back whatever it returns; a sync leaves the descriptors alone. -/
structure Documented {K : Type} (sys : Platform K) : Prop where
  strcatS_fits : ∀ dest src, nul ∈ dest → dest.length ≤ securecStringMaxLen →
    (stringIn dest).length + src.1.length < dest.length → ∃ dest', sys.strcatS dest dest.length src = (dest', eok) ∧
      stringIn dest' = stringIn dest ++ src.1
  open_failed : ∀ k path, (sys.open_ k path).2 < 0 → sys.files (sys.open_ k path).1 = sys.files k
  open_done : ∀ k path (fd : Nat), (sys.open_ k path).2 = fd → sys.files k fd = none ∧
    sys.files (sys.open_ k path).1 = Function.update (sys.files k) fd (some (.opened path))
  close_open : ∀ k fd, sys.files k fd ≠ none → sys.files (sys.close k fd).1 = Function.update (sys.files k) fd none
  alloc_failed : ∀ k heapFd len heapFlags, (sys.ioctlAlloc k heapFd len heapFlags).2.2 < 0 →
    sys.files (sys.ioctlAlloc k heapFd len heapFlags).1 = sys.files k
  alloc_done : ∀ k heapFd len heapFlags, 0 ≤ (sys.ioctlAlloc k heapFd len heapFlags).2.2 →
    sys.files k (sys.ioctlAlloc k heapFd len heapFlags).2.1 = none ∧
    sys.files (sys.ioctlAlloc k heapFd len heapFlags).1 =
      Function.update (sys.files k) (sys.ioctlAlloc k heapFd len heapFlags).2.1 (some (.dmabuf len heapFlags))
  sync_keeps : ∀ k fd flags, sys.files (sys.ioctlSync k fd flags).1 = sys.files k

/-! ### The functions -/

structure DmabufHeapBuffer where
  fd : Nat := 0
  size : Nat := 0
  heapFlags : Nat := 0

/-- The kernel, the net uses that `memtrace` was told of for each address and size, and the client's
buffer structures by address. -/
structure World (K : Type) where
  kernel : K
  traced : Nat → Nat → Int
  buffers : Nat → DmabufHeapBuffer

section Functions

variable {K : Type} (sys : Platform K) (w : World K)

def memtrace (addr size : Nat) (isUsing : Bool) : World K :=
  { w with traced := fun a n => w.traced a n + if a = addr ∧ n = size then (if isUsing then 1 else -1) else 0 }

def World.store (a : Nat) (b : DmabufHeapBuffer) : World K := { w with buffers := Function.update w.buffers a b }

def dmabufHeapOpen (heapName : Option CString) : World K × Int :=
  match isHeapNameValid heapName, heapName with
  | true, some name =>
    let (heapPath, ret) := sys.strcatS heapPathInit heapPathLen name
    if ret ≠ eok then (w, -einval)
    else
      let (kernel, fd) := sys.open_ w.kernel (stringIn heapPath)
      let w := { w with kernel := kernel }
      if fd < 0 then (w, fd) else (memtrace w fd.toNat heapNameMaxLen true, fd)
  | _, _ => (w, -einval)

/-- `close` on the kernel of a world. -/
def closeIn (fd : Nat) : World K × Int :=
  let (kernel, ret) := sys.close w.kernel fd
  ({ w with kernel := kernel }, ret)

def dmabufHeapClose (fd : Nat) : World K × Int := closeIn sys (memtrace w fd heapNameMaxLen false) fd

def dmabufHeapBufferAlloc (heapFd : Nat) (buffer : Option Nat) : World K × Int :=
  match buffer with
  | none => (w, -einval)
  | some a =>
    if (w.buffers a).size = 0 then (w, -einval)
    else
      let (kernel, fd, ret) := sys.ioctlAlloc w.kernel heapFd (w.buffers a).size (w.buffers a).heapFlags
      let w := { w with kernel := kernel }
      if ret < 0 then (w, ret)
      else ((memtrace w a (w.buffers a).size true).store a { w.buffers a with fd := fd }, ret)

/-- `buffer->fd` is unsigned, so the check before the close never fires. -/
def dmabufHeapBufferFree (buffer : Option Nat) : World K × Int :=
  match buffer with
  | none => (w, -einval)
  | some a =>
    let w := memtrace w a (w.buffers a).size false
    if (w.buffers a).fd < 0 then (w, -einval) else closeIn sys w (w.buffers a).fd

def dmaBufSyncRead : Nat := 1
def dmaBufSyncWrite : Nat := 2
def dmaBufSyncRw : Nat := dmaBufSyncRead ||| dmaBufSyncWrite
def dmaBufSyncStart : Nat := 0
def dmaBufSyncEnd : Nat := 4

def directions : List Nat := [dmaBufSyncRead, dmaBufSyncWrite, dmaBufSyncRw]

def isSyncTypeValid (syncType : Nat) : Bool :=
  syncType == dmaBufSyncRw || syncType == dmaBufSyncRead || syncType == dmaBufSyncWrite

def bufferSync (phase fd syncType : Nat) : World K × Int :=
  if !isSyncTypeValid syncType then (w, -einval)
  else
    let (kernel, ret) := sys.ioctlSync w.kernel fd (phase ||| syncType)
    ({ w with kernel := kernel }, ret)

def dmabufHeapBufferSyncStart (fd syncType : Nat) : World K × Int := bufferSync sys w dmaBufSyncStart fd syncType
def dmabufHeapBufferSyncEnd (fd syncType : Nat) : World K × Int := bufferSync sys w dmaBufSyncEnd fd syncType

def setOwnerIdForHeapFlags (buffer : Option Nat) (ownerId : DmaHeapFlagOwnerId) : World K :=
  match buffer with
  | none => w
  | some a =>
    w.store a { w.buffers a with heapFlags := sys.setOwnerIdForHeapFlags (w.buffers a).heapFlags ownerId }

end Functions

/-! ### What the functions do to the descriptors -/

section Descriptors

variable {K : Type} {sys : Platform K} {w : World K}

/-- The world with the file table in place of the kernel. -/
def World.seen (sys : Platform K) (w : World K) : World FileTable := { w with kernel := sys.files w.kernel }

def World.install (w : World FileTable) (fd : Nat) (file : Option File) : World FileTable :=
  { w with kernel := Function.update w.kernel fd file }

theorem negative_einval : -einval < 0 := by decide

theorem heapPathInit_string : stringIn heapPathInit = dmaBufHeapRoot := by decide

/-- The buffer is as long as the longest path, so an accepted name always fits. -/
theorem strcatS_heapPath (documented : Documented sys) {name : CString} (short : name.1.length ≤ heapNameMaxLen) :
    ∃ heapPath, sys.strcatS heapPathInit heapPathLen name = (heapPath, eok) ∧
      stringIn heapPath = dmaBufHeapRoot ++ name.1 := by
  have size : heapPathInit.length = heapPathLen := by
    rw [heapPathInit, List.length_append, List.length_replicate]
    rfl
  have root : dmaBufHeapRoot.length = 14 := rfl
  have room : heapPathLen = 143 := rfl
  unfold heapNameMaxLen at short
  obtain ⟨heapPath, appended, path⟩ := documented.strcatS_fits heapPathInit name (by decide)
    (by rw [size, room, securecStringMaxLen]; omega) (by rw [heapPathInit_string, size]; omega)
  rw [size] at appended
  rw [heapPathInit_string] at path
  exact ⟨heapPath, appended, path⟩

/-- What is handed to the kernel is the root and the name, for one to 128 bytes. -/
theorem dmabufHeapOpen_cases (documented : Documented sys) (w : World K) (heapName : Option CString) :
    ((dmabufHeapOpen sys w heapName).2 < 0 ∧ (dmabufHeapOpen sys w heapName).1.seen sys = w.seen sys) ∨
    ∃ name fd, heapName = some name ∧ 0 < name.1.length ∧ name.1.length ≤ heapNameMaxLen ∧
      sys.files w.kernel fd = none ∧ (dmabufHeapOpen sys w heapName).2 = (fd : Int) ∧
      (dmabufHeapOpen sys w heapName).1.seen sys =
        memtrace ((w.seen sys).install fd (some (.opened (dmaBufHeapRoot ++ name.1)))) fd heapNameMaxLen true := by
  unfold dmabufHeapOpen
  split
  · rename_i name valid
    simp only [isHeapNameValid, Bool.not_eq_true', Bool.or_eq_false_iff, beq_eq_false_iff_ne,
      decide_eq_false_iff_not, Nat.not_lt] at valid
    obtain ⟨nonempty, short⟩ := valid
    obtain ⟨heapPath, fits, path⟩ := strcatS_heapPath documented short
    rw [fits]
    dsimp only
    rw [if_neg (fun wrong => wrong rfl), path]
    by_cases failed : (sys.open_ w.kernel (dmaBufHeapRoot ++ name.1)).2 < 0
    · rw [if_pos failed]
      refine .inl ⟨failed, ?_⟩
      simp only [World.seen, documented.open_failed _ _ failed]
    · obtain ⟨fd, done⟩ := Int.eq_ofNat_of_zero_le (Int.not_lt.mp failed)
      obtain ⟨free, table⟩ := documented.open_done _ _ fd done
      rw [if_neg failed, done]
      refine .inr ⟨name, fd, rfl, Nat.pos_of_ne_zero nonempty, short, free, rfl, ?_⟩
      simp only [World.seen, memtrace, World.install, table, Int.toNat_natCast]
  · exact .inl ⟨negative_einval, rfl⟩

theorem dmabufHeapBufferAlloc_cases (documented : Documented sys) (w : World K) (heapFd : Nat)
    (buffer : Option Nat) :
    ((dmabufHeapBufferAlloc sys w heapFd buffer).2 < 0 ∧
      (dmabufHeapBufferAlloc sys w heapFd buffer).1.seen sys = w.seen sys) ∨
    ∃ a fd, buffer = some a ∧ sys.files w.kernel fd = none ∧ 0 ≤ (dmabufHeapBufferAlloc sys w heapFd buffer).2 ∧
      (dmabufHeapBufferAlloc sys w heapFd buffer).1.seen sys =
        (memtrace ((w.seen sys).install fd (some (.dmabuf (w.buffers a).size (w.buffers a).heapFlags))) a
          (w.buffers a).size true).store a { w.buffers a with fd := fd } := by
  unfold dmabufHeapBufferAlloc
  split
  · exact .inl ⟨negative_einval, rfl⟩
  · rename_i a
    split
    · exact .inl ⟨negative_einval, rfl⟩
    · dsimp only
      by_cases failed : (sys.ioctlAlloc w.kernel heapFd (w.buffers a).size (w.buffers a).heapFlags).2.2 < 0
      · rw [if_pos failed]
        refine .inl ⟨failed, ?_⟩
        simp only [World.seen, documented.alloc_failed _ _ _ _ failed]
      · have done := Int.not_lt.mp failed
        obtain ⟨free, table⟩ := documented.alloc_done _ _ _ _ done
        rw [if_neg failed]
        refine .inr ⟨a, _, rfl, free, done, ?_⟩
        simp only [World.seen, memtrace, World.store, World.install, table]

theorem closeIn_seen (documented : Documented sys) {fd : Nat} (held : sys.files w.kernel fd ≠ none) :
    (closeIn sys w fd).1.seen sys = (w.seen sys).install fd none := by
  simp only [closeIn, World.seen, World.install, documented.close_open _ _ held]

theorem dmabufHeapBufferFree_some (w : World K) (a : Nat) :
    dmabufHeapBufferFree sys w (some a) = closeIn sys (memtrace w a (w.buffers a).size false) (w.buffers a).fd := by
  simp only [dmabufHeapBufferFree, Nat.not_lt_zero, if_false]
  rfl

theorem bufferSync_seen (documented : Documented sys) (w : World K) (phase fd syncType : Nat) :
    (bufferSync sys w phase fd syncType).1.seen sys = w.seen sys := by
  unfold bufferSync
  split
  · rfl
  · simp only [World.seen, documented.sync_keeps]

theorem isSyncTypeValid_iff {syncType : Nat} : isSyncTypeValid syncType = true ↔ syncType ∈ directions := by
  simp only [isSyncTypeValid, directions, Bool.or_eq_true, beq_iff_eq, List.mem_cons, List.not_mem_nil, or_false]
  tauto

/-- A sync hands the three directions to the kernel and its answer back; it refuses the rest by itself. -/
theorem bufferSync_result (w : World K) (phase fd syncType : Nat) :
    (bufferSync sys w phase fd syncType).2 =
      if syncType ∈ directions then (sys.ioctlSync w.kernel fd (phase ||| syncType)).2 else -einval := by
  unfold bufferSync
  cases valid : isSyncTypeValid syncType with
  | true =>
    rw [if_pos (isSyncTypeValid_iff.mp valid)]
    rfl
  | false =>
    have other : syncType ∉ directions := fun known => by simp [isSyncTypeValid_iff.mpr known] at valid
    rw [if_neg other]
    rfl

end Descriptors

/-! ### Runs of a client -/

/-- Ghosts: the heap descriptors the client holds, with the names they were opened by, and the buffers
it has allocated and not freed. -/
structure State (K : Type) where
  world : World K
  heaps : Nat → Option CString := fun _ => none
  live : Nat → Bool := fun _ => false

/-- In `kernel` the kernel changes by itself, so that nothing fixes what the next call answers. -/
inductive Action (K : Type) where
  | heapOpen (heapName : Option CString)
  | heapClose (fd : Nat)
  | bufferAlloc (heapFd : Nat) (buffer : Option Nat)
  | bufferFree (buffer : Option Nat)
  | syncStart (fd syncType : Nat)
  | syncEnd (fd syncType : Nat)
  | setOwner (buffer : Option Nat) (ownerId : DmaHeapFlagOwnerId)
  | prepare (a : Nat) (b : DmabufHeapBuffer)
  | kernel (k : K)

def mark (live : Nat → Bool) (buffer : Option Nat) (inUse : Bool) : Nat → Bool :=
  match buffer with
  | none => live
  | some a => Function.update live a inUse

section Runs

variable {K : Type} (sys : Platform K)

/-- The client keeps a descriptor that `DmabufHeapOpen` returned and a buffer that
`DmabufHeapBufferAlloc` filled, and forgets what it gives back. -/
def step (s : State K) : Action K → Option (State K)
  | .heapOpen heapName =>
    let r := dmabufHeapOpen sys s.world heapName
    some { s with world := r.1, heaps := if r.2 < 0 then s.heaps else Function.update s.heaps r.2.toNat heapName }
  | .heapClose fd =>
    some { s with world := (dmabufHeapClose sys s.world fd).1, heaps := Function.update s.heaps fd none }
  | .bufferAlloc heapFd buffer =>
    let r := dmabufHeapBufferAlloc sys s.world heapFd buffer
    some { s with world := r.1, live := if r.2 < 0 then s.live else mark s.live buffer true }
  | .bufferFree buffer =>
    some { s with world := (dmabufHeapBufferFree sys s.world buffer).1, live := mark s.live buffer false }
  | .syncStart fd syncType => some { s with world := (dmabufHeapBufferSyncStart sys s.world fd syncType).1 }
  | .syncEnd fd syncType => some { s with world := (dmabufHeapBufferSyncEnd sys s.world fd syncType).1 }
  | .setOwner buffer ownerId => some { s with world := setOwnerIdForHeapFlags sys s.world buffer ownerId }
  | .prepare a b => some { s with world := s.world.store a b }
  | .kernel k => some { s with world := { s.world with kernel := k } }

def clients (start : World K) : System (State K) (Action K) where
  init s := s = { world := start }
  step := step sys

/-- Each handle is given back once, a buffer that is in use is not overwritten, and by itself the kernel
leaves the descriptors alone. -/
def Usage (s : State K) : Action K → Prop
  | .heapClose fd => s.heaps fd ≠ none
  | .bufferAlloc _ (some a) | .prepare a _ => s.live a = false
  | .bufferFree (some a) => s.live a = true
  | .kernel k => sys.files k = sys.files s.world.kernel
  | _ => True

def State.seen (s : State K) : State FileTable := { s with world := s.world.seen sys }

end Runs

/-- Which files and trace entries belong to the handles, and that the rest is as it was. -/
structure Conserved (start : World FileTable) (s : State FileTable) : Prop where
  heap : ∀ fd name, s.heaps fd = some name → s.world.kernel fd = some (.opened (dmaBufHeapRoot ++ name.1))
  buffer : ∀ a, s.live a = true →
    ∃ flags, s.world.kernel (s.world.buffers a).fd = some (.dmabuf (s.world.buffers a).size flags)
  distinct : ∀ a b, s.live a = true → s.live b = true →
    (s.world.buffers a).fd = (s.world.buffers b).fd → a = b
  wasFree : ∀ fd, (s.heaps fd ≠ none ∨ ∃ a, s.live a = true ∧ (s.world.buffers a).fd = fd) → start.kernel fd = none
  others : ∀ fd, s.heaps fd = none → (∀ a, s.live a = true → (s.world.buffers a).fd ≠ fd) →
    s.world.kernel fd = start.kernel fd
  traced : ∀ a n, s.world.traced a n = start.traced a n +
    (if (s.heaps a).isSome = true ∧ n = heapNameMaxLen then 1 else 0) +
    (if s.live a = true ∧ n = (s.world.buffers a).size then 1 else 0)

section Fields

variable {K : Type} (w : World K) (v : World FileTable)

@[simp] theorem memtrace_kernel (addr size : Nat) (isUsing : Bool) : (memtrace w addr size isUsing).kernel = w.kernel :=
  rfl

@[simp] theorem memtrace_buffers (addr size : Nat) (isUsing : Bool) :
    (memtrace w addr size isUsing).buffers = w.buffers := rfl

@[simp] theorem store_kernel (a : Nat) (b : DmabufHeapBuffer) : (w.store a b).kernel = w.kernel := rfl

@[simp] theorem store_traced (a : Nat) (b : DmabufHeapBuffer) : (w.store a b).traced = w.traced := rfl

@[simp] theorem install_buffers (fd : Nat) (file : Option File) : (v.install fd file).buffers = v.buffers := rfl

@[simp] theorem install_traced (fd : Nat) (file : Option File) : (v.install fd file).traced = v.traced := rfl

@[simp] theorem install_self (fd : Nat) (file : Option File) : (v.install fd file).kernel fd = file :=
  Function.update_self ..

theorem install_other {fd fd' : Nat} (other : fd' ≠ fd) (file : Option File) :
    (v.install fd file).kernel fd' = v.kernel fd' := Function.update_of_ne other ..

end Fields

namespace Conserved

variable {start : World FileTable} {s : State FileTable}

/-- A descriptor that the kernel calls free belongs to no handle. -/
theorem unowned (kept : Conserved start s) {fd : Nat} (free : s.world.kernel fd = none) :
    s.heaps fd = none ∧ ∀ a, s.live a = true → (s.world.buffers a).fd ≠ fd := by
  constructor
  · cases held : s.heaps fd with
    | none => rfl
    | some name => simp [kept.heap fd name held] at free
  · rintro a inUse rfl
    obtain ⟨flags, file⟩ := kept.buffer a inUse
    simp [file] at free

theorem startFree (kept : Conserved start s) {fd : Nat} (free : s.world.kernel fd = none) :
    start.kernel fd = none := by
  obtain ⟨noHeap, noBuffer⟩ := kept.unowned free
  rw [← kept.others fd noHeap noBuffer]
  exact free

theorem opened (kept : Conserved start s) {fd : Nat} (free : s.world.kernel fd = none) (name : CString) :
    Conserved start
      { s with
        world := memtrace (s.world.install fd (some (.opened (dmaBufHeapRoot ++ name.1)))) fd heapNameMaxLen true
        heaps := Function.update s.heaps fd (some name) } := by
  obtain ⟨noHeap, noBuffer⟩ := kept.unowned free
  refine ⟨fun fd' name' held => ?_, fun a inUse => ?_, kept.distinct, fun fd' owned => ?_,
    fun fd' noHeap' noBuffer' => ?_, fun a n => ?_⟩
  · by_cases same : fd' = fd
    · subst same
      obtain rfl : name = name' := by simpa using held
      simp
    · rw [memtrace_kernel, install_other _ same]
      exact kept.heap fd' name' (by simpa [same] using held)
  · obtain ⟨flags, file⟩ := kept.buffer a inUse
    refine ⟨flags, ?_⟩
    rw [memtrace_kernel, memtrace_buffers, install_buffers, install_other _ (noBuffer a inUse)]
    exact file
  · by_cases same : fd' = fd
    · rw [same]
      exact kept.startFree free
    · refine kept.wasFree fd' (owned.imp (fun held => ?_) id)
      simpa [same] using held
  · have other : fd' ≠ fd := by
      rintro rfl
      simp at noHeap'
    rw [memtrace_kernel, install_other _ other]
    exact kept.others fd' (by simpa [other] using noHeap') noBuffer'
  · have before := kept.traced a n
    by_cases same : a = fd
    · subst same
      simp only [memtrace, install_traced, install_buffers, before, noHeap, true_and, Function.update_self,
        Option.isSome_none, Option.isSome_some, Bool.false_eq_true, false_and, if_false, if_true]
      split_ifs <;> omega
    · simp only [memtrace, install_traced, install_buffers, before, same, false_and, if_false,
        Function.update_of_ne same, Int.add_zero]

theorem closed (kept : Conserved start s) {fd : Nat} {name : CString} (held : s.heaps fd = some name) :
    Conserved start
      { s with
        world := (memtrace s.world fd heapNameMaxLen false).install fd none
        heaps := Function.update s.heaps fd none } := by
  have file := kept.heap fd name held
  have apart : ∀ a, s.live a = true → (s.world.buffers a).fd ≠ fd := by
    rintro a inUse rfl
    obtain ⟨flags, file'⟩ := kept.buffer a inUse
    simp [file] at file'
  refine ⟨fun fd' name' held' => ?_, fun a inUse => ?_, kept.distinct, fun fd' owned => ?_,
    fun fd' noHeap' noBuffer' => ?_, fun a n => ?_⟩
  · have other : fd' ≠ fd := by
      rintro rfl
      simp at held'
    rw [install_other _ other]
    exact kept.heap fd' name' (by simpa [other] using held')
  · obtain ⟨flags, file'⟩ := kept.buffer a inUse
    refine ⟨flags, ?_⟩
    rw [install_buffers, memtrace_buffers, install_other _ (apart a inUse)]
    exact file'
  · refine kept.wasFree fd' (owned.imp (fun held' => ?_) id)
    by_cases same : fd' = fd
    · simp [same] at held'
    · simpa [same] using held'
  · by_cases same : fd' = fd
    · subst same
      rw [install_self, kept.wasFree fd' (.inl (by simp [held]))]
    · rw [install_other _ same]
      exact kept.others fd' (by simpa [same] using noHeap') noBuffer'
  · have before := kept.traced a n
    by_cases same : a = fd
    · subst same
      simp only [memtrace, install_traced, install_buffers, before, held, true_and, Function.update_self,
        Option.isSome_none, Option.isSome_some, Bool.false_eq_true, false_and, if_false]
      split_ifs <;> omega
    · simp only [memtrace, install_traced, install_buffers, before, same, false_and, if_false,
        Function.update_of_ne same, Int.add_zero]
      rfl

theorem allocated (kept : Conserved start s) {a fd flags : Nat} (unused : s.live a = false)
    (free : s.world.kernel fd = none) :
    Conserved start
      { s with
        world := (memtrace (s.world.install fd (some (.dmabuf (s.world.buffers a).size flags))) a
          (s.world.buffers a).size true).store a { s.world.buffers a with fd := fd }
        live := Function.update s.live a true } := by
  obtain ⟨noHeap, noBuffer⟩ := kept.unowned free
  have older : ∀ c, c ≠ a → Function.update s.live a true c = true → s.live c = true := by
    intro c other inUse
    simpa [other] using inUse
  refine ⟨fun fd' name held => ?_, fun c inUse => ?_, fun c d inUse inUse' same => ?_, fun fd' owned => ?_,
    fun fd' noHeap' noBuffer' => ?_, fun c n => ?_⟩
  · have other : fd' ≠ fd := by
      rintro rfl
      simp [noHeap] at held
    rw [store_kernel, memtrace_kernel, install_other _ other]
    exact kept.heap fd' name held
  · by_cases own : c = a
    · subst own
      exact ⟨flags, by simp [World.store]⟩
    · have inUse := older c own inUse
      obtain ⟨flags', file⟩ := kept.buffer c inUse
      refine ⟨flags', ?_⟩
      simp only [memtrace_kernel, World.store, Function.update_of_ne own, memtrace_buffers,
        install_buffers]
      rw [install_other _ (noBuffer c inUse)]
      exact file
  · -- The new descriptor was free, so it differs from those of the older buffers.
    by_cases own : c = a <;> by_cases own' : d = a
    · rw [own, own']
    · subst own
      refine absurd ?_ (noBuffer d (older d own' inUse'))
      simpa [World.store, own'] using same.symm
    · subst own'
      refine absurd ?_ (noBuffer c (older c own inUse))
      simpa [World.store, own] using same
    · refine kept.distinct c d (older c own inUse) (older d own' inUse') ?_
      simpa [World.store, own, own'] using same
  · by_cases same : fd' = fd
    · rw [same]
      exact kept.startFree free
    · refine kept.wasFree fd' (owned.imp id ?_)
      rintro ⟨c, inUse, here⟩
      by_cases own : c = a
      · subst own
        exact absurd (by simpa [World.store] using here.symm) same
      · exact ⟨c, older c own inUse, by simpa [World.store, own] using here⟩
  · have other : fd' ≠ fd := by
      rintro rfl
      exact noBuffer' a (by simp) (by simp [World.store])
    rw [store_kernel, memtrace_kernel, install_other _ other]
    refine kept.others fd' noHeap' fun c inUse here => ?_
    have apart : c ≠ a := by
      rintro rfl
      simp [unused] at inUse
    exact noBuffer' c (by simpa [apart] using inUse) (by simpa [World.store, apart] using here)
  · have before := kept.traced c n
    by_cases own : c = a
    · subst own
      simp only [memtrace, install_traced, install_buffers, before, unused, Bool.false_eq_true,
        World.store, Function.update_self, true_and, false_and, if_false, if_true]
      split_ifs <;> omega
    · simp only [memtrace, install_traced, install_buffers, before, World.store, own,
        Function.update_of_ne own, false_and, if_false, Int.add_zero]

theorem freed (kept : Conserved start s) {a : Nat} (inUse : s.live a = true) :
    Conserved start
      { s with
        world := (memtrace s.world a (s.world.buffers a).size false).install (s.world.buffers a).fd none
        live := Function.update s.live a false } := by
  obtain ⟨flags, file⟩ := kept.buffer a inUse
  have older : ∀ c, Function.update s.live a false c = true → c ≠ a ∧ s.live c = true := by
    intro c inUse'
    have other : c ≠ a := by
      rintro rfl
      simp at inUse'
    exact ⟨other, by simpa [other] using inUse'⟩
  refine ⟨fun fd' name held => ?_, fun c inUse' => ?_, fun c d inUse' inUse'' same => ?_, fun fd' owned => ?_,
    fun fd' noHeap' noBuffer' => ?_, fun c n => ?_⟩
  · have file' := kept.heap fd' name held
    have other : fd' ≠ (s.world.buffers a).fd := by
      rintro rfl
      simp [file] at file'
    rw [install_other _ other]
    exact file'
  · obtain ⟨other, inUse'⟩ := older c inUse'
    obtain ⟨flags', file'⟩ := kept.buffer c inUse'
    refine ⟨flags', ?_⟩
    rw [install_buffers, memtrace_buffers,
      install_other _ fun same => other (kept.distinct c a inUse' inUse same)]
    exact file'
  · exact kept.distinct c d (older c inUse').2 (older d inUse'').2 same
  · refine kept.wasFree fd' (owned.imp id ?_)
    rintro ⟨c, inUse', here⟩
    exact ⟨c, (older c inUse').2, here⟩
  · by_cases same : fd' = (s.world.buffers a).fd
    · rw [same, install_self, kept.wasFree _ (.inr ⟨a, inUse, rfl⟩)]
    · rw [install_other _ same]
      refine kept.others fd' noHeap' fun c inUse' here => ?_
      have apart : c ≠ a := by
        rintro rfl
        exact same here.symm
      exact noBuffer' c (by simpa [apart] using inUse') here
  · have before := kept.traced c n
    by_cases own : c = a
    · subst own
      simp only [memtrace, install_traced, install_buffers, before, inUse, Bool.false_eq_true,
        Function.update_self, true_and, false_and, if_false]
      split_ifs <;> omega
    · simp only [memtrace, install_traced, install_buffers, before, own, Function.update_of_ne own, false_and,
        if_false, Int.add_zero]

/-- A client that writes a buffer structure may change all of an unused one, and the flags of any. -/
theorem stored (kept : Conserved start s) {a : Nat} {b : DmabufHeapBuffer}
    (keeps : s.live a = true → b.fd = (s.world.buffers a).fd ∧ b.size = (s.world.buffers a).size) :
    Conserved start { s with world := s.world.store a b } := by
  have same : ∀ c, s.live c = true → (Function.update s.world.buffers a b c).fd = (s.world.buffers c).fd ∧
      (Function.update s.world.buffers a b c).size = (s.world.buffers c).size := by
    intro c inUse
    by_cases own : c = a
    · subst own
      simpa using keeps inUse
    · simp [own]
  refine ⟨kept.heap, fun c inUse => ?_, fun c d inUse inUse' here => ?_, fun fd owned => ?_,
    fun fd noHeap noBuffer => ?_, fun c n => ?_⟩
  · obtain ⟨flags, file⟩ := kept.buffer c inUse
    refine ⟨flags, ?_⟩
    simp only [World.store, (same c inUse).1, (same c inUse).2]
    exact file
  · simp only [World.store, (same c inUse).1, (same d inUse').1] at here
    exact kept.distinct c d inUse inUse' here
  · refine kept.wasFree fd (owned.imp id ?_)
    rintro ⟨c, inUse, here⟩
    exact ⟨c, inUse, (same c inUse).1.symm.trans here⟩
  · refine kept.others fd noHeap fun c inUse here => ?_
    exact noBuffer c inUse ((same c inUse).1.trans here)
  · show s.world.traced c n = _
    rw [kept.traced c n]
    by_cases inUse : s.live c = true
    · simp only [World.store, (same c inUse).2]
    · simp [inUse]

end Conserved

section Steps

variable {K : Type} {sys : Platform K} {start : World K}

/-- No call disturbs what the handles own. -/
theorem step_conserved (documented : Documented sys) {v : World FileTable} {s s' : State K} {a : Action K}
    (kept : Conserved v (s.seen sys)) (usage : Usage sys s a) (h : step sys s a = some s') :
    Conserved v (s'.seen sys) := by
  cases a with
  | heapOpen heapName =>
    cases h
    rcases dmabufHeapOpen_cases documented s.world heapName with
      ⟨failed, same⟩ | ⟨name, fd, rfl, -, -, free, done, seen⟩
    · simp only [State.seen, same, failed, if_true]
      exact kept
    · have ok : ¬ (fd : Int) < 0 := by omega
      simp only [State.seen, seen, done, ok, if_false, Int.toNat_natCast]
      exact kept.opened free name
  | heapClose fd =>
    cases h
    obtain ⟨name, held⟩ := Option.ne_none_iff_exists'.mp usage
    have file := kept.heap fd name held
    have seen : (dmabufHeapClose sys s.world fd).1.seen sys =
        (memtrace (s.world.seen sys) fd heapNameMaxLen false).install fd none :=
      closeIn_seen documented fun closed => Option.some_ne_none _ (file.symm.trans closed)
    simp only [State.seen, seen]
    exact kept.closed held
  | bufferAlloc heapFd buffer =>
    cases h
    rcases dmabufHeapBufferAlloc_cases documented s.world heapFd buffer with
      ⟨failed, same⟩ | ⟨b, fd, rfl, free, done, seen⟩
    · simp only [State.seen, same, failed, if_true]
      exact kept
    · simp only [State.seen, seen, Int.not_lt.mpr done, if_false]
      exact kept.allocated usage free
  | bufferFree buffer =>
    cases h
    cases buffer with
    | none => exact kept
    | some b =>
      obtain ⟨flags, file⟩ := kept.buffer b usage
      have seen : (dmabufHeapBufferFree sys s.world (some b)).1.seen sys =
          (memtrace (s.world.seen sys) b (s.world.buffers b).size false).install (s.world.buffers b).fd none := by
        rw [dmabufHeapBufferFree_some]
        exact closeIn_seen documented fun closed => Option.some_ne_none _ (file.symm.trans closed)
      simp only [State.seen, seen]
      exact kept.freed usage
  | syncStart fd syncType =>
    cases h
    simp only [State.seen, dmabufHeapBufferSyncStart, bufferSync_seen documented]
    exact kept
  | syncEnd fd syncType =>
    cases h
    simp only [State.seen, dmabufHeapBufferSyncEnd, bufferSync_seen documented]
    exact kept
  | setOwner buffer ownerId =>
    cases h
    cases buffer with
    | none => exact kept
    | some b => exact kept.stored fun _ => ⟨rfl, rfl⟩
  | prepare b value =>
    cases h
    exact kept.stored fun inUse => absurd (inUse.symm.trans usage) (by decide)
  | kernel k =>
    cases h
    have same : sys.files k = sys.files s.world.kernel := usage
    simp only [State.seen, World.seen, same]
    exact kept

/-- In every run of a client that gives each handle back once, whatever the calls into the kernel answer:
each descriptor it holds is open on the path of its own heap name, each buffer in use on a dma-buf of its
size, no two share a descriptor, and the trace has one entry for each. A sync of a buffer in use for
reading, writing or both is the request of the kernel on that dma-buf, answer included, and no other sync
reaches it. All else in the process is as at the start, so a client that holds nothing has left nothing
behind. -/
theorem handles_own_what_is_open (documented : Documented sys) (s : State K)
    (reach : (clients sys start).Reach (Usage sys) s) :
    Conserved (start.seen sys) (s.seen sys) ∧
    (∀ a, s.live a = true → ∀ syncType,
      (dmabufHeapBufferSyncStart sys s.world (s.world.buffers a).fd syncType).2 =
        (if syncType ∈ directions then
          (sys.ioctlSync s.world.kernel (s.world.buffers a).fd (dmaBufSyncStart ||| syncType)).2 else -einval) ∧
      (dmabufHeapBufferSyncEnd sys s.world (s.world.buffers a).fd syncType).2 =
        (if syncType ∈ directions then
          (sys.ioctlSync s.world.kernel (s.world.buffers a).fd (dmaBufSyncEnd ||| syncType)).2 else -einval)) ∧
    ((∀ fd, s.heaps fd = none) → (∀ a, s.live a = false) →
      sys.files s.world.kernel = sys.files start.kernel ∧ s.world.traced = start.traced) := by
  have kept : Conserved (start.seen sys) (s.seen sys) := by
    refine reach.invariant (fun s initial => ?_) fun s a s' kept usage h => step_conserved documented kept usage h
    cases initial
    refine ⟨?_, ?_, ?_, ?_, fun _ _ _ => rfl, ?_⟩
    all_goals simp [State.seen, World.seen]
  refine ⟨kept, fun a inUse syncType => ⟨bufferSync_result _ _ _ _, bufferSync_result _ _ _ _⟩,
    fun noHeaps noBuffers => ⟨?_, ?_⟩⟩
  · funext fd
    apply kept.others fd (noHeaps fd)
    intro a inUse
    simp [State.seen, noBuffers a] at inUse
  · funext a n
    have entry := kept.traced a n
    simpa [State.seen, World.seen, noHeaps a, noBuffers a] using entry

end Steps

/-! ### A device -/

def lowestFree (table : FileTable) : Nat → Nat → Option Nat
  | 0, _ => none
  | left + 1, fd => if table fd = none then some fd else lowestFree table left (fd + 1)

def systemHeap : CString := ⟨['s', 'y', 's', 't', 'e', 'm'], by decide⟩

/-- One heap, the lowest free descriptor for each new file, and at most 1024 of them. -/
def device : Platform FileTable where
  strcatS dest destMax src :=
    if (stringIn dest).length + src.1.length < destMax then
      (stringIn dest ++ src.1 ++ nul :: dest.drop ((stringIn dest).length + src.1.length + 1), eok)
    else (dest.set 0 nul, 34)
  open_ table path :=
    match lowestFree table 1024 0 with
    | some fd =>
      if path = dmaBufHeapRoot ++ systemHeap.1 then (Function.update table fd (some (.opened path)), fd)
      else (table, -1)
    | none => (table, -1)
  close table fd := if table fd = none then (table, -1) else (Function.update table fd none, 0)
  ioctlAlloc table heapFd len heapFlags :=
    match table heapFd, lowestFree table 1024 0 with
    | some (.opened _), some fd => (Function.update table fd (some (.dmabuf len heapFlags)), fd, 0)
    | _, _ => (table, 0, -1)
  ioctlSync table fd flags :=
    match table fd with
    | some (.dmabuf _ _) => (table, if flags < 8 ∧ flags % 4 ≠ 0 then 0 else -1)
    | _ => (table, -1)
  setOwnerIdForHeapFlags heapFlags _ := heapFlags
  files := id

theorem stringIn_append {s : List Char} (clean : nul ∉ s) (rest : List Char) :
    stringIn (s ++ nul :: rest) = s := by
  unfold stringIn
  rw [List.takeWhile_append_of_pos]
  · simp
  · intro c member
    have different : c ≠ nul := fun same => clean (same ▸ member)
    simpa using different

theorem stringIn_clean (s : List Char) : nul ∉ stringIn s := by
  intro member
  simpa using List.mem_takeWhile_imp member

theorem lowestFree_free {table : FileTable} {left first fd : Nat} (found : lowestFree table left first = some fd) :
    table fd = none := by
  induction left generalizing first with
  | zero => cases found
  | succ left ih =>
    unfold lowestFree at found
    split at found
    · rename_i free
      cases found
      exact free
    · exact ih found

theorem device_documented : Documented device where
  strcatS_fits dest src _ _ fits := by
    refine ⟨_, if_pos fits, stringIn_append ?_ _⟩
    rw [List.mem_append, not_or]
    exact ⟨stringIn_clean dest, src.2⟩
  open_failed table path failed := by
    unfold device at failed ⊢
    dsimp only at failed ⊢
    split at failed
    · split at failed
      · omega
      · rename_i absent
        rw [if_neg absent]
    · rfl
  open_done table path fd done := by
    unfold device at done ⊢
    dsimp only at done ⊢
    split at done
    · rename_i found
      split at done
      · rename_i known
        obtain rfl := Int.ofNat.inj done
        rw [if_pos known]
        exact ⟨lowestFree_free found, rfl⟩
      · omega
    · omega
  close_open table fd held := by
    have kept : device.close table fd = (Function.update table fd none, 0) := if_neg held
    rw [kept]
    rfl
  alloc_failed table heapFd len heapFlags failed := by
    unfold device at failed ⊢
    dsimp only at failed ⊢
    split at failed
    · cases failed
    · rfl
  alloc_done table heapFd len heapFlags done := by
    unfold device at done ⊢
    dsimp only at done ⊢
    split at done
    · rename_i found
      exact ⟨lowestFree_free found, rfl⟩
    · cases done
  sync_keeps table fd flags := by
    unfold device
    dsimp only
    split <;> rfl

def terminalOnly : World FileTable where
  kernel fd := if fd < 3 then some (.other fd) else none
  traced _ _ := 0
  buffers _ := {}

/-- A buffer is allocated from a heap, and the heap is closed before the buffer. An open of an unknown
heap fails in between. -/
def heapThenBuffer : List (Action FileTable) :=
  [.heapOpen (some systemHeap), .prepare 1000 { size := 4096 }, .heapOpen (some ⟨['x'], by decide⟩),
    .bufferAlloc 3 (some 1000), .heapClose 3, .syncStart 4 dmaBufSyncRw]

def usage (s : State FileTable) : Action FileTable → Bool
  | .heapClose fd => (s.heaps fd).isSome
  | .bufferAlloc _ (some a) | .prepare a _ => !s.live a
  | .bufferFree (some a) => s.live a
  | .kernel _ => false
  | _ => true

theorem usage_sound (s : State FileTable) (a : Action FileTable) (h : usage s a = true) : Usage device s a := by
  unfold Usage
  split <;> simp_all [usage, Option.isSome_iff_ne_none]

theorem buffer_outlives_heap :
    ∃ s, (clients device terminalOnly).Reach (Usage device) s ∧ s.world.kernel 3 = none ∧
      s.world.kernel 4 = some (.dmabuf 4096 0) ∧ s.world.traced 3 128 = 0 ∧ s.world.traced 1000 4096 = 1 ∧
      (dmabufHeapBufferSyncEnd device s.world 4 dmaBufSyncWrite).2 = 0 := by
  obtain ⟨s, reach, seen⟩ := System.exists_reach (S := clients device terminalOnly) (Usage device) usage usage_sound
    (s := { world := terminalOnly }) rfl heapThenBuffer
    (fun s => (s.live 1000, (s.world.buffers 1000).fd, s.world.kernel 3, s.world.kernel 4, s.world.traced 3 128,
      s.world.traced 1000 4096)) (v := (true, 4, none, some (.dmabuf 4096 0), 0, 1)) (by decide) (by rfl)
  simp only [Prod.mk.injEq] at seen
  obtain ⟨inUse, fd, closed, open_, heapTrace, bufferTrace⟩ := seen
  obtain ⟨-, sync, -⟩ := handles_own_what_is_open device_documented s reach
  have ended := (sync 1000 inUse dmaBufSyncWrite).2
  rw [fd, if_pos (by decide)] at ended
  refine ⟨s, reach, closed, open_, heapTrace, bufferTrace, ended.trans ?_⟩
  show Prod.snd (device.ioctlSync s.world.kernel 4 _) = 0
  simp only [device, open_]
  decide

end MemoryUtils.Dmabuf
