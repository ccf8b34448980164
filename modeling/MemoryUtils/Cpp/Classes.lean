import MemoryUtils.Cpp.Base

/-!
The two classes over `PurgeableMemBase`. `PurgeableMem` pins through the user extended page table
and asks it whether a page is missing; `PurgeableAshMem` pins an ashmem file and asks the kernel
for its purged flag.
-/

namespace MemoryUtils.Cpp
open Lib

/-! ### `PurgeableMem` -/

/-- `pageTable_`: null, a `UxPageTable` whose structure could not be set up, or a usable one. -/
inductive PageTable where
  | null | noStruct | ready
  deriving DecidableEq

/-- `reclaim` keeps to the reclaim rule; `setPresent` gives a present bit any value. -/
inductive PageStep where
  | reclaim (p : Nat)
  | setPresent (p : Nat) (present : Bool)

namespace PurgeableMem

variable (S : Setup) (pageTable : PageTable)

def kernel (r : Region S.len) : PageStep → Region S.len
  | .reclaim p => if p < S.pages ∧ r.refcnt p = 0 then r.reclaim p else r
  | .setPresent p present => r.setPresent p present

def uxpteOps {n : Nat} (op : Region n → Nat → Region n) (between : Nat → Region n → Region n)
    (pages : List Nat) (r : Region n) : Region n :=
  pages.foldl (fun r i => op (between i r) i) r

/-- `UxpteIsPresent` stops at the first page that is missing. -/
def uxpteIsPresent {n : Nat} (between : Nat → Region n → Region n) :
    List Nat → Region n → Region n × Bool
  | [], r => (r, true)
  | i :: rest, r =>
    if (between i r).present i then uxpteIsPresent between rest (between i r) else (between i r, false)

def pin (between : Nat → Region S.len → Region S.len) (r : Region S.len) : Region S.len :=
  match pageTable with
  | .null | .noStruct => r
  | .ready => uxpteOps Region.getUxpteAt between (List.range S.pages) r

def unpin (between : Nat → Region S.len → Region S.len) (r : Region S.len) : Region S.len :=
  match pageTable with
  | .null | .noStruct => r
  | .ready => uxpteOps Region.putUxpteAt between (List.range S.pages) r

def isPurged (between : Nat → Region S.len → Region S.len) (r : Region S.len) :
    Region S.len × Bool :=
  match pageTable with
  | .null => (r, false)
  -- Without uxpt every page counts as present; with it, a null structure is an error.
  | .noStruct => (r, S.supportUxpt)
  | .ready =>
    let present := uxpteIsPresent between (List.range S.pages) r
    (present.1, !present.2)

def virtuals : Virtuals S.len (Region S.len) PageStep where
  kernel := kernel S
  content := Region.content
  store r touched c := { r.touch touched with content := c }
  clear r := r.clear S.pages
  pin := pin S pageTable
  unpin := unpin S pageTable
  isPurged := isPurged S pageTable
  afterRebuildSucc := id

/-- The memory that `CreatePurgeableData` maps: no page is pinned. -/
def Fresh (r : Region S.len) : Prop := ∀ p, r.refcnt p = 0

end PurgeableMem

/-! ### `PurgeableAshMem` -/

structure Ashmem (n : Nat) where
  content : Content n
  pinCount : Int
  purged : Bool

/-- `purge` needs an unpinned object; `setPurged` gives the purged flag any value. -/
inductive AshmemStep where
  | purge
  | setPurged (purged : Bool)

namespace PurgeableAshMem

variable {n : Nat} (isSupport : Bool) (ashmemFd : Int)

def kernel (d : Ashmem n) : AshmemStep → Ashmem n
  | .purge => if d.pinCount = 0 then { d with content := zeros, purged := true } else d
  | .setPurged purged => { d with purged := purged }

def pin (between : Nat → Ashmem n → Ashmem n) (d : Ashmem n) : Ashmem n :=
  if !isSupport then d
  else if ashmemFd > 0 then { between 0 d with pinCount := (between 0 d).pinCount + 1 }
  else d

def unpin (between : Nat → Ashmem n → Ashmem n) (d : Ashmem n) : Ashmem n :=
  if !isSupport then d
  else if ashmemFd > 0 then { between 0 d with pinCount := (between 0 d).pinCount - 1 }
  else d

def isPurged (between : Nat → Ashmem n → Ashmem n) (d : Ashmem n) : Ashmem n × Bool :=
  if !isSupport then (d, false) else (between 0 d, (between 0 d).purged)

def virtuals (n : Nat) (isSupport : Bool) (ashmemFd : Int) : Virtuals n (Ashmem n) AshmemStep where
  kernel := kernel
  content := Ashmem.content
  store d _ c := { d with content := c }
  clear d := { d with content := zeros }
  pin := pin isSupport ashmemFd
  unpin := unpin isSupport ashmemFd
  isPurged := isPurged isSupport
  afterRebuildSucc d := { d with purged := false }

/-- The ashmem object that `CreatePurgeableData` leaves: pinned once by `ASHMEM_SET_PURGEABLE` and
then unpinned by the library. -/
def Fresh (d : Ashmem n) : Prop :=
  ∃ mapped : Ashmem n, mapped.pinCount = 1 ∧ mapped.purged = false ∧
    d = unpin isSupport ashmemFd (fun _ d => d) mapped

end PurgeableAshMem

end MemoryUtils.Cpp
