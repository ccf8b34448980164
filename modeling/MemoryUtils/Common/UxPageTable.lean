import MemoryUtils.Common.Uxpte
import Mathlib.Data.Nat.Bitwise

/-!
The user extended page table: which entries an operation on an address range touches. Addresses are
machine words, so rounding and the loop over the pages are 64-bit arithmetic; the loop is shown to
be a pass over page numbers.
-/

namespace MemoryUtils.UxPageTable
open Uxpte

def pageBytes : UInt64 := UInt64.ofNat pageSize

def uxpteSizeShift : UInt64 := 3
def uxptePerPageShift : UInt64 := UInt64.ofNat pageShift - uxpteSizeShift
def uxptePerPage : UInt64 := 1 <<< uxptePerPageShift

def virtPageNo (vaddr : UInt64) : UInt64 := vaddr >>> UInt64.ofNat pageShift

def uxptePageNo (vaddr : UInt64) : UInt64 := virtPageNo vaddr >>> uxptePerPageShift

def uxpteOffset (vaddr : UInt64) : UInt64 := virtPageNo vaddr &&& (uxptePerPage - 1)

def sizeMax : UInt64 := 0 - 1

def getUxPageSize (dataAddr dataSize : UInt64) : UInt64 :=
  if dataAddr + dataSize < dataAddr ∨ dataAddr + dataSize < dataSize ∨ dataAddr + dataSize < 1 then 0
  else
    let pageNoEnd := uxptePageNo (dataAddr + dataSize - 1)
    let pageNoStart := uxptePageNo dataAddr
    if pageNoEnd < pageNoStart then 0
    else if pageNoEnd - pageNoStart + 1 > sizeMax / pageBytes then 0
    else (pageNoEnd - pageNoStart + 1) * pageBytes

def roundUp (val align : UInt64) : UInt64 :=
  if val + align < val ∨ val + align < align then val
  else if align = 0 then val
  else (val + align - 1) / align * align

def roundDown (val align : UInt64) : UInt64 :=
  if align = 0 then val else val &&& ~~~(align - 1)

inductive PMState where
  | ok | builderNull | mmapUxptFail | unmapUxptFail | uxptOutRange | uxptNoPresent
  deriving DecidableEq

inductive UxpteOp where
  | get | put | clear | isPresent
  deriving DecidableEq

/-- The uxptes of the process, by virtual page number. -/
abbrev Entries := Nat → UInt64

/-- `uxpte` is null or the number of the entry that `uxpte[0]` is. -/
structure UxPageTableStruct where
  dataAddr : UInt64
  dataSize : UInt64
  uxpte : Option Nat

/-- What an operation returns and leaves, the indices into `uxpte` it used, and the entries as they
were after each of its updates. -/
structure Outcome where
  state : PMState
  entries : Entries
  touched : List Nat
  passed : List Entries

/-! ### One entry, without interference -/

def uxpteAdd (pte incNum : UInt64) : UInt64 :=
  match addBody pte 0 incNum with
  | .addCas _ newVal => newVal
  | _ => pte

def uxpteSub (pte decNum : UInt64) : UInt64 := pte - decNum

def uxpteClear_ (pte : UInt64) : UInt64 := if pte = 0 then pte else 0

def getIndexInUxpte (startAddr currAddr : UInt64) : UInt64 :=
  uxpteOffset startAddr + (virtPageNo currAddr - virtPageNo startAddr)

namespace UxPageTableStruct

variable (upt : UxPageTableStruct) (addr : UInt64) (e : Entries)

def entry : Nat := upt.uxpte.getD 0 + (getIndexInUxpte upt.dataAddr addr).toNat

def getUxpteAt : Entries := Function.update e (upt.entry addr) (uxpteAdd (e (upt.entry addr)) uxpteRefcntOne)

def putUxpteAt : Entries := Function.update e (upt.entry addr) (uxpteSub (e (upt.entry addr)) uxpteRefcntOne)

def clearUxpteAt : Entries := Function.update e (upt.entry addr) (uxpteClear_ (e (upt.entry addr)))

def isPresentAt : Bool := isUxptePresent (e (upt.entry addr))

end UxPageTableStruct

/-! ### Ranges -/

/-- The loop of `UxpteOps`. It may run forever, so it is given a bound on its passes. -/
def uxpteLoop (upt : UxPageTableStruct) (op : UxpteOp) (end_ : UInt64) :
    Nat → UInt64 → Entries → Option Outcome
  | 0, _, _ => none
  | fuel + 1, off, e =>
    if off < end_ then
      let index := (getIndexInUxpte upt.dataAddr off).toNat
      let next := fun e => (uxpteLoop upt op end_ fuel (off + pageBytes) e).map fun r =>
        { r with touched := index :: r.touched, passed := e :: r.passed }
      match op with
      | .get => next (upt.getUxpteAt off e)
      | .put => next (upt.putUxpteAt off e)
      | .clear => next (upt.clearUxpteAt off e)
      | .isPresent => if !upt.isPresentAt off e then some ⟨.uxptNoPresent, e, [index], []⟩ else next e
    else some ⟨.ok, e, [], []⟩

def accepts (upt : UxPageTableStruct) (addr len : UInt64) : Bool :=
  !decide (roundDown addr pageBytes < upt.dataAddr ∨
    roundUp (addr + len) pageBytes > upt.dataAddr + upt.dataSize)

def uxpteOps (fuel : Nat) (upt : Option UxPageTableStruct) (addr len : UInt64) (op : UxpteOp)
    (e : Entries) : Option Outcome :=
  match upt with
  | none => some ⟨.builderNull, e, [], []⟩
  | some upt =>
    if !accepts upt addr len then some ⟨.uxptOutRange, e, [], []⟩
    else uxpteLoop upt op (roundUp (addr + len) pageBytes) fuel (roundDown addr pageBytes) e

def uxpteGet (supportUxpt : Bool) (fuel : Nat) (upt : Option UxPageTableStruct) (addr len : UInt64)
    (e : Entries) : Option Outcome :=
  if !supportUxpt then some ⟨.ok, e, [], []⟩ else uxpteOps fuel upt addr len .get e

def uxptePut (supportUxpt : Bool) (fuel : Nat) (upt : Option UxPageTableStruct) (addr len : UInt64)
    (e : Entries) : Option Outcome :=
  if !supportUxpt then some ⟨.ok, e, [], []⟩ else uxpteOps fuel upt addr len .put e

def uxpteClear (supportUxpt : Bool) (fuel : Nat) (upt : Option UxPageTableStruct) (addr len : UInt64)
    (e : Entries) : Option Outcome :=
  if !supportUxpt then some ⟨.ok, e, [], []⟩ else uxpteOps fuel upt addr len .clear e

def uxpteIsPresent (supportUxpt : Bool) (fuel : Nat) (upt : Option UxPageTableStruct)
    (addr len : UInt64) (e : Entries) : Option Bool :=
  if !supportUxpt then some true
  else (uxpteOps fuel upt addr len .isPresent e).map fun r => r.state == .ok

/-! ### Tables -/

/-- `mapped` is the outcome of `mmap`, which fails for size 0. It maps the uxpte pages from the one
that holds the entry of `dataAddr` on. -/
def mapUxptePages (mapped : Bool) (dataAddr dataSize : UInt64) : Option Nat :=
  if getUxPageSize dataAddr dataSize = 0 ∨ mapped = false then none
  else some ((uxptePageNo dataAddr).toNat * uxptePerPage.toNat)

def initUxPageTable (supportUxpt mapped : Bool) (fuel : Nat) (upt : Option UxPageTableStruct)
    (addr len : UInt64) (e : Entries) : Option (PMState × Option UxPageTableStruct × Entries) :=
  if !supportUxpt then some (.ok, upt, e)
  else
    match upt with
    | none => some (.mmapUxptFail, none, e)
    | some _ =>
      match mapUxptePages mapped addr len with
      | none => some (.mmapUxptFail, some ⟨addr, len, none⟩, e)
      | some first =>
        (uxpteClear supportUxpt fuel (some ⟨addr, len, some first⟩) addr len e).map fun r =>
          (.ok, some ⟨addr, len, some first⟩, r.entries)

/-- `unmapped` is the outcome of `munmap`. -/
def deinitUxPageTable (supportUxpt unmapped : Bool) (upt : Option UxPageTableStruct) :
    PMState × Option UxPageTableStruct :=
  if !supportUxpt then (.ok, upt)
  else
    match upt with
    | none => (.mmapUxptFail, none)
    | some upt =>
      if upt.uxpte.isSome ∧ unmapped = false then (.unmapUxptFail, some upt)
      else (.ok, some ⟨0, 0, none⟩)

/-! ### Word arithmetic -/

theorem pageBytes_toNat : pageBytes.toNat = 4096 := rfl

theorem uxptePerPage_toNat : uxptePerPage.toNat = 512 := by decide

theorem virtPageNo_toNat (vaddr : UInt64) : (virtPageNo vaddr).toNat = vaddr.toNat / 4096 := by
  have shift : (UInt64.ofNat pageShift).toNat % 64 = 12 := by decide
  rw [virtPageNo, UInt64.toNat_shiftRight, shift, Nat.shiftRight_eq_div_pow]

theorem uxptePageNo_toNat (vaddr : UInt64) : (uxptePageNo vaddr).toNat = vaddr.toNat / 4096 / 512 := by
  have shift : uxptePerPageShift.toNat % 64 = 9 := by decide
  rw [uxptePageNo, UInt64.toNat_shiftRight, shift, Nat.shiftRight_eq_div_pow, virtPageNo_toNat]

theorem uxpteOffset_toNat (vaddr : UInt64) : (uxpteOffset vaddr).toNat = vaddr.toNat / 4096 % 512 := by
  have mask : (uxptePerPage - 1).toNat = 2 ^ 9 - 1 := by decide
  rw [uxpteOffset, UInt64.toNat_and, mask, Nat.and_two_pow_sub_one_eq_mod, virtPageNo_toNat]

theorem roundDown_toNat (val : UInt64) : (roundDown val pageBytes).toNat = val.toNat / 4096 * 4096 := by
  have mask : (~~~(pageBytes - 1)).toNat = (2 ^ 52 - 1) <<< 12 := by decide
  have shifted : val.toNat / 4096 * 4096 = (val.toNat >>> 12) <<< 12 := by
    rw [Nat.shiftRight_eq_div_pow, Nat.shiftLeft_eq]
  rw [roundDown, if_neg (by decide), UInt64.toNat_and, mask, shifted]
  apply Nat.eq_of_testBit_eq
  intro i
  rw [Nat.testBit_and, Nat.testBit_shiftLeft, Nat.testBit_shiftLeft, Nat.testBit_two_pow_sub_one,
    Nat.testBit_shiftRight]
  by_cases low : 12 ≤ i
  · rw [Nat.add_sub_cancel' low]
    by_cases high : i - 12 < 52
    · simp [low, high]
    · have beyond : val.toNat.testBit i = false := by
        apply Nat.testBit_lt_two_pow
        exact val.toNat_lt.trans_le (Nat.pow_le_pow_right (by decide) (by omega))
      simp [beyond]
  · simp [low]

/-- `RoundUp` gives up where the sum with a page would wrap. -/
theorem roundUp_toNat (val : UInt64) :
    (roundUp val pageBytes).toNat =
      if val.toNat + 4096 < 2 ^ 64 then (val.toNat + 4095) / 4096 * 4096 else val.toNat := by
  have bound := val.toNat_lt
  have sum : (val + pageBytes).toNat = (val.toNat + 4096) % 2 ^ 64 := by
    rw [UInt64.toNat_add, pageBytes_toNat]
  unfold roundUp
  simp only [UInt64.lt_iff_toNat_lt, sum, pageBytes_toNat]
  split
  · rename_i wraps
    rw [if_neg (by omega)]
  · rename_i fits
    have one : (val + pageBytes - 1).toNat = val.toNat + 4095 := by
      rw [UInt64.toNat_sub_of_le, sum]
      · rw [show (1 : UInt64).toNat = 1 from rfl]
        omega
      · rw [UInt64.le_iff_toNat_le, sum, show (1 : UInt64).toNat = 1 from rfl]
        omega
    rw [if_neg (by decide), if_pos (by omega), UInt64.toNat_mul, UInt64.toNat_div, one, pageBytes_toNat]
    omega

/-! ### A table that was set up -/

/-- The number of the first entry that is mapped. -/
def UxPageTableStruct.first (upt : UxPageTableStruct) : Nat :=
  (uxptePageNo upt.dataAddr).toNat * uxptePerPage.toNat

/-- The table that a successful `InitUxPageTable` over whole pages left. -/
def SetUp (upt : UxPageTableStruct) (addr len : UInt64) : Prop :=
  addr.toNat % pageSize = 0 ∧ len.toNat % pageSize = 0 ∧
    ∃ mapped fuel old e e', initUxPageTable true mapped fuel old addr len e = some (.ok, some upt, e')

structure Ready (upt : UxPageTableStruct) : Prop where
  aligned : upt.dataAddr.toNat % 4096 = 0
  multiple : upt.dataSize.toNat % 4096 = 0
  fits : upt.dataAddr.toNat + upt.dataSize.toNat < 2 ^ 64
  mapped : upt.uxpte = some upt.first

theorem sum_fits {addr len : UInt64} (sized : getUxPageSize addr len ≠ 0) :
    addr.toNat + len.toNat < 2 ^ 64 := by
  unfold getUxPageSize at sized
  split at sized
  · exact absurd rfl sized
  · rename_i noWrap
    simp only [UInt64.lt_iff_toNat_lt, UInt64.toNat_add] at noWrap
    have boundAddr := addr.toNat_lt
    have boundLen := len.toNat_lt
    omega

theorem SetUp.ready {upt : UxPageTableStruct} {addr len : UInt64} (set : SetUp upt addr len) :
    Ready upt ∧ upt.dataAddr = addr ∧ upt.dataSize = len := by
  obtain ⟨aligned, multiple, mapped, fuel, old, e, e', h⟩ := set
  unfold initUxPageTable at h
  rw [if_neg (by decide)] at h
  cases old with
  | none => simp at h
  | some old =>
    simp only [mapUxptePages] at h
    split at h
    · simp at h
    · rename_i first found
      obtain ⟨r, -, same⟩ := Option.map_eq_some_iff.mp h
      cases same
      obtain ⟨granted, same⟩ := Option.ite_none_left_eq_some.mp found
      cases same
      have sized : getUxPageSize addr len ≠ 0 := fun zero => granted (.inl zero)
      exact ⟨⟨aligned, multiple, sum_fits sized, rfl⟩, rfl, rfl⟩

section Ready

variable {upt : UxPageTableStruct}

theorem first_le : upt.first ≤ upt.dataAddr.toNat / 4096 := by
  unfold UxPageTableStruct.first
  rw [uxptePageNo_toNat, uxptePerPage_toNat]
  omega

theorem index_toNat {off : UInt64} (above : upt.dataAddr.toNat ≤ off.toNat) :
    (getIndexInUxpte upt.dataAddr off).toNat = off.toNat / 4096 - upt.first := by
  have bound := off.toNat_lt
  have later : upt.dataAddr.toNat / 4096 ≤ off.toNat / 4096 := Nat.div_le_div_right above
  have pages : (virtPageNo off - virtPageNo upt.dataAddr).toNat
      = off.toNat / 4096 - upt.dataAddr.toNat / 4096 := by
    rw [UInt64.toNat_sub_of_le, virtPageNo_toNat, virtPageNo_toNat]
    rw [UInt64.le_iff_toNat_le, virtPageNo_toNat, virtPageNo_toNat]
    exact later
  rw [getIndexInUxpte, UInt64.toNat_add, uxpteOffset_toNat, pages, UxPageTableStruct.first,
    uxptePageNo_toNat, uxptePerPage_toNat]
  omega

variable (ready : Ready upt)

include ready

/-- The entry behind an index is that of the page the address lies in. -/
theorem entry_eq {off : UInt64} (above : upt.dataAddr.toNat ≤ off.toNat) :
    upt.entry off = off.toNat / 4096 := by
  have start : upt.first ≤ upt.dataAddr.toNat / 4096 := first_le
  have later : upt.dataAddr.toNat / 4096 ≤ off.toNat / 4096 := Nat.div_le_div_right above
  rw [UxPageTableStruct.entry, index_toNat above, ready.mapped, Option.getD_some]
  omega

theorem uxPageSize_toNat (positive : 0 < upt.dataSize.toNat) :
    (getUxPageSize upt.dataAddr upt.dataSize).toNat
      = ((upt.dataAddr.toNat + upt.dataSize.toNat - 1) / 4096 / 512
          - upt.dataAddr.toNat / 4096 / 512 + 1) * 4096 := by
  have fits := ready.fits
  have sum : (upt.dataAddr + upt.dataSize).toNat = upt.dataAddr.toNat + upt.dataSize.toNat := by
    rw [UInt64.toNat_add, Nat.mod_eq_of_lt fits]
  have one : (1 : UInt64).toNat = 1 := rfl
  have last : (upt.dataAddr + upt.dataSize - 1).toNat = upt.dataAddr.toNat + upt.dataSize.toNat - 1 := by
    rw [UInt64.toNat_sub_of_le, sum, one]
    rw [UInt64.le_iff_toNat_le, sum, one]
    omega
  have inOrder : upt.dataAddr.toNat / 4096 / 512
      ≤ (upt.dataAddr.toNat + upt.dataSize.toNat - 1) / 4096 / 512 :=
    Nat.div_le_div_right (Nat.div_le_div_right (by omega))
  have number : (uxptePageNo (upt.dataAddr + upt.dataSize - 1) - uxptePageNo upt.dataAddr + 1).toNat
      = (upt.dataAddr.toNat + upt.dataSize.toNat - 1) / 4096 / 512
          - upt.dataAddr.toNat / 4096 / 512 + 1 := by
    rw [UInt64.toNat_add, UInt64.toNat_sub_of_le, uxptePageNo_toNat, uxptePageNo_toNat, last, one]
    · omega
    · rw [UInt64.le_iff_toNat_le, uxptePageNo_toNat, uxptePageNo_toNat, last]
      exact inOrder
  have limit : (sizeMax / pageBytes).toNat = 2 ^ 52 - 1 := by decide
  simp only [getUxPageSize, gt_iff_lt, UInt64.lt_iff_toNat_lt, sum, one, uxptePageNo_toNat, last, number,
    limit]
  rw [if_neg (by omega), if_neg (by omega), if_neg (by omega), UInt64.toNat_mul, number, pageBytes_toNat]
  omega

/-- The mapping holds an entry for every page of the data. -/
theorem page_lt_uxPageSize {p : Nat} (above : upt.dataAddr.toNat / 4096 ≤ p)
    (below : p * 4096 < upt.dataAddr.toNat + upt.dataSize.toNat) :
    p - upt.first < (getUxPageSize upt.dataAddr upt.dataSize).toNat / 8 := by
  have aligned := ready.aligned
  rw [uxPageSize_toNat ready (by omega), UxPageTableStruct.first, uxptePageNo_toNat, uxptePerPage_toNat]
  omega

end Ready

/-! ### The loop as a pass over page numbers -/

namespace UxpteOp

def apply : UxpteOp → UInt64 → UInt64
  | .get, pte => uxpteAdd pte uxpteRefcntOne
  | .put, pte => uxpteSub pte uxpteRefcntOne
  | .clear, pte => uxpteClear_ pte
  | .isPresent, pte => pte

def stops (op : UxpteOp) (pte : UInt64) : Bool := op == .isPresent && !isUxptePresent pte

end UxpteOp

/-- What `UxpteOps` does to the entries of the pages of a list. -/
def overPages (op : UxpteOp) : List Nat → Entries → Outcome
  | [], e => ⟨.ok, e, [], []⟩
  | p :: rest, e =>
    if op.stops (e p) then ⟨.uxptNoPresent, e, [p], []⟩
    else
      let e' := Function.update e p (op.apply (e p))
      let r := overPages op rest e'
      { r with touched := p :: r.touched, passed := e' :: r.passed }

def pagesBetween (start end_ : UInt64) : List Nat :=
  List.range' (start.toNat / 4096) (end_.toNat / 4096 - start.toNat / 4096)

/-- The outcome with entries named by their index into `uxpte`. -/
def Outcome.indexed (first : Nat) (r : Outcome) : Outcome :=
  { r with touched := r.touched.map (· - first) }

theorem pagesBetween_self {start end_ : UInt64} (done : end_.toNat ≤ start.toNat) :
    pagesBetween start end_ = [] := by
  have none : end_.toNat / 4096 - start.toNat / 4096 = 0 :=
    Nat.sub_eq_zero_of_le (Nat.div_le_div_right done)
  rw [pagesBetween, none, List.range'_zero]

theorem pagesBetween_cons {start end_ : UInt64} (startAligned : start.toNat % 4096 = 0)
    (endAligned : end_.toNat % 4096 = 0) (more : start.toNat < end_.toNat) :
    pagesBetween start end_ = start.toNat / 4096 :: pagesBetween (start + pageBytes) end_ ∧
      (start + pageBytes).toNat = start.toNat + 4096 := by
  have bound := end_.toNat_lt
  have next : (start + pageBytes).toNat = start.toNat + 4096 := by
    rw [UInt64.toNat_add, pageBytes_toNat]
    omega
  refine ⟨?_, next⟩
  have count : end_.toNat / 4096 - start.toNat / 4096
      = end_.toNat / 4096 - (start.toNat / 4096 + 1) + 1 := by
    omega
  have page : (start.toNat + 4096) / 4096 = start.toNat / 4096 + 1 := by omega
  rw [pagesBetween, count, List.range'_succ, pagesBetween, next, page]

section Loop

variable {upt : UxPageTableStruct} (ready : Ready upt) (op : UxpteOp)

include ready

/-- One pass of the loop, on the page its address lies in. -/
theorem uxpteLoop_succ {off end_ : UInt64} (fuel : Nat) (e : Entries)
    (above : upt.dataAddr.toNat ≤ off.toNat) (more : off < end_) :
    uxpteLoop upt op end_ (fuel + 1) off e =
      if op.stops (e (off.toNat / 4096)) then
        some ⟨.uxptNoPresent, e, [off.toNat / 4096 - upt.first], []⟩
      else
        let e' := Function.update e (off.toNat / 4096) (op.apply (e (off.toNat / 4096)))
        (uxpteLoop upt op end_ fuel (off + pageBytes) e').map fun r =>
          { r with touched := (off.toNat / 4096 - upt.first) :: r.touched, passed := e' :: r.passed } := by
  rw [uxpteLoop, if_pos more]
  simp only [UxPageTableStruct.getUxpteAt, UxPageTableStruct.putUxpteAt,
    UxPageTableStruct.clearUxpteAt, UxPageTableStruct.isPresentAt, entry_eq ready above,
    index_toNat above]
  cases op <;> simp [UxpteOp.stops, UxpteOp.apply]

theorem uxpteLoop_eq {end_ : UInt64} (endAligned : end_.toNat % 4096 = 0) {fuel : Nat} {off : UInt64}
    (e : Entries) (offAligned : off.toNat % 4096 = 0) (above : upt.dataAddr.toNat ≤ off.toNat)
    (enough : end_.toNat / 4096 - off.toNat / 4096 < fuel) :
    uxpteLoop upt op end_ fuel off e
      = some ((overPages op (pagesBetween off end_) e).indexed upt.first) := by
  induction fuel generalizing off e with
  | zero => omega
  | succ fuel ih =>
    by_cases more : off.toNat < end_.toNat
    · obtain ⟨pages, next⟩ := pagesBetween_cons offAligned endAligned more
      have later := fun e => @ih (off + pageBytes) e (by omega) (by omega) (by omega)
      rw [uxpteLoop_succ ready op fuel e above (UInt64.lt_iff_toNat_lt.mpr more), pages, overPages]
      split
      · rfl
      · simp only [later, Option.map_some]
        rfl
    · rw [uxpteLoop, if_neg (by rw [UInt64.lt_iff_toNat_lt]; exact more),
        pagesBetween_self (Nat.le_of_not_lt more)]
      rfl

end Loop

/-! ### The pages of a range -/

/-- The pages of the range as `UxpteOps` rounds it. -/
def pagesOf (addr len : UInt64) : List Nat :=
  pagesBetween (roundDown addr pageBytes) (roundUp (addr + len) pageBytes)

/-- Page `p` has an address in the mathematical interval `[addr, addr + len)`. -/
def Meets (p : Nat) (addr len : UInt64) : Prop :=
  ∃ x, addr.toNat ≤ x ∧ x < addr.toNat + len.toNat ∧ x / pageSize = p

theorem pagesOf_increasing (addr len : UInt64) : (pagesOf addr len).Pairwise (· < ·) :=
  List.pairwise_lt_range'

section Accepts

variable {upt : UxPageTableStruct} (ready : Ready upt) {addr len : UInt64}

include ready

/-- The data ends on a page boundary, which a sum that `RoundUp` gives up on has passed. -/
theorem accepts_iff : accepts upt addr len = true ↔
    upt.dataAddr.toNat ≤ addr.toNat ∧ (addr + len).toNat ≤ upt.dataAddr.toNat + upt.dataSize.toNat := by
  have aligned := ready.aligned
  have multiple := ready.multiple
  have fits := ready.fits
  have sum : (upt.dataAddr + upt.dataSize).toNat = upt.dataAddr.toNat + upt.dataSize.toNat := by
    rw [UInt64.toNat_add, Nat.mod_eq_of_lt fits]
  simp only [accepts, gt_iff_lt, UInt64.lt_iff_toNat_lt, sum, roundDown_toNat, roundUp_toNat,
    Bool.not_eq_true', decide_eq_false_iff_not]
  split <;> omega

theorem end_toNat (ok : accepts upt addr len = true) :
    (roundUp (addr + len) pageBytes).toNat = ((addr + len).toNat + 4095) / 4096 * 4096 := by
  have aligned := ready.aligned
  have multiple := ready.multiple
  have fits := ready.fits
  have inside := (accepts_iff ready).mp ok
  rw [roundUp_toNat]
  split
  · rfl
  · omega

theorem mem_pagesOf (ok : accepts upt addr len = true) {p : Nat} :
    p ∈ pagesOf addr len ↔ addr.toNat < (p + 1) * 4096 ∧ p * 4096 < (addr + len).toNat := by
  rw [pagesOf, pagesBetween, List.mem_range'_1, roundDown_toNat, end_toNat ready ok]
  omega

theorem pagesOf_in_data (ok : accepts upt addr len = true) {p : Nat} (covered : p ∈ pagesOf addr len) :
    upt.dataAddr.toNat / 4096 ≤ p ∧ p * 4096 < upt.dataAddr.toNat + upt.dataSize.toNat := by
  have inside := (accepts_iff ready).mp ok
  have between := (mem_pagesOf ready ok).mp covered
  omega

theorem uxpteOps_eq (op : UxpteOp) {fuel : Nat} (enough : 2 ^ 52 < fuel) (e : Entries) :
    uxpteOps fuel (some upt) addr len op e = some
      (if accepts upt addr len then (overPages op (pagesOf addr len) e).indexed upt.first
      else ⟨.uxptOutRange, e, [], []⟩) := by
  unfold uxpteOps
  by_cases ok : accepts upt addr len = true
  · have aligned := ready.aligned
    have above := ((accepts_iff ready).mp ok).1
    have start := roundDown_toNat addr
    have stop := end_toNat ready ok
    have bound := (roundUp (addr + len) pageBytes).toNat_lt
    simp only [ok, Bool.not_true, Bool.false_eq_true, if_false, if_true]
    exact uxpteLoop_eq ready op (by omega) e (by omega) (by omega) (by omega)
  · simp [ok]

end Accepts

/-! ### What the pass does -/

section Pass

variable {op : UxpteOp} {pages : List Nat} {p : Nat} {e : Entries}

theorem overPages_touched : (overPages op pages e).touched
    = if op = .isPresent then pages.take (pages.findIdx (fun p => !isUxptePresent (e p)) + 1) else pages := by
  induction pages generalizing e with
  | nil => simp [overPages]
  | cons q rest ih =>
    rw [overPages]
    by_cases looks : op = .isPresent
    · subst looks
      cases present : isUxptePresent (e q) with
      | false => simp [UxpteOp.stops, present, List.findIdx_cons]
      | true => simp [UxpteOp.stops, UxpteOp.apply, present, ih, List.findIdx_cons]
    · simp [UxpteOp.stops, looks, ih]

theorem overPages_entries_of_notMem (outside : p ∉ pages) : (overPages op pages e).entries p = e p := by
  induction pages generalizing e with
  | nil => rfl
  | cons q rest ih =>
    obtain ⟨other, later⟩ := not_or.mp (List.mem_cons.not.mp outside)
    rw [overPages]
    split
    · rfl
    · rw [ih later, Function.update_of_ne other]

theorem overPages_entries_of_mem (never : ∀ pte, op.stops pte = false) (once : pages.Nodup)
    (member : p ∈ pages) : (overPages op pages e).entries p = op.apply (e p) := by
  induction pages generalizing e with
  | nil => cases member
  | cons q rest ih =>
    obtain ⟨fresh, once⟩ := List.nodup_cons.mp once
    rw [overPages, if_neg (by simp [never])]
    rcases List.mem_cons.mp member with rfl | later
    · rw [overPages_entries_of_notMem fresh, Function.update_self]
    · have other : p ≠ q := fun same => fresh (same ▸ later)
      rw [ih once later, Function.update_of_ne other]

/-- On the way an entry holds its old value or its new one. -/
theorem overPages_passed (once : pages.Nodup) {m : Entries} (passed : m ∈ (overPages op pages e).passed) :
    m p = e p ∨ p ∈ pages ∧ m p = op.apply (e p) := by
  induction pages generalizing e with
  | nil => cases passed
  | cons q rest ih =>
    obtain ⟨fresh, others⟩ := List.nodup_cons.mp once
    rw [overPages] at passed
    split at passed
    · cases passed
    · by_cases same : p = q
      · subst same
        refine .inr ⟨List.mem_cons_self, ?_⟩
        rcases List.mem_cons.mp passed with rfl | later
        · exact Function.update_self ..
        · rcases ih others later with kept | ⟨again, -⟩
          · rw [kept, Function.update_self]
          · exact absurd again fresh
      · rcases List.mem_cons.mp passed with rfl | later
        · exact .inl (Function.update_of_ne same ..)
        · have step := ih others later
          rw [Function.update_of_ne same] at step
          exact step.imp_right fun ⟨member, value⟩ => ⟨List.mem_cons_of_mem _ member, value⟩

theorem overPages_isPresent_ok :
    (overPages .isPresent pages e).state = .ok ↔ ∀ p ∈ pages, isUxptePresent (e p) = true := by
  induction pages generalizing e with
  | nil => simp [overPages]
  | cons q rest ih =>
    rw [overPages]
    cases present : isUxptePresent (e q) <;> simp [UxpteOp.stops, UxpteOp.apply, present, ih]

end Pass

/-- `InitUxPageTable` succeeds where `mmap` does. -/
theorem setUp_of_mapped {addr len : UInt64} (aligned : addr.toNat % pageSize = 0)
    (multiple : len.toNat % pageSize = 0) (sized : getUxPageSize addr len ≠ 0) :
    SetUp ⟨addr, len, some ((uxptePageNo addr).toNat * uxptePerPage.toNat)⟩ addr len := by
  have ready : Ready ⟨addr, len, some ((uxptePageNo addr).toNat * uxptePerPage.toNat)⟩ :=
    ⟨aligned, multiple, sum_fits sized, rfl⟩
  have cleared := @uxpteOps_eq _ ready addr len .clear _ (Nat.lt_succ_self (2 ^ 52)) fun _ => 0
  refine ⟨aligned, multiple, true, 2 ^ 52 + 1, some ⟨0, 0, none⟩, fun _ => 0, ?_⟩
  simpa [initUxPageTable, mapUxptePages, uxpteClear, sized] using ⟨_, cleared⟩

/-- `InitUxPageTable` leaves the entries of the data at zero. -/
theorem init_clears {fuel : Nat} {mapped : Bool} {old : Option UxPageTableStruct} {upt : UxPageTableStruct} {addr size : UInt64}
    {e cleared : Entries} (set : SetUp upt addr size) (enough : 2 ^ 52 < fuel)
    (inited : initUxPageTable true mapped fuel old addr size e = some (.ok, some upt, cleared)) {p : Nat}
    (below : p < size.toNat / 4096) : cleared (addr.toNat / 4096 + p) = 0 := by
  obtain ⟨ready, sameAddr, sameSize⟩ := set.ready
  have emptied : ∃ r, uxpteClear true fuel (some upt) addr size e = some r ∧ r.entries = cleared := by
    unfold initUxPageTable at inited
    rw [if_neg (by decide)] at inited
    cases old with
    | none => simp at inited
    | some old =>
      dsimp only at inited
      split at inited
      · simp at inited
      · obtain ⟨r, ran, same⟩ := Option.map_eq_some_iff.mp inited
        cases same
        exact ⟨r, ran, rfl⟩
  obtain ⟨r, ran, rfl⟩ := emptied
  have fits := ready.fits
  have aligned := ready.aligned
  have multiple := ready.multiple
  rw [sameAddr, sameSize] at fits
  rw [sameAddr] at aligned
  have sum : (addr + size).toNat = addr.toNat + size.toNat := by
    rw [UInt64.toNat_add, Nat.mod_eq_of_lt fits]
  have ok : accepts upt addr size = true := by
    rw [accepts_iff ready, sum, sameAddr, sameSize]
    exact ⟨le_rfl, le_rfl⟩
  have member : addr.toNat / 4096 + p ∈ pagesOf addr size := by
    rw [mem_pagesOf ready ok, sum]
    omega
  have once : (pagesOf addr size).Nodup := (pagesOf_increasing _ _).imp Nat.ne_of_lt
  rw [uxpteClear, if_neg (by decide), uxpteOps_eq ready .clear enough, if_pos ok] at ran
  cases ran
  show (overPages .clear (pagesOf addr size) e).entries (addr.toNat / 4096 + p) = 0
  rw [overPages_entries_of_mem (fun _ => rfl) once member, UxpteOp.apply, uxpteClear_]
  split
  · assumption
  · rfl

end MemoryUtils.UxPageTable
