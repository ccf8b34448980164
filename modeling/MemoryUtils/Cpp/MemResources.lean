import MemoryUtils.Lib.Ledger
import MemoryUtils.Cpp.Resize
import MemoryUtils.Common.UxPageTable

/-!
Everything that a `PurgeableMem` acquires: its data mapping, its `UxPageTable` object, and the struct
and uxpte pages of that. A failing `munmap` leaves a mapping that no pointer leads to any more; the
question is whether anything else is ever lost, given back twice, or used after it is gone.
-/

namespace MemoryUtils.Cpp.MemResources
open Lib UxPageTable

inductive Resource where
  | data (addr size : UInt64)
  | uxpt (first : Nat) (size : UInt64)
  | uxptStruct (addr : Nat)
  | pageTable (addr : Nat)
  deriving DecidableEq

abbrev World := Ledger Resource

/-- The struct that `uxpt_` points to, with its address. -/
abbrev Uxpt := Nat × UxPageTableStruct

/-- The `UxPageTable` that `pageTable_` points to, with its address. -/
abbrev PageTablePtr := Nat × Option Uxpt

structure PurgeableMem where
  dataPtr : Option UInt64 := none
  dataSizeInput : UInt64 := 0
  builder : Bool := false
  pageTable : Option PageTablePtr := none

/-- How the constructor of `UxPageTable` fares. Memory from `malloc` holds arbitrary members, and the
new uxpt mapping arbitrary entries. -/
structure TableOutcomes where
  malloc : Option Uxpt
  mmapUxpt : Bool
  entries : Entries

/-- How `CreatePurgeableData` fares, the destructor of the old page table included. -/
structure CreateOutcomes extends TableOutcomes where
  uxptUnmapped : Bool
  mmapData : Option { addr : UInt64 // addr.toNat % pageSize = 0 }
  makeUnique : Option Nat

section Functions

variable (supportUxpt : Bool) (fuel : Nat)

/-- The uxpte pages that a struct holds, as `DeinitUxPageTable` computes them. -/
def uxptePages (upt : UxPageTableStruct) : Option Resource :=
  if supportUxpt then upt.uxpte.map fun first => .uxpt first (getUxPageSize upt.dataAddr upt.dataSize) else none

def uxptStruct (uxpt : Option Uxpt) : Option Resource := uxpt.map fun uxpt => .uxptStruct uxpt.1

/-- `UxPageTable::UxPageTable`. -/
def uxPageTable (addr len : UInt64) (out : TableOutcomes) (w : World) : Option (World × Option Uxpt) := do
  let w := w.acquireIf (uxptStruct out.malloc)
  let (err, upt, _) ← initUxPageTable supportUxpt out.mmapUxpt fuel (out.malloc.map Prod.snd) addr len out.entries
  let w := w.acquireIf (upt.bind (uxptePages supportUxpt))
  if err ≠ .ok then
    let w ← w.giveBackIf (uxptStruct out.malloc) true
    some (w, none)
  else some (w, (out.malloc.map Prod.fst).bind fun at_ => upt.map (at_, ·))

/-- `UxPageTable::~UxPageTable`. Where `DeinitUxPageTable` fails, the struct is not freed. -/
def uxPageTableGone (unmapped : Bool) (uxpt : Option Uxpt) (w : World) : Option World := do
  match uxpt with
  | none => some w
  | some (at_, upt) =>
    let err := (deinitUxPageTable supportUxpt unmapped (some upt)).1
    let w ← w.giveBackIf (uxptePages supportUxpt upt) unmapped
    w.giveBack (.uxptStruct at_) (err == .ok)

/-- `pageTable_` is reset. -/
def resetPageTable (unmapped : Bool) (o : PurgeableMem) (w : World) : Option World := do
  match o.pageTable with
  | none => some w
  | some (at_, uxpt) =>
    let w ← uxPageTableGone supportUxpt unmapped uxpt w
    w.release (.pageTable at_)

def createPurgeableData (out : CreateOutcomes) (o : PurgeableMem) (w : World) :
    Option (World × PurgeableMem × Bool) := do
  let w ← resetPageTable supportUxpt out.uxptUnmapped o w
  let size := UxPageTable.roundUp o.dataSizeInput pageBytes
  match out.mmapData with
  | none => some (w, { o with pageTable := none, dataPtr := none }, false)
  | some addr =>
    let w := w.acquire (.data addr size)
    match out.makeUnique with
    | none => some (w, { o with pageTable := none, dataPtr := some addr }, false)
    | some at_ =>
      let (w, uxpt) ← uxPageTable supportUxpt fuel addr size out.toTableOutcomes (w.acquire (.pageTable at_))
      some (w, { o with pageTable := some (at_, uxpt), dataPtr := some addr }, true)

def acceptsSize (size : UInt64) : Bool := !decide (size = 0 ∨ size.toNat ≥ maximumPurgeableMemory)

/-- `builder` says whether the constructor is given one. -/
def construct (dataSize : UInt64) (builder : Bool) (out : CreateOutcomes) (w : World) :
    Option (World × PurgeableMem) := do
  if !acceptsSize dataSize then some (w, {})
  else if !builder then some (w, { dataSizeInput := dataSize })
  else
    let (w, o, created) ← createPurgeableData supportUxpt fuel out { dataSizeInput := dataSize } w
    some (w, { o with builder := created })

def dataMapping (o : PurgeableMem) : Option Resource :=
  o.dataPtr.map fun addr => .data addr (UxPageTable.roundUp o.dataSizeInput pageBytes)

/-- What the destructor and `ResizeData` begin with: the data is unmapped with its rounded size. -/
def unmapData (unmapped : Bool) (o : PurgeableMem) (w : World) : Option World :=
  w.giveBackIf (dataMapping o) unmapped

/-- Where `munmap` fails, `dataPtr_` stays; then `CreatePurgeableData` overwrites it. -/
def resizeData (newSize : UInt64) (unmapped : Bool) (out : CreateOutcomes) (o : PurgeableMem) (w : World) :
    Option (World × PurgeableMem) := do
  if !acceptsSize newSize then some (w, o)
  else
    let w ← unmapData unmapped o w
    let dataPtr := if unmapped then none else o.dataPtr
    let (w, o, _) ← createPurgeableData supportUxpt fuel out { o with dataPtr := dataPtr, dataSizeInput := newSize } w
    some (w, o)

/-- `IsPurged`. The page table, its struct and its pages are read if there are any. -/
def isPurged (entries : Entries) (o : PurgeableMem) (w : World) : Option Bool := do
  match o.pageTable with
  | none => some false
  | some (at_, uxpt) =>
    w.use (.pageTable at_)
    w.useIf (uxptStruct uxpt)
    w.useIf (uxpt.bind fun uxpt => uxptePages supportUxpt uxpt.2)
    let present ← uxpteIsPresent supportUxpt fuel (uxpt.map Prod.snd) (o.dataPtr.getD 0) o.dataSizeInput entries
    some !present

/-- `PurgeableMem::~PurgeableMem`. The presence check only decides what is logged. -/
def destroy (dataUnmapped uxptUnmapped : Bool) (entries : Entries) (o : PurgeableMem) (w : World) : Option World := do
  let w ← unmapData dataUnmapped o w
  if o.dataPtr.isSome && dataUnmapped && supportUxpt then
    let _ ← isPurged supportUxpt fuel entries o w
    resetPageTable supportUxpt uxptUnmapped o w
  else resetPageTable supportUxpt uxptUnmapped o w

/-! ### Whole lives -/

structure Resize where
  newSize : UInt64
  dataUnmapped : Bool
  out : CreateOutcomes

def afterResizes : List Resize → World × PurgeableMem → Option (World × PurgeableMem)
  | [], s => some s
  | r :: rest, s => (resizeData supportUxpt fuel r.newSize r.dataUnmapped r.out s.2 s.1).bind (afterResizes rest)

/-- A whole life: the arguments and outcomes of the constructor, of the resizes and of the
destructor. -/
structure Life where
  dataSize : UInt64
  builder : Bool
  out : CreateOutcomes
  resizes : List Resize
  dataUnmapped : Bool
  uxptUnmapped : Bool
  entries : Entries

def Life.live (l : Life) (w : World) : Option (World × PurgeableMem) :=
  (construct supportUxpt fuel l.dataSize l.builder l.out w).bind (afterResizes supportUxpt fuel l.resizes)

def Life.run (l : Life) (w : World) : Option World :=
  (l.live supportUxpt fuel w).bind fun s => destroy supportUxpt fuel l.dataUnmapped l.uxptUnmapped l.entries s.2 s.1

end Functions

/-! ### What an object owns -/

section Owned

variable (supportUxpt : Bool)

def uxptOwned (uxpt : Option Uxpt) : Multiset Resource :=
  Ledger.those (uxpt.bind fun uxpt => uxptePages supportUxpt uxpt.2) + Ledger.those (uxptStruct uxpt)

def tableOwned : Option PageTablePtr → Multiset Resource
  | none => 0
  | some (at_, uxpt) => uxptOwned supportUxpt uxpt + {.pageTable at_}

def owned (o : PurgeableMem) : Multiset Resource :=
  Ledger.those (dataMapping o) + tableOwned supportUxpt o.pageTable

/-- A table with uxpte pages was set up over whole pages. -/
def WellFormed (o : PurgeableMem) : Prop :=
  supportUxpt = true → ∀ at_ inner upt, o.pageTable = some (at_, some (inner, upt)) → UxPageTable.Ready upt

end Owned

/-- What is written off on the way: no page table object, and nothing at all if the unmaps succeed. -/
def Loses (unmapped : Prop) (w w' : World) : Prop :=
  ∃ more, w'.left = more + w.left ∧ (∀ at_, Resource.pageTable at_ ∉ more) ∧ (unmapped → more = 0)

theorem Loses.of_eq {unmapped : Prop} {w w' : World} (same : w'.left = w.left) : Loses unmapped w w' :=
  ⟨0, by rw [same, Multiset.zero_add], fun _ => Multiset.notMem_zero _, fun _ => rfl⟩

theorem Loses.trans {first second : Prop} {w w' w'' : World} (before : Loses first w w') (after : Loses second w' w'') :
    Loses (first ∧ second) w w'' := by
  obtain ⟨lost, left, objects, nothing⟩ := before
  obtain ⟨lost', left', objects', nothing'⟩ := after
  refine ⟨lost' + lost, ?_, fun at_ member => ?_, fun ⟨ok, ok'⟩ => ?_⟩
  · rw [left', left, add_assoc]
  · rcases Multiset.mem_add.mp member with later | earlier
    · exact objects' at_ later
    · exact objects at_ earlier
  · rw [nothing ok, nothing' ok', Multiset.zero_add]

theorem Loses.imp {first second : Prop} {w w' : World} (weaker : second → first) (loses : Loses first w w') :
    Loses second w w' := by
  obtain ⟨lost, left, objects, nothing⟩ := loses
  exact ⟨lost, left, objects, fun ok => nothing (weaker ok)⟩

section Spec

variable {supportUxpt : Bool} {fuel : Nat} {base own : Multiset Resource} {w : World}

theorem giveBackIf_spec {r : Option Resource} (accounts : w.Accounts base (Ledger.those r + own))
    (mapping : ∀ at_, r ≠ some (.pageTable at_)) (unmapped : Bool) :
    ∃ w', w.giveBackIf r unmapped = some w' ∧ w'.Accounts base own ∧ Loses (unmapped = true) w w' := by
  obtain ⟨w', given, accounts, left⟩ := accounts.giveBackIf unmapped
  refine ⟨w', given, accounts, _, left, fun at_ member => ?_, fun ok => if_pos ok⟩
  split at member
  · exact Multiset.notMem_zero _ member
  · cases r with
    | none => exact Multiset.notMem_zero _ member
    | some r =>
      apply mapping at_
      rw [Multiset.mem_singleton.mp member]

/-! ### The page table -/

theorem deinit_ok_iff (unmapped : Bool) (upt : UxPageTableStruct) :
    (deinitUxPageTable supportUxpt unmapped (some upt)).1 = .ok ↔
      (uxptePages supportUxpt upt = none ∨ unmapped = true) := by
  unfold deinitUxPageTable uxptePages
  cases supportUxpt with
  | false => simp
  | true => cases pages : upt.uxpte <;> cases unmapped <;> simp [pages]

theorem uxptePages_ne (upt : UxPageTableStruct) (at_ : Nat) : uxptePages supportUxpt upt ≠ some (.pageTable at_) := by
  unfold uxptePages
  split <;> simp

theorem uxPageTableGone_spec {uxpt : Option Uxpt} (accounts : w.Accounts base (uxptOwned supportUxpt uxpt + own))
    (unmapped : Bool) :
    ∃ w', uxPageTableGone supportUxpt unmapped uxpt w = some w' ∧ w'.Accounts base own ∧
      Loses (unmapped = true) w w' := by
  cases uxpt with
  | none =>
    refine ⟨w, rfl, accounts.trans ?_, .of_eq rfl⟩
    simp [uxptOwned, uxptStruct, Ledger.those]
  | some uxpt =>
    obtain ⟨at_, upt⟩ := uxpt
    rw [uxptOwned, add_assoc] at accounts
    obtain ⟨w₁, unmaps, accounts, loses⟩ := giveBackIf_spec accounts (uxptePages_ne upt) unmapped
    obtain ⟨w₂, frees, accounts, loses'⟩ := giveBackIf_spec accounts (by simp [uxptStruct])
      ((deinitUxPageTable supportUxpt unmapped (some upt)).1 == .ok)
    refine ⟨w₂, ?_, accounts, (loses.trans loses').imp fun ok => ⟨ok, ?_⟩⟩
    · rw [uxPageTableGone, show w.giveBackIf (uxptePages supportUxpt upt) unmapped = some w₁ from unmaps]
      exact frees
    · exact beq_iff_eq.mpr ((deinit_ok_iff unmapped upt).mpr (.inr ok))

theorem resetPageTable_spec {o : PurgeableMem} (accounts : w.Accounts base (tableOwned supportUxpt o.pageTable + own))
    (unmapped : Bool) :
    ∃ w', resetPageTable supportUxpt unmapped o w = some w' ∧ w'.Accounts base own ∧
      Loses (unmapped = true) w w' := by
  unfold resetPageTable
  cases table : o.pageTable with
  | none =>
    rw [table, tableOwned, Multiset.zero_add] at accounts
    exact ⟨w, rfl, accounts, .of_eq rfl⟩
  | some pageTable =>
    obtain ⟨at_, uxpt⟩ := pageTable
    rw [table, tableOwned, add_assoc] at accounts
    obtain ⟨w₁, gone, accounts, loses⟩ := uxPageTableGone_spec accounts unmapped
    rw [Multiset.singleton_add] at accounts
    obtain ⟨w₂, freed, accounts, left⟩ := accounts.release
    have nothing : Loses True w₁ w₂ := .of_eq left
    refine ⟨w₂, ?_, accounts, (loses.trans nothing).imp fun ok => ⟨ok, trivial⟩⟩
    simp only [gone]
    exact freed

section Setup

variable {addr len : UInt64} (enough : 2 ^ 52 < fuel) (aligned : addr.toNat % pageSize = 0)
  (multiple : len.toNat % pageSize = 0)

include enough aligned multiple

/-- What `InitUxPageTable` leaves where it fails has no pages, and where it does not can be used. -/
theorem initUxPageTable_spec (mapped : Bool) (upt : Option UxPageTableStruct) (e : Entries) :
    ∃ err upt' e', initUxPageTable supportUxpt mapped fuel upt addr len e = some (err, upt', e') ∧
      upt'.isSome = upt.isSome ∧ (err ≠ .ok → upt'.bind (uxptePages supportUxpt) = none) ∧
      (err = .ok → supportUxpt = true → ∀ u, upt' = some u → UxPageTable.Ready u) := by
  cases supportUxpt with
  | false => exact ⟨.ok, upt, e, rfl, rfl, fun failed => absurd rfl failed, fun _ unsupported => by cases unsupported⟩
  | true =>
    cases upt with
    | none => exact ⟨.mmapUxptFail, none, e, rfl, rfl, fun _ => rfl, fun ok => by cases ok⟩
    | some upt =>
      simp only [initUxPageTable, Bool.not_true, Bool.false_eq_true, if_false]
      cases pages : mapUxptePages mapped addr len with
      | none => exact ⟨.mmapUxptFail, some ⟨addr, len, none⟩, e, rfl, rfl, fun _ => rfl, fun ok => by cases ok⟩
      | some first =>
        obtain ⟨granted, same⟩ := Option.ite_none_left_eq_some.mp pages
        cases same
        have sized : getUxPageSize addr len ≠ 0 := fun zero => granted (.inl zero)
        have ready : UxPageTable.Ready ⟨addr, len, some ((uxptePageNo addr).toNat * uxptePerPage.toNat)⟩ :=
          ⟨aligned, multiple, sum_fits sized, rfl⟩
        have cleared := @uxpteOps_eq _ ready addr len .clear _ enough e
        simp only [uxpteClear, Bool.not_true, Bool.false_eq_true, if_false, cleared, Option.map_some]
        refine ⟨.ok, _, _, rfl, rfl, fun failed => absurd rfl failed, ?_⟩
        rintro - - u ⟨⟩
        exact ready

theorem uxPageTable_spec (accounts : w.Accounts base own) (out : TableOutcomes) :
    ∃ w' uxpt, uxPageTable supportUxpt fuel addr len out w = some (w', uxpt) ∧
      w'.Accounts base (uxptOwned supportUxpt uxpt + own) ∧ w'.left = w.left ∧
      (supportUxpt = true → ∀ inner u, uxpt = some (inner, u) → UxPageTable.Ready u) := by
  obtain ⟨err, upt', e', init, same, failed, ready⟩ := @initUxPageTable_spec supportUxpt fuel addr len enough aligned
    multiple out.mmapUxpt (out.malloc.map Prod.snd) out.entries
  simp only [uxPageTable, init, Option.bind_eq_bind, Option.bind_some]
  cases malloc : out.malloc with
  | none =>
    rw [malloc, Option.map_none, Option.isSome_none, Option.isSome_eq_false_iff, Option.isNone_iff_eq_none] at same
    subst same
    refine ⟨w, none, ?_, ?_, rfl, fun _ inner u absent => by cases absent⟩
    · split <;> rfl
    · simpa [uxptOwned, uxptStruct, Ledger.those] using accounts
  | some uxpt =>
    obtain ⟨at_, garbage⟩ := uxpt
    rw [malloc, Option.map_some, Option.isSome_some, Option.isSome_iff_exists] at same
    obtain ⟨u, rfl⟩ := same
    have acquired := (accounts.acquireIf (uxptStruct (some (at_, garbage)))).acquireIf (uxptePages supportUxpt u)
    have kept : ∀ r (w : World), (w.acquireIf r).left = w.left := by
      intro r w
      cases r <;> rfl
    by_cases ok : err = .ok
    · rw [if_neg (not_not.mpr ok)]
      refine ⟨_, some (at_, u), rfl, ?_, ?_, ?_⟩
      · rw [uxptOwned, add_assoc]
        exact acquired
      · rw [kept, kept]
      · rintro supported inner _ ⟨⟩
        exact ready ok supported u rfl
    · have none_mapped : uxptePages supportUxpt u = none := failed ok
      rw [none_mapped] at acquired
      rw [Ledger.those, Option.elim_none, Multiset.zero_add] at acquired
      obtain ⟨w', freed, accounts, left⟩ := acquired.giveBackIf true
      rw [if_pos ok, Option.bind_some, none_mapped, freed]
      refine ⟨w', none, rfl, ?_, ?_, fun _ inner u absent => by cases absent⟩
      · simpa [uxptOwned, uxptStruct, Ledger.those] using accounts
      · rw [left, if_pos rfl, Multiset.zero_add, kept, kept]

end Setup

/-! ### The object -/

theorem roundUp_multiple {size : UInt64} (small : size.toNat < maximumPurgeableMemory) :
    (UxPageTable.roundUp size pageBytes).toNat % pageSize = 0 := by
  rw [maximumPurgeableMemory] at small
  rw [roundUp_toNat, if_pos (by omega), pageSize_eq]
  omega

theorem small_of_acceptsSize {size : UInt64} (accepted : acceptsSize size = true) :
    size.toNat < maximumPurgeableMemory := by
  simp only [acceptsSize, Bool.not_eq_true', decide_eq_false_iff_not, not_or] at accepted
  exact Nat.lt_of_not_le accepted.2

variable {o : PurgeableMem}

theorem wellFormed_of_null (null : o.pageTable = none) : WellFormed supportUxpt o := by
  intro supported at_ inner upt present
  rw [null] at present
  cases present

theorem createPurgeableData_spec (enough : 2 ^ 52 < fuel)
    (accounts : w.Accounts base (tableOwned supportUxpt o.pageTable))
    (small : o.dataSizeInput.toNat < maximumPurgeableMemory) (out : CreateOutcomes) :
    ∃ w' o' created, createPurgeableData supportUxpt fuel out o w = some (w', o', created) ∧
      w'.Accounts base (owned supportUxpt o') ∧ WellFormed supportUxpt o' ∧
      Loses (out.uxptUnmapped = true) w w' := by
  rw [← add_zero (tableOwned supportUxpt o.pageTable)] at accounts
  obtain ⟨w₁, reset, accounts, loses⟩ := resetPageTable_spec accounts out.uxptUnmapped
  simp only [createPurgeableData, reset, Option.bind_eq_bind, Option.bind_some]
  cases out.mmapData with
  | none =>
    refine ⟨w₁, _, _, rfl, ?_, wellFormed_of_null rfl, loses⟩
    simpa [owned, dataMapping, tableOwned, Ledger.those] using accounts
  | some addr =>
    have mapped := accounts.acquire (.data addr (UxPageTable.roundUp o.dataSizeInput pageBytes))
    cases out.makeUnique with
    | none =>
      refine ⟨_, _, _, rfl, ?_, wellFormed_of_null rfl, loses⟩
      simpa [owned, dataMapping, tableOwned, Ledger.those] using mapped
    | some at_ =>
      obtain ⟨w₂, uxpt, constructed, accounts, left, ready⟩ := @uxPageTable_spec supportUxpt fuel _ _ _ addr _ enough
        addr.2 (roundUp_multiple small) (mapped.acquire (.pageTable at_)) out.toTableOutcomes
      simp only [constructed, Option.bind_some]
      have nothing : Loses True w₁ w₂ := .of_eq left
      refine ⟨w₂, _, _, rfl, ?_, ?_, (loses.trans nothing).imp fun ok => ⟨ok, trivial⟩⟩
      · have same : owned supportUxpt { o with pageTable := some (at_, uxpt), dataPtr := some addr.1 }
            = uxptOwned supportUxpt uxpt +
              .pageTable at_ ::ₘ .data addr (UxPageTable.roundUp o.dataSizeInput pageBytes) ::ₘ 0 := by
          simp only [owned, dataMapping, tableOwned, Ledger.those, Option.map_some, Option.elim_some,
            ← Multiset.singleton_add]
          rw [add_zero, add_comm, add_assoc]
        rw [same]
        exact accounts
      · rintro supported _ inner upt ⟨⟩
        exact ready supported inner upt rfl

theorem unmapData_spec (accounts : w.Accounts base (owned supportUxpt o)) (unmapped : Bool) :
    ∃ w', unmapData unmapped o w = some w' ∧ w'.Accounts base (tableOwned supportUxpt o.pageTable) ∧
      Loses (unmapped = true) w w' :=
  giveBackIf_spec accounts (by simp [dataMapping]) unmapped

theorem construct_spec (enough : 2 ^ 52 < fuel) (accounts : w.Accounts base 0) (dataSize : UInt64) (builder : Bool)
    (out : CreateOutcomes) :
    ∃ w' o', construct supportUxpt fuel dataSize builder out w = some (w', o') ∧
      w'.Accounts base (owned supportUxpt o') ∧ WellFormed supportUxpt o' ∧ Loses (out.uxptUnmapped = true) w w' := by
  unfold construct
  split
  · exact ⟨w, _, rfl, accounts, wellFormed_of_null rfl, .of_eq rfl⟩
  · rename_i accepted
    split
    · exact ⟨w, _, rfl, accounts, wellFormed_of_null rfl, .of_eq rfl⟩
    · have small := small_of_acceptsSize (by simpa using accepted)
      obtain ⟨w', o', created, done, accounts, formed, loses⟩ :=
        @createPurgeableData_spec supportUxpt fuel base w { dataSizeInput := dataSize } enough accounts small out
      simp only [done, Option.bind_eq_bind, Option.bind_some]
      exact ⟨w', _, rfl, accounts, formed, loses⟩

theorem resizeData_spec (enough : 2 ^ 52 < fuel) (accounts : w.Accounts base (owned supportUxpt o))
    (formed : WellFormed supportUxpt o) (r : Resize) :
    ∃ w' o', resizeData supportUxpt fuel r.newSize r.dataUnmapped r.out o w = some (w', o') ∧
      w'.Accounts base (owned supportUxpt o') ∧ WellFormed supportUxpt o' ∧
      Loses (r.dataUnmapped = true ∧ r.out.uxptUnmapped = true) w w' := by
  unfold resizeData
  split
  · exact ⟨w, o, rfl, accounts, formed, .of_eq rfl⟩
  · rename_i accepted
    have small := small_of_acceptsSize (by simpa using accepted)
    obtain ⟨w₁, unmapped, accounts, loses⟩ := unmapData_spec accounts r.dataUnmapped
    obtain ⟨w₂, o', created, done, accounts, formed, loses'⟩ := @createPurgeableData_spec supportUxpt fuel base w₁
      { o with dataPtr := if r.dataUnmapped then none else o.dataPtr, dataSizeInput := r.newSize } enough accounts
      small r.out
    simp only [unmapped, done, Option.bind_eq_bind, Option.bind_some]
    exact ⟨w₂, o', rfl, accounts, formed, loses.trans loses'⟩

/-- The destructor looks at a page table that it has not given back yet. -/
theorem isPurged_spec (enough : 2 ^ 52 < fuel) (accounts : w.Accounts base (tableOwned supportUxpt o.pageTable))
    (formed : WellFormed supportUxpt o) (entries : Entries) :
    ∃ purged, isPurged supportUxpt fuel entries o w = some purged := by
  unfold isPurged
  cases table : o.pageTable with
  | none => exact ⟨false, rfl⟩
  | some pageTable =>
    obtain ⟨at_, uxpt⟩ := pageTable
    rw [table, tableOwned, uxptOwned] at accounts
    have object := accounts.use (Multiset.mem_add.mpr (.inr (Multiset.mem_singleton_self (Resource.pageTable at_))))
    have struct := accounts.useIf ((Multiset.le_add_left _ _).trans (Multiset.le_add_right _ _))
    have pages := accounts.useIf ((Multiset.le_add_right _ _).trans (Multiset.le_add_right _ _))
    obtain ⟨present, answered⟩ : ∃ present, uxpteIsPresent supportUxpt fuel (uxpt.map Prod.snd) (o.dataPtr.getD 0)
        o.dataSizeInput entries = some present := by
      unfold uxpteIsPresent
      cases supported : supportUxpt with
      | false => exact ⟨true, rfl⟩
      | true =>
        cases uxpt with
        | none => exact ⟨false, rfl⟩
        | some uxpt =>
          have ready := formed supported at_ uxpt.1 uxpt.2 table
          rw [Option.map_some, uxpteOps_eq ready .isPresent enough]
          exact ⟨_, rfl⟩
    simp only [object, struct, pages, answered, Option.bind_eq_bind, Option.bind_some]
    exact ⟨_, rfl⟩

theorem destroy_spec (enough : 2 ^ 52 < fuel) (accounts : w.Accounts base (owned supportUxpt o))
    (formed : WellFormed supportUxpt o) (dataUnmapped uxptUnmapped : Bool) (entries : Entries) :
    ∃ w', destroy supportUxpt fuel dataUnmapped uxptUnmapped entries o w = some w' ∧ w'.Accounts base 0 ∧
      Loses (dataUnmapped = true ∧ uxptUnmapped = true) w w' := by
  obtain ⟨w₁, unmapped, accounts, loses⟩ := unmapData_spec accounts dataUnmapped
  obtain ⟨purged, looked⟩ := isPurged_spec enough accounts formed entries
  rw [← add_zero (tableOwned supportUxpt o.pageTable)] at accounts
  obtain ⟨w₂, reset, accounts, loses'⟩ := resetPageTable_spec accounts uxptUnmapped
  refine ⟨w₂, ?_, accounts, loses.trans loses'⟩
  simp only [destroy, unmapped, looked, reset, Option.bind_eq_bind, Option.bind_some, ite_self]

/-! ### The page table that accesses use -/

def kindOf (supportUxpt : Bool) : Option PageTablePtr → PageTable
  | none => .null
  | some (_, uxpt) => if supportUxpt && uxpt.isNone then .noStruct else .ready

/-- The outcomes as `PurgeableMem` sees them. `mmap` fails for size 0. -/
def CreateOutcomes.creation (out : CreateOutcomes) (size : UInt64) : Creation where
  mapped := out.mmapData.isSome
  made := out.makeUnique.isSome
  malloced := out.malloc.isSome
  uxptMapped := out.mmapUxpt && out.mmapData.any fun addr => getUxPageSize addr size != 0

theorem uxPageTable_isNone {addr len : UInt64} {out : TableOutcomes} {w w' : World} {uxpt : Option Uxpt}
    (done : uxPageTable true fuel addr len out w = some (w', uxpt)) :
    uxpt.isNone = !(out.malloc.isSome && (out.mmapUxpt && getUxPageSize addr len != 0)) := by
  simp only [uxPageTable, Option.bind_eq_bind] at done
  obtain ⟨⟨err, upt, e⟩, init, done⟩ := Option.bind_eq_some_iff.mp done
  simp only [initUxPageTable, Bool.not_true, Bool.false_eq_true, if_false] at init
  cases malloc : out.malloc with
  | none =>
    rw [malloc] at init done
    cases init
    rw [if_pos (by simp)] at done
    cases done
    rfl
  | some found =>
    rw [malloc, Option.map_some] at init
    rw [malloc] at done
    cases pages : mapUxptePages out.mmapUxpt addr len with
    | none =>
      rw [pages] at init
      cases init
      rw [if_pos (by simp)] at done
      obtain ⟨w₁, -, same⟩ := Option.bind_eq_some_iff.mp done
      cases same
      simp only [mapUxptePages, ite_eq_left_iff, reduceCtorEq, imp_false, not_not] at pages
      rcases pages with zero | failed
      · simp [zero]
      · simp [failed]
    | some first =>
      rw [pages] at init
      obtain ⟨r, -, same⟩ := Option.map_eq_some_iff.mp init
      cases same
      rw [if_neg (by simp)] at done
      cases done
      obtain ⟨granted, -⟩ := Option.ite_none_left_eq_some.mp pages
      rw [not_or, Bool.not_eq_false] at granted
      simp [granted]

/-- `Creation` says which page table an object has. -/
theorem createPurgeableData_agrees {out : CreateOutcomes} {o o' : PurgeableMem} {w w' : World} {created : Bool}
    (done : createPurgeableData supportUxpt fuel out o w = some (w', o', created)) :
    let seen := out.creation (UxPageTable.roundUp o.dataSizeInput pageBytes)
    o'.dataPtr.isSome = seen.mapped ∧ created = (seen.mapped && seen.made) ∧
      kindOf supportUxpt o'.pageTable = seen.pageTable supportUxpt := by
  simp only [createPurgeableData, Option.bind_eq_bind] at done
  obtain ⟨w₁, -, done⟩ := Option.bind_eq_some_iff.mp done
  cases mapped : out.mmapData with
  | none =>
    rw [mapped] at done
    cases done
    simp [CreateOutcomes.creation, mapped, kindOf, Creation.pageTable]
  | some addr =>
    rw [mapped] at done
    cases made : out.makeUnique with
    | none =>
      rw [made] at done
      cases done
      simp [CreateOutcomes.creation, mapped, made, kindOf, Creation.pageTable]
    | some at_ =>
      rw [made] at done
      obtain ⟨⟨w₂, uxpt⟩, constructed, same⟩ := Option.bind_eq_some_iff.mp done
      cases same
      refine ⟨by simp [CreateOutcomes.creation, mapped], by simp [CreateOutcomes.creation, mapped, made], ?_⟩
      cases supportUxpt with
      | false => simp [CreateOutcomes.creation, kindOf, Creation.pageTable, Cpp.uxPageTable, mapped, made]
      | true =>
        have isNone := uxPageTable_isNone constructed
        simp [CreateOutcomes.creation, kindOf, Creation.pageTable, Cpp.uxPageTable, mapped, made, isNone]

/-! ### Every life -/

def Resize.Unmaps (r : Resize) : Prop := r.dataUnmapped = true ∧ r.out.uxptUnmapped = true

theorem afterResizes_spec (enough : 2 ^ 52 < fuel) (accounts : w.Accounts base (owned supportUxpt o))
    (formed : WellFormed supportUxpt o) (resizes : List Resize) :
    ∃ w' o', afterResizes supportUxpt fuel resizes (w, o) = some (w', o') ∧
      w'.Accounts base (owned supportUxpt o') ∧ WellFormed supportUxpt o' ∧
      Loses (∀ r ∈ resizes, r.Unmaps) w w' := by
  induction resizes generalizing w o with
  | nil => exact ⟨w, o, rfl, accounts, formed, .of_eq rfl⟩
  | cons r rest ih =>
    obtain ⟨w₁, o₁, resized, accounts, formed, loses⟩ := resizeData_spec enough accounts formed r
    obtain ⟨w₂, o₂, later, accounts, formed, loses'⟩ := ih accounts formed
    refine ⟨w₂, o₂, ?_, accounts, formed, (loses.trans loses').imp List.forall_mem_cons.mp⟩
    rw [afterResizes, resized]
    exact later

end Spec

/-- Every `munmap` of the life succeeds. -/
def Life.Unmaps (l : Life) : Prop :=
  l.out.uxptUnmapped = true ∧ (∀ r ∈ l.resizes, r.Unmaps) ∧ l.dataUnmapped = true ∧ l.uxptUnmapped = true

/-- In every life, with every pattern of failures, the object holds what its pointers lead to and nothing is
unmapped, freed or looked at that is not held. After it, what is left is what failing `munmap` calls left: never a
page table object, and nothing if they all succeed. -/
theorem failed_unmaps_are_all_that_is_left (supportUxpt : Bool) {fuel : Nat} (enough : 2 ^ 52 < fuel) (l : Life)
    (held : Multiset Resource) :
    (∃ w o, l.live supportUxpt fuel ⟨held, 0⟩ = some (w, o) ∧ w.held = held + w.left + owned supportUxpt o) ∧
    ∃ w, l.run supportUxpt fuel ⟨held, 0⟩ = some w ∧ w.held = held + w.left ∧
      (∀ at_, Resource.pageTable at_ ∉ w.left) ∧ (l.Unmaps → w.left = 0) := by
  have start : (⟨held, 0⟩ : World).Accounts held 0 := by
    show held = held + 0 + 0
    rw [add_zero, add_zero]
  obtain ⟨w₁, o₁, constructed, accounts, formed, loses₁⟩ :=
    @construct_spec supportUxpt fuel held _ enough start l.dataSize l.builder l.out
  obtain ⟨w₂, o₂, resized, accounts, formed, loses₂⟩ := afterResizes_spec enough accounts formed l.resizes
  obtain ⟨w₃, destroyed, gone, loses₃⟩ :=
    destroy_spec enough accounts formed l.dataUnmapped l.uxptUnmapped l.entries
  have lived : l.live supportUxpt fuel ⟨held, 0⟩ = some (w₂, o₂) := by
    rw [Life.live, constructed]
    exact resized
  refine ⟨⟨w₂, o₂, lived, accounts⟩, w₃, ?_, gone.trans (add_zero _), ?_, ?_⟩
  · rw [Life.run, lived]
    exact destroyed
  · obtain ⟨more, left, objects, -⟩ := (loses₁.trans loses₂).trans loses₃
    rw [left]
    simpa using objects
  · rintro ⟨first, resizes, last⟩
    obtain ⟨more, left, -, nothing⟩ := (loses₁.trans loses₂).trans loses₃
    rw [left, nothing ⟨⟨first, resizes⟩, last⟩]
    rfl

/-- The data of the constructor cannot be unmapped by the resize, and the new page table has no struct. -/
def stuckResize : Life where
  dataSize := 9000
  builder := true
  out :=
    { malloc := some (1, ⟨7, 7, some 7⟩), mmapUxpt := true, entries := fun _ => 5, uxptUnmapped := true,
      mmapData := some ⟨0x400000, by decide⟩, makeUnique := some 2 }
  resizes :=
    [{ newSize := 5000, dataUnmapped := false, out :=
        { malloc := none, mmapUxpt := true, entries := fun _ => 0, uxptUnmapped := true,
          mmapData := some ⟨0x800000, by decide⟩, makeUnique := some 3 } }]
  dataUnmapped := true
  uxptUnmapped := true
  entries := fun _ => 0

theorem stuckResize_leaves_first_data : ∃ w, stuckResize.run true (2 ^ 52 + 1) ⟨0, 0⟩ = some w ∧
    w.held = 0 + w.left ∧ w.left = {.data 0x400000 0x3000} := by
  obtain ⟨w, ran, held, -⟩ := (failed_unmaps_are_all_that_is_left true (Nat.lt_succ_self _) stuckResize 0).2
  have seen : (stuckResize.run true (2 ^ 52 + 1) ⟨0, 0⟩).map Ledger.left = some {.data 0x400000 0x3000} := by
    decide +kernel
  rw [ran] at seen
  exact ⟨w, ran, held, Option.some.inj seen⟩

end MemoryUtils.Cpp.MemResources
