import MemoryUtils.Cpp.Contract
import MemoryUtils.Cpp.Simulation
import MemoryUtils.Cpp.TableRefinement

/-!
`PurgeableMem` on the data it works on: the address in `dataPtr_`, the table behind `pageTable_`, and the
64-bit entries of the process. Its calls walk the entries as `UxpteOps` does, and the kernel may act before
each one. Whole runs are those of the class over page numbers and entry fields, so what the pins of the one
do, the refcounts in the words of the other do.
-/

namespace MemoryUtils.Cpp.PurgeableMem.Words
open Lib UxPageTable Uxpte

structure Memory (n : Nat) where
  content : Content n
  entries : Entries

/-- `dataPtr_`, and `pageTable_` with the struct that its `uxpt_` points to. -/
structure Pointers where
  dataPtr : UInt64
  pageTable : Option (Option UxPageTableStruct)

def Pointers.kind (P : Pointers) : PageTable :=
  match P.pageTable with
  | none => .null
  | some none => .noStruct
  | some (some _) => .ready

section Functions

variable (S : Setup) (P : Pointers)

def firstPage : Nat := P.dataPtr.toNat / 4096

def dataSizeInput : UInt64 := UInt64.ofNat S.len

/-- Where the loop of `UxpteOps` over the data starts, and where it ends. -/
def start : UInt64 := roundDown P.dataPtr pageBytes

def end_ : UInt64 := UxPageTable.roundUp (P.dataPtr + dataSizeInput S) pageBytes

/-- The kernel sets the present bits of the pages that are touched. -/
def touch {n : Nat} (touched : Nat → Bool) (m : Memory n) : Memory n :=
  { m with entries := fun i =>
      if firstPage P ≤ i ∧ touched (i - firstPage P) = true then m.entries i ||| uxptePresentMask else m.entries i }

def kernel (m : Memory S.len) : PageStep → Memory S.len
  | .reclaim p =>
    if p < S.pages ∧ refcnt (m.entries (firstPage P + p)) = 0 then
      { content := fun i => if pageOf i = p then 0 else m.content i
        entries := Function.update m.entries (firstPage P + p) 0 }
    else m
  | .setPresent p present =>
    let old := m.entries (firstPage P + p)
    let newVal := old - old % uxpteRefcntOne + if present then 1 else 0
    { m with entries := Function.update m.entries (firstPage P + p) newVal }

/-- More passes than there are pages. -/
def passes : Nat := 2 ^ 52 + 1

/-- The loop of `UxpteOps` where it gets or puts. Its own test ends it before `fuel` does. -/
def opsLoop {n : Nat} (op : UInt64 → Entries → Entries) (between : Nat → Memory n → Memory n) (end_ : UInt64) :
    (fuel i : Nat) → UInt64 → Memory n → Memory n
  | 0, _, _, m => m
  | fuel + 1, i, off, m =>
    if off < end_ then
      opsLoop op between end_ fuel (i + 1) (off + pageBytes)
        { between i m with entries := op off (between i m).entries }
    else m

def uxpteOps (op : UxPageTableStruct → UInt64 → Entries → Entries) (between : Nat → Memory S.len → Memory S.len)
    (uxpt : Option UxPageTableStruct) (m : Memory S.len) : Memory S.len :=
  if !S.supportUxpt then m
  else
    match uxpt with
    | none => m
    | some upt =>
      if !accepts upt P.dataPtr (dataSizeInput S) then m
      else opsLoop (op upt) between (end_ S P) passes 0 (start P) m

/-- The same loop where it asks for the present bits. -/
def presentLoop {n : Nat} (upt : UxPageTableStruct) (between : Nat → Memory n → Memory n) (end_ : UInt64) :
    (fuel i : Nat) → UInt64 → Memory n → Memory n × Bool
  | 0, _, _, m => (m, true)
  | fuel + 1, i, off, m =>
    if off < end_ then
      if upt.isPresentAt off (between i m).entries then
        presentLoop upt between end_ fuel (i + 1) (off + pageBytes) (between i m)
      else (between i m, false)
    else (m, true)

def uxpteIsPresent (between : Nat → Memory S.len → Memory S.len) (uxpt : Option UxPageTableStruct)
    (m : Memory S.len) : Memory S.len × Bool :=
  if !S.supportUxpt then (m, true)
  else
    match uxpt with
    | none => (m, false)
    | some upt =>
      if !accepts upt P.dataPtr (dataSizeInput S) then (m, false)
      else presentLoop upt between (end_ S P) passes 0 (start P) m

def pin (between : Nat → Memory S.len → Memory S.len) (m : Memory S.len) : Memory S.len :=
  match P.pageTable with
  | none => m
  | some uxpt => uxpteOps S P UxPageTableStruct.getUxpteAt between uxpt m

def unpin (between : Nat → Memory S.len → Memory S.len) (m : Memory S.len) : Memory S.len :=
  match P.pageTable with
  | none => m
  | some uxpt => uxpteOps S P UxPageTableStruct.putUxpteAt between uxpt m

def isPurged (between : Nat → Memory S.len → Memory S.len) (m : Memory S.len) : Memory S.len × Bool :=
  match P.pageTable with
  | none => (m, false)
  | some uxpt =>
    let present := uxpteIsPresent S P between uxpt m
    (present.1, !present.2)

def virtuals : Virtuals S.len (Memory S.len) PageStep where
  kernel := kernel S P
  content := Memory.content
  store m touched c := { touch P touched m with content := c }
  clear m := { touch P (fun p => decide (p < S.pages)) m with content := zeros }
  pin := pin S P
  unpin := unpin S P
  isPurged := isPurged S P
  afterRebuildSucc := id

end Functions

/-! ### The words of a region -/

/-- The table is that of the data. -/
def Laid (S : Setup) (P : Pointers) : Prop :=
  S.supportUxpt = true → ∀ upt, P.pageTable = some (some upt) → Backs upt S ∧ upt.dataAddr = P.dataPtr

def pinLimit : Int := 2 ^ 62

structure Realizes (S : Setup) (P : Pointers) (m : Memory S.len) (r : Region S.len) : Prop where
  content : m.content = r.content
  words : Encoded (firstPage P) S.pages m.entries r
  few : ∀ p < S.pages, r.refcnt p ≤ pinLimit

section Steps

variable {S : Setup} {P : Pointers} {m : Memory S.len} {r : Region S.len} (rel : Realizes S P m r)

include rel

theorem Realizes.refcnt {p : Nat} (below : p < S.pages) :
    (Uxpte.refcnt (m.entries (firstPage P + p)) : Int) = r.refcnt p := (rel.words p below).refcnt

theorem Realizes.room {p : Nat} (below : p < S.pages) : (m.entries (firstPage P + p)).toNat + 4 < 2 ^ 64 := by
  have count := rel.refcnt below
  have few := rel.few p below
  rw [Uxpte.refcnt, refcntOne_toNat] at count
  rw [pinLimit] at few
  omega

theorem Realizes.touch (touched : Nat → Bool) (c : Content S.len) :
    Realizes S P { touch P touched m with content := c } { r.touch touched with content := c } :=
  ⟨rfl, rel.words.touch touched, rel.few⟩

theorem Realizes.kernel (k : PageStep) : Realizes S P (kernel S P m k) (PurgeableMem.kernel S r k) := by
  cases k with
  | reclaim p =>
    have same : p < S.pages ∧ Uxpte.refcnt (m.entries (firstPage P + p)) = 0 ↔ p < S.pages ∧ r.refcnt p = 0 := by
      refine and_congr_right fun below => ?_
      have count := rel.refcnt below
      omega
    rw [Words.kernel, PurgeableMem.kernel]
    by_cases unpinned : p < S.pages ∧ r.refcnt p = 0
    · rw [if_pos unpinned, if_pos (same.mpr unpinned)]
      refine ⟨?_, rel.words.reclaim unpinned.1 (same.mpr unpinned).2, fun q below => ?_⟩
      · simp only [Region.reclaim, rel.content]
      · rw [Region.reclaim_refcnt]
        exact rel.few q below
    · rw [if_neg unpinned, if_neg (same.not.mpr unpinned)]
      exact rel
  | setPresent p present =>
    refine ⟨rel.content, ?_, fun q below => ?_⟩
    · intro q below
      by_cases same : q = p
      · subst same
        have few := rel.few q below
        have count := rel.refcnt below
        have entry : (r.setPresent q present).entries q = { r.entries q with present := present } :=
          Function.update_self ..
        rw [PurgeableMem.kernel, entry]
        show Encodes (Function.update m.entries (firstPage P + q) _ (firstPage P + q)) _
        rw [Function.update_self]
        refine encodes_setPresent (rel.words q below) ?_ present
        rw [pinLimit] at few
        omega
      · have entry : (r.setPresent p present).entries q = r.entries q := Function.update_of_ne same ..
        rw [PurgeableMem.kernel, entry]
        show Encodes (Function.update m.entries (firstPage P + p) _ (firstPage P + q)) _
        rw [Function.update_of_ne (by omega)]
        exact rel.words q below
    · rw [PurgeableMem.kernel, Region.setPresent_refcnt]
      exact rel.few q below

variable (steps : Nat → List PageStep) (i : Nat) (kind : PageTable)

theorem Realizes.acting : Realizes S P (acting (virtuals S P) steps i m)
    (acting (PurgeableMem.virtuals S kind) steps i r) := by
  unfold Cpp.acting
  induction steps i generalizing m r with
  | nil => exact rel
  | cons k rest ih => exact ih (rel.kernel k)

end Steps

theorem acting_refcnt (steps : Nat → List PageStep) (i p : Nat) (kind : PageTable) {S : Setup} (r : Region S.len) :
    (acting (PurgeableMem.virtuals S kind) steps i r).refcnt p = r.refcnt p := by
  unfold acting
  induction steps i generalizing r with
  | nil => rfl
  | cons k rest ih => exact (ih _).trans (kernel_refcnt r k p)

/-! ### The loops over the data -/

section Loops

variable {S : Setup} {P : Pointers} {upt : UxPageTableStruct} (supported : S.supportUxpt = true) (backs : Backs upt S)
  (same : upt.dataAddr = P.dataPtr) (steps : Nat → List PageStep) (kind : PageTable)

theorem pages_eq (supported : S.supportUxpt = true) : S.pages = S.pageCount := by
  rw [Setup.pages, supported, if_pos rfl]

include supported backs same

theorem lt_end_iff {off : UInt64} {i : Nat} (here : AtPage P.dataPtr off i) : off < end_ S P ↔ i < S.pages := by
  rw [pages_eq supported, end_, dataSizeInput, ← same]
  exact lt_end_data backs (by rw [same]; exact here)

theorem next {off : UInt64} {i : Nat} (here : AtPage P.dataPtr off i) (below : i < S.pages) :
    AtPage P.dataPtr (off + pageBytes) (i + 1) := by
  rw [AtPage, ← same]
  exact next_page backs (by rw [same]; exact here) (pages_eq supported ▸ below)

omit supported in
theorem entry {off : UInt64} {i : Nat} (here : AtPage P.dataPtr off i) : upt.entry off = firstPage P + i := by
  rw [firstPage, ← same]
  exact entry_page backs (by rw [same]; exact here)

omit same in
theorem pages_lt_passes : S.pages < passes := by
  have last := end_data backs
  have bound := (UxPageTable.roundUp (upt.dataAddr + UInt64.ofNat S.len) pageBytes).toNat_lt
  rw [pages_eq supported, passes]
  omega

/-- The pass over the words and the pass over the pages keep step if one entry does. `due` is what a
page that is still to come has to satisfy. -/
theorem opsLoop_rel {op : UInt64 → Entries → Entries} {pageOp : Region S.len → Nat → Region S.len} {due : Int → Prop}
    (one : ∀ {m r i off}, Realizes S P m r → upt.entry off = firstPage P + i → i < S.pages → due (r.refcnt i) →
      Realizes S P { m with entries := op off m.entries } (pageOp r i))
    (others : ∀ (r : Region S.len) i p, p ≠ i → (pageOp r i).refcnt p = r.refcnt p) {left fuel i : Nat} {off : UInt64}
    {m : Memory S.len} {r : Region S.len} (rel : Realizes S P m r) (here : AtPage P.dataPtr off i)
    (last : i + left = S.pages) (enough : left < fuel) (coming : ∀ p, i ≤ p → p < S.pages → due (r.refcnt p)) :
    Realizes S P (opsLoop op (acting (virtuals S P) steps) (end_ S P) fuel i off m)
      (PurgeableMem.uxpteOps pageOp (acting (PurgeableMem.virtuals S kind) steps) (List.range' i left) r) := by
  induction left generalizing fuel i off m r with
  | zero =>
    obtain ⟨fuel, rfl⟩ := Nat.exists_eq_succ_of_ne_zero (by omega : fuel ≠ 0)
    rw [opsLoop, if_neg ((lt_end_iff supported backs same here).not.mpr (by omega))]
    exact rel
  | succ left ih =>
    obtain ⟨fuel, rfl⟩ := Nat.exists_eq_succ_of_ne_zero (by omega : fuel ≠ 0)
    have below : i < S.pages := by omega
    have before := rel.acting steps i kind
    rw [opsLoop, if_pos ((lt_end_iff supported backs same here).mpr below), List.range'_succ]
    have after := next supported backs same here below
    refine ih (one before (entry backs same here) below ?_) after (by omega) (by omega) ?_
    · rw [acting_refcnt]
      exact coming i le_rfl below
    · intro p above inside
      rw [others _ _ _ (by omega), acting_refcnt]
      exact coming p (by omega) inside

theorem presentLoop_rel {left fuel i : Nat} {off : UInt64} {m : Memory S.len} {r : Region S.len}
    (rel : Realizes S P m r) (here : AtPage P.dataPtr off i) (last : i + left = S.pages) (enough : left < fuel) :
    let x := presentLoop upt (acting (virtuals S P) steps) (end_ S P) fuel i off m
    let y := PurgeableMem.uxpteIsPresent (acting (PurgeableMem.virtuals S kind) steps) (List.range' i left) r
    Realizes S P x.1 y.1 ∧ x.2 = y.2 := by
  induction left generalizing fuel i off m r with
  | zero =>
    obtain ⟨fuel, rfl⟩ := Nat.exists_eq_succ_of_ne_zero (by omega : fuel ≠ 0)
    rw [presentLoop, if_neg ((lt_end_iff supported backs same here).not.mpr (by omega))]
    exact ⟨rel, rfl⟩
  | succ left ih =>
    obtain ⟨fuel, rfl⟩ := Nat.exists_eq_succ_of_ne_zero (by omega : fuel ≠ 0)
    have below : i < S.pages := by omega
    have before := rel.acting steps i kind
    have present := before.words.isPresentAt (entry backs same here) below
    rw [presentLoop, if_pos ((lt_end_iff supported backs same here).mpr below), List.range'_succ,
      PurgeableMem.uxpteIsPresent, present]
    split
    · exact ih before (next supported backs same here below) (by omega) (by omega)
    · exact ⟨before, rfl⟩

omit supported in
theorem accepts_dataPtr : accepts upt P.dataPtr (dataSizeInput S) = true := by
  rw [← same]
  exact (accepts_data backs).1

omit supported in
theorem atStart : AtPage P.dataPtr (start P) 0 := by
  rw [AtPage, start, ← same, start_data backs, Nat.mul_zero, Nat.add_zero]

end Loops

/-! ### The virtual functions -/

/-- The pages whose pins the class counts. -/
abbrev Pinned (S : Setup) (P : Pointers) : Type := { p : Nat // P.kind = .ready ∧ p < S.pages }

def pinsOf {S : Setup} {P : Pointers} (p : Pinned S P) (r : Region S.len) : Int := r.refcnt p

theorem pinLaws_kind (S : Setup) (P : Pointers) (p : Pinned S P) :
    PinLaws (PurgeableMem.virtuals S P.kind) (pinsOf p) := by
  obtain ⟨p, ready, below⟩ := p
  show PinLaws (PurgeableMem.virtuals S P.kind) fun r => r.refcnt p
  rw [ready]
  exact PurgeableMem.pinLaws S below

section Virtuals

variable {S : Setup} {P : Pointers} (laid : Laid S P) (steps : Nat → List PageStep) {m : Memory S.len}
  {r : Region S.len} (rel : Realizes S P m r)

include laid rel

omit laid rel in
theorem uxpteOps_none (op : UxPageTableStruct → UInt64 → Entries → Entries)
    (between : Nat → Memory S.len → Memory S.len) (m : Memory S.len) : uxpteOps S P op between none m = m := by
  unfold uxpteOps
  split <;> rfl

theorem uxpteOps_rel {op : UxPageTableStruct → UInt64 → Entries → Entries}
    {pageOp : Region S.len → Nat → Region S.len} (due : Int → Prop)
    (one : ∀ {upt m r i off}, Realizes S P m r → upt.entry off = firstPage P + i → i < S.pages → due (r.refcnt i) →
      Realizes S P { m with entries := op upt off m.entries } (pageOp r i))
    (others : ∀ (r : Region S.len) i p, p ≠ i → (pageOp r i).refcnt p = r.refcnt p) {upt : UxPageTableStruct}
    (table : P.pageTable = some (some upt)) (kind : PageTable) (coming : ∀ p < S.pages, due (r.refcnt p)) :
    Realizes S P (uxpteOps S P op (acting (virtuals S P) steps) (some upt) m)
      (PurgeableMem.uxpteOps pageOp (acting (PurgeableMem.virtuals S kind) steps) (List.range S.pages) r) := by
  unfold uxpteOps
  cases supported : S.supportUxpt with
  | false =>
    have none_ : S.pages = 0 := by simp [Setup.pages, supported]
    rw [none_]
    exact rel
  | true =>
    obtain ⟨backs, same⟩ := laid supported upt table
    simp only [accepts_dataPtr backs same, Bool.not_true, Bool.false_eq_true, if_false]
    rw [List.range_eq_range']
    exact opsLoop_rel supported backs same steps kind one others rel (atStart backs same) (Nat.zero_add _)
      (pages_lt_passes supported backs) fun p _ below => coming p below

theorem pin_rel (room : ∀ p : Pinned S P, 0 ≤ pinsOf p r ∧ pinsOf p r < pinLimit) :
    Realizes S P (pin S P (acting (virtuals S P) steps) m)
      (PurgeableMem.pin S P.kind (acting (PurgeableMem.virtuals S P.kind) steps) r) := by
  unfold pin PurgeableMem.pin
  cases table : P.pageTable with
  | none =>
    have kind : P.kind = .null := by rw [Pointers.kind, table]
    rw [kind]
    exact rel
  | some uxpt =>
    cases uxpt with
    | none =>
      have kind : P.kind = .noStruct := by rw [Pointers.kind, table]
      rw [kind]
      dsimp only
      rw [uxpteOps_none]
      exact rel
    | some upt =>
      have kind : P.kind = .ready := by rw [Pointers.kind, table]
      rw [kind]
      refine uxpteOps_rel laid steps rel (fun pins => pins < pinLimit) ?_ ?_ table .ready fun p below =>
        (room ⟨p, kind, below⟩).2
      · intro upt m r i off rel entry below few
        refine ⟨rel.content, rel.words.getUxpteAt entry below (rel.room below), fun p inside => ?_⟩
        rw [Region.getUxpteAt_refcnt]
        have before := rel.few p inside
        split
        · rename_i here
          rw [here]
          omega
        · omega
      · intro r i p other
        rw [Region.getUxpteAt_refcnt, if_neg other, Int.add_zero]

theorem unpin_rel (pinned : ∀ p : Pinned S P, 0 < pinsOf p r ∧ pinsOf p r ≤ pinLimit) :
    Realizes S P (unpin S P (acting (virtuals S P) steps) m)
      (PurgeableMem.unpin S P.kind (acting (PurgeableMem.virtuals S P.kind) steps) r) := by
  unfold unpin PurgeableMem.unpin
  cases table : P.pageTable with
  | none =>
    have kind : P.kind = .null := by rw [Pointers.kind, table]
    rw [kind]
    exact rel
  | some uxpt =>
    cases uxpt with
    | none =>
      have kind : P.kind = .noStruct := by rw [Pointers.kind, table]
      rw [kind]
      dsimp only
      rw [uxpteOps_none]
      exact rel
    | some upt =>
      have kind : P.kind = .ready := by rw [Pointers.kind, table]
      rw [kind]
      refine uxpteOps_rel laid steps rel (fun pins => 0 < pins) ?_ ?_ table .ready fun p below =>
        (pinned ⟨p, kind, below⟩).1
      · intro upt m r i off rel entry below positive
        refine ⟨rel.content, rel.words.putUxpteAt entry below (rel.room below) positive, fun p inside => ?_⟩
        rw [Region.putUxpteAt_refcnt]
        have before := rel.few p inside
        split <;> omega
      · intro r i p other
        rw [Region.putUxpteAt_refcnt, if_neg other, Int.sub_zero]

theorem isPurged_rel :
    let x := isPurged S P (acting (virtuals S P) steps) m
    let y := PurgeableMem.isPurged S P.kind (acting (PurgeableMem.virtuals S P.kind) steps) r
    Realizes S P x.1 y.1 ∧ x.2 = y.2 := by
  unfold isPurged PurgeableMem.isPurged
  cases table : P.pageTable with
  | none =>
    have kind : P.kind = .null := by rw [Pointers.kind, table]
    rw [kind]
    exact ⟨rel, rfl⟩
  | some uxpt =>
    unfold uxpteIsPresent
    cases uxpt with
    | none =>
      have kind : P.kind = .noStruct := by rw [Pointers.kind, table]
      rw [kind]
      cases S.supportUxpt <;> exact ⟨rel, rfl⟩
    | some upt =>
      have kind : P.kind = .ready := by rw [Pointers.kind, table]
      rw [kind]
      cases supported : S.supportUxpt with
      | false =>
        have none_ : S.pages = 0 := by simp [Setup.pages, supported]
        rw [none_]
        exact ⟨rel, rfl⟩
      | true =>
        obtain ⟨backs, same⟩ := laid supported upt table
        obtain ⟨after, answer⟩ := presentLoop_rel supported backs same steps .ready rel (atStart backs same)
          (Nat.zero_add _) (pages_lt_passes supported backs)
        simp only [accepts_dataPtr backs same, Bool.not_true, Bool.false_eq_true, if_false]
        rw [List.range_eq_range']
        exact ⟨after, congrArg not answer⟩

end Virtuals

/-- The class on words and the class on pages do the same. -/
theorem simulates {S : Setup} {P : Pointers} (laid : Laid S P) :
    Simulates (virtuals S P) (PurgeableMem.virtuals S P.kind) (Realizes S P)
      (pinsOf : Pinned S P → Region S.len → Int) pinLimit where
  kernel k rel := rel.kernel k
  content rel := rel.content
  store touched c rel := rel.touch touched c
  clear rel := rel.touch _ zeros
  afterRebuildSucc rel := rel
  isPurged steps rel := isPurged_rel laid steps rel
  pin steps rel room := pin_rel laid steps rel room
  unpin steps rel pinned := unpin_rel laid steps rel pinned

/-! ### What `CreatePurgeableData` leaves -/

/-- The memory and the pointers after the creation. The constructor of `UxPageTable` runs `InitUxPageTable`,
and frees the struct if that fails; since then pages were touched. Without a table nothing was pinned. -/
structure Created (S : Setup) (P : Pointers) (m : Memory S.len) : Prop where
  aligned : P.dataPtr.toNat % pageSize = 0
  pageTable : P.pageTable = none ∨ ∃ mapped fuel malloc old err upt cleared, 2 ^ 52 < fuel ∧
    initUxPageTable S.supportUxpt mapped fuel malloc P.dataPtr (UxPageTable.roundUp (dataSizeInput S) pageBytes) old
      = some (err, upt, cleared) ∧
    P.pageTable = some (if err = .ok then upt else none) ∧
    ∀ i, m.entries i = cleared i ∨ m.entries i = cleared i ||| uxptePresentMask
  unpinned : P.kind ≠ .ready → ∀ p < S.pages, refcnt (m.entries (firstPage P + p)) = 0

section Creation

variable {S : Setup} {P : Pointers} {m : Memory S.len} (created : Created S P m)

include created

theorem Created.setUp (supported : S.supportUxpt = true) {upt : UxPageTableStruct}
    (table : P.pageTable = some (some upt)) :
    SetUp upt P.dataPtr (UxPageTable.roundUp (dataSizeInput S) pageBytes) ∧
      ∀ p < S.pages, refcnt (m.entries (firstPage P + p)) = 0 := by
  rcases created.pageTable with none_ | ⟨mapped, fuel, malloc, old, err, found, cleared, enough, inited, same, since⟩
  · rw [none_] at table
    cases table
  · rw [same, Option.some_inj] at table
    split at table
    · rename_i ok
      subst ok
      subst table
      rw [supported] at inited
      have multiple : (UxPageTable.roundUp (dataSizeInput S) pageBytes).toNat % pageSize = 0 := by
        rw [dataSizeInput, roundUp_len, roundUp_page S.len_fits]
        exact Nat.mul_mod_left _ _
      have set : SetUp upt P.dataPtr (UxPageTable.roundUp (dataSizeInput S) pageBytes) :=
        ⟨created.aligned, multiple, _, _, _, _, _, inited⟩
      refine ⟨set, fun p below => ?_⟩
      have zero : cleared (firstPage P + p) = 0 := by
        refine init_clears set enough inited ?_
        have inside : p < S.pageCount := pages_eq supported ▸ below
        rw [dataSizeInput, roundUp_len, ← pageSize_eq]
        exact inside
      have word := since (firstPage P + p)
      rw [zero] at word
      rcases word with same | same <;> rw [same] <;> decide
    · cases table

theorem Created.laid : Laid S P := by
  intro supported upt table
  obtain ⟨ready, sameAddr, sameSize⟩ := (created.setUp supported table).1.ready
  exact ⟨⟨ready, by rw [sameSize, dataSizeInput, roundUp_len]⟩, sameAddr⟩

theorem Created.refcnt_eq_zero {p : Nat} (below : p < S.pages) : refcnt (m.entries (firstPage P + p)) = 0 := by
  have supported : S.supportUxpt = true := by
    by_contra none_
    simp [Setup.pages, none_] at below
  by_cases ready : P.kind = .ready
  · unfold Pointers.kind at ready
    split at ready
    · cases ready
    · cases ready
    · rename_i upt table
      exact (created.setUp supported table).2 p below
  · exact created.unpinned ready p below

/-- The picture of the memory in pages. -/
def pictured (S : Setup) (P : Pointers) (m : Memory S.len) : Region S.len where
  content := m.content
  entries p := { present := isUxptePresent (m.entries (firstPage P + p)) }

theorem Created.realizes : Realizes S P m (pictured S P m) := by
  refine ⟨rfl, fun p below => ⟨fun marked => ?_, ?_, rfl⟩, fun p _ => ?_⟩
  · have zero := created.refcnt_eq_zero below
    rw [marked] at zero
    exact absurd zero (by decide)
  · rw [created.refcnt_eq_zero below]
    rfl
  · show (0 : Int) ≤ pinLimit
    decide

end Creation

/-! ### Runs -/

section Runs

variable {S : Setup} {P : Pointers} {s : State (Memory S.len)} {actions : List (Action S.len PageStep)}

theorem alike_of_init (initial : (calls (virtuals S P) (Created S P)).init s) (few : actions.length ≤ 2 ^ 62) :
    ∃ s', (calls (PurgeableMem.virtuals S P.kind) (Fresh S)).init s' ∧
      Alike (Realizes S P) (pinsOf : Pinned S P → Region S.len → Int) pinLimit actions.length s s' := by
  obtain ⟨created, valid, count, clears, rebuilds, reads, writes⟩ := initial
  refine ⟨⟨s.obj.on (pictured S P s.obj.data), s.reads, s.writes⟩,
    ⟨fun _ => rfl, valid, count, clears, rebuilds, reads, writes⟩,
    ⟨⟨_, created.realizes, rfl⟩, rfl, rfl⟩, fun p => ?_⟩
  have zero : pinsOf p (pictured S P s.obj.data) = 0 := rfl
  show (((s.reads + s.writes : Nat) : Int) ≤ pinsOf p (pictured S P s.obj.data)) ∧
    pinsOf p (pictured S P s.obj.data) + actions.length ≤ pinLimit
  rw [zero, reads, writes, pinLimit]
  omega

/-- Whatever the clients and the kernel do: on the address, the table and the words, the calls do what they
do on page numbers and entry fields. -/
theorem words_run_as_pages (initial : (calls (virtuals S P) (Created S P)).init s)
    (actions : List (Action S.len PageStep)) (few : actions.length ≤ 2 ^ 62) :
    ∃ s', (calls (PurgeableMem.virtuals S P.kind) (Fresh S)).init s' ∧
      Option.Rel (StateRel (Realizes S P)) ((calls (virtuals S P) (Created S P)).run s actions)
        ((calls (PurgeableMem.virtuals S P.kind) (Fresh S)).run s' actions) := by
  obtain ⟨s', fresh, alike⟩ := alike_of_init initial few
  exact ⟨s', fresh, run_alike (simulates initial.1.laid) (pinLaws_kind S P) alike⟩

def byteTable : Pointers := ⟨4096, some (some ⟨4096, 4096, some 0⟩)⟩

def byteState : State (Memory oneByte.len) :=
  { obj := { data := ⟨zeros, fun _ => 0⟩, dataPtr := true, builder := [fill 7] } }

theorem byteState_init : (calls (virtuals oneByte byteTable) (Created oneByte byteTable)).init byteState := by
  refine ⟨⟨by decide, .inr ⟨true, 2 ^ 52 + 1, some ⟨0, 0, none⟩, fun _ => 0, _, _, _, by decide, rfl, rfl,
    fun i => .inl ?_⟩, fun other => absurd rfl other⟩, rfl, rfl, rfl, rfl, rfl, rfl⟩
  by_cases here : i = 1
  · subst here
    rfl
  · show (0 : UInt64) = Function.update (fun _ : Nat => (0 : UInt64)) 1 0 i
    rw [Function.update_of_ne here]

/-- A write access that has to build the byte and modifies it, the loss of the page, and a read that builds it
again. -/
def lostByte : List (Action oneByte.len PageStep) :=
  [.beginWrite {}, .modify (some (fill 9)) {}, .endWrite {}, .kernel (.reclaim 0), .beginRead {}]

theorem lost_byte_runs_as_pages :
    ∃ s' t t', (calls (PurgeableMem.virtuals oneByte .ready) (Fresh oneByte)).init s' ∧
      (calls (virtuals oneByte byteTable) (Created oneByte byteTable)).run byteState lostByte = some t ∧
      (calls (PurgeableMem.virtuals oneByte .ready) (Fresh oneByte)).run s' lostByte = some t' ∧
      StateRel (Realizes oneByte byteTable) t t' ∧ t'.obj.data.content ⟨0, by decide⟩ = 9 := by
  obtain ⟨s', fresh, alike⟩ := words_run_as_pages byteState_init lostByte (by decide)
  have byte : ((calls (virtuals oneByte byteTable) (Created oneByte byteTable)).run byteState lostByte).map
      (·.obj.data.content ⟨0, by decide⟩) = some 9 := by decide
  obtain ⟨t, ran, nine⟩ := Option.map_eq_some_iff.mp byte
  rw [ran] at alike
  generalize pages : (calls (PurgeableMem.virtuals oneByte byteTable.kind) (Fresh oneByte)).run s' lostByte = next
    at alike
  cases alike with
  | @some _ t' related =>
    refine ⟨s', t, t', fresh, ran, pages, related, ?_⟩
    obtain ⟨r, realizes, obj⟩ := related.obj
    rw [obj]
    exact (congrFun realizes.content _).symm.trans nine

/-- On the words of a table that was set up, the refcount of every page is the number of open accesses after every
call exactly when no `EndRead` runs while the data is marked invalid. -/
theorem refcounts_follow_accesses_iff_endRead_valid (supported : S.supportUxpt = true) (ready : P.kind = .ready)
    (initial : (calls (virtuals S P) (Created S P)).init s) (few : actions.length ≤ 2 ^ 62) :
    (calls (virtuals S P) (Created S P)).Visits
        (fun t => ∀ p < S.pages, refcnt (t.obj.data.entries (firstPage P + p)) = t.opens) s actions ↔
      (calls (virtuals S P) (Created S P)).Along EndReadValid s actions := by
  obtain ⟨s', fresh, alike⟩ := alike_of_init initial few
  have sim := simulates initial.1.laid
  have : Nonempty (Pinned S P) := ⟨⟨0, ready, S.pages_pos supported⟩⟩
  have unpinned : ∀ p : Pinned S P, pinsOf p s'.obj.data = 0 := fun p => fresh.1 p
  rw [along_alike sim (pinLaws_kind S P) alike fun t t' a related => related.endReadValid_iff a,
    ← run_balanced_iff (pinLaws_kind S P) fresh]
  refine visits_alike sim (pinLaws_kind S P) alike fun t t' related => ?_
  obtain ⟨r, realizes, obj⟩ := related.obj
  simp only [Balanced, unpinned, Int.zero_add, ← related.opens]
  rw [obj]
  constructor
  · intro counted p
    have word := realizes.refcnt p.2.2
    rw [counted p p.2.2] at word
    exact word.symm
  · intro balanced p below
    have word := (realizes.refcnt below).trans (balanced ⟨p, ready, below⟩)
    exact Int.natCast_inj.mp word

theorem overlapping_accesses_counted : (calls (virtuals oneByte byteTable) (Created oneByte byteTable)).Visits
    (fun t => ∀ p < oneByte.pages, refcnt (t.obj.data.entries (firstPage byteTable + p)) = t.opens) byteState
    [.beginRead {}, .beginWrite {}, .kernel (.reclaim 0), .endRead {}, .setDataValid false, .endWrite {}] :=
  (refcounts_follow_accesses_iff_endRead_valid rfl rfl byteState_init (by decide)).mpr
    (System.along_of_checks endReadValid_sound (by decide))

/-- With deterministic builders, whatever overlaps and whatever pages the kernel takes: an open access has every
entry pinned and present, and sees the replay of the chain. -/
theorem open_words_show_replay (usable : P.kind = .ready ∨ S.supportUxpt = false)
    (initial : (calls (virtuals S P) (Created S P)).init s) (few : actions.length ≤ 2 ^ 62)
    (along : (calls (virtuals S P) (Created S P)).Along (Usage lawful Faultless) s actions) {t : State (Memory S.len)}
    (ran : (calls (virtuals S P) (Created S P)).run s actions = some t) (rebuilds : t.obj.rebuilds < 2 ^ 32)
    (opened : 0 < t.opens) :
    (∀ p < S.pages, 0 < refcnt (t.obj.data.entries (firstPage P + p)) ∧
        isUxptePresent (t.obj.data.entries (firstPage P + p)) = true) ∧
      t.obj.data.content = replay t.obj.builder := by
  obtain ⟨s', fresh, alike⟩ := alike_of_init initial few
  have sim := simulates initial.1.laid
  have both : Option.Rel (StateRel (Realizes S P)) ((calls (virtuals S P) (Created S P)).run s actions)
      ((calls (PurgeableMem.virtuals S P.kind) (Fresh S)).run s' actions) := run_alike sim (pinLaws_kind S P) alike
  have faults : ∀ (E : Env S.len PageStep) (o : Base (Memory S.len)) (o' : Base (Region S.len)),
      BaseRel (Realizes S P) o o' → (Faultless E o ↔ Faultless E o') := fun _ _ _ _ => Iff.rfl
  have usage : (calls (virtuals S P) (Created S P)).Along (Usage lawful Faultless) s actions ↔
      (calls (PurgeableMem.virtuals S P.kind) (Fresh S)).Along (Usage lawful Faultless) s' actions :=
    along_alike sim (pinLaws_kind S P) alike fun t t' a related => related.usage_iff faults a
  rw [ran] at both
  generalize pages : (calls (PurgeableMem.virtuals S P.kind) (Fresh S)).run s' actions = next at both
  cases both with
  | @some _ t' related =>
    have replaying := replaying_of_reach usable (.of_run actions (.init fresh) (usage.mp along) pages)
    rw [related.opens] at opened
    obtain ⟨r, realizes, obj⟩ := related.obj
    have shown := shows_of_replaying replaying (by rw [obj]; exact rebuilds) opened
    rw [obj] at shown
    obtain ⟨held, content⟩ := shown
    refine ⟨fun p below => ⟨?_, ?_⟩, realizes.content.trans content⟩
    · have word := realizes.refcnt below
      have pinned : 0 < r.refcnt p := (held p below).1
      omega
    · exact (realizes.words p below).present.trans (held p below).2

theorem lostByte_usage : (calls (virtuals oneByte byteTable) (Created oneByte byteTable)).Along
    (Usage lawful Faultless) byteState lostByte := by
  refine ⟨⟨fun _ => undisturbed rfl, fun _ _ => rfl⟩, fun s stepped => ⟨?_, fun _ _ => ⟨fun _ => undisturbed rfl,
    fun _ _ => ⟨⟨0, rfl⟩, fun _ _ => ⟨⟨fun _ => undisturbed rfl, fun _ _ => rfl⟩, fun _ _ => trivial⟩⟩⟩⟩⟩
  have writing : s.writes = 1 := by
    have seen := congrArg (Option.map State.writes) stepped
    exact Option.some.inj (seen.symm.trans (by decide))
  refine ⟨fun _ => undisturbed rfl, by omega, fun b member => Option.some.inj member ▸ ?_⟩
  intro c failed
  simp [UserCall.outcome, fill] at failed

theorem lost_byte_shows_replay :
    ∃ t, (calls (virtuals oneByte byteTable) (Created oneByte byteTable)).run byteState lostByte = some t ∧
      t.obj.rebuilds = 2 ∧ t.obj.data.content = replay t.obj.builder := by
  obtain ⟨t, ran, seen⟩ : ∃ t, (calls (virtuals oneByte byteTable) (Created oneByte byteTable)).run byteState lostByte
      = some t ∧ (t.opens, t.obj.rebuilds) = (1, 2) := Option.map_eq_some_iff.mp (by decide)
  obtain ⟨opened, rebuilt⟩ := Prod.mk.inj seen
  obtain ⟨-, content⟩ := open_words_show_replay (.inl rfl) byteState_init (by decide) lostByte_usage ran (by omega)
    (by omega)
  exact ⟨t, ran, rebuilt, content⟩

end Runs

end MemoryUtils.Cpp.PurgeableMem.Words
