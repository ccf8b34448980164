import MemoryUtils.Common.UxpteRanges
import MemoryUtils.Lib.Simulation

/-!
The uxptes of a process, shared by all of its page tables and threads. A call of `UxpteOps` walks
the pages of its range one entry at a time, and on each entry by the load and compare-and-swap steps
of `UxpteAdd` and `UxpteSub`; other threads and the kernel may act between any two of these steps.
-/

namespace MemoryUtils.UxPageTable
open Lib Uxpte

structure RangeCall (ι : Type) where
  table : ι
  op : UxpteOp
  addr : UInt64
  len : UInt64

/-- A call whose loop is at `off`. It has `entered` while it is inside `UxpteAdd` or `UxpteSub` on
the entry there. -/
structure Walk (ι : Type) where
  call : RangeCall ι
  off : UInt64
  entered : Bool

structure Worker (ι : Type) where
  walk : Option (Walk ι)
  returned : List (RangeCall ι × PMState)

/-- Each entry with what every thread does and did to it, and where each thread is. -/
structure Process (ι T : Type) where
  cells : Nat → Cell T
  workers : T → Worker ι

inductive KernelStep where
  | startReclaim
  | endReclaim
  | setPresent (present : Bool)

inductive Move (ι T : Type) where
  | call (t : T) (c : RangeCall ι)
  | pass (t : T)
  | kernel (p : Nat) (k : KernelStep)

variable {ι T : Type}

def KernelStep.action : KernelStep → Action T
  | .startReclaim => .startReclaim
  | .endReclaim => .endReclaim
  | .setPresent present => .setPresent present

namespace Walk

def end_ (k : Walk ι) : UInt64 := roundUp (k.call.addr + k.call.len) pageBytes

def page (tables : ι → UxPageTableStruct) (k : Walk ι) : Nat := (tables k.call.table).entry k.off

end Walk

namespace Worker

def start (w : Worker ι) (c : RangeCall ι) : Worker ι :=
  { w with walk := some ⟨c, roundDown c.addr pageBytes, false⟩ }

def enter (w : Worker ι) (k : Walk ι) : Worker ι := { w with walk := some { k with entered := true } }

def advance (w : Worker ι) (k : Walk ι) : Worker ι :=
  { w with walk := some { k with off := k.off + pageBytes, entered := false } }

def leave (w : Worker ι) (c : RangeCall ι) (state : PMState) : Worker ι :=
  ⟨none, w.returned ++ [(c, state)]⟩

end Worker

variable [DecidableEq T] (tables : ι → UxPageTableStruct)

namespace Process

def setCell (m : Process ι T) (p : Nat) (cell : Cell T) : Process ι T :=
  { m with cells := Function.update m.cells p cell }

def setWorker (m : Process ι T) (t : T) (w : Worker ι) : Process ι T :=
  { m with workers := Function.update m.workers t w }

omit [DecidableEq T] in
/-- The thread has a pin of its own on every page of the range. -/
def owns (m : Process ι T) (t : T) (c : RangeCall ι) : Bool :=
  (pagesOf c.addr c.len).all fun p => decide (((m.cells p).callers t).subs < ((m.cells p).callers t).adds)

/-- One step of a thread that is inside `UxpteOps`. -/
def walkStep (m : Process ι T) (t : T) (k : Walk ι) : Option (Process ι T) :=
  let w := m.workers t
  let p := k.page tables
  if k.entered then
    (Uxpte.step (m.cells p) (.step t)).map fun cell =>
      (m.setCell p cell).setWorker t (if (cell.callers t).between then w.advance k else w)
  else if k.off < k.end_ then
    match k.call.op with
    | .get => (Uxpte.step (m.cells p) (.callAdd t)).map fun cell => (m.setCell p cell).setWorker t (w.enter k)
    | .put => (Uxpte.step (m.cells p) (.callSub t)).map fun cell => (m.setCell p cell).setWorker t (w.enter k)
    | .isPresent =>
      some (m.setWorker t
        (if isUxptePresent (m.cells p).pte then w.advance k else w.leave k.call .uxptNoPresent))
    | .clear => none
  else some (m.setWorker t (w.leave k.call .ok))

end Process

/-- `UPT_CLEAR` is left to `InitUxPageTable`, on a table that no other thread has yet; and a thread
only takes back pins that its own calls gave it. -/
def processStep (m : Process ι T) : Move ι T → Option (Process ι T)
  | .call t c =>
    if (m.workers t).walk.isSome ∨ c.op = .clear ∨ c.op = .put ∧ m.owns t c = false then none
    else if !accepts (tables c.table) c.addr c.len then some (m.setWorker t ((m.workers t).leave c .uxptOutRange))
    else some (m.setWorker t ((m.workers t).start c))
  | .pass t => (m.workers t).walk.bind (m.walkStep tables t)
  | .kernel p k => (Uxpte.step (m.cells p) k.action).map (m.setCell p)

def Process.Fresh (m : Process ι T) : Prop :=
  (∀ p, Quiet (m.cells p)) ∧ ∀ t, m.workers t = ⟨none, []⟩

def sharedTables : System (Process ι T) (Move ι T) :=
  { init := Process.Fresh, step := processStep tables }

/-- The entry that a step of a thread or the kernel works on. -/
def entryOf (m : Process ι T) : Move ι T → Option Nat
  | .call _ _ => none
  | .pass t => (m.workers t).walk.map (Walk.page tables)
  | .kernel p _ => some p

/-- The entry has room for one more pin, and no `UxpteAdd` swaps against a marker that is still
set. -/
def Careful (m : Process ι T) (a : Move ι T) : Prop :=
  ∀ p, entryOf tables m a = some p → Roomy (m.cells p).pte ∧
    ∀ t, a = .pass t → YieldSeesChange (m.cells p) (.step t)

/-- How often a thread's calls of this kind have passed page `p`, the one in progress included. -/
def Worker.passed (w : Worker ι) (op : UxpteOp) (p : Nat) : Nat :=
  w.returned.countP (fun r => r.1.op = op ∧ r.2 = .ok ∧ p ∈ pagesOf r.1.addr r.1.len) +
    (w.walk.toList.countP fun k =>
      k.call.op = op ∧ p ∈ pagesOf k.call.addr k.call.len ∧ p * pageSize < k.off.toNat)

/-! ### One entry -/

/-- Where a call is on an entry that it has entered and not yet left. -/
def insideOf (op : UxpteOp) : Pc → Prop
  | .addLoad _ | .addCas _ _ => op = .get
  | .subLoad | .subCas _ => op = .put
  | .idle | .added | .subbed => False

omit [DecidableEq T] in
theorem callerStep_inside {op : UxpteOp} {pte pte' : UInt64} {c c' : Caller}
    (inside : insideOf op c.pc) (h : callerStep pte c = some (pte', c')) :
    (c'.between = true ∧ c'.adds = c.adds + (if op = .get then 1 else 0) ∧
      c'.subs = c.subs + if op = .put then 1 else 0) ∨
    (c'.between = false ∧ insideOf op c'.pc ∧ c'.adds = c.adds ∧ c'.subs = c.subs) := by
  obtain ⟨pc, adds, subs, swaps⟩ := c
  cases pc with
  | idle | added | subbed => exact inside.elim
  | addLoad newVal =>
    cases inside
    simp only [callerStep, addBody] at h
    split_ifs at h <;> cases h <;> simp [Caller.endAdd, Caller.between, insideOf]
  | addCas old newVal =>
    cases inside
    simp only [callerStep] at h
    split_ifs at h <;> cases h <;> simp [Caller.endAdd, Caller.swapped, Caller.between, insideOf]
  | subLoad =>
    cases inside
    cases h
    simp [Caller.between, insideOf]
  | subCas old =>
    cases inside
    simp only [callerStep] at h
    split_ifs at h <;> cases h <;> simp [Caller.endSub, Caller.swapped, Caller.between, insideOf]

omit [DecidableEq T] in
theorem callerStep_of_inside {op : UxpteOp} (pte : UInt64) {c : Caller} (inside : insideOf op c.pc) :
    ∃ r, callerStep pte c = some r := by
  obtain ⟨pc, adds, subs, swaps⟩ := c
  cases pc with
  | idle | added | subbed => exact inside.elim
  | addLoad newVal =>
    simp only [callerStep]
    split <;> exact ⟨_, rfl⟩
  | addCas old newVal =>
    simp only [callerStep]
    split <;> exact ⟨_, rfl⟩
  | subLoad => exact ⟨_, rfl⟩
  | subCas old =>
    simp only [callerStep]
    split <;> exact ⟨_, rfl⟩

/-- What `t` does to an entry leaves the other threads where they are. -/
theorem step_callers_other {s s' : Cell T} {a : Action T} {t u : T}
    (own : a = .callAdd t ∨ a = .callSub t ∨ a = .step t) (h : Uxpte.step s a = some s') (other : u ≠ t) :
    s'.callers u = s.callers u := by
  rcases own with rfl | rfl | rfl
  · obtain ⟨-, ⟨⟩⟩ := Option.ite_none_right_eq_some.mp h
    exact Function.update_of_ne other ..
  · obtain ⟨-, ⟨⟩⟩ := Option.ite_none_right_eq_some.mp h
    exact Function.update_of_ne other ..
  · obtain ⟨⟨pte, c⟩, -, rfl⟩ := Option.map_eq_some_iff.mp h
    exact Function.update_of_ne other ..

theorem kernel_callers {s s' : Cell T} {k : KernelStep} (h : Uxpte.step s k.action = some s') :
    s'.callers = s.callers := by
  cases k with
  | startReclaim | endReclaim =>
    obtain ⟨-, ⟨⟩⟩ := Option.ite_none_right_eq_some.mp h
    rfl
  | setPresent present =>
    obtain ⟨-, ⟨⟩⟩ := Option.ite_none_left_eq_some.mp h
    rfl

/-! ### Where a walk is -/

structure Placed (k : Walk ι) : Prop where
  accepted : accepts (tables k.call.table) k.call.addr k.call.len = true
  aligned : k.off.toNat % 4096 = 0
  begun : (roundDown k.call.addr pageBytes).toNat ≤ k.off.toNat
  used : k.call.op ≠ .clear

section Placed

variable {tables} {k : Walk ι} (ready : ∀ i, Ready (tables i)) (placed : Placed tables k)

include ready placed

theorem Placed.page_eq : k.page tables = k.off.toNat / 4096 := by
  have inside := ((accepts_iff (ready k.call.table)).mp placed.accepted).1
  have aligned := (ready k.call.table).aligned
  have begun := placed.begun
  rw [roundDown_toNat] at begun
  exact entry_eq (ready k.call.table) (by omega)

variable (more : k.off < k.end_)

include more

theorem Placed.next_toNat : (k.off + pageBytes).toNat = k.off.toNat + 4096 := by
  have bound := k.end_.toNat_lt
  have stop : k.end_.toNat = _ := end_toNat (ready k.call.table) placed.accepted
  have aligned := placed.aligned
  rw [UInt64.lt_iff_toNat_lt] at more
  rw [UInt64.toNat_add, pageBytes_toNat]
  omega

theorem Placed.advance : Placed tables { k with off := k.off + pageBytes, entered := false } := by
  have next := placed.next_toNat ready more
  have aligned := placed.aligned
  have begun := placed.begun
  exact ⟨placed.accepted, by simp only [next]; omega, by simp only [next]; omega, placed.used⟩

theorem Placed.mem_pagesOf : k.page tables ∈ pagesOf k.call.addr k.call.len := by
  have stop : k.end_.toNat = _ := end_toNat (ready k.call.table) placed.accepted
  have aligned := placed.aligned
  have begun := placed.begun
  rw [UInt64.lt_iff_toNat_lt, stop] at more
  rw [roundDown_toNat] at begun
  rw [placed.page_eq ready, UxPageTable.mem_pagesOf (ready k.call.table) placed.accepted]
  omega

/-- One more page is behind the walk after its next pass. -/
theorem Placed.behind_next (p : Nat) :
    p * pageSize < (k.off + pageBytes).toNat ↔ p * pageSize < k.off.toNat ∨ p = k.page tables := by
  have aligned := placed.aligned
  rw [placed.next_toNat ready more, placed.page_eq ready, pageSize_eq]
  omega

end Placed

/-! ### Passed pages -/

section Passed

variable {w : Worker ι} {k : Walk ι} {op : UxpteOp} {p : Nat}

theorem passed_start (idle : w.walk = none) (c : RangeCall ι) :
    (w.start c).passed op p = w.passed op p := by
  have ahead : p ∈ pagesOf c.addr c.len → ¬ p * pageSize < (roundDown c.addr pageBytes).toNat := by
    intro member
    have first := (List.mem_range'_1.mp member).1
    have start := roundDown_toNat c.addr
    rw [pageSize_eq]
    omega
  simp [Worker.passed, Worker.start, idle]
  exact fun _ member => Nat.le_of_not_lt (ahead member)

theorem passed_enter (walks : w.walk = some k) : (w.enter k).passed op p = w.passed op p := by
  simp [Worker.passed, Worker.enter, walks]

theorem passed_leave_failed (c : RangeCall ι) {state : PMState} (failed : state ≠ .ok)
    (looked : ∀ k ∈ w.walk, k.call.op ≠ op) : (w.leave c state).passed op p = w.passed op p := by
  have none_passed : w.walk.toList.countP (fun k =>
      k.call.op = op ∧ p ∈ pagesOf k.call.addr k.call.len ∧ p * pageSize < k.off.toNat) = 0 := by
    rw [List.countP_eq_zero]
    intro k member
    have other := looked k (Option.mem_toList.mp member)
    simp [other]
  rw [Worker.passed, Worker.passed, none_passed]
  simp [Worker.leave, failed]

variable {tables} (ready : ∀ i, Ready (tables i)) (placed : Placed tables k) (walks : w.walk = some k)

include ready placed walks

theorem passed_advance (more : k.off < k.end_) :
    (w.advance k).passed op p = w.passed op p + if k.call.op = op ∧ p = k.page tables then 1 else 0 := by
  have behind := placed.behind_next ready more p
  have ahead : ¬ k.page tables * pageSize < k.off.toNat := by
    have aligned := placed.aligned
    rw [placed.page_eq ready, pageSize_eq]
    omega
  have member := placed.mem_pagesOf ready more
  simp only [Worker.passed, Worker.advance, walks, Option.toList_some, List.countP_singleton, behind]
  by_cases same : p = k.page tables
  · subst same
    by_cases kind : k.call.op = op <;> simp [kind, member, ahead]
  · simp [same]

/-- A walk that has come to its end has passed the whole range. -/
theorem passed_leave (finished : ¬ k.off < k.end_) : (w.leave k.call .ok).passed op p = w.passed op p := by
  have behind : p ∈ pagesOf k.call.addr k.call.len → p * pageSize < k.off.toNat := by
    intro member
    have stop : k.end_.toNat = _ := end_toNat (ready k.call.table) placed.accepted
    have between := (UxPageTable.mem_pagesOf (ready k.call.table) placed.accepted).mp member
    rw [UInt64.lt_iff_toNat_lt, stop] at finished
    rw [pageSize_eq]
    omega
  have same : (k.call.op = op ∧ p ∈ pagesOf k.call.addr k.call.len) ↔
      (k.call.op = op ∧ p ∈ pagesOf k.call.addr k.call.len ∧ p * pageSize < k.off.toNat) :=
    ⟨fun ⟨kind, member⟩ => ⟨kind, member, behind member⟩, fun ⟨kind, member, _⟩ => ⟨kind, member⟩⟩
  simp only [Worker.passed, Worker.leave, walks, Option.toList_some, Option.toList_none,
    List.countP_append, List.countP_singleton, List.countP_nil, ← same]
  simp

end Passed

/-! ### A thread and its entries -/

/-- The entries show the calls of a thread page by page: it is inside at most one of them, the one
its walk has entered, and it has taken and given back a pin wherever its calls have passed. -/
structure Tracks (w : Worker ι) (c : Nat → Caller) : Prop where
  adds : ∀ p, (c p).adds = w.passed .get p
  subs : ∀ p, (c p).subs = w.passed .put p
  between : ∀ p, (∀ k ∈ w.walk, k.entered = true → p ≠ k.page tables) → (c p).between = true
  inside : ∀ k ∈ w.walk, k.entered = true → k.off < k.end_ ∧ insideOf k.call.op (c (k.page tables)).pc
  placed : ∀ k ∈ w.walk, Placed tables k
  owed : ∀ k ∈ w.walk, k.call.op = .put → ∀ p ∈ pagesOf k.call.addr k.call.len,
    k.off.toNat ≤ p * pageSize → (c p).subs < (c p).adds
  answered : ∀ r ∈ w.returned, r.2 = .ok → accepts (tables r.1.table) r.1.addr r.1.len = true

theorem update_counts {c : Nat → Caller} {q : Nat} {c' : Caller} (adds : c'.adds = (c q).adds)
    (subs : c'.subs = (c q).subs) (p : Nat) :
    (Function.update c q c' p).adds = (c p).adds ∧ (Function.update c q c' p).subs = (c p).subs :=
  forall_update (P := fun p (x : Caller) => x.adds = (c p).adds ∧ x.subs = (c p).subs) ⟨adds, subs⟩
    (fun _ _ => ⟨rfl, rfl⟩) p

section Tracks

variable {tables} {w : Worker ι} {c : Nat → Caller} (tracks : Tracks tables w c)

include tracks

theorem Tracks.start (idle : w.walk = none) {call : RangeCall ι}
    (accepted : accepts (tables call.table) call.addr call.len = true) (used : call.op ≠ .clear)
    (owns : call.op = .put → ∀ p ∈ pagesOf call.addr call.len, (c p).subs < (c p).adds) :
    Tracks tables (w.start call) c := by
  have rounded := roundDown_toNat call.addr
  refine ⟨fun p => ?_, fun p => ?_, fun p _ => ?_, ?_, ?_, ?_, tracks.answered⟩
  · rw [passed_start idle, tracks.adds]
  · rw [passed_start idle, tracks.subs]
  · exact tracks.between p (by simp [idle])
  · rintro k ⟨⟩ ⟨⟩
  · rintro k ⟨⟩
    exact ⟨accepted, by simp only [rounded]; omega, le_rfl, used⟩
  · rintro k ⟨⟩ putting p member -
    exact owns putting p member

theorem Tracks.leave {call : RangeCall ι} {state : PMState}
    (answered : state = .ok → accepts (tables call.table) call.addr call.len = true)
    (same : ∀ op p, op = .get ∨ op = .put → (w.leave call state).passed op p = w.passed op p)
    (outside : ∀ k ∈ w.walk, k.entered = false) : Tracks tables (w.leave call state) c := by
  refine ⟨fun p => ?_, fun p => ?_, fun p _ => ?_, ?_, ?_, ?_, fun r member => ?_⟩
  · rw [same .get p (.inl rfl), tracks.adds]
  · rw [same .put p (.inr rfl), tracks.subs]
  · apply tracks.between p
    intro k member entered
    rw [outside k member] at entered
    cases entered
  · rintro k ⟨⟩
  · rintro k ⟨⟩
  · rintro k ⟨⟩
  · rcases List.mem_append.mp member with earlier | last
    · exact tracks.answered r earlier
    · obtain rfl := List.mem_singleton.mp last
      exact answered

variable {k : Walk ι} (walks : w.walk = some k)

include walks

/-- The thread enters the entry its walk is at. -/
theorem Tracks.enter {c' : Caller} (more : k.off < k.end_) (inside : insideOf k.call.op c'.pc)
    (outside : k.entered = false) (adds : c'.adds = (c (k.page tables)).adds)
    (subs : c'.subs = (c (k.page tables)).subs) :
    Tracks tables (w.enter k) (Function.update c (k.page tables) c') := by
  have counts := update_counts adds subs
  refine ⟨fun p => ?_, fun p => ?_, fun p elsewhere => ?_, ?_, ?_, ?_, tracks.answered⟩
  · rw [(counts p).1, passed_enter walks, tracks.adds]
  · rw [(counts p).2, passed_enter walks, tracks.subs]
  · have other : p ≠ k.page tables := elsewhere { k with entered := true } rfl rfl
    rw [Function.update_of_ne other]
    apply tracks.between p
    intro k' member entered
    obtain rfl := Option.some.inj (walks.symm.trans member)
    rw [outside] at entered
    cases entered
  · rintro _ ⟨⟩ -
    refine ⟨more, ?_⟩
    show insideOf k.call.op (Function.update c (k.page tables) c' (k.page tables)).pc
    rw [Function.update_self]
    exact inside
  · rintro _ ⟨⟩
    obtain ⟨accepted, aligned, begun, used⟩ := tracks.placed k walks
    exact ⟨accepted, aligned, begun, used⟩
  · rintro _ ⟨⟩ putting p member ahead
    rw [(counts p).1, (counts p).2]
    exact tracks.owed k walks putting p member ahead

/-- The thread stays inside the entry. -/
theorem Tracks.stay {c' : Caller} (entered : k.entered = true) (inside : insideOf k.call.op c'.pc)
    (adds : c'.adds = (c (k.page tables)).adds) (subs : c'.subs = (c (k.page tables)).subs) :
    Tracks tables w (Function.update c (k.page tables) c') := by
  have counts := update_counts adds subs
  refine ⟨fun p => ?_, fun p => ?_, fun p elsewhere => ?_, fun k' member _ => ?_, tracks.placed, ?_,
    tracks.answered⟩
  · rw [(counts p).1, tracks.adds]
  · rw [(counts p).2, tracks.subs]
  · rw [Function.update_of_ne (elsewhere k walks entered)]
    exact tracks.between p elsewhere
  · obtain rfl := Option.some.inj (walks.symm.trans member)
    rw [Function.update_self]
    exact ⟨(tracks.inside k walks entered).1, inside⟩
  · intro k' member putting p covered ahead
    rw [(counts p).1, (counts p).2]
    exact tracks.owed k' member putting p covered ahead

/-- The thread is done with the entry, and its walk goes on to the next page. -/
theorem Tracks.advance (ready : ∀ i, Ready (tables i)) {c' : Caller} (more : k.off < k.end_)
    (between : c'.between = true)
    (adds : c'.adds = (c (k.page tables)).adds + if k.call.op = .get then 1 else 0)
    (subs : c'.subs = (c (k.page tables)).subs + if k.call.op = .put then 1 else 0) :
    Tracks tables (w.advance k) (Function.update c (k.page tables) c') := by
  have placed := tracks.placed k walks
  refine ⟨fun p => ?_, fun p => ?_, fun p _ => ?_, ?_, ?_, ?_, tracks.answered⟩
  · rw [passed_advance ready placed walks more, ← tracks.adds]
    by_cases same : p = k.page tables
    · subst same
      simp [adds]
    · simp [same]
  · rw [passed_advance ready placed walks more, ← tracks.subs]
    by_cases same : p = k.page tables
    · subst same
      simp [subs]
    · simp [same]
  · by_cases same : p = k.page tables
    · subst same
      rw [Function.update_self]
      exact between
    · rw [Function.update_of_ne same]
      apply tracks.between p
      intro k' member _
      obtain rfl := Option.some.inj (walks.symm.trans member)
      exact same
  · rintro _ ⟨⟩ ⟨⟩
  · rintro _ ⟨⟩
    exact placed.advance ready more
  · rintro _ ⟨⟩ putting p covered ahead
    have behind := placed.behind_next ready more p
    have next : ¬ p * pageSize < (k.off + pageBytes).toNat := Nat.not_lt.mpr ahead
    rw [behind, not_or] at next
    rw [Function.update_of_ne next.2]
    exact tracks.owed k walks putting p covered (Nat.le_of_not_lt next.1)

end Tracks

/-! ### Runs -/

variable [Fintype T]

/-- Every entry shows the pins it had before and those that the threads hold on it. -/
structure Sharing (before : Nat → Nat) (m : Process ι T) : Prop where
  shared : ∀ p, Shared (before p) (m.cells p)
  tracks : ∀ t, Tracks tables (m.workers t) fun p => (m.cells p).callers t

omit [DecidableEq T] [Fintype T] in
theorem callers_setCell [DecidableEq T] (m : Process ι T) (p : Nat) (cell : Cell T) (t : T) :
    (fun q => ((m.setCell p cell).cells q).callers t)
      = Function.update (fun q => (m.cells q).callers t) p (cell.callers t) := by
  funext q
  by_cases same : q = p
  · subst same
    simp [Process.setCell]
  · simp [Process.setCell, same]

section Step

variable {tables} {before : Nat → Nat} {m m' : Process ι T}

/-- A step of `t` on the entry of page `p`. -/
theorem Sharing.act (sharing : Sharing tables before m) {p : Nat} {t : T} {a : Action T} {cell : Cell T}
    {w : Worker ι} (own : a = .callAdd t ∨ a = .callSub t ∨ a = .step t)
    (h : Uxpte.step (m.cells p) a = some cell) (roomy : Roomy (m.cells p).pte)
    (changed : YieldSeesChange (m.cells p) a)
    (tracks : Tracks tables w (Function.update (fun q => (m.cells q).callers t) p (cell.callers t))) :
    Sharing tables before ((m.setCell p cell).setWorker t w) := by
  constructor
  · exact forall_update (step_shared (sharing.shared p) roomy changed h) fun q _ => sharing.shared q
  · intro u
    show Tracks tables (Function.update m.workers t w u) fun q => ((m.setCell p cell).cells q).callers u
    rw [callers_setCell]
    by_cases same : u = t
    · subst same
      rw [Function.update_self]
      exact tracks
    · rw [Function.update_of_ne same, step_callers_other own h same, Function.update_eq_self]
      exact sharing.tracks u

theorem Sharing.setWorker (sharing : Sharing tables before m) {t : T} {w : Worker ι}
    (tracks : Tracks tables w fun p => (m.cells p).callers t) :
    Sharing tables before (m.setWorker t w) :=
  ⟨sharing.shared, forall_update (P := fun u w => Tracks tables w fun p => (m.cells p).callers u) tracks
    fun u _ => sharing.tracks u⟩

theorem walkStep_sharing (ready : ∀ i, Ready (tables i)) (sharing : Sharing tables before m) {t : T}
    {k : Walk ι} (walks : (m.workers t).walk = some k) (roomy : Roomy (m.cells (k.page tables)).pte)
    (changed : YieldSeesChange (m.cells (k.page tables)) (.step t))
    (h : m.walkStep tables t k = some m') : Sharing tables before m' := by
  have tracks := sharing.tracks t
  have placed := tracks.placed k walks
  unfold Process.walkStep at h
  by_cases entered : k.entered = true
  · obtain ⟨more, inside⟩ := tracks.inside k walks entered
    rw [if_pos entered] at h
    obtain ⟨cell, stepped, rfl⟩ := Option.map_eq_some_iff.mp h
    apply sharing.act (.inr (.inr rfl)) stepped roomy changed
    obtain ⟨⟨pte, c⟩, moved, rfl⟩ := Option.map_eq_some_iff.mp stepped
    simp only [Cell.setCaller, Function.update_self]
    rcases callerStep_inside inside moved with ⟨between, adds, subs⟩ | ⟨between, inside', adds, subs⟩
    · rw [if_pos between]
      exact tracks.advance walks ready more between adds subs
    · rw [if_neg (by simp [between])]
      exact tracks.stay walks entered inside' adds subs
  · rw [if_neg entered] at h
    have outside : k.entered = false := by simpa using entered
    by_cases more : k.off < k.end_
    · rw [if_pos more] at h
      cases kind : k.call.op with
      | get =>
        rw [kind] at h
        obtain ⟨cell, called, rfl⟩ := Option.map_eq_some_iff.mp h
        apply sharing.act (.inl rfl) called roomy (fun _ _ other => by cases other)
        obtain ⟨-, ⟨⟩⟩ := Option.ite_none_right_eq_some.mp called
        apply tracks.enter walks more _ outside <;> simp [Cell.setCaller, kind, insideOf]
      | put =>
        rw [kind] at h
        obtain ⟨cell, called, rfl⟩ := Option.map_eq_some_iff.mp h
        apply sharing.act (.inr (.inl rfl)) called roomy (fun _ _ other => by cases other)
        obtain ⟨-, ⟨⟩⟩ := Option.ite_none_right_eq_some.mp called
        apply tracks.enter walks more _ outside <;> simp [Cell.setCaller, kind, insideOf]
      | isPresent =>
        rw [kind] at h
        cases h
        apply sharing.setWorker
        split
        · have between := tracks.between (k.page tables) fun k' member entered' => by
            obtain rfl := Option.some.inj (walks.symm.trans member)
            exact absurd entered' entered
          have looked := tracks.advance walks ready more between (by simp [kind]) (by simp [kind])
          rwa [Function.update_eq_self] at looked
        · apply tracks.leave (fun failed => by cases failed)
          · intro op p changes
            apply passed_leave_failed k.call (by decide)
            intro k' member
            obtain rfl := Option.some.inj (walks.symm.trans member)
            rw [kind]
            rcases changes with rfl | rfl <;> decide
          · intro k' member
            obtain rfl := Option.some.inj (walks.symm.trans member)
            exact outside
      | clear => simp [kind] at h
    · rw [if_neg more] at h
      cases h
      apply sharing.setWorker
      apply tracks.leave fun _ => placed.accepted
      · exact fun op p _ => passed_leave ready placed walks more
      · intro k' member
        obtain rfl := Option.some.inj (walks.symm.trans member)
        exact outside

theorem processStep_sharing (ready : ∀ i, Ready (tables i)) (sharing : Sharing tables before m)
    {a : Move ι T} (careful : Careful tables m a) (h : processStep tables m a = some m') :
    Sharing tables before m' := by
  cases a with
  | call t c =>
    obtain ⟨allowed, h⟩ := Option.ite_none_left_eq_some.mp h
    simp only [not_or, Bool.not_eq_true, Option.isSome_eq_false_iff, Option.isNone_iff_eq_none] at allowed
    obtain ⟨idle, used, owned⟩ := allowed
    have tracks := sharing.tracks t
    split at h
    · cases h
      apply sharing.setWorker
      apply tracks.leave (fun failed => by cases failed)
      · exact fun op p _ => passed_leave_failed c (by decide) (by simp [idle])
      · simp [idle]
    · rename_i accepted
      cases h
      apply sharing.setWorker
      apply tracks.start idle (by simpa using accepted) used
      intro putting p member
      have owns : m.owns t c = true := by simpa [putting] using owned
      exact of_decide_eq_true (List.all_eq_true.mp owns p member)
  | pass t =>
    obtain ⟨k, walks, h⟩ := Option.bind_eq_some_iff.mp h
    obtain ⟨roomy, changed⟩ := careful (k.page tables) (by simp [entryOf, walks])
    exact walkStep_sharing ready sharing walks roomy (changed t rfl) h
  | kernel p k =>
    obtain ⟨cell, stepped, rfl⟩ := Option.map_eq_some_iff.mp h
    obtain ⟨roomy, -⟩ := careful p rfl
    have changed : YieldSeesChange (m.cells p) k.action := by
      intro t newVal isStep
      cases k <;> cases isStep
    constructor
    · exact forall_update (step_shared (sharing.shared p) roomy changed stepped) fun q _ => sharing.shared q
    · intro t
      rw [callers_setCell, kernel_callers stepped, Function.update_eq_self]
      exact sharing.tracks t

/-- A call that has begun can always go on. -/
theorem Sharing.goes_on (sharing : Sharing tables before m) {t : T} {k : Walk ι}
    (ready : ∀ i, Ready (tables i)) (walks : (m.workers t).walk = some k) :
    ∃ m', processStep tables m (.pass t) = some m' := by
  have tracks := sharing.tracks t
  have placed := tracks.placed k walks
  rw [processStep, walks, Option.bind_some, Process.walkStep]
  by_cases entered : k.entered = true
  · obtain ⟨-, inside⟩ := tracks.inside k walks entered
    obtain ⟨⟨pte, c⟩, moved⟩ := callerStep_of_inside (m.cells (k.page tables)).pte inside
    rw [if_pos entered, Uxpte.step, moved]
    exact ⟨_, rfl⟩
  · have between := tracks.between (k.page tables) fun k' member entered' => by
      obtain rfl := Option.some.inj (walks.symm.trans member)
      exact absurd entered' entered
    rw [if_neg entered]
    by_cases more : k.off < k.end_
    · rw [if_pos more]
      cases kind : k.call.op with
      | get =>
        simp only [Uxpte.step, if_pos between]
        exact ⟨_, rfl⟩
      | put =>
        have here : k.off.toNat ≤ k.page tables * pageSize := by
          have aligned := placed.aligned
          rw [placed.page_eq ready, pageSize_eq]
          omega
        have owed := tracks.owed k walks kind _ (placed.mem_pagesOf ready more) here
        simp only [Uxpte.step, if_pos (And.intro between owed)]
        exact ⟨_, rfl⟩
      | isPresent => exact ⟨_, rfl⟩
      | clear => exact absurd kind placed.used
    · rw [if_neg more]
      exact ⟨_, rfl⟩

omit [DecidableEq T] in
theorem Process.Fresh.sharing (fresh : m.Fresh) : Sharing tables (fun p => pins (m.cells p).pte) m := by
  obtain ⟨quiet, idle⟩ := fresh
  refine ⟨fun p => quiet_shared (quiet p), fun t => ?_⟩
  rw [idle t]
  refine ⟨fun p => ?_, fun p => ?_, fun p _ => ?_, ?_, ?_, ?_, ?_⟩
  · simp [quiet p t, Worker.passed]
  · simp [quiet p t, Worker.passed]
  · simp [quiet p t, Caller.between]
  all_goals simp

theorem run_sharing (ready : ∀ i, Ready (tables i)) (fresh : m.Fresh) {moves : List (Move ι T)}
    (careful : (sharedTables tables).Along (Careful tables) m moves)
    (ran : (sharedTables tables).run m moves = some m') :
    Sharing tables (fun p => pins (m.cells p).pte) m' := by
  have keep : ∀ (m₁ : Process ι T) a m₂, Sharing tables (fun p => pins (m.cells p).pte) m₁ →
      Careful tables m₁ a → (sharedTables tables).step m₁ a = some m₂ →
      Sharing tables (fun p => pins (m.cells p).pte) m₂ :=
    fun _ _ _ sharing careful h => processStep_sharing ready sharing careful h
  exact System.Along.invariant keep fresh.sharing careful ran

end Step

/-- The pins that the calls of a thread have put on page `p` and not yet taken back. -/
def Worker.pinsOn (w : Worker ι) (p : Nat) : Int := w.passed .get p - w.passed .put p

section Pinned

variable {tables} {before : Nat → Nat} {m : Process ι T} (sharing : Sharing tables before m)

include sharing

omit [DecidableEq T] in
theorem Sharing.pins_eq (p : Nat) :
    (pins (m.cells p).pte : Int) = before p + ∑ t, (m.workers t).pinsOn p := by
  rw [(sharing.shared p).balanced]
  congr 1
  apply Finset.sum_congr rfl
  intro t _
  rw [Caller.held, Worker.pinsOn, (sharing.tracks t).adds p, (sharing.tracks t).subs p]

theorem Sharing.pinned {t : T} {p : Nat} (holds : 0 < (m.workers t).pinsOn p) :
    0 < pins (m.cells p).pte ∧ processStep tables m (.kernel p .startReclaim) = none := by
  have owes : ((m.cells p).callers t).subs < ((m.cells p).callers t).adds := by
    rw [(sharing.tracks t).adds p, (sharing.tracks t).subs p]
    rw [Worker.pinsOn] at holds
    omega
  have positive := (sharing.shared p).covered t owes
  have unmarked : (m.cells p).pte ≠ uxpteUnderReclaim := by
    intro marked
    rw [marked] at positive
    exact absurd positive (by decide)
  refine ⟨positive, ?_⟩
  rw [pins_of_ne unmarked] at positive
  simp [processStep, KernelStep.action, Uxpte.step, positive.ne']

end Pinned

/-- In every interleaving of calls on ranges of any number of tables with each other and with
reclaims that no `UxpteAdd` breaks, an entry holds its old pins and one for each time a call that
pins has passed its page without being taken back. Such a page is not reclaimed, a call that has
begun is never stuck, and it concerns pages of its own table only. -/
theorem passed_ranges_stay_pinned {addrs lens : ι → UInt64}
    (set : ∀ i, SetUp (tables i) (addrs i) (lens i)) {m m' : Process ι T} (fresh : m.Fresh)
    {moves : List (Move ι T)} (careful : (sharedTables tables).Along (Careful tables) m moves)
    (ran : (sharedTables tables).run m moves = some m') :
    (∀ p, (pins (m'.cells p).pte : Int) = pins (m.cells p).pte + ∑ t, (m'.workers t).pinsOn p) ∧
    (∀ t p, 0 < (m'.workers t).pinsOn p → 0 < pins (m'.cells p).pte ∧
      processStep tables m' (.kernel p .startReclaim) = none) ∧
    (∀ t, (m'.workers t).walk.isSome → ∃ m'', processStep tables m' (.pass t) = some m'') ∧
    ∀ t, ∀ r ∈ (m'.workers t).returned, r.2 = .ok →
      ∀ p ∈ pagesOf r.1.addr r.1.len, Meets p (addrs r.1.table) (lens r.1.table) := by
  have ready := fun i => (set i).ready.1
  have sharing := run_sharing ready fresh careful ran
  refine ⟨sharing.pins_eq, fun t p => sharing.pinned, fun t walks => ?_, fun t r member ok p covered => ?_⟩
  · obtain ⟨k, walks⟩ := Option.isSome_iff_exists.mp walks
    exact sharing.goes_on ready walks
  · have accepted := (sharing.tracks t).answered r member ok
    obtain ⟨-, dataAddr, dataSize⟩ := (set r.1.table).ready
    rw [← dataAddr, ← dataSize]
    exact meets_data (ready r.1.table) accepted covered

/-- The table `straddling` and one over the page behind it. -/
def neighbours : Bool → UxPageTableStruct
  | true => straddling
  | false => ⟨0x201000, 0x1000, some 512⟩

def Caller.careful (c : Caller) (pte : UInt64) : Bool :=
  (isUxpteUnderReclaim pte || decide (pte.toNat + 4 < 2 ^ 64)) &&
    match c.pc with
    | .addCas old _ => !isUxpteUnderReclaim old || !isUxpteUnderReclaim pte
    | _ => true

def careful (m : Process Bool Bool) : Move Bool Bool → Bool
  | .call _ _ => true
  | .pass t =>
    (entryOf neighbours m (.pass t)).all fun p => Caller.careful ((m.cells p).callers t) (m.cells p).pte
  | .kernel p _ => isUxpteUnderReclaim (m.cells p).pte || decide ((m.cells p).pte.toNat + 4 < 2 ^ 64)

theorem careful_sound (m : Process Bool Bool) (a : Move Bool Bool) (h : careful m a = true) :
    Careful neighbours m a := by
  intro p entry
  cases a with
  | call t c => cases entry
  | pass t =>
    simp only [careful, entry, Option.all_some, Caller.careful, Bool.and_eq_true, Bool.or_eq_true,
      isUxpteUnderReclaim_iff, decide_eq_true_eq] at h
    refine ⟨h.1, ?_⟩
    rintro _ ⟨⟩ _ newVal ⟨⟩ atCas
    have marker : isUxpteUnderReclaim uxpteUnderReclaim = true := rfl
    simpa [atCas, marker, isUxpteUnderReclaim] using h.2
  | kernel q k =>
    cases entry
    simp only [careful, Bool.or_eq_true, isUxpteUnderReclaim_iff, decide_eq_true_eq] at h
    exact ⟨h, fun t other => by cases other⟩

def untouchedProcess : Process Bool Bool :=
  { cells := fun _ => ⟨0, fun _ => ⟨.idle, 0, 0, []⟩⟩, workers := fun _ => ⟨none, []⟩ }

/-- The second page is under reclaim when the first thread comes to it, and the other thread pins
its own table in between. -/
def pinsAcrossReclaim : List (Move Bool Bool) :=
  [.call true ⟨true, .get, 0x1ff800, 0x1000⟩, .pass true, .pass true, .kernel 512 .startReclaim,
    .pass true, .pass true, .pass true, .call false ⟨false, .get, 0x201000, 0x1000⟩, .pass false,
    .kernel 512 .endReclaim, .pass true, .pass true, .pass true, .pass true, .pass false, .pass false]

theorem neighbours_setUp (i : Bool) :
    SetUp (neighbours i) (if i then 0x1ff000 else 0x201000) (if i then 0x2000 else 0x1000) := by
  cases i with
  | false => exact setUp_of_mapped (by decide) (by decide) (by decide)
  | true => exact straddling_setUp

theorem pinsAcrossReclaim_careful :
    (sharedTables neighbours).Along (Careful neighbours) untouchedProcess pinsAcrossReclaim :=
  System.along_of_checks careful_sound (by decide)

theorem pinned_across_reclaim : ∃ m', (sharedTables neighbours).run untouchedProcess pinsAcrossReclaim = some m' ∧
    (m'.workers true).walk.isNone ∧ 0 < pins (m'.cells 512).pte ∧
    processStep neighbours m' (.kernel 512 .startReclaim) = none := by
  have seen : ((sharedTables neighbours).run untouchedProcess pinsAcrossReclaim).map
      (fun m => ((m.workers true).walk.isNone, (m.workers true).pinsOn 512)) = some (true, 1) := by
    decide
  obtain ⟨m', ran, now⟩ := Option.map_eq_some_iff.mp seen
  obtain ⟨returned, holds⟩ := Prod.mk.inj now
  have fresh : untouchedProcess.Fresh := ⟨fun _ _ => rfl, fun _ => rfl⟩
  have pinned := (passed_ranges_stay_pinned neighbours neighbours_setUp fresh pinsAcrossReclaim_careful ran).2.1 true 512 (by omega)
  exact ⟨m', ran, returned, pinned⟩

/-! ### A call without interruption -/

def Process.entries (m : Process ι T) : Entries := fun p => (m.cells p).pte

section Alone

variable {tables} {m : Process ι T} {t : T} {k : Walk ι}

omit [Fintype T]

omit [DecidableEq T] in
theorem entries_setCell (m : Process ι T) (p : Nat) (cell : Cell T) :
    (m.setCell p cell).entries = Function.update m.entries p cell.pte := by
  funext q
  by_cases same : q = p
  · subst same
    simp [Process.setCell, Process.entries]
  · simp [Process.setCell, Process.entries, same]

theorem addBody_cases (old newVal incNum : UInt64) :
    addBody old newVal incNum = .added ∨ ∃ v, addBody old newVal incNum = .addCas old v := by
  unfold addBody
  split_ifs
  · exact .inr ⟨_, rfl⟩
  · exact .inl rfl
  · exact .inl rfl
  · exact .inr ⟨_, rfl⟩

/-- A step inside the entry that the thread has just changed. -/
theorem pass_inside {cell : Cell T} {w : Worker ι} (walks : w.walk = some k) (entered : k.entered = true)
    {pte : UInt64} {c : Caller} (moved : callerStep cell.pte (cell.callers t) = some (pte, c)) :
    processStep tables ((m.setCell (k.page tables) cell).setWorker t w) (.pass t)
      = some ((m.setCell (k.page tables) ({ cell with pte := pte }.setCaller t c)).setWorker t
          (if c.between then w.advance k else w)) := by
  simp [processStep, Process.walkStep, Process.setCell, Process.setWorker, walks, entered, Uxpte.step, moved,
    Cell.setCaller]

/-- Passes of `t` take it from `cell` to the next page of its walk, with `v` left in the entry. -/
def Leaves (tables : ι → UxPageTableStruct) (m : Process ι T) (t : T) (k : Walk ι) (w : Worker ι) (cell : Cell T)
    (v : UInt64) : Prop :=
  ∃ n cell', (sharedTables tables).run ((m.setCell (k.page tables) cell).setWorker t w)
      (List.replicate n (.pass t))
      = some ((m.setCell (k.page tables) cell').setWorker t (w.advance k)) ∧ cell'.pte = v

section Leaves

variable {cell : Cell T} {w : Worker ι} (walks : w.walk = some k) (entered : k.entered = true) {pte v : UInt64}
  {c : Caller} (moved : callerStep cell.pte (cell.callers t) = some (pte, c))

include walks entered moved

theorem Leaves.last (between : c.between = true) : Leaves tables m t k w cell pte := by
  have stepped := @pass_inside _ _ _ tables m t k cell w walks entered _ _ moved
  rw [if_pos between] at stepped
  exact ⟨1, _, (System.run_cons_of_step stepped []).trans rfl, rfl⟩

theorem Leaves.later (inside : c.between = false)
    (rest : Leaves tables m t k w ({ cell with pte := pte }.setCaller t c) v) :
    Leaves tables m t k w cell v := by
  have stepped := @pass_inside _ _ _ tables m t k cell w walks entered _ _ moved
  rw [if_neg (by simp [inside])] at stepped
  obtain ⟨n, cell', ran, value⟩ := rest
  exact ⟨n + 1, cell', (System.run_cons_of_step stepped _).trans ran, value⟩

end Leaves

section Entered

variable {cell : Cell T} {w : Worker ι} (walks : w.walk = some k) (entered : k.entered = true) {c : Caller}
  (own : cell.callers t = c)

include walks entered own

theorem leaves_of_subLoad (loads : c.pc = .subLoad) :
    Leaves tables m t k w cell (uxpteSub cell.pte uxpteRefcntOne) := by
  have load : callerStep cell.pte (cell.callers t) = some (cell.pte, { c with pc := .subCas cell.pte }) := by
    simp [callerStep, own, loads]
  apply Leaves.later walks entered load rfl
  apply Leaves.last walks entered
  · simp [Cell.setCaller, callerStep]
    exact ⟨rfl, rfl⟩
  · rfl

theorem leaves_of_addLoad (loads : c.pc = .addLoad 0) :
    Leaves tables m t k w cell (uxpteAdd cell.pte uxpteRefcntOne) := by
  rcases addBody_cases cell.pte 0 uxpteRefcntOne with full | ⟨newVal, room⟩
  · have load : callerStep cell.pte (cell.callers t) = some (cell.pte, c.endAdd) := by
      simp [callerStep, own, loads, full]
    have unchanged : uxpteAdd cell.pte uxpteRefcntOne = cell.pte := by simp [uxpteAdd, full]
    rw [unchanged]
    exact Leaves.last walks entered load rfl
  · have load : callerStep cell.pte (cell.callers t) = some (cell.pte, { c with pc := .addCas cell.pte newVal }) := by
      simp [callerStep, own, loads, room]
    have added : uxpteAdd cell.pte uxpteRefcntOne = newVal := by simp [uxpteAdd, room]
    rw [added]
    apply Leaves.later walks entered load rfl
    apply Leaves.last walks entered
    · simp [Cell.setCaller, callerStep]
      rfl
    · rfl

end Entered

/-- The passes that take a walk over one page. -/
theorem pass_page (walks : (m.workers t).walk = some k) (outside : k.entered = false) (more : k.off < k.end_)
    (used : k.call.op ≠ .clear) (goes : k.call.op.stops (m.entries (k.page tables)) = false)
    (between : ((m.cells (k.page tables)).callers t).between = true)
    (owed : k.call.op = .put →
      ((m.cells (k.page tables)).callers t).subs < ((m.cells (k.page tables)).callers t).adds) :
    ∃ n cell, (sharedTables tables).run m (List.replicate n (.pass t))
        = some ((m.setCell (k.page tables) cell).setWorker t ((m.workers t).advance k)) ∧
      cell.pte = k.call.op.apply (m.entries (k.page tables)) := by
  have begin_ : processStep tables m (.pass t) = m.walkStep tables t k := by
    rw [processStep, walks, Option.bind_some]
  rw [Process.walkStep, if_neg (by simp [outside]), if_pos more] at begin_
  cases kind : k.call.op with
  | clear => exact absurd kind used
  | isPresent =>
    rw [kind] at begin_ goes
    have present : isUxptePresent (m.cells (k.page tables)).pte = true := by
      simpa [UxpteOp.stops, Process.entries] using goes
    rw [if_pos present] at begin_
    refine ⟨1, m.cells (k.page tables), ?_, rfl⟩
    rw [Process.setCell, Function.update_eq_self]
    exact (System.run_cons_of_step begin_ []).trans rfl
  | put =>
    rw [kind] at begin_
    simp only [Uxpte.step, if_pos (And.intro between (owed kind)), Option.map_some] at begin_
    have rest : Leaves tables m t { k with entered := true } ((m.workers t).enter k)
        ((m.cells (k.page tables)).setCaller t
          { (m.cells (k.page tables)).callers t with pc := .subLoad, swaps := [] })
        (uxpteSub (m.cells (k.page tables)).pte uxpteRefcntOne) :=
      leaves_of_subLoad rfl rfl (Function.update_self ..) rfl
    obtain ⟨n, cell, ran, value⟩ := rest
    exact ⟨n + 1, cell, (System.run_cons_of_step begin_ _).trans ran, value⟩
  | get =>
    rw [kind] at begin_
    simp only [Uxpte.step, if_pos between, Option.map_some] at begin_
    have rest : Leaves tables m t { k with entered := true } ((m.workers t).enter k)
        ((m.cells (k.page tables)).setCaller t
          { (m.cells (k.page tables)).callers t with pc := .addLoad 0, swaps := [] })
        (uxpteAdd (m.cells (k.page tables)).pte uxpteRefcntOne) :=
      leaves_of_addLoad rfl rfl (Function.update_self ..) rfl
    obtain ⟨n, cell, ran, value⟩ := rest
    exact ⟨n + 1, cell, (System.run_cons_of_step begin_ _).trans ran, value⟩

/-- A walk whose steps nobody interrupts is the pass over the pages ahead of it. -/
theorem walk_alone (ready : ∀ i, Ready (tables i)) (placed : Placed tables k)
    (walks : (m.workers t).walk = some k) (outside : k.entered = false)
    (between : ∀ p, k.off.toNat ≤ p * pageSize → ((m.cells p).callers t).between = true)
    (owed : k.call.op = .put → ∀ p ∈ pagesOf k.call.addr k.call.len, k.off.toNat ≤ p * pageSize →
      ((m.cells p).callers t).subs < ((m.cells p).callers t).adds) :
    ∃ n m', (sharedTables tables).run m (List.replicate n (.pass t)) = some m' ∧
      m'.workers t = (m.workers t).leave k.call
        (overPages k.call.op (pagesBetween k.off k.end_) m.entries).state ∧
      m'.entries = (overPages k.call.op (pagesBetween k.off k.end_) m.entries).entries := by
  generalize left : k.end_.toNat / 4096 - k.off.toNat / 4096 = pages
  induction pages generalizing m k with
  | zero =>
    have stop : k.end_.toNat = _ := end_toNat (ready k.call.table) placed.accepted
    have aligned := placed.aligned
    have finished : ¬ k.off < k.end_ := by
      rw [UInt64.lt_iff_toNat_lt]
      omega
    have last : processStep tables m (.pass t) = some (m.setWorker t ((m.workers t).leave k.call .ok)) := by
      rw [processStep, walks, Option.bind_some, Process.walkStep, if_neg (by simp [outside]), if_neg finished]
    have none_left : pagesBetween k.off k.end_ = [] := by
      apply pagesBetween_self
      rw [UInt64.lt_iff_toNat_lt] at finished
      omega
    refine ⟨1, _, (System.run_cons_of_step last []).trans rfl, ?_, ?_⟩
    · rw [none_left]
      exact Function.update_self ..
    · rw [none_left]
      rfl
  | succ pages ih =>
    have stop : k.end_.toNat = _ := end_toNat (ready k.call.table) placed.accepted
    have aligned := placed.aligned
    have more : k.off < k.end_ := by
      rw [UInt64.lt_iff_toNat_lt]
      omega
    obtain ⟨cons, -⟩ := pagesBetween_cons aligned (by omega) (UInt64.lt_iff_toNat_lt.mp more)
    have page := placed.page_eq ready
    have here : k.off.toNat ≤ k.page tables * pageSize := by
      rw [page, pageSize_eq]
      omega
    rw [← page] at cons
    rw [cons, overPages]
    by_cases stops : k.call.op.stops (m.entries (k.page tables)) = true
    · have looks : k.call.op = .isPresent ∧ isUxptePresent (m.cells (k.page tables)).pte = false := by
        simpa [UxpteOp.stops, Process.entries] using stops
      have last : processStep tables m (.pass t)
          = some (m.setWorker t ((m.workers t).leave k.call .uxptNoPresent)) := by
        rw [processStep, walks, Option.bind_some, Process.walkStep, if_neg (by simp [outside]), if_pos more,
          looks.1]
        simp [looks.2]
      rw [if_pos stops]
      refine ⟨1, _, (System.run_cons_of_step last []).trans rfl, ?_, ?_⟩
      · exact Function.update_self ..
      · rfl
    · rw [if_neg stops]
      obtain ⟨n, cell, passed, value⟩ := pass_page walks outside more placed.used (by simpa using stops)
        (between _ here) (fun putting => owed putting _ (placed.mem_pagesOf ready more) here)
      have next := placed.next_toNat ready more
      have elsewhere : ∀ p, (k.off + pageBytes).toNat ≤ p * pageSize →
          ((m.setCell (k.page tables) cell).cells p) = m.cells p ∧ k.off.toNat ≤ p * pageSize := by
        intro p ahead
        have other : p ≠ k.page tables := by
          rintro rfl
          rw [page, pageSize_eq] at ahead
          omega
        exact ⟨Function.update_of_ne other .., by omega⟩
      have after : ((m.setCell (k.page tables) cell).setWorker t ((m.workers t).advance k)).entries
          = Function.update m.entries (k.page tables) (k.call.op.apply (m.entries (k.page tables))) :=
        (entries_setCell m _ cell).trans (by rw [value])
      have sameEnd : ({ k with off := k.off + pageBytes, entered := false } : Walk ι).end_ = k.end_ := by
        simp only [Walk.end_]
      obtain ⟨n', m', ran, returned, entries⟩ := @ih
        ((m.setCell (k.page tables) cell).setWorker t ((m.workers t).advance k))
        { k with off := k.off + pageBytes, entered := false } (placed.advance ready more)
        (by simp [Process.setWorker, Worker.advance]) rfl
        (fun p ahead => by
          obtain ⟨same, ahead⟩ := elsewhere p ahead
          show (((m.setCell (k.page tables) cell).cells p).callers t).between = true
          rw [same]
          exact between p ahead)
        (fun putting p member ahead => by
          obtain ⟨same, ahead⟩ := elsewhere p ahead
          show (((m.setCell (k.page tables) cell).cells p).callers t).subs
            < (((m.setCell (k.page tables) cell).cells p).callers t).adds
          rw [same]
          exact owed putting p member ahead)
        (by
          rw [sameEnd, next]
          omega)
      rw [after, sameEnd] at returned entries
      refine ⟨n + n', m', ?_, ?_, ?_⟩
      · rw [← List.replicate_append_replicate, System.run_append passed]
        exact ran
      · rw [returned]
        simp only [Process.setWorker, Function.update_self, Worker.leave, Worker.advance]
      · exact entries

end Alone

/-- From every state that calls and reclaims lead to, a call that nobody interrupts is `UxpteOps` on
the entries as they are then: it leaves the same entries and returns the same answer. -/
theorem uninterrupted_call_is_uxpteOps {addrs lens : ι → UInt64}
    (set : ∀ i, SetUp (tables i) (addrs i) (lens i)) {m m' : Process ι T} (fresh : m.Fresh)
    {moves : List (Move ι T)} (careful : (sharedTables tables).Along (Careful tables) m moves)
    (ran : (sharedTables tables).run m moves = some m') {t : T} (idle : (m'.workers t).walk = none)
    {c : RangeCall ι} (used : c.op ≠ .clear) (owns : c.op = .put → m'.owns t c = true) :
    ∃ r, (∀ fuel > 2 ^ 52, uxpteOps fuel (some (tables c.table)) c.addr c.len c.op m'.entries = some r) ∧
      ∃ n m'', (sharedTables tables).run m' (.call t c :: List.replicate n (.pass t)) = some m'' ∧
        m''.entries = r.entries ∧ m''.workers t = (m'.workers t).leave c r.state := by
  have ready := fun i => (set i).ready.1
  have tracks := (run_sharing ready fresh careful ran).tracks t
  refine ⟨_, fun fuel enough => uxpteOps_eq (ready c.table) c.op enough m'.entries, ?_⟩
  have allowed : ¬ ((m'.workers t).walk.isSome ∨ c.op = .clear ∨ c.op = .put ∧ m'.owns t c = false) := by
    simpa [idle, used] using owns
  by_cases ok : accepts (tables c.table) c.addr c.len = true
  · have called : processStep tables m' (.call t c) = some (m'.setWorker t ((m'.workers t).start c)) := by
      rw [processStep, if_neg allowed, if_neg (by simp [ok])]
    have started := tracks.start idle ok used fun putting p member =>
      of_decide_eq_true (List.all_eq_true.mp (owns putting) p member)
    obtain ⟨n, m'', walked, returned, entries⟩ := walk_alone (m := m'.setWorker t ((m'.workers t).start c))
      ready (started.placed _ rfl) (by simp [Process.setWorker, Worker.start]) rfl
      (fun p _ => tracks.between p (by simp [idle])) (started.owed _ rfl)
    rw [if_pos ok]
    refine ⟨n, m'', (System.run_cons_of_step called _).trans walked, entries, ?_⟩
    rw [returned]
    simp only [Process.setWorker, Function.update_self, Worker.leave, Worker.start]
    rfl
  · have called : processStep tables m' (.call t c)
        = some (m'.setWorker t ((m'.workers t).leave c .uxptOutRange)) := by
      rw [processStep, if_neg allowed, if_pos (by simp [ok])]
    rw [if_neg ok]
    refine ⟨0, _, (System.run_cons_of_step called []).trans rfl, ?_, ?_⟩
    · rfl
    · exact Function.update_self ..

/-- The first thread gives both pages back while the other one keeps its pin. -/
theorem uninterrupted_put_after_reclaim : ∃ m', (sharedTables neighbours).run untouchedProcess pinsAcrossReclaim
      = some m' ∧ ∃ r, (∀ fuel > 2 ^ 52,
        uxpteOps fuel (some straddling) 0x1ff800 0x1000 .put m'.entries = some r) ∧
      ∃ n m'', (sharedTables neighbours).run m'
          (.call true ⟨true, .put, 0x1ff800, 0x1000⟩ :: List.replicate n (.pass true)) = some m'' ∧
        m''.entries = r.entries := by
  have seen : ((sharedTables neighbours).run untouchedProcess pinsAcrossReclaim).map
      (fun m => ((m.workers true).walk.isNone, m.owns true ⟨true, .put, 0x1ff800, 0x1000⟩))
      = some (true, true) := by
    decide
  obtain ⟨m', ran, now⟩ := Option.map_eq_some_iff.mp seen
  obtain ⟨idle, owns⟩ := Prod.mk.inj now
  have fresh : untouchedProcess.Fresh := ⟨fun _ _ => rfl, fun _ => rfl⟩
  obtain ⟨r, alone, n, m'', put, entries, -⟩ := uninterrupted_call_is_uxpteOps neighbours neighbours_setUp fresh
    pinsAcrossReclaim_careful ran (Option.isNone_iff_eq_none.mp idle) (by decide) (fun _ => owns)
  exact ⟨m', ran, r, alone, n, m'', put, entries⟩

end MemoryUtils.UxPageTable
