import MemoryUtils.C.Code
import MemoryUtils.C.Conservation
import MemoryUtils.C.FailedUnlocks
import MemoryUtils.C.Pins
import MemoryUtils.Cpp.TableRefinement
import MemoryUtils.Lib.Simulation

/-!
The access functions on addresses, words and linked nodes take the same steps as the protocol of
`C.Access`, from the object that `PurgMemCreate` returns on. The protocol copies the list of builders when
a rebuild starts and counts pins without a bound; that the code follows the links as they are, and adds
to 64-bit words, makes no difference because of the lock and because there are fewer than 2^62 threads.
-/

namespace MemoryUtils.C.Code
open Lib UxPageTable Uxpte
open Cpp.PurgeableMem (AtPage Backs Encoded accepts_data start_data end_data entry_page len_toNat roundUp_len)

variable {T A P : Type} {S : Setup} {n : Nat}

def Choice.plain : Choice A P n → C.Choice n
  | .step | .malloc _ (some _) => .step
  | .lockFail => .lockFail
  | .malloc _ none => .allocFail
  | .beginAccess m => .beginAccess m
  | .endAccess => .endAccess
  | .touch p => .touch p
  | .append func funcPara mid touched => .append (func funcPara) mid touched
  | .call mid touched => .call mid touched
  | .ret c ok => .ret c ok

def Action.plain : Action T A P n → C.Action T n
  | .thread t c => .thread t c.plain
  | .reclaim p => .reclaim p

/-- The allocator is asked where a node is made, and nowhere else. -/
def answers : Pc A P n → Choice A P n → Bool
  | .logging _ _, .malloc _ _ => true
  | .logging _ _, .step => false
  | _, .malloc _ _ => false
  | _, _ => true

/-- `malloc` returns free memory, and the walk to the last node is not cut short. -/
structure Grants (mem : Memory T A P n) (fuel : Nat) (x : A) : Prop where
  unused : mem.nodes x = none
  enough : ∀ nodes, Chain mem.nodes mem.obj.builder nodes → nodes.length ≤ fuel

def Allocates (s : State T A P n) : Action T A P n → Prop
  | .thread t c => answers (s.pc t) c = true ∧ ∀ fuel x, c = .malloc fuel (some x) → Grants s.mem fuel x
  | .reclaim _ => True

/-- The nodes from `p` on come to an end within `fuel`, or lead to no node. -/
def endsWithin (h : BuilderHeap A P) : Nat → Option A → Bool
  | _, none => true
  | 0, some _ => false
  | fuel + 1, some a => (h a).all fun node => endsWithin h fuel node.next

theorem length_le_of_endsWithin {h : BuilderHeap A P} {p : Option A} {nodes : List (A × PurgMemBuilder P)}
    {fuel : Nat} (chain : Chain h p nodes) (ends : endsWithin h fuel p = true) : nodes.length ≤ fuel := by
  induction chain generalizing fuel with
  | nil => exact Nat.zero_le fuel
  | @cons a next value rest cell chain ih =>
    cases fuel with
    | zero => cases ends
    | succ fuel =>
      rw [endsWithin, cell, Option.all_some] at ends
      exact Nat.succ_le_succ (ih ends)

def grants (mem : Memory T A P n) : Choice A P n → Bool
  | .malloc fuel (some x) => (mem.nodes x).isNone && endsWithin mem.nodes fuel mem.obj.builder
  | _ => true

def allocates (s : State T A P n) : Action T A P n → Bool
  | .thread t c => answers (s.pc t) c && grants s.mem c
  | .reclaim _ => true

theorem allocates_sound (s : State T A P n) (a : Action T A P n)
    (passed : allocates s a = true) : Allocates s a := by
  cases a with
  | reclaim p => trivial
  | thread t c =>
    obtain ⟨answered, granted⟩ := Bool.and_eq_true_iff.mp passed
    refine ⟨answered, ?_⟩
    rintro fuel x rfl
    obtain ⟨unused, ends⟩ := Bool.and_eq_true_iff.mp granted
    exact ⟨Option.isNone_iff_eq_none.mp unused, fun nodes chain => length_le_of_endsWithin chain ends⟩

/-! ### The pages of the data -/

/-- What no access changes: the pointers are set, and the table is that of the data. -/
structure Layout (S : Setup) (mem : Memory T A P n) : Prop where
  dataPtr : mem.obj.dataPtr.isSome = true
  uxPageTable : mem.obj.uxPageTable = true
  size : mem.obj.dataSizeInput = UInt64.ofNat S.len
  backs : S.supportUxpt = true → Backs mem.table S ∧ mem.table.dataAddr = addr mem

theorem Layout.congr {mem mem' : Memory T A P n} (layout : Layout S mem) (table : mem'.table = mem.table)
    (obj : mem'.obj = { mem.obj with builder := mem'.obj.builder, buildDataCount := mem'.obj.buildDataCount }) :
    Layout S mem' := by
  have same : addr mem' = addr mem := by rw [addr, obj, addr]
  exact ⟨by rw [obj]; exact layout.dataPtr, by rw [obj]; exact layout.uxPageTable, by rw [obj]; exact layout.size,
    fun supported => by rw [table, same]; exact layout.backs supported⟩

section Pages

variable {mem : Memory T A P n} (layout : Layout S mem)

include layout

theorem Layout.size_toNat : mem.obj.dataSizeInput.toNat = S.len := by
  rw [layout.size, len_toNat]

theorem Layout.roundUp_size :
    (UxPageTable.roundUp mem.obj.dataSizeInput pageBytes).toNat = MemoryUtils.roundUp S.len pageSize := by
  rw [layout.size, roundUp_len]

theorem Layout.pageCount_eq : pageCount mem = S.pageCount := by
  rw [pageCount, layout.roundUp_size, Setup.pageCount, pageSize_eq]

theorem Layout.end_eq : (end_ S.supportUxpt mem).toNat = (start mem).toNat + 4096 * S.pages := by
  unfold end_ Setup.pages
  cases supported : S.supportUxpt with
  | false => simp
  | true =>
    obtain ⟨backs, same⟩ := layout.backs supported
    have ok := (accepts_data backs).1
    have last := end_data backs
    have first := start_data backs
    rw [same] at ok last first
    rw [layout.size, ok, Bool.true_and, if_pos rfl, if_pos rfl, last, start, first]

theorem Layout.lt_end_iff {off : UInt64} {i : Nat} (here : AtPage (start mem) off i) :
    off < end_ S.supportUxpt mem ↔ i < S.pages := by
  rw [UInt64.lt_iff_toNat_lt, layout.end_eq, here]
  omega

theorem Layout.next {off : UInt64} {i : Nat} (here : AtPage (start mem) off i) (below : i < S.pages) :
    AtPage (start mem) (off + pageBytes) (i + 1) := by
  have bound := (end_ S.supportUxpt mem).toNat_lt
  rw [layout.end_eq] at bound
  unfold AtPage at here ⊢
  rw [UInt64.toNat_add, pageBytes_toNat, here]
  omega

theorem Layout.entry_eq {off : UInt64} {i : Nat} (here : AtPage (start mem) off i) (below : i < S.pages) :
    mem.table.entry off = firstPage mem + i := by
  have supported : S.supportUxpt = true := by
    by_contra none_
    simp [Setup.pages, none_] at below
  obtain ⟨backs, same⟩ := layout.backs supported
  have first := start_data backs
  rw [same] at first
  rw [firstPage, ← same]
  refine entry_page backs ?_
  rw [same, ← first]
  exact here

end Pages

/-! ### Words and entries -/

/-- The words of the data are the entries of the region. -/
def Words (S : Setup) (mem : Memory T A P n) (r : Region n) : Prop :=
  ∀ p < S.pages, Encodes (mem.entries (firstPage mem + p)) (r.entries p)

section Words

variable {mem : Memory T A P n} {r : Region n} (words : Words S mem r)

include words

theorem Words.touch (touched : Nat → Bool) : Words S (touch mem touched) (r.touch touched) :=
  Encoded.touch words touched

theorem Words.get {i : Nat} {off : UInt64} (layout : Layout S mem) (here : AtPage (start mem) off i)
    (below : i < S.pages) (room : (mem.entries (firstPage mem + i)).toNat + 4 < 2 ^ 64) :
    Words S { mem with entries := mem.table.getUxpteAt off mem.entries } (r.getUxpteAt i) :=
  Encoded.getUxpteAt words (layout.entry_eq here below) below room

theorem Words.put {i : Nat} {off : UInt64} (layout : Layout S mem) (here : AtPage (start mem) off i)
    (below : i < S.pages) (room : (mem.entries (firstPage mem + i)).toNat + 4 < 2 ^ 64) (pinned : 0 < r.refcnt i) :
    Words S { mem with entries := mem.table.putUxpteAt off mem.entries } (r.putUxpteAt i) :=
  Encoded.putUxpteAt words (layout.entry_eq here below) below room pinned

theorem Words.present {i : Nat} {off : UInt64} (layout : Layout S mem) (here : AtPage (start mem) off i)
    (below : i < S.pages) : mem.table.isPresentAt off mem.entries = r.present i :=
  Encoded.isPresentAt words (layout.entry_eq here below) below

theorem Words.unpinned_iff {p : Nat} (below : p < S.pages) :
    refcnt (mem.entries (firstPage mem + p)) = 0 ↔ r.refcnt p = 0 := by
  have count := (words p below).refcnt
  rw [Region.refcnt]
  omega

theorem Words.room {p pins : Nat} (below : p < S.pages) (few : pins < 2 ^ 62) (counted : r.refcnt p ≤ pins) :
    (mem.entries (firstPage mem + p)).toNat + 4 < 2 ^ 64 := by
  have count := (words p below).refcnt
  rw [Region.refcnt] at counted
  rw [refcnt, refcntOne_toNat] at count
  omega

end Words

/-! ### Links and lists -/

/-- The nodes from `p` on build what the list says. -/
def Walk (h : BuilderHeap A P) (p : Option A) (functions : List Builder) : Prop :=
  ∃ nodes, Chain h p nodes ∧ nodes.map (fun node => node.2.function) = functions.map some

section Links

variable {h : BuilderHeap A P} {functions : List Builder}

theorem Walk.eq_nil (walk : Walk h none functions) : functions = [] := by
  obtain ⟨nodes, chain, builds⟩ := walk
  cases chain
  simpa using builds.symm

theorem Walk.head {a : A} (walk : Walk h (some a) functions) :
    ∃ node b rest, h a = some node ∧ node.value.function = some b ∧ functions = b :: rest ∧
      Walk h node.next rest := by
  obtain ⟨nodes, chain, builds⟩ := walk
  cases chain with
  | @cons _ next value later cell chain =>
    cases functions with
    | nil => simp at builds
    | cons b rest =>
      rw [List.map_cons, List.map_cons, List.cons.injEq] at builds
      exact ⟨⟨next, value⟩, b, rest, cell, builds.1, rfl, later, chain, builds.2⟩

theorem Walk.isSome_iff {p : Option A} (walk : Walk h p functions) : p.isSome = !functions.isEmpty := by
  cases p with
  | none => simp [walk.eq_nil]
  | some a =>
    obtain ⟨node, b, rest, -, -, rfl, -⟩ := walk.head
    rfl

theorem Walk.appended [DecidableEq A] {p : A} {newcomer : A} (walk : Walk h (some p) functions)
    (unused : h newcomer = none) {fuel : Nat} (enough : ∀ nodes, Chain h (some p) nodes → nodes.length ≤ fuel)
    (func : P → Builder) (funcPara : P) :
    ∃ h', purgMemBuilderAppendBuilder fuel (purgMemBuilderCreate h (some func) funcPara (some newcomer)).1 (some p)
        (some newcomer) = some (h', true) ∧ Walk h' (some p) (functions ++ [func funcPara]) := by
  obtain ⟨nodes, chain, builds⟩ := walk
  have log : BuilderLog h p nodes functions := ⟨chain, builds⟩
  have disjoint : (addrs nodes).Disjoint (addrs [(newcomer, (⟨some func, funcPara⟩ : PurgMemBuilder P))]) := by
    rw [addrs, addrs, List.map_singleton, List.disjoint_singleton]
    exact chain.not_mem_of_free unused
  have old := log.of_create unused func funcPara
  have new := (BuilderLog.create h newcomer func funcPara).2
  have both := old.append new disjoint
  exact ⟨_, old.appendBuilder (enough nodes chain) newcomer, _, both.chain, both.builds⟩

end Links

/-! ### One object, two pictures -/

structure Realizes (S : Setup) (mem : Memory T A P S.len) (o : C.PurgMem T S.len) : Prop where
  layout : Layout S mem
  content : mem.content = o.region.content
  words : Words S mem o.region
  builders : Walk mem.nodes mem.obj.builder o.builder
  count : mem.obj.buildDataCount.toNat = o.buildDataCount
  rwlock : mem.rwlock = o.rwlock

/-- A thread is at the same statement in both pictures. Its place in a loop over the pages or in the chain
is the address of what the position of the protocol counts off. -/
inductive PcAgrees (start : UInt64) (h : BuilderHeap A P) : Pc A P n → C.Pc n → Prop where
  | idle : PcAgrees start h .idle .idle
  | failed (m : Mode) : PcAgrees start h (.failed m) (.failed m)
  | uxpteGet (m : Mode) {off : UInt64} {i : Nat} (here : AtPage start off i) :
      PcAgrees start h (.uxpteGet m off) (.uxpteGet m i)
  | rdlock : PcAgrees start h .rdlock .rdlock
  | isPurged (k : Check) : PcAgrees start h (.isPurged k) (.isPurged k)
  | isPresent (k : Check) {off : UInt64} {i : Nat} (here : AtPage start off i) :
      PcAgrees start h (.isPresent k off) (.isPresent k i)
  | rdUnlock : PcAgrees start h .rdUnlock .rdUnlock
  | wrlock (m : Mode) : PcAgrees start h (.wrlock m) (.wrlock m)
  | clear (m : Mode) : PcAgrees start h (.clear m) (.clear m)
  | buildAll (m : Mode) {builder : Option A} {rest : List Builder} (walk : Walk h builder rest) :
      PcAgrees start h (.buildAll m builder) (.buildAll m rest)
  | building (m : Mode) {builder : A} {node : Cell A (PurgMemBuilder P)} {b : Builder} {rest : List Builder}
      (old mid : Content n) (cell : h builder = some node) (builds : node.value.function = some b)
      (walk : Walk h node.next rest) :
      PcAgrees start h (.building m builder old mid) (.building m b rest old mid)
  | built (m : Mode) : PcAgrees start h (.built m) (.built m)
  | wrUnlock (m : Mode) (ret : Bool) : PcAgrees start h (.wrUnlock m ret) (.wrUnlock m ret)
  | uxptePut (r : Option Mode) {off : UInt64} {i : Nat} (here : AtPage start off i) :
      PcAgrees start h (.uxptePut r off) (.uxptePut r i)
  | inside (m : Mode) : PcAgrees start h (.inside m) (.inside m)
  | modifying (func : P → Builder) (funcPara : P) (old mid : Content n) :
      PcAgrees start h (.modifying func funcPara old mid) (.modifying (func funcPara) old mid)
  | logging (func : P → Builder) (funcPara : P) :
      PcAgrees start h (.logging func funcPara) (.logging (func funcPara))
  | endUnlock (m : Mode) : PcAgrees start h (.endUnlock m) (.endUnlock m)

section Points

variable {start : UInt64} {h : BuilderHeap A P}

theorem atStart (start : UInt64) : AtPage start start 0 := rfl

/-- Only a thread that rebuilds has a place in the chain, and it holds the write lock. -/
theorem PcAgrees.other_nodes {h' : BuilderHeap A P} {pc : Pc A P n} {pc' : C.Pc n} (agrees : PcAgrees start h pc pc')
    (unlocked : lockMode pc' ≠ some .write) : PcAgrees start h' pc pc' := by
  cases agrees with
  | buildAll m walk => exact absurd rfl unlocked
  | building m old mid cell builds walk => exact absurd rfl unlocked
  | uxpteGet m here => exact .uxpteGet m here
  | isPresent k here => exact .isPresent k here
  | uxptePut r here => exact .uxptePut r here
  | _ => constructor

theorem agrees_firstLock (m : Mode) : PcAgrees start h (firstLock m) (C.firstLock (n := n) m) := by
  cases m <;> constructor

theorem agrees_purged (k : Check) : PcAgrees start h (purged k) (C.purged (n := n) k) := by
  cases k <;> constructor

theorem agrees_notPurged (k : Check) : PcAgrees start h (notPurged k) (C.notPurged (n := n) k) := by
  cases k <;> constructor

theorem agrees_afterBuild (m : Mode) : PcAgrees start h (afterBuild m) (C.afterBuild (n := n) m) := by
  cases m <;> constructor

theorem agrees_afterPut (r : Option Mode) : PcAgrees start h (afterPut r) (C.afterPut (n := n) r) := by
  cases r <;> constructor

theorem agrees_afterModifier (func : P → Builder) (funcPara : P) (ok : Bool) :
    PcAgrees start h (afterModifier func funcPara ok) (C.afterModifier (n := n) (func funcPara) ok) := by
  cases ok <;> constructor

theorem agrees_afterBuilder (m : Mode) {next : Option A} {rest : List Builder} (ok : Bool) (walk : Walk h next rest) :
    PcAgrees start h (afterBuilder m next ok) (C.afterBuilder (n := n) m rest ok) := by
  unfold afterBuilder C.afterBuilder
  cases ok with
  | false => exact .wrUnlock m false
  | true =>
    cases next with
    | none =>
      obtain rfl := walk.eq_nil
      exact .built m
    | some a =>
      obtain ⟨node, b, rest, cell, builds, rfl, later⟩ := walk.head
      exact .buildAll m walk

end Points

section Object

variable {mem : Memory T A P S.len} {o : C.PurgMem T S.len} (realizes : Realizes S mem o)

include realizes

theorem Realizes.withLock (l : RwLock T) : Realizes S { mem with rwlock := l } { o with rwlock := l } :=
  { realizes with layout := realizes.layout.congr rfl rfl, rwlock := rfl }

theorem Realizes.withContent (c : Content S.len) : Realizes S { mem with content := c } (setContent o c) :=
  { realizes with layout := realizes.layout.congr rfl rfl, content := rfl }

theorem Realizes.touched (touched : Nat → Bool) :
    Realizes S (touch mem touched) { o with region := o.region.touch touched } :=
  { realizes with layout := realizes.layout.congr rfl rfl, words := realizes.words.touch touched }

theorem Realizes.valid_eq : isPurgMemPtrValid mem = C.isPurgMemPtrValid o := by
  rw [isPurgMemPtrValid, realizes.layout.dataPtr, realizes.layout.uxPageTable, realizes.builders.isSome_iff]
  rfl

theorem Realizes.agrees_enter (h : BuilderHeap A P) (m : Mode) :
    PcAgrees (start mem) h (enter mem m) (C.enter o m) := by
  rw [enter, C.enter, realizes.valid_eq]
  split
  · exact .uxpteGet m (atStart _)
  · exact .failed m

theorem Realizes.agrees_leave (h : BuilderHeap A P) (m : Mode) :
    PcAgrees (start mem) h (leave mem m) (C.leave o m) := by
  rw [leave, C.leave, realizes.valid_eq]
  split
  · exact .endUnlock m
  · exact .idle

theorem Realizes.count_zero_iff : mem.obj.buildDataCount = 0 ↔ o.buildDataCount = 0 := by
  rw [← realizes.count, ← UInt32.toNat_inj]
  rfl

theorem Realizes.agrees_checkPresent (h : BuilderHeap A P) (k : Check) :
    PcAgrees (start mem) h (checkPresent S.supportUxpt mem k)
      (if o.buildDataCount = 0 then C.purged k else .isPresent k 0) := by
  have inBounds : (S.supportUxpt && !accepts mem.table (addr mem) mem.obj.dataSizeInput) = false := by
    cases supported : S.supportUxpt with
    | false => rfl
    | true =>
      obtain ⟨backs, same⟩ := realizes.layout.backs supported
      rw [realizes.layout.size, ← same, (accepts_data backs).1]
      rfl
  rw [checkPresent, inBounds]
  by_cases zero : o.buildDataCount = 0
  · rw [if_pos (realizes.count_zero_iff.mpr zero), if_pos zero]
    exact agrees_purged k
  · rw [if_neg (mt realizes.count_zero_iff.mp zero), if_neg zero]
    exact .isPresent k (atStart _)

theorem Realizes.counted (failed : Bool) : Realizes S (setCount mem (mem.obj.buildDataCount + 1))
    { o with buildDataCount := (o.buildDataCount + 1) % 2 ^ 32, rebuildFailed := failed } := by
  refine { realizes with layout := realizes.layout.congr rfl rfl, count := ?_ }
  show (mem.obj.buildDataCount + 1).toNat = _
  rw [UInt32.toNat_add, realizes.count]
  rfl

theorem Realizes.cleared :
    Realizes S { touch mem (fun p => decide (p < pageCount mem)) with content := zeros }
      { o with region := o.region.clear S.pages } := by
  refine { realizes with layout := realizes.layout.congr rfl rfl, content := rfl, words := fun p below => ?_ }
  have touched := realizes.words.touch (fun p => decide (p < pageCount mem)) p below
  have within : p < pageCount mem := by
    rw [realizes.layout.pageCount_eq]
    unfold Setup.pages at below
    split at below
    · exact below
    · omega
  have entry : (o.region.clear S.pages).entries p
      = (o.region.touch fun p => decide (p < pageCount mem)).entries p := by
    simp [Region.touch, Region.clear, within, below]
  rw [entry]
  exact touched

theorem Realizes.reclaim_iff (p : Nat) :
    S.supportUxpt = true ∧ p < pageCount mem ∧ refcnt (mem.entries (firstPage mem + p)) = 0 ↔
      p < S.pages ∧ o.region.refcnt p = 0 := by
  rw [realizes.layout.pageCount_eq]
  constructor
  · rintro ⟨supported, below, unpinned⟩
    have inside : p < S.pages := by
      rw [Setup.pages, if_pos supported]
      exact below
    exact ⟨inside, (realizes.words.unpinned_iff inside).mp unpinned⟩
  · rintro ⟨inside, zero⟩
    have unpinned := (realizes.words.unpinned_iff inside).mpr zero
    unfold Setup.pages at inside
    split at inside
    · rename_i supported
      exact ⟨supported, inside, unpinned⟩
    · omega

theorem Realizes.reclaimed {p : Nat} (below : p < S.pages)
    (unpinned : refcnt (mem.entries (firstPage mem + p)) = 0) :
    Realizes S
      { mem with
        content := fun i => if pageOf i = p then 0 else mem.content i
        entries := Function.update mem.entries (firstPage mem + p) 0 }
      { o with region := o.region.reclaim p } := by
  refine { realizes with layout := realizes.layout.congr rfl rfl, content := ?_, words := ?_ }
  · simp only [realizes.content, Region.reclaim]
  · exact Encoded.reclaim realizes.words below unpinned

/-- `PurgMemAppendModify` links the new node behind the last one. -/
theorem Realizes.logged [DecidableEq A] (valid : o.builder ≠ []) {fuel : Nat} {x : A} (grants : Grants mem fuel x)
    (func : P → Builder) (funcPara : P) :
    ∃ h, logNode mem fuel func funcPara (some x) = some { mem with nodes := h } ∧
      Realizes S { mem with nodes := h } { o with builder := o.builder ++ [func funcPara] } := by
  have walk := realizes.builders
  have enough := grants.enough
  cases present : mem.obj.builder with
  | none =>
    rw [present] at walk
    exact absurd walk.eq_nil valid
  | some builder =>
    rw [present] at walk enough
    obtain ⟨h, appended, longer⟩ := walk.appended grants.unused enough func funcPara
    refine ⟨h, ?_, { realizes with layout := realizes.layout.congr rfl rfl, builders := ?_ }⟩
    · have linked := congrArg (Option.map fun r => { mem with nodes := r.1 }) appended
      simpa only [logNode, purgMemBuilderCreate, present, Option.map_some] using linked
    · show Walk h mem.obj.builder _
      rw [present]
      exact longer

end Object

/-! ### One statement -/

/-- What a step of a thread at `pc` leaves in both pictures. Only the owner of the write lock changes links. -/
structure Moved (S : Setup) (mem : Memory T A P S.len) (pc : C.Pc S.len) (x : Memory T A P S.len × Pc A P S.len)
    (y : C.PurgMem T S.len × C.Pc S.len) : Prop where
  realizes : Realizes S x.1 y.1
  agrees : PcAgrees (start mem) x.1.nodes x.2 y.2
  start : start x.1 = start mem
  nodes : x.1.nodes = mem.nodes ∨ lockMode pc = some .write

section Statement

variable {mem : Memory T A P S.len} {o : C.PurgMem T S.len} {pc : Pc A P S.len} {pc' : C.Pc S.len}

theorem Realizes.stays (realizes : Realizes S mem o) {next : Pc A P S.len} {next' : C.Pc S.len}
    (agrees : PcAgrees (start mem) mem.nodes next next') : Moved S mem pc' (mem, next) (o, next') :=
  ⟨realizes, agrees, rfl, .inl rfl⟩

theorem rel_map {α γ δ : Type} {R : γ → δ → Prop} {f : α → γ} {g : α → δ} (each : ∀ x, R (f x) (g x))
    (x : Option α) : Option.Rel R (x.map f) (x.map g) := by
  cases x with
  | none => exact .none
  | some x => exact .some (each x)

theorem Realizes.get (realizes : Realizes S mem o) {off : UInt64} {i : Nat} (here : AtPage (start mem) off i)
    (below : i < S.pages) (room : (mem.entries (firstPage mem + i)).toNat + 4 < 2 ^ 64) :
    Realizes S { mem with entries := mem.table.getUxpteAt off mem.entries }
      { o with region := o.region.getUxpteAt i } :=
  { realizes with
    layout := realizes.layout.congr rfl rfl
    words := realizes.words.get realizes.layout here below room }

theorem Realizes.put (realizes : Realizes S mem o) {off : UInt64} {i : Nat} (here : AtPage (start mem) off i)
    (below : i < S.pages) (room : (mem.entries (firstPage mem + i)).toNat + 4 < 2 ^ 64)
    (pinned : 0 < o.region.refcnt i) :
    Realizes S { mem with entries := mem.table.putUxpteAt off mem.entries }
      { o with region := o.region.putUxpteAt i } :=
  { realizes with
    layout := realizes.layout.congr rfl rfl
    words := realizes.words.put realizes.layout here below room pinned }

theorem Realizes.memset_eq (realizes : Realizes S mem o) :
    memsetSucceeds (UxPageTable.roundUp mem.obj.dataSizeInput pageBytes).toNat mem.obj.dataSizeInput.toNat
      = memsetSucceeds (MemoryUtils.roundUp S.len pageSize) S.len := by
  rw [realizes.layout.roundUp_size, realizes.layout.size_toNat]

variable [DecidableEq T] [DecidableEq A] {t : T}

theorem step_agrees (realizes : Realizes S mem o) (agrees : PcAgrees (start mem) mem.nodes pc pc')
    (room : ∀ p < S.pages, (mem.entries (firstPage mem + p)).toNat + 4 < 2 ^ 64)
    (pins : ∀ p < S.pages, pinned pc' p = true → 0 < o.region.refcnt p) (answered : answers pc (.step) = true) :
    Option.Rel (Moved S mem pc') (threadStep S.supportUxpt mem t pc .step) (C.threadStep S t o pc' .step) := by
  have layout := realizes.layout
  cases agrees with
  | @uxpteGet m off i here =>
    show Option.Rel _ (ite _ _ _) (ite _ _ _)
    by_cases below : i < S.pages
    · rw [if_pos ((layout.lt_end_iff here).mpr below), if_pos below]
      exact .some ⟨realizes.get here below (room i below), .uxpteGet m (layout.next here below), rfl, .inl rfl⟩
    · rw [if_neg (mt (layout.lt_end_iff here).mp below), if_neg below]
      exact .some (realizes.stays (agrees_firstLock m))
  | rdlock =>
    show Option.Rel _ (Option.map _ _) (Option.map _ _)
    rw [realizes.rwlock]
    exact rel_map (fun l => ⟨realizes.withLock l, .isPurged .tryRead, rfl, .inl rfl⟩) _
  | isPurged k => exact .some (realizes.stays (realizes.agrees_checkPresent _ k))
  | @isPresent k off i here =>
    show Option.Rel _ (ite _ _ _) (ite _ _ _)
    by_cases below : i < S.pages
    · rw [if_pos ((layout.lt_end_iff here).mpr below), if_pos below, realizes.words.present layout here below]
      refine .some (realizes.stays ?_)
      split
      · exact .isPresent k (layout.next here below)
      · exact agrees_purged k
    · rw [if_neg (mt (layout.lt_end_iff here).mp below), if_neg below]
      exact .some (realizes.stays (agrees_notPurged k))
  | rdUnlock =>
    refine .some ⟨?_, .wrlock .read, rfl, .inl rfl⟩
    rw [realizes.rwlock]
    exact realizes.withLock _
  | wrlock m =>
    show Option.Rel _ (Option.map _ _) (Option.map _ _)
    rw [realizes.rwlock]
    exact rel_map (fun l => ⟨realizes.withLock l, .isPurged (checkAfter m), rfl, .inl rfl⟩) _
  | clear m =>
    show Option.Rel _ (ite _ _ _) (ite _ _ _)
    rw [realizes.memset_eq]
    split
    · exact .some ⟨realizes.cleared, .buildAll m realizes.builders, rfl, .inl rfl⟩
    · exact .some (realizes.stays (.wrUnlock m false))
  | @buildAll m builder rest walk =>
    cases builder with
    | none =>
      obtain rfl := walk.eq_nil
      exact .some (realizes.stays (.wrUnlock m false))
    | some a =>
      -- Every node has its function, so there is a builder to call.
      obtain ⟨node, b, rest, cell, builds, rfl, -⟩ := walk.head
      obtain ⟨build, present, -⟩ := Option.map_eq_some_iff.mp builds
      have stuck : threadStep S.supportUxpt mem t (.buildAll m (some a)) .step = none := by
        simp [threadStep, cell, present]
      rw [stuck]
      exact .none
  | built m =>
    exact .some ⟨realizes.counted false, agrees_afterBuild m, rfl, .inl rfl⟩
  | wrUnlock m ret =>
    refine .some ⟨?_, ?_, rfl, .inl rfl⟩
    · rw [realizes.rwlock]
      exact realizes.withLock _
    · unfold afterUnlock C.afterUnlock
      split
      · exact .rdlock
      · exact .uxptePut (some m) (atStart _)
  | @uxptePut r off i here =>
    show Option.Rel _ (ite _ _ _) (ite _ _ _)
    by_cases below : i < S.pages
    · have pinned := pins i below (by simp [pinned])
      rw [if_pos ((layout.lt_end_iff here).mpr below), if_pos below]
      exact .some ⟨realizes.put here below (room i below) pinned, .uxptePut r (layout.next here below), rfl, .inl rfl⟩
    · rw [if_neg (mt (layout.lt_end_iff here).mp below), if_neg below]
      exact .some (realizes.stays (agrees_afterPut r))
  | endUnlock m =>
    refine .some ⟨?_, .uxptePut none (atStart _), rfl, .inl rfl⟩
    rw [realizes.rwlock]
    exact realizes.withLock _
  | logging func funcPara => exact absurd answered Bool.false_ne_true
  | _ => exact .none

theorem lockFail_agrees (realizes : Realizes S mem o) (agrees : PcAgrees (start mem) mem.nodes pc pc') :
    Option.Rel (Moved S mem pc') (threadStep S.supportUxpt mem t pc .lockFail) (C.threadStep S t o pc' .lockFail) := by
  cases agrees with
  | rdlock | rdUnlock => exact .some (realizes.stays (.uxptePut (some .read) (atStart _)))
  | wrlock m => exact .some (realizes.stays (.uxptePut (some m) (atStart _)))
  | wrUnlock m ret => exact .some (realizes.stays (.uxptePut (some m) (atStart _)))
  | endUnlock m => exact .some (realizes.stays (.uxptePut none (atStart _)))
  | @buildAll m builder rest walk => cases builder <;> cases rest <;> exact .none
  | _ => exact .none

/-- The node that a rebuild has come to is allocated, and it has the next builder of the list. -/
theorem call_agrees (realizes : Realizes S mem o) (agrees : PcAgrees (start mem) mem.nodes pc pc')
    (mid : Content S.len) (touched : Nat → Bool) :
    Option.Rel (Moved S mem pc') (threadStep S.supportUxpt mem t pc (.call mid touched))
      (C.threadStep S t o pc' (.call mid touched)) := by
  cases agrees with
  | @buildAll m builder rest walk =>
    cases builder with
    | none =>
      obtain rfl := walk.eq_nil
      exact .none
    | some a =>
      obtain ⟨node, b, rest, cell, builds, rfl, later⟩ := walk.head
      obtain ⟨build, present, -⟩ := Option.map_eq_some_iff.mp builds
      have called : threadStep S.supportUxpt mem t (.buildAll m (some a)) (.call mid touched)
          = some ({ touch mem touched with content := mid }, .building m a mem.content mid) := by
        simp [threadStep, cell, present]
      rw [called, realizes.content]
      exact .some ⟨(realizes.touched touched).withContent mid, .building m _ _ cell builds later, rfl, .inl rfl⟩
  | _ => exact .none

theorem ret_agrees (realizes : Realizes S mem o) (agrees : PcAgrees (start mem) mem.nodes pc pc')
    (c : Content S.len) (ok : Bool) :
    Option.Rel (Moved S mem pc') (threadStep S.supportUxpt mem t pc (.ret c ok))
      (C.threadStep S t o pc' (.ret c ok)) := by
  cases agrees with
  | @building m a node b rest old mid cell builds walk =>
    have returned : threadStep S.supportUxpt mem t (.building m a old mid) (.ret c ok)
        = some ({ mem with content := c }, afterBuilder m node.next ok) := by
      simp [threadStep, cell]
    have after := realizes.withContent c
    rw [returned]
    exact .some ⟨⟨after.layout, after.content, after.words, after.builders, after.count, after.rwlock⟩,
      agrees_afterBuilder m ok walk, rfl, .inl rfl⟩
  | modifying func funcPara old mid =>
    exact .some ⟨realizes.withContent c, agrees_afterModifier func funcPara ok, rfl, .inl rfl⟩
  | @buildAll m builder rest walk => cases builder <;> cases rest <;> exact .none
  | _ => exact .none

theorem malloc_agrees (realizes : Realizes S mem o) (agrees : PcAgrees (start mem) mem.nodes pc pc')
    (valid : o.builder ≠ []) {fuel : Nat} {node : Option A} (answered : answers pc (.malloc fuel node) = true)
    (grants : ∀ x, node = some x → Grants mem fuel x) :
    Option.Rel (Moved S mem pc') (threadStep S.supportUxpt mem t pc (.malloc fuel node))
      (C.threadStep S t o pc' (Choice.malloc (P := P) fuel node).plain) := by
  cases agrees with
  | logging func funcPara =>
    cases node with
    | none => exact .some (realizes.stays (.inside .write))
    | some x =>
      obtain ⟨h, logged, longer⟩ := realizes.logged valid (grants x rfl) func funcPara
      have stepped : threadStep S.supportUxpt mem t (.logging func funcPara) (.malloc fuel (some x))
          = some ({ mem with nodes := h }, .inside .write) := by
        simp [threadStep, logged]
      rw [stepped]
      exact .some ⟨longer, .inside .write, rfl, .inr rfl⟩
  | _ => exact absurd answered Bool.false_ne_true

theorem threadStep_agrees (realizes : Realizes S mem o) (agrees : PcAgrees (start mem) mem.nodes pc pc')
    (valid : o.builder ≠ []) (room : ∀ p < S.pages, (mem.entries (firstPage mem + p)).toNat + 4 < 2 ^ 64)
    (pins : ∀ p < S.pages, pinned pc' p = true → 0 < o.region.refcnt p) {c : Choice A P S.len}
    (answered : answers pc c = true) (grants : ∀ fuel x, c = .malloc fuel (some x) → Grants mem fuel x) :
    Option.Rel (Moved S mem pc') (threadStep S.supportUxpt mem t pc c) (C.threadStep S t o pc' c.plain) := by
  cases c with
  | step => exact step_agrees realizes agrees room pins answered
  | lockFail => exact lockFail_agrees realizes agrees
  | malloc fuel node =>
    refine malloc_agrees realizes agrees valid answered fun x given => grants fuel x ?_
    rw [given]
  | beginAccess m =>
    cases agrees with
    | idle | failed m' => exact .some (realizes.stays (realizes.agrees_enter _ m))
    | @buildAll m builder rest walk => cases builder <;> cases rest <;> exact .none
    | _ => exact .none
  | endAccess =>
    cases agrees with
    | inside m => exact .some (realizes.stays (realizes.agrees_leave _ m))
    | @buildAll m builder rest walk => cases builder <;> cases rest <;> exact .none
    | _ => exact .none
  | touch p =>
    cases agrees with
    | inside m =>
      show Option.Rel _ (ite _ _ _) (ite _ _ _)
      rw [realizes.layout.pageCount_eq]
      split
      · exact .some ⟨realizes.touched (· == p), .inside m, rfl, .inl rfl⟩
      · exact .none
    | @buildAll m builder rest walk => cases builder <;> cases rest <;> exact .none
    | _ => exact .none
  | append func funcPara mid touched =>
    cases agrees with
    | inside m =>
      cases m with
      | read => exact .none
      | write =>
        have before := realizes.content
        refine .some ⟨(realizes.touched touched).withContent mid, ?_, rfl, .inl rfl⟩
        rw [before]
        exact .modifying func funcPara _ mid
    | @buildAll m builder rest walk => cases builder <;> cases rest <;> exact .none
    | _ => exact .none
  | call mid touched => exact call_agrees realizes agrees mid touched
  | ret c ok => exact ret_agrees realizes agrees c ok

end Statement

/-! ### Steps and runs of any number of threads -/

structure StateRealizes (S : Setup) (s : State T A P S.len) (s' : C.State T S.len) : Prop where
  object : Realizes S s.mem s'.obj
  points : ∀ t, PcAgrees (start s.mem) s.mem.nodes (s.pc t) (s'.pc t)

section Runs

variable [DecidableEq T]

theorem reach_lockBacks {ok : C.State T S.len → C.Action T S.len → Prop} {s : C.State T S.len}
    (reach : (C.accesses S).Reach ok s) : LockBacks s := by
  induction reach with
  | init created => exact created_lockBacks created
  | step before _ stepped ih => exact step_lockBacks (reach_valid before) ih stepped

theorem other_unlocked {s : C.State T S.len} (backs : LockBacks s) {t u : T} (other : u ≠ t)
    (writing : lockMode (s.pc t) = some .write) : lockMode (s.pc u) ≠ some .write := by
  intro believed
  exact other (backs.only_writer (backs.writer writing) believed).1

variable [DecidableEq A] [Fintype T]

theorem step_realizes (few : Fintype.card T < 2 ^ 62) {s : State T A P S.len} {s' : C.State T S.len}
    {a : Action T A P S.len} (reach : (C.accesses S).Reach (fun _ _ => True) s') (realizes : StateRealizes S s s')
    (allocates : Allocates s a) :
    Option.Rel (StateRealizes S) ((accesses S).step s a) ((C.accesses S).step s' a.plain) := by
  have valid := reach_valid reach
  have balanced := reach_pinsBalanced reach
  have object := realizes.object
  cases a with
  | thread t c =>
    have room : ∀ p < S.pages, (s.mem.entries (firstPage s.mem + p)).toNat + 4 < 2 ^ 64 := by
      intro p below
      refine object.words.room below few ?_
      rw [balanced p below, sum_pin]
      exact_mod_cast Finset.card_le_univ _
    have moved := threadStep_agrees (t := t) object (realizes.points t) valid room
      (fun p below got => balanced.pos below got) allocates.1 allocates.2
    show Option.Rel _ (Option.map _ _) (Option.map _ _)
    generalize threadStep S.supportUxpt s.mem t (s.pc t) c = x at moved
    generalize C.threadStep S t s'.obj (s'.pc t) c.plain = y at moved
    cases moved with
    | none => exact .none
    | some moved =>
      refine .some ⟨moved.realizes, fun u => ?_⟩
      rw [moved.start]
      by_cases own : u = t
      · subst own
        simpa using moved.agrees
      · simp only [Function.update_of_ne own]
        rcases moved.nodes with same | writing
        · rw [same]
          exact realizes.points u
        · exact (realizes.points u).other_nodes (other_unlocked (reach_lockBacks reach) own writing)
  | reclaim p =>
    have enabled_iff := object.reclaim_iff p
    show Option.Rel _ (Option.map _ (ite _ _ _)) (ite _ _ _)
    by_cases enabled : p < S.pages ∧ s'.obj.region.refcnt p = 0
    · rw [if_pos (enabled_iff.mpr enabled), if_pos enabled]
      exact .some ⟨object.reclaimed enabled.1 (enabled_iff.mpr enabled).2.2, realizes.points⟩
    · rw [if_neg (mt enabled_iff.mp enabled), if_neg enabled]
      exact .none

/-- A step of the code from a state that pictures a reachable one. -/
theorem step_related (few : Fintype.card T < 2 ^ 62) {s : State T A P S.len} {s' : C.State T S.len}
    {a : Action T A P S.len} (related : (C.accesses S).Reach (fun _ _ => True) s' ∧ StateRealizes S s s')
    (allocates : Allocates s a) :
    Option.Rel (fun s s' => (C.accesses S).Reach (fun _ _ => True) s' ∧ StateRealizes S s s')
      ((accesses S).step s a) ((C.accesses S).step s' a.plain) := by
  obtain ⟨reach, realizes⟩ := related
  have stepped := step_realizes few reach realizes allocates
  have reaches : ∀ next, (C.accesses S).step s' a.plain = some next →
      (C.accesses S).Reach (fun _ _ => True) next := fun next taken => .step reach trivial taken
  generalize (accesses S).step s a = x at stepped
  generalize (C.accesses S).step s' a.plain = y at stepped reaches
  cases stepped with
  | none => exact .none
  | some stepped => exact .some ⟨reaches _ rfl, stepped⟩

/-- From related states on, the code and the protocol run alike. -/
theorem run_realizes (few : Fintype.card T < 2 ^ 62) {s : State T A P S.len} {s' : C.State T S.len}
    {actions : List (Action T A P S.len)} (reach : (C.accesses S).Reach (fun _ _ => True) s')
    (realizes : StateRealizes S s s') (along : (accesses S).Along Allocates s actions) :
    Option.Rel (StateRealizes S) ((accesses S).run s actions) ((C.accesses S).run s' (actions.map Action.plain)) := by
  have both := System.run_rel (fun _ _ _ => step_related few) ⟨reach, realizes⟩ along
  generalize (accesses S).run s actions = x at both
  generalize (C.accesses S).run s' (actions.map Action.plain) = y at both
  cases both with
  | none => exact .none
  | some both => exact .some both.2

end Runs

/-! ### The first state -/

section Creation

open Lifecycle

variable {supportUxpt : Bool} {fuel : Nat} {w w' : World A P n} {out : CreateOutcomes A} {len : UInt64}

/-- The fields that `PurgMemCreate_` sets, apart from the table. -/
structure Fields (len : UInt64) (o : Lifecycle.PurgMem A) : Prop where
  dataPtr : ∃ mapping : Mapping, o.dataPtr = some mapping.addr
  size : o.dataSizeInput = len
  count : o.buildDataCount = 0

theorem initTable_obj {mapped : Bool} {entries : Entries} {addr size : UInt64} {err : UxPageTable.PMState}
    (inited : initTable supportUxpt fuel mapped entries addr size w = some (w', err)) : w'.obj = w.obj := by
  unfold initTable at inited
  simp only [Option.bind_eq_bind, Option.bind_eq_some_iff] at inited
  obtain ⟨upt, -, ⟨err', upt', e⟩, -, same⟩ := inited
  cases same
  rfl

theorem createObject_fields (returned : purgMemCreate_ supportUxpt fuel len none out w = some (w', true)) :
    ∃ o, w'.obj = some o ∧ Fields len o := by
  unfold purgMemCreate_ at returned
  split at returned
  · simp at returned
  · split at returned
    · simp at returned
    · rename_i mapping _
      split at returned
      · simp at returned
      · simp only [Option.bind_eq_bind, Option.bind_eq_some_iff] at returned
        obtain ⟨⟨w₁, err⟩, inited, returned⟩ := returned
        have kept := initTable_obj inited
        split at returned
        · simp at returned
        · split at returned
          · simp at returned
          · simp only [Option.some.injEq, Prod.mk.injEq, and_true] at returned
            subst returned
            exact ⟨_, congrArg (Option.map _) kept, ⟨mapping, rfl⟩, rfl, rfl⟩

theorem appendModify_fields [DecidableEq A] {func : P → Builder} {funcPara : P} {malloc : Option A} {ret : Bool}
    {o : Lifecycle.PurgMem A} (held : w.obj = some o)
    (returned : appendModify fuel func funcPara malloc w = some (w', ret)) :
    ∃ builder, w'.obj = some { o with builder := builder } := by
  unfold appendModify at returned
  rw [held] at returned
  simp only [Option.bind_eq_bind, Option.bind_some] at returned
  split at returned
  · cases returned
  · simp only [Option.bind_eq_some_iff] at returned
    obtain ⟨⟨nodes, modified, ok⟩, -, modified', -, same⟩ := returned
    cases same
    exact ⟨_, congrArg (Option.map _) held⟩

theorem purgMemCreate_fields [DecidableEq A] {func : Option (P → Builder)} {funcPara : P}
    (returned : purgMemCreate supportUxpt fuel len func funcPara out w = some (w', true)) :
    ∃ o, w'.obj = some o ∧ Fields len o := by
  unfold purgMemCreate at returned
  split at returned
  · simp at returned
  · split at returned
    · simp at returned
    · simp only [Option.bind_eq_bind, Option.bind_eq_some_iff] at returned
      obtain ⟨⟨w₁, created⟩, first, returned⟩ := returned
      split at returned
      · simp at returned
      · rename_i fine
        obtain rfl : created = true := by simpa using fine
        obtain ⟨o, held, fields⟩ := createObject_fields first
        simp only [Option.bind_eq_some_iff] at returned
        obtain ⟨⟨w₂, appended⟩, second, returned⟩ := returned
        split at returned
        · obtain ⟨builder, changed⟩ := appendModify_fields held second
          simp only [Option.some.injEq, Prod.mk.injEq, and_true] at returned
          subst returned
          exact ⟨_, changed, fields.dataPtr, fields.size, fields.count⟩
        · simp [Option.bind_eq_some_iff] at returned

end Creation

/-- The protocol's picture of an object that was just created. -/
def pictured (S : Setup) (mem : Memory T A P S.len) (b : Builder) : C.State T S.len where
  obj :=
    { region :=
        { content := mem.content
          entries := fun p => { present := isUxptePresent (mem.entries (firstPage mem + p)) } }
      builder := [b] }
  pc _ := .idle

theorem returned_realizes [DecidableEq A] {s : State T A P S.len} (returned : Returned S s) :
    ∃ s', Created S s' ∧ StateRealizes S s s' := by
  obtain ⟨⟨before, after, func, funcPara, out, fuel, nothing, unused, enough, created, by_⟩, idle⟩ := returned
  obtain ⟨w, ret, result, -, resumable⟩ :=
    Lifecycle.purgMemCreate_of_nothing nothing enough (UInt64.ofNat S.len) func funcPara out unused
  obtain ⟨rfl, rfl⟩ := Prod.mk.inj (Option.some.inj (result.symm.trans created))
  obtain ⟨o, x, f, resumable, -⟩ := resumable rfl
  obtain rfl := Option.some.inj (resumable.obj.symm.trans by_.obj)
  obtain ⟨o, held, ⟨mapping, pointer⟩, size, count⟩ := purgMemCreate_fields created
  obtain rfl := Option.some.inj (held.symm.trans by_.obj)
  have start : addr s.mem = mapping.addr := by rw [addr, pointer, Option.getD_some]
  have set : S.supportUxpt = true →
      SetUp s.mem.table (addr s.mem) (UxPageTable.roundUp (UInt64.ofNat S.len) pageBytes) := by
    intro supported
    obtain ⟨cleared, inited, -⟩ := by_.entries supported
    rw [size] at inited
    refine ⟨start ▸ mapping.aligned, ?_, _, _, _, _, _, inited⟩
    rw [roundUp_len, roundUp_page S.len_fits]
    exact Nat.mul_mod_left _ _
  have layout : Layout S s.mem := by
    refine ⟨by rw [pointer]; rfl, ?_, size, fun supported => ?_⟩
    · rw [← resumable.table, by_.table]
      rfl
    · obtain ⟨ready, sameAddr, sameSize⟩ := (set supported).ready
      exact ⟨⟨ready, by rw [sameSize, roundUp_len]⟩, sameAddr⟩
  refine ⟨pictured S s.mem (f funcPara), ?_, ⟨layout, rfl, ?_, ?_, ?_, by_.rwlock⟩, fun t => ?_⟩
  · exact ⟨⟨_, rfl⟩, rfl, rfl, rfl, fun _ => rfl, fun _ => rfl⟩
  · intro p below
    unfold Setup.pages at below
    split at below
    · rename_i supported
      obtain ⟨cleared, inited, since⟩ := by_.entries supported
      rw [size] at inited
      have zero : cleared (firstPage s.mem + p) = 0 := by
        refine init_clears (set supported) enough inited ?_
        rw [roundUp_len, ← pageSize_eq]
        exact below
      have word := since (firstPage s.mem + p)
      rw [zero] at word
      refine ⟨?_, ?_, rfl⟩
      · rcases word with same | same <;> rw [same] <;> decide
      · show ((refcnt (s.mem.entries (firstPage s.mem + p)) : Nat) : Int) = 0
        rcases word with same | same <;> rw [same] <;> decide
    · omega
  · have chain := resumable.chain
    rw [by_.nodes] at chain
    exact ⟨_, chain, rfl⟩
  · rw [count]
    rfl
  · rw [idle]
    exact .idle

/-- Whatever any number of threads do with an object that `PurgMemCreate` returned, and whatever pages the
kernel takes: on addresses, words and links the access functions take the steps of the protocol, one by
one, follow no node that is not allocated, and leave what the protocol says. -/
theorem code_runs_as_protocol [DecidableEq T] [DecidableEq A] [Fintype T] (few : Fintype.card T < 2 ^ 62)
    {s : State T A P S.len} (returned : (accesses S).init s) {actions : List (Action T A P S.len)}
    (along : (accesses S).Along Allocates s actions) :
    ∃ s', Created S s' ∧ Option.Rel (StateRealizes S) ((accesses S).run s actions)
      ((C.accesses S).run s' (actions.map Action.plain)) := by
  obtain ⟨s', created, realizes⟩ := returned_realizes returned
  exact ⟨s', created, run_realizes few (.init created) realizes along⟩

def byteMemory : Memory Bool Nat Unit oneByte.len where
  obj := ⟨some 4096, 1, some 0, true, 0⟩
  rwlock := {}
  table := ⟨4096, 4096, some 0⟩
  entries _ := 0
  nodes := Function.update (fun _ => none) 0 (some ⟨none, ⟨some fun _ => fill 7, ()⟩⟩)
  content := zeros

def byteWorld : Lifecycle.World Nat Unit oneByte.len := ⟨none, none, none, none, fun _ => none, zeros⟩

def freshByte : State Bool Nat Unit oneByte.len := ⟨byteMemory, fun _ => .idle⟩

/-- A write access that has to build the byte, changes it and logs the change, with a reader coming too
early. -/
def writeAndLog : List (Action Bool Nat Unit oneByte.len) :=
  [.thread true (.beginAccess .write), .thread true .step, .thread true .step, .thread true .step,
    .thread false (.beginAccess .read), .thread false .step, .thread false .step,
    .thread true .step, .thread true .step, .thread true (.call zeros fun _ => true),
    .thread true (.ret (fun _ => 7) true), .thread true .step,
    .thread true (.append (fun _ => fill 9) () (fun _ => 7) fun _ => false),
    .thread true (.ret (fun _ => 9) true), .thread true (.malloc 1 (some 1)), .thread true .endAccess,
    .thread true .step, .thread true .step, .thread true .step]

theorem freshByte_returned : (accesses oneByte).init freshByte := by
  refine ⟨⟨byteWorld, ⟨some byteMemory.obj, some byteMemory.table, some 4096, some 4096, byteMemory.nodes, fun _ => 7⟩,
    some fun _ => fill 7, (), Lifecycle.allSucceed, 2 ^ 52 + 1, ⟨rfl, rfl, rfl, rfl⟩, fun _ _ => rfl, by decide, rfl,
    rfl, rfl, rfl, rfl, fun _ => ⟨_, rfl, fun i => .inl ?_⟩⟩, fun _ => rfl⟩
  by_cases here : i = 1
  · subst here
    rfl
  · show (0 : UInt64) = Function.update (fun _ : Nat => (0 : UInt64)) 1 0 i
    rw [Function.update_of_ne here]

theorem written_byte_runs_as_protocol :
    ∃ s' t t', Created oneByte s' ∧ (accesses oneByte).run freshByte writeAndLog = some t ∧
      (C.accesses oneByte).run s' (writeAndLog.map Action.plain) = some t' ∧ StateRealizes oneByte t t' ∧
      t'.obj.region.content ⟨0, by decide⟩ = 9 := by
  have along : (accesses oneByte).Along Allocates freshByte writeAndLog :=
    System.along_of_checks allocates_sound (by decide)
  obtain ⟨s', created, alike⟩ := code_runs_as_protocol (by decide) freshByte_returned along
  have byte : ((accesses oneByte).run freshByte writeAndLog).map (·.mem.content ⟨0, by decide⟩) = some 9 := by decide
  obtain ⟨t, ran, nine⟩ := Option.map_eq_some_iff.mp byte
  rw [ran] at alike
  generalize protocol : (C.accesses oneByte).run s' (writeAndLog.map Action.plain) = next at alike
  cases alike with
  | @some _ t' realizes =>
    refine ⟨s', t, t', created, ran, protocol, realizes, ?_⟩
    rw [← realizes.object.content]
    exact nine

end MemoryUtils.C.Code
