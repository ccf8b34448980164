import MemoryUtils.Common.Region
import MemoryUtils.Lib.System
import MemoryUtils.Lib.RwLock

/-!
The access protocol of the C interface as a transition system: any number of threads run
`PurgMemBeginRead`, `PurgMemBeginWrite`, `PurgMemAppendModify` and the two End functions on one
`PurgMem`, one statement at a time, and the kernel reclaims unpinned pages in between.
-/

namespace MemoryUtils.C
open Lib

structure PurgMem (T : Type) (n : Nat) where
  region : Region n
  builder : List Builder
  buildDataCount : Nat := 0
  rwlock : RwLock T := {}
  /-- Ghost: the last rebuild stopped at a builder that failed. -/
  rebuildFailed : Bool := false

inductive Check where
  | tryRead | buildRead | write
  deriving DecidableEq

/-- Where a thread is. The loops over pages and over the builder chain carry their position, and
a call of a user function carries the content it was given and what it has written so far. -/
inductive Pc (n : Nat) where
  | idle
  | failed (m : Mode)
  | uxpteGet (m : Mode) (i : Nat)
  | rdlock
  | isPurged (k : Check)
  | isPresent (k : Check) (i : Nat)
  | rdUnlock
  | wrlock (m : Mode)
  | clear (m : Mode)
  | buildAll (m : Mode) (rest : List Builder)
  | building (m : Mode) (b : Builder) (rest : List Builder) (old mid : Content n)
  | built (m : Mode)
  | wrUnlock (m : Mode) (rebuildRet : Bool)
  | uxptePut (failed : Option Mode) (i : Nat)
  | inside (m : Mode)
  | modifying (b : Builder) (old mid : Content n)
  | logging (b : Builder)
  | endUnlock (m : Mode)

/-- What the environment decides: the next call of the thread, the result of a pthread or
allocator call, and what a user function does. -/
inductive Choice (n : Nat) where
  | step
  | lockFail
  | allocFail
  | beginAccess (m : Mode)
  | endAccess
  | touch (p : Nat)
  | append (b : Builder) (mid : Content n) (touched : Nat → Bool)
  | call (mid : Content n) (touched : Nat → Bool)
  | ret (c : Content n) (ok : Bool)

inductive Action (T : Type) (n : Nat) where
  | thread (t : T) (c : Choice n)
  | reclaim (p : Nat)

structure State (T : Type) (n : Nat) where
  obj : PurgMem T n
  pc : T → Pc n

variable {T : Type}

/-- `IsPurgMemPtrValid`. The data and page table pointers of an object that is not being
destroyed are set; the builder is null when the chain is empty. -/
def isPurgMemPtrValid {n : Nat} (o : PurgMem T n) : Bool := !o.builder.isEmpty

def enter {n : Nat} (o : PurgMem T n) (m : Mode) : Pc n :=
  if isPurgMemPtrValid o then .uxpteGet m 0 else .failed m

/-- `EndAccessPurgMem` up to its unlock. -/
def leave {n : Nat} (o : PurgMem T n) (m : Mode) : Pc n :=
  if isPurgMemPtrValid o then .endUnlock m else .idle

def firstLock {n : Nat} : Mode → Pc n
  | .read => .rdlock
  | .write => .wrlock .write

def checkAfter : Mode → Check
  | .read => .buildRead
  | .write => .write

def purged {n : Nat} : Check → Pc n
  | .tryRead => .rdUnlock
  | .buildRead => .clear .read
  | .write => .clear .write

/-- `IsPurged` returned false. In `BeginReadBuildData` the variable `rebuildRet` keeps its initial
value. -/
def notPurged {n : Nat} : Check → Pc n
  | .tryRead => .inside .read
  | .buildRead => .wrUnlock .read false
  | .write => .inside .write

def afterBuild {n : Nat} : Mode → Pc n
  | .read => .wrUnlock .read true
  | .write => .inside .write

/-- After the write lock is dropped only a reader that rebuilt the content goes on. -/
def afterUnlock {n : Nat} (m : Mode) (rebuildRet : Bool) : Pc n :=
  if m = .read ∧ rebuildRet then .rdlock else .uxptePut (some m) 0

def afterPut {n : Nat} : Option Mode → Pc n
  | some m => .failed m
  | none => .idle

def afterBuilder {n : Nat} (m : Mode) (rest : List Builder) (ok : Bool) : Pc n :=
  if ok then (if rest.isEmpty then .built m else .buildAll m rest) else .wrUnlock m false

/-- `PurgMemAppendModify` after the modifier returned: a success is logged next. -/
def afterModifier {n : Nat} (b : Builder) (ok : Bool) : Pc n :=
  if ok then .logging b else .inside .write

variable (S : Setup)

def isPurged (o : PurgMem T S.len) : Bool :=
  o.buildDataCount == 0 || !decide (∀ p < S.pages, o.region.present p = true)

def setContent {n : Nat} (o : PurgMem T n) (c : Content n) : PurgMem T n :=
  { o with region := { o.region with content := c } }

def startCall {n : Nat} (o : PurgMem T n) (mid : Content n) (touched : Nat → Bool) : PurgMem T n :=
  setContent { o with region := o.region.touch touched } mid

variable [DecidableEq T]

/-- One statement of thread `t`. A lock call that has to wait takes no step. -/
def threadStep (t : T) (o : PurgMem T S.len) :
    Pc S.len → Choice S.len → Option (PurgMem T S.len × Pc S.len)
  | .idle, .beginAccess m => some (o, enter o m)
  | .failed _, .beginAccess m => some (o, enter o m)
  | .uxpteGet m i, .step =>
    if i < S.pages then some ({ o with region := o.region.getUxpteAt i }, .uxpteGet m (i + 1))
    else some (o, firstLock m)
  | .rdlock, .step => (o.rwlock.rdlock t).map fun l => ({ o with rwlock := l }, .isPurged .tryRead)
  | .rdlock, .lockFail => some (o, .uxptePut (some .read) 0)
  | .isPurged k, .step => some (o, if o.buildDataCount = 0 then purged k else .isPresent k 0)
  | .isPresent k i, .step =>
    if i < S.pages then some (o, if o.region.present i then .isPresent k (i + 1) else purged k)
    else some (o, notPurged k)
  | .rdUnlock, .step => some ({ o with rwlock := o.rwlock.unlock t }, .wrlock .read)
  | .rdUnlock, .lockFail => some (o, .uxptePut (some .read) 0)
  | .wrlock m, .step =>
    (o.rwlock.wrlock t).map fun l => ({ o with rwlock := l }, .isPurged (checkAfter m))
  | .wrlock m, .lockFail => some (o, .uxptePut (some m) 0)
  | .clear m, .step =>
    if memsetSucceeds (roundUp S.len pageSize) S.len then
      some ({ o with region := o.region.clear S.pages }, .buildAll m o.builder)
    else some (o, .wrUnlock m false)
  | .buildAll m [], .step => some (o, .wrUnlock m false)
  | .buildAll m (b :: rest), .call mid touched =>
    some (startCall o mid touched, .building m b rest o.region.content mid)
  | .building m _ rest _ _, .ret c ok =>
    some ({ setContent o c with rebuildFailed := o.rebuildFailed || !ok }, afterBuilder m rest ok)
  | .built m, .step =>
    some ({ o with buildDataCount := (o.buildDataCount + 1) % 2 ^ 32, rebuildFailed := false },
      afterBuild m)
  | .wrUnlock m ret, .step => some ({ o with rwlock := o.rwlock.unlock t }, afterUnlock m ret)
  | .wrUnlock m _, .lockFail => some (o, .uxptePut (some m) 0)
  | .uxptePut r i, .step =>
    if i < S.pages then some ({ o with region := o.region.putUxpteAt i }, .uxptePut r (i + 1))
    else some (o, afterPut r)
  | .inside m, .endAccess => some (o, leave o m)
  | .inside m, .touch p =>
    if p < S.pageCount then some ({ o with region := o.region.touch (· == p) }, .inside m) else none
  | .inside .write, .append b mid touched =>
    some (startCall o mid touched, .modifying b o.region.content mid)
  | .modifying b _ _, .ret c ok => some (setContent o c, afterModifier b ok)
  | .logging b, .step => some ({ o with builder := o.builder ++ [b] }, .inside .write)
  | .logging _, .allocFail => some (o, .inside .write)
  | .endUnlock _, .step => some ({ o with rwlock := o.rwlock.unlock t }, .uxptePut none 0)
  | .endUnlock _, .lockFail => some (o, .uxptePut none 0)
  | _, _ => none

def step (s : State T S.len) : Action T S.len → Option (State T S.len)
  | .thread t c => (threadStep S t s.obj (s.pc t) c).map fun r =>
      { obj := r.1, pc := Function.update s.pc t r.2 }
  | .reclaim p =>
    if p < S.pages ∧ s.obj.region.refcnt p = 0 then
      some { s with obj := { s.obj with region := s.obj.region.reclaim p } }
    else none

/-- An object as `PurgMemCreate` returns it: one builder, nothing built, nothing pinned. The
content and the present bits are whatever the creation modifier and the kernel left. -/
def Created (s : State T S.len) : Prop :=
  (∃ b, s.obj.builder = [b]) ∧ s.obj.buildDataCount = 0 ∧ s.obj.rwlock = {} ∧
  s.obj.rebuildFailed = false ∧ (∀ p, s.obj.region.refcnt p = 0) ∧ ∀ t, s.pc t = .idle

def accesses : System (State T S.len) (Action T S.len) where
  init := Created S
  step := step S

/-! ### What a step can do -/

inductive Next (t : T) (o : PurgMem T S.len) :
    Pc S.len → Choice S.len → PurgMem T S.len → Pc S.len → Prop where
  | beginIdle (m : Mode) : Next t o .idle (.beginAccess m) o (enter o m)
  | beginFailed (m' m : Mode) : Next t o (.failed m') (.beginAccess m) o (enter o m)
  | get (m : Mode) (i : Nat) (below : i < S.pages) :
      Next t o (.uxpteGet m i) .step { o with region := o.region.getUxpteAt i } (.uxpteGet m (i + 1))
  | getDone (m : Mode) (i : Nat) (past : ¬ i < S.pages) :
      Next t o (.uxpteGet m i) .step o (firstLock m)
  | rdlock (l : RwLock T) (taken : o.rwlock.rdlock t = some l) :
      Next t o .rdlock .step { o with rwlock := l } (.isPurged .tryRead)
  | rdlockFail : Next t o .rdlock .lockFail o (.uxptePut (some .read) 0)
  | neverBuilt (k : Check) (zero : o.buildDataCount = 0) :
      Next t o (.isPurged k) .step o (purged k)
  | builtBefore (k : Check) (nonzero : o.buildDataCount ≠ 0) :
      Next t o (.isPurged k) .step o (.isPresent k 0)
  | present (k : Check) (i : Nat) (below : i < S.pages) (here : o.region.present i = true) :
      Next t o (.isPresent k i) .step o (.isPresent k (i + 1))
  | absent (k : Check) (i : Nat) (below : i < S.pages) (gone : o.region.present i = false) :
      Next t o (.isPresent k i) .step o (purged k)
  | allPresent (k : Check) (i : Nat) (past : ¬ i < S.pages) :
      Next t o (.isPresent k i) .step o (notPurged k)
  | rdUnlock : Next t o .rdUnlock .step { o with rwlock := o.rwlock.unlock t } (.wrlock .read)
  | rdUnlockFail : Next t o .rdUnlock .lockFail o (.uxptePut (some .read) 0)
  | wrlock (m : Mode) (l : RwLock T) (taken : o.rwlock.wrlock t = some l) :
      Next t o (.wrlock m) .step { o with rwlock := l } (.isPurged (checkAfter m))
  | wrlockFail (m : Mode) : Next t o (.wrlock m) .lockFail o (.uxptePut (some m) 0)
  | clear (m : Mode) (fits : memsetSucceeds (roundUp S.len pageSize) S.len = true) :
      Next t o (.clear m) .step { o with region := o.region.clear S.pages } (.buildAll m o.builder)
  | clearFail (m : Mode) (large : memsetSucceeds (roundUp S.len pageSize) S.len = false) :
      Next t o (.clear m) .step o (.wrUnlock m false)
  | noBuilder (m : Mode) : Next t o (.buildAll m []) .step o (.wrUnlock m false)
  | call (m : Mode) (b : Builder) (rest : List Builder) (mid : Content S.len) (touched : Nat → Bool) :
      Next t o (.buildAll m (b :: rest)) (.call mid touched) (startCall o mid touched)
        (.building m b rest o.region.content mid)
  | builderReturned (m : Mode) (b : Builder) (rest : List Builder) (old mid c : Content S.len) (ok : Bool) :
      Next t o (.building m b rest old mid) (.ret c ok)
        { setContent o c with rebuildFailed := o.rebuildFailed || !ok } (afterBuilder m rest ok)
  | built (m : Mode) :
      Next t o (.built m) .step
        { o with buildDataCount := (o.buildDataCount + 1) % 2 ^ 32, rebuildFailed := false }
        (afterBuild m)
  | wrUnlock (m : Mode) (ret : Bool) :
      Next t o (.wrUnlock m ret) .step { o with rwlock := o.rwlock.unlock t } (afterUnlock m ret)
  | wrUnlockFail (m : Mode) (ret : Bool) :
      Next t o (.wrUnlock m ret) .lockFail o (.uxptePut (some m) 0)
  | put (r : Option Mode) (i : Nat) (below : i < S.pages) :
      Next t o (.uxptePut r i) .step { o with region := o.region.putUxpteAt i } (.uxptePut r (i + 1))
  | putDone (r : Option Mode) (i : Nat) (past : ¬ i < S.pages) :
      Next t o (.uxptePut r i) .step o (afterPut r)
  | endAccess (m : Mode) : Next t o (.inside m) .endAccess o (leave o m)
  | touch (m : Mode) (p : Nat) (below : p < S.pageCount) :
      Next t o (.inside m) (.touch p) { o with region := o.region.touch (· == p) } (.inside m)
  | append (b : Builder) (mid : Content S.len) (touched : Nat → Bool) :
      Next t o (.inside .write) (.append b mid touched) (startCall o mid touched)
        (.modifying b o.region.content mid)
  | modifierReturned (b : Builder) (old mid c : Content S.len) (ok : Bool) :
      Next t o (.modifying b old mid) (.ret c ok) (setContent o c) (afterModifier b ok)
  | logged (b : Builder) : Next t o (.logging b) .step { o with builder := o.builder ++ [b] } (.inside .write)
  | logFail (b : Builder) : Next t o (.logging b) .allocFail o (.inside .write)
  | endUnlock (m : Mode) :
      Next t o (.endUnlock m) .step { o with rwlock := o.rwlock.unlock t } (.uxptePut none 0)
  | endUnlockFail (m : Mode) : Next t o (.endUnlock m) .lockFail o (.uxptePut none 0)

variable {S}

theorem next_of_threadStep {t : T} {o o' : PurgMem T S.len} {pc pc' : Pc S.len} {c : Choice S.len}
    (h : threadStep S t o pc c = some (o', pc')) : Next S t o pc c o' pc' := by
  unfold threadStep at h
  split at h
  all_goals repeat' split at h
  all_goals
    simp only [Option.some.injEq, Prod.mk.injEq, Option.map_eq_some_iff, reduceCtorEq] at h
  all_goals
    first
      | (obtain ⟨l, taken, rfl, rfl⟩ := h; constructor; exact taken)
      | (obtain ⟨rfl, rfl⟩ := h; constructor <;> simp_all)

theorem step_cases {s s' : State T S.len} {a : Action T S.len} (h : step S s a = some s') :
    (∃ t c o pc, a = .thread t c ∧ Next S t s.obj (s.pc t) c o pc ∧
      s' = { obj := o, pc := Function.update s.pc t pc }) ∨
    (∃ p, a = .reclaim p ∧ p < S.pages ∧ s.obj.region.refcnt p = 0 ∧
      s' = { s with obj := { s.obj with region := s.obj.region.reclaim p } }) := by
  cases a with
  | thread t c =>
    obtain ⟨⟨o, pc⟩, moved, rfl⟩ := Option.map_eq_some_iff.mp h
    exact .inl ⟨t, c, o, pc, rfl, next_of_threadStep moved, rfl⟩
  | reclaim p =>
    simp only [step] at h
    split at h
    · rename_i guard
      exact .inr ⟨p, rfl, guard.1, guard.2, by simpa using h.symm⟩
    · cases h

theorem step_of_threadStep {s : State T S.len} {t : T} {c : Choice S.len} {o : PurgMem T S.len}
    {pc pc' : Pc S.len} (here : s.pc t = pc) (moved : threadStep S t s.obj pc c = some (o, pc')) :
    ∃ s', step S s (.thread t c) = some s' ∧ s'.pc t = pc' ∧ s'.obj = o := by
  refine ⟨{ obj := o, pc := Function.update s.pc t pc' }, ?_, Function.update_self .., rfl⟩
  rw [step, here, moved]
  rfl

theorem next_builder {t : T} {o o' : PurgMem T S.len} {pc pc' : Pc S.len} {c : Choice S.len}
    (h : Next S t o pc c o' pc') : o'.builder = o.builder ∨ ∃ b, o'.builder = o.builder ++ [b] := by
  cases h with
  | logged b => exact .inr ⟨b, rfl⟩
  | _ => exact .inl rfl

theorem step_valid {s s' : State T S.len} {a : Action T S.len} (valid : s.obj.builder ≠ [])
    (h : step S s a = some s') : s'.obj.builder ≠ [] := by
  obtain ⟨t, c, o, pc, rfl, moved, rfl⟩ | ⟨p, rfl, -, -, rfl⟩ := step_cases h
  · obtain same | ⟨b, grown⟩ := next_builder moved
    · exact same ▸ valid
    · simp [grown]
  · exact valid

theorem reach_valid {ok : State T S.len → Action T S.len → Prop} {s : State T S.len}
    (reach : (accesses S).Reach ok s) : s.obj.builder ≠ [] := by
  refine reach.invariant (P := fun s => s.obj.builder ≠ []) ?_ ?_
  · rintro s ⟨⟨b, chain⟩, -⟩
    simp [chain]
  · intro s a s' valid _ stepped
    exact step_valid valid stepped

omit [DecidableEq T] in
theorem leave_valid {o : PurgMem T S.len} {m : Mode} (valid : o.builder ≠ []) :
    leave o m = .endUnlock m := by
  simp [leave, isPurgMemPtrValid, valid]

/-! ### A small object -/

def fresh (T : Type) : State T oneByte.len where
  obj := { region := { content := zeros, entries := fun _ => {} }, builder := [fill 7] }
  pc _ := .idle

/-- The first read of the fresh object: it finds nothing built, rebuilds, and is let in. -/
def firstRead {T : Type} (t : T) : List (Action T oneByte.len) :=
  .thread t (.beginAccess .read) :: List.replicate 8 (.thread t .step) ++
  [.thread t (.call zeros fun _ => false), .thread t (.ret (fun _ => 7) true)] ++
  List.replicate 6 (.thread t .step)

theorem fresh_created (T : Type) : Created oneByte (fresh T) :=
  ⟨⟨_, rfl⟩, rfl, rfl, rfl, fun _ => rfl, fun _ => rfl⟩

end MemoryUtils.C
