import MemoryUtils.C.Locking

/-!
The retry loop of `PurgMemBeginRead`. A reader that finds the content purged drops its read lock,
takes the write lock and checks again. When another thread has rebuilt the content in between,
the second check finds nothing to do, `rebuildRet` keeps its initial value and the call fails.
-/

namespace MemoryUtils.C
open Lib

variable {T : Type} {S : Setup} {n : Nat}

def CallsSucceed (s : State T n) (a : Action T n) : Prop :=
  LocksSucceed s a ∧
  ∀ t m b rest old mid c ok, s.pc t = .building m b rest old mid → a = .thread t (.ret c ok) → ok = true

def ReadersOnly (_ : State T n) (a : Action T n) : Prop := ∀ t, a ≠ .thread t (.beginAccess .write)

/-- The content is still purged when a reader starts its second check, under the write lock. -/
def SecondCheckPurged (S : Setup) (s : State T S.len) (a : Action T S.len) : Prop :=
  ∀ t, s.pc t = .isPurged .buildRead → a = .thread t .step → isPurged S s.obj = true

/-- The program points of calls that are not going to return false. -/
def Hopeful (S : Setup) (o : PurgMem T S.len) : Pc S.len → Prop
  | .failed _ | .uxptePut (some _) _ => False
  | .wrUnlock m ret => m = .read ∧ ret = true
  | .buildAll _ rest => rest ≠ []
  | .isPresent .buildRead i => ∃ p, i ≤ p ∧ p < S.pages ∧ o.region.present p = false
  | _ => True

theorem hopeful_purged (o : PurgMem T S.len) (k : Check) : Hopeful S o (purged k) := by
  cases k <;> trivial

theorem hopeful_firstLock (o : PurgMem T S.len) (m : Mode) : Hopeful S o (firstLock m) := by
  cases m <;> trivial

theorem hopeful_isPresent {o : PurgMem T S.len} (k : Check) (i : Nat)
    (missing : k = .buildRead → ∃ p, i ≤ p ∧ p < S.pages ∧ o.region.present p = false) :
    Hopeful S o (.isPresent k i) := by
  cases k with
  | buildRead => exact missing rfl
  | tryRead | write => trivial

theorem missing_of_isPurged {o : PurgMem T S.len} (purged : isPurged S o = true)
    (nonzero : o.buildDataCount ≠ 0) : ∃ p, 0 ≤ p ∧ p < S.pages ∧ o.region.present p = false := by
  simp only [isPurged, Bool.or_eq_true, beq_iff_eq, nonzero, false_or, Bool.not_eq_true',
    decide_eq_false_iff_not, not_forall] at purged
  obtain ⟨p, below, gone⟩ := purged
  exact ⟨p, Nat.zero_le p, below, by simpa using gone⟩

variable [DecidableEq T]

theorem next_hopeful {t : T} {o o' : PurgMem T S.len} {pc pc' : Pc S.len} {c : Choice S.len}
    (small : memsetSucceeds (roundUp S.len pageSize) S.len = true) (valid : o.builder ≠ [])
    (locks : c ≠ .lockFail)
    (builders : ∀ m b rest old mid content ok, pc = .building m b rest old mid →
      c = .ret content ok → ok = true)
    (second : pc = .isPurged .buildRead → c = .step → isPurged S o = true)
    (here : Hopeful S o pc) (h : Next S t o pc c o' pc') : Hopeful S o' pc' := by
  cases h with
  | beginIdle m | beginFailed m' m =>
    simp [enter, isPurgMemPtrValid, valid, Hopeful]
  | getDone m => exact hopeful_firstLock o m
  | neverBuilt k => exact hopeful_purged o k
  | absent k => exact hopeful_purged o k
  | builtBefore k nonzero =>
    apply hopeful_isPresent
    rintro rfl
    exact missing_of_isPurged (second rfl rfl) nonzero
  | present k i below present =>
    apply hopeful_isPresent
    rintro rfl
    obtain ⟨p, atLeast, inside, gone⟩ := here
    have different : p ≠ i := by
      rintro rfl
      exact Bool.false_ne_true (gone.symm.trans present)
    exact ⟨p, by omega, inside, gone⟩
  | allPresent k i past =>
    cases k with
    | tryRead | write => trivial
    | buildRead =>
      obtain ⟨p, atLeast, inside, -⟩ := here
      exact absurd inside (by omega)
  | clear m => exact valid
  | clearFail m large => exact absurd (small.symm.trans large) (by decide)
  | noBuilder m => exact absurd rfl here
  | builderReturned m b rest old mid content ok =>
    have succeeded := builders m b rest old mid content ok rfl rfl
    subst succeeded
    by_cases last : rest = []
    · simp [afterBuilder, last, Hopeful]
    · simp [afterBuilder, last, Hopeful]
  | built m => cases m <;> simp [afterBuild, Hopeful]
  | wrUnlock m ret =>
    obtain ⟨rfl, rfl⟩ := here
    trivial
  | put r i =>
    cases r with
    | none => trivial
    | some m => exact here.elim
  | putDone r i =>
    cases r with
    | none => trivial
    | some m => exact here.elim
  | endAccess m =>
    rw [leave_valid valid]
    trivial
  | modifierReturned b old mid content ok => cases ok <;> trivial
  | rdlockFail | rdUnlockFail | wrlockFail | wrUnlockFail | endUnlockFail => exact absurd rfl locks
  | wrlock m => cases m <;> trivial
  | _ => trivial

theorem next_present {t : T} {o o' : PurgMem T S.len} {pc pc' : Pc S.len} {c : Choice S.len}
    (unlocked : lockMode pc = none) (h : Next S t o pc c o' pc') (p : Nat) :
    o'.region.present p = o.region.present p := by
  cases h with
  | get m i => exact Region.getUxpteAt_present ..
  | put r i => exact Region.putUxpteAt_present ..
  | touch | clear | call | builderReturned | append | modifierReturned => simp [lockMode] at unlocked
  | _ => rfl

omit [DecidableEq T] in
theorem Hopeful.present {o o' : PurgMem T S.len} {pc : Pc S.len} (h : Hopeful S o pc)
    (same : ∀ p, o.region.present p = false → o'.region.present p = false) : Hopeful S o' pc := by
  cases pc with
  | isPresent k i =>
    apply hopeful_isPresent
    rintro rfl
    obtain ⟨p, atLeast, inside, gone⟩ := h
    exact ⟨p, atLeast, inside, same p gone⟩
  | uxptePut r i => cases r <;> exact h
  | _ => exact h

theorem step_hopeful {s s' : State T S.len} {a : Action T S.len}
    (small : memsetSucceeds (roundUp S.len pageSize) S.len = true) (valid : s.obj.builder ≠ [])
    (agrees : LockAgrees s) (succeed : CallsSucceed s a) (second : SecondCheckPurged S s a)
    (hopeful : ∀ t, Hopeful S s.obj (s.pc t)) (h : step S s a = some s') (t : T) :
    Hopeful S s'.obj (s'.pc t) := by
  obtain ⟨u, c, o, pc, rfl, moved, rfl⟩ | ⟨p, rfl, -, -, rfl⟩ := step_cases h
  · revert t
    apply forall_update (P := fun _ pc => Hopeful S o pc)
    · refine next_hopeful small valid (fun same => succeed.1 u (by rw [same])) ?_ ?_ (hopeful u) moved
      · intro m b rest old mid content ok at_pc returns
        exact succeed.2 u m b rest old mid content ok at_pc (by rw [returns])
      · intro at_pc stepped
        exact second u at_pc (by rw [stepped])
    · intro t other
      by_cases unlocked : lockMode (s.pc u) = none
      · exact (hopeful t).present fun p gone => (next_present unlocked moved p).trans gone
      · -- Only a holder of the write lock is told something about the present bits.
        cases at_pc : s.pc t with
        | isPresent k i =>
          apply hopeful_isPresent
          rintro rfl
          have writing : lockMode (s.pc t) = some .write := by rw [at_pc]; rfl
          exact absurd (agrees.exclusive writing (Ne.symm other)) unlocked
        | uxptePut r i =>
          have known := hopeful t
          rw [at_pc] at known
          cases r <;> exact known
        | _ =>
          have known := hopeful t
          rw [at_pc] at known
          exact known
  · refine (hopeful t).present fun q gone => ?_
    simp [Region.reclaim_present, gone]

omit [DecidableEq T] in
theorem created_hopeful {s : State T S.len} (created : Created S s) (t : T) : Hopeful S s.obj (s.pc t) := by
  rw [created.2.2.2.2.2 t]
  trivial

/-- In every run in which each second check still finds the content purged, and whose object is
within the limit of `memset_s`, no Begin returns false. -/
theorem begin_succeeds_of_second_check (S : Setup) (small : roundUp S.len pageSize ≤ securecMemMaxLen)
    (s : State T S.len)
    (reach : (accesses S).Reach (fun s a => CallsSucceed s a ∧ SecondCheckPurged S s a) s) :
    ∀ t m, s.pc t ≠ .failed m := by
  have hopeful : ∀ t, Hopeful S s.obj (s.pc t) := by
    induction reach with
    | init created => exact created_hopeful created
    | step before permitted stepped ih =>
      exact step_hopeful (S.memsetSucceeds_iff.mpr small) (reach_valid before)
        (reach_lockAgrees (fun _ _ permitted => permitted.1.1) before) permitted.1 permitted.2 ih stepped
  intro t m failed
  have known := hopeful t
  rw [failed] at known
  exact known

def callsSucceed (s : State T n) : Action T n → Bool
  | .thread _ .lockFail => false
  | .thread _ (.ret _ ok) => ok
  | a => locksSucceed s a

def readersOnly : Action T n → Bool
  | .thread _ (.beginAccess .write) => false
  | _ => true

def secondCheckPurged (S : Setup) (s : State T S.len) : Action T S.len → Bool
  | .thread t .step =>
    match s.pc t with
    | .isPurged .buildRead => isPurged S s.obj
    | _ => true
  | _ => true

omit [DecidableEq T] in
theorem callsSucceed_sound (s : State T n) (a : Action T n) (h : callsSucceed s a = true) :
    CallsSucceed s a := by
  constructor
  · rintro t rfl
    simp [callsSucceed] at h
  · rintro t m b rest old mid c ok - rfl
    exact h

omit [DecidableEq T] in
theorem readersOnly_sound (s : State T n) (a : Action T n) (h : readersOnly a = true) :
    ReadersOnly s a := by
  rintro t rfl
  simp [readersOnly] at h

omit [DecidableEq T] in
theorem secondCheckPurged_sound (s : State T S.len) (a : Action T S.len)
    (h : secondCheckPurged S s a = true) : SecondCheckPurged S s a := by
  rintro t at_pc rfl
  simpa [secondCheckPurged, at_pc] using h

/-- After a first read the page is lost. Two readers come back to it: one finds it gone in both of its checks
and rebuilds it, the other one waits for the lock and finds it there. -/
def rereadTogether : List (Action Bool oneByte.len) := List.flatten
  [firstRead true, [.thread true .endAccess], List.replicate 3 (.thread true .step),
    [.reclaim 0, .thread false (.beginAccess .read)], List.replicate 6 (.thread false .step),
    [.thread true (.beginAccess .read)], List.replicate 2 (.thread true .step), List.replicate 4 (.thread false .step),
    [.thread false (.call zeros fun _ => false), .thread false (.ret (fun _ => 7) true)],
    List.replicate 6 (.thread false .step), List.replicate 4 (.thread true .step)]

theorem two_reads_succeed :
    ∃ s : State Bool oneByte.len,
      (accesses oneByte).Reach (fun s a => CallsSucceed s a ∧ SecondCheckPurged oneByte s a) s ∧
      openAccess (s.pc true) = some .read ∧ openAccess (s.pc false) = some .read ∧ s.obj.buildDataCount = 2 ∧
      ∀ t m, s.pc t ≠ .failed m := by
  obtain ⟨s, reach, seen⟩ := System.exists_reach (S := accesses oneByte)
    (fun s a => CallsSucceed s a ∧ SecondCheckPurged oneByte s a)
    (fun s a => callsSucceed s a && secondCheckPurged oneByte s a)
    (fun s a h => by
      simp only [Bool.and_eq_true] at h
      exact ⟨callsSucceed_sound s a h.1, secondCheckPurged_sound s a h.2⟩)
    (fresh_created Bool) rereadTogether
    (fun s => (openAccess (s.pc true), openAccess (s.pc false), s.obj.buildDataCount))
    (v := (some .read, some .read, 2)) (by decide) (by decide)
  simp only [Prod.mk.injEq] at seen
  obtain ⟨first, second, twice⟩ := seen
  exact ⟨s, reach, first, second, twice, begin_succeeds_of_second_check oneByte (by decide) s reach⟩

/-- Two readers: both find the object never built, one rebuilds it, and the other one then finds
nothing to rebuild under its write lock. -/
def racingReads : List (Action Bool oneByte.len) :=
  .thread false (.beginAccess .read) :: List.replicate 5 (.thread false .step) ++
  firstRead true ++ .thread true .endAccess :: List.replicate 3 (.thread true .step) ++
  List.replicate 7 (.thread false .step)

def hasFailed : Pc n → Bool
  | .failed .read => true
  | _ => false

theorem spurious_read_failure :
    ¬ ∀ s : State Bool oneByte.len,
      (accesses oneByte).Reach (fun s a => CallsSucceed s a ∧ ReadersOnly s a) s →
      ∀ t, s.pc t ≠ .failed .read := by
  intro never
  obtain ⟨s, reach, failed⟩ := System.exists_reach (S := accesses oneByte)
    (fun s a => CallsSucceed s a ∧ ReadersOnly s a)
    (fun s a => callsSucceed s a && readersOnly a)
    (fun s a h => by
      simp only [Bool.and_eq_true] at h
      exact ⟨callsSucceed_sound s a h.1, readersOnly_sound s a h.2⟩)
    (fresh_created Bool) racingReads (fun s => hasFailed (s.pc false)) (v := true) (by decide) (by decide)
  cases at_pc : s.pc false with
  | failed m =>
    cases m with
    | read => exact never s reach false at_pc
    | write => simp [hasFailed, at_pc] at failed
  | _ => simp [hasFailed, at_pc] at failed

end MemoryUtils.C
