import MemoryUtils.C.Locking

/-!
What a failing `pthread_rwlock_unlock` does to the object. The access functions go on as if the lock
were released: the hold stays, and no later call gives it back. Exclusion survives, but the lock does
not: a lost write hold closes the object for everybody, a lost read hold for every writer and rebuild.
-/

namespace MemoryUtils.C
open Lib

variable {T : Type} {S : Setup} {n : Nat} [DecidableEq T]

/-- Thread `t` meets a failing unlock while it holds the lock in mode `m`. -/
def failedUnlock (t : T) (m : Mode) (s : State T n) : Action T n → Bool
  | .thread u .lockFail => decide (u = t ∧ lockMode (s.pc t) = some m)
  | _ => false

/-- The holds of a thread beyond the one its program point accounts for. -/
def lostHolds (t : T) (m : Mode) (s : State T n) : Int :=
  s.obj.rwlock.holds t m - if lockMode (s.pc t) = some m then 1 else 0

def LockBacks (s : State T n) : Prop := s.obj.rwlock.Backs (lockMode ∘ s.pc)

theorem next_lockFail {t : T} {o o' : PurgMem T S.len} {pc pc' : Pc S.len}
    (h : Next S t o pc .lockFail o' pc') : o'.rwlock = o.rwlock ∧ lockMode pc' = none := by
  cases h <;> exact ⟨rfl, rfl⟩

/-- What a step does to the lock and to what its thread believes to hold. -/
inductive LockStep (l l' : RwLock T) (t : T) (before after : Option Mode) (failed : Prop) : Prop where
  | kept (succeeds : ¬ failed) (lock : l' = l) (mode : after = before)
  | rdlock (succeeds : ¬ failed) (idle : before = none) (taken : l.rdlock t = some l') (mode : after = some .read)
  | wrlock (succeeds : ¬ failed) (idle : before = none) (taken : l.wrlock t = some l') (mode : after = some .write)
  | unlock (succeeds : ¬ failed) (m : Mode) (held : before = some m) (lock : l' = l.unlock t) (mode : after = none)
  | lost (fails : failed) (lock : l' = l) (mode : after = none)

theorem next_lockStep {t : T} {o o' : PurgMem T S.len} {pc pc' : Pc S.len} {c : Choice S.len}
    (valid : o.builder ≠ []) (h : Next S t o pc c o' pc') :
    LockStep o.rwlock o'.rwlock t (lockMode pc) (lockMode pc') (c = .lockFail) := by
  by_cases fails : c = .lockFail
  · subst fails
    obtain ⟨lock, mode⟩ := next_lockFail h
    exact .lost rfl lock mode
  · rcases next_lock valid fails h with ⟨lock, mode⟩ | ⟨idle, taken, mode⟩ | ⟨idle, taken, mode⟩ |
      ⟨held, lock, mode⟩
    · exact .kept fails lock mode
    · exact .rdlock fails idle taken mode
    · exact .wrlock fails idle taken mode
    · obtain ⟨m, believed⟩ := Option.ne_none_iff_exists'.mp held
      exact .unlock fails m believed lock mode

theorem step_lockBacks {s s' : State T S.len} {a : Action T S.len} (valid : s.obj.builder ≠ [])
    (backs : LockBacks s) (h : step S s a = some s') : LockBacks s' := by
  obtain ⟨t, c, o, pc, rfl, moved, rfl⟩ | ⟨p, rfl, -, -, rfl⟩ := step_cases h
  · rw [LockBacks, Function.comp_update]
    cases next_lockStep valid moved with
    | kept _ lock mode =>
      rw [lock]
      exact backs.same mode
    | rdlock _ _ taken mode =>
      rw [mode]
      exact backs.rdlock taken
    | wrlock _ _ taken mode =>
      rw [mode]
      exact backs.wrlock taken
    | unlock _ m held lock mode =>
      rw [lock, mode]
      exact backs.unlock held
    | lost _ lock mode =>
      rw [lock, mode]
      exact backs.forget t
  · exact backs

theorem failedUnlock_of_succeeds {s : State T n} {t u : T} {m : Mode} {c : Choice n} (succeeds : c ≠ .lockFail) :
    failedUnlock t m s (.thread u c) = false := by
  cases c with
  | lockFail => exact absurd rfl succeeds
  | _ => rfl

/-- Only a failing unlock changes what is lost, and it loses one hold of its own thread. -/
theorem step_lostHolds {s s' : State T S.len} {a : Action T S.len} (valid : s.obj.builder ≠ [])
    (backs : LockBacks s) (h : step S s a = some s') (t : T) (m : Mode) :
    lostHolds t m s' = lostHolds t m s + if failedUnlock t m s a then 1 else 0 := by
  obtain ⟨u, c, o, pc, rfl, moved, rfl⟩ | ⟨p, rfl, -, -, rfl⟩ := step_cases h
  · have believes : lockMode (Function.update s.pc u pc t) = if t = u then lockMode pc else lockMode (s.pc t) := by
      by_cases own : t = u <;> simp [own]
    simp only [lostHolds, believes]
    cases next_lockStep valid moved with
    | kept succeeds lock mode =>
      rw [lock, mode, failedUnlock_of_succeeds succeeds]
      by_cases own : t = u <;> simp [own]
    | rdlock succeeds idle taken mode =>
      rw [RwLock.holds_rdlock taken, mode, failedUnlock_of_succeeds succeeds]
      by_cases own : t = u
      · subst own
        cases m <;> simp [idle]
      · simp [own]
    | wrlock succeeds idle taken mode =>
      rw [RwLock.holds_wrlock taken, mode, failedUnlock_of_succeeds succeeds]
      by_cases own : t = u
      · subst own
        cases m <;> simp [idle]
      · simp [own]
    | unlock succeeds k held lock mode =>
      have after := RwLock.Backs.holds_unlock backs held t m
      rw [lock, mode, failedUnlock_of_succeeds succeeds, ← after]
      by_cases own : t = u
      · subst own
        by_cases same : m = k <;> simp [held, same, eq_comm]
      · simp [own]
    | lost fails lock mode =>
      subst fails
      rw [lock, mode, failedUnlock]
      by_cases own : t = u
      · subst own
        simp
      · simp [own, Ne.symm own]
  · simp [lostHolds, failedUnlock]

/-! ### Runs -/

theorem created_lockBacks {s : State T S.len} (created : Created S s) : LockBacks s := by
  obtain ⟨-, -, free, -, -, idle⟩ := created
  refine ⟨fun t m believed => ?_, by simp [free]⟩
  simp [idle, lockMode] at believed

theorem created_lostHolds {s : State T S.len} (created : Created S s) (t : T) (m : Mode) : lostHolds t m s = 0 := by
  obtain ⟨-, -, free, -, -, idle⟩ := created
  cases m <;> simp [lostHolds, free, idle, lockMode, RwLock.holds]

/-- In every run, whatever calls fail: a thread holds the lock once for the section it is in and once for
every unlock that failed it. Write sections and rebuilds still exclude every other section. After a
failed write unlock no access is ever open again and nothing is rebuilt; after a failed read unlock
nobody writes or rebuilds again. -/
theorem failed_unlocks_are_never_given_back (S : Setup) {s s' : State T S.len} (created : Created S s)
    {actions : List (Action T S.len)} (ran : (accesses S).run s actions = some s') :
    (∀ t m, s'.obj.rwlock.holds t m =
      (if lockMode (s'.pc t) = some m then 1 else 0) + (accesses S).tally (failedUnlock t m) s actions) ∧
    (∀ t u, u ≠ t → lockMode (s'.pc t) = some .write → lockMode (s'.pc u) = none) ∧
    (∀ t, 0 < (accesses S).tally (failedUnlock t .write) s actions →
      ∀ u, openAccess (s'.pc u) = none ∧ rebuilding (s'.pc u) = false) ∧
    (∀ t, 0 < (accesses S).tally (failedUnlock t .read) s actions →
      ∀ u, openAccess (s'.pc u) ≠ some .write ∧ rebuilding (s'.pc u) = false) := by
  have start : s.obj.builder ≠ [] ∧ LockBacks s := by
    have ⟨⟨b, chain⟩, _⟩ := created
    exact ⟨by simp [chain], created_lockBacks created⟩
  have keep : ∀ (s : State T S.len) (a : Action T S.len) (s' : State T S.len), s.obj.builder ≠ [] ∧ LockBacks s →
      True → (accesses S).step s a = some s' → s'.obj.builder ≠ [] ∧ LockBacks s' :=
    fun s a s' both _ stepped => ⟨step_valid both.1 stepped, step_lockBacks both.1 both.2 stepped⟩
  have along : (accesses S).Along (fun _ _ => True) s actions := System.along_of_forall (fun _ _ _ => trivial) s
  have backs : LockBacks s' := (along.invariant keep start ran).2
  have holds : ∀ t m, s'.obj.rwlock.holds t m =
      (if lockMode (s'.pc t) = some m then 1 else 0) + (accesses S).tally (failedUnlock t m) s actions := by
    intro t m
    have change : ∀ (s : State T S.len) (a : Action T S.len) (s' : State T S.len), s.obj.builder ≠ [] ∧ LockBacks s →
        True → (accesses S).step s a = some s' →
        lostHolds t m s' = lostHolds t m s + (if failedUnlock t m s a then 1 else 0) - if false then 1 else 0 :=
      fun s a s' both _ stepped => by simpa using step_lostHolds both.1 both.2 stepped t m
    have counted := System.value_eq_tally keep change start along ran
    rw [System.tally_never, created_lostHolds created, lostHolds] at counted
    split_ifs at counted ⊢ <;> omega
  refine ⟨holds, fun t u other writing => ?_, fun t lost u => ?_, fun t lost u => ?_⟩
  · by_contra open_
    obtain ⟨m, believed⟩ := Option.ne_none_iff_exists'.mp open_
    exact other (backs.only_writer (backs.writer writing) believed).1
  · have owner : s'.obj.rwlock.writer = some t := by
      by_contra other
      have count := holds t .write
      simp only [RwLock.holds, other, if_false] at count
      omega
    -- The lost hold is the only one there can be, so no program point claims a hold.
    have free : lockMode (s'.pc u) = none := by
      by_contra open_
      obtain ⟨m, believed⟩ := Option.ne_none_iff_exists'.mp open_
      obtain ⟨rfl, rfl⟩ := backs.only_writer owner believed
      have count := holds u .write
      simp only [RwLock.holds, owner, if_true] at count
      rw [believed, if_pos rfl] at count
      omega
    exact ⟨openAccess_of_unlocked free, rebuilding_of_unlocked (by simp [free])⟩
  · have reading : t ∈ s'.obj.rwlock.readers := by
      have count := holds t .read
      refine List.count_pos_iff.mp ?_
      show 0 < s'.obj.rwlock.holds t .read
      omega
    have writing : lockMode (s'.pc u) ≠ some .write := by
      intro believed
      have empty := backs.alone (by simp [backs.writer believed])
      simp [empty] at reading
    exact ⟨fun opened => writing (lockMode_of_openAccess opened), rebuilding_of_unlocked writing⟩

/-- A write section whose End cannot unlock, and a second thread that waits for the lock. -/
def lostWriteUnlock : List (Action Bool oneByte.len) :=
  .thread true (.beginAccess .write) :: List.replicate 5 (.thread true .step) ++
  [.thread true (.call zeros fun _ => false), .thread true (.ret (fun _ => 7) true), .thread true .step,
    .thread true .endAccess, .thread true .lockFail] ++ List.replicate 2 (.thread true .step) ++
  .thread false (.beginAccess .read) :: List.replicate 2 (.thread false .step)

theorem lost_write_unlock_closes_object :
    ∃ s, (accesses oneByte).run (fresh Bool) lostWriteUnlock = some s ∧ s.obj.rwlock.holds true .write = 1 ∧
      ∀ u, openAccess (s.pc u) = none ∧ rebuilding (s.pc u) = false := by
  obtain ⟨s, ran, returned⟩ : ∃ s, (accesses oneByte).run (fresh Bool) lostWriteUnlock = some s ∧
      lockMode (s.pc true) = none := Option.map_eq_some_iff.mp (by decide)
  have once : (accesses oneByte).tally (failedUnlock true .write) (fresh Bool) lostWriteUnlock = 1 := by decide
  obtain ⟨holds, -, closed, -⟩ := failed_unlocks_are_never_given_back oneByte (fresh_created Bool) ran
  refine ⟨s, ran, ?_, closed true (by omega)⟩
  rw [holds, returned, once]
  rfl

end MemoryUtils.C
