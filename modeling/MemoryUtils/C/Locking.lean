import MemoryUtils.C.Access

/-!
Lock ownership along the C access functions. `lockMode` says in which mode a thread holds the
rwlock at each program point; the lock agrees with it in every run whose lock calls succeed, so
write sections and rebuilds exclude every other section.
-/

namespace MemoryUtils.C
open Lib

variable {T : Type} {S : Setup} {n : Nat}

def lockMode : Pc n → Option Mode
  | .isPurged .tryRead | .isPresent .tryRead _ | .rdUnlock => some .read
  | .isPurged _ | .isPresent _ _ | .clear _ | .buildAll _ _ | .building _ _ _ _ _ | .built _
  | .wrUnlock _ _ | .modifying _ _ _ | .logging _ => some .write
  | .inside m | .endUnlock m => some m
  | _ => none

/-- The access that a true Begin opened and whose End has not unlocked yet. -/
def openAccess : Pc n → Option Mode
  | .inside m | .endUnlock m => some m
  | .modifying _ _ _ | .logging _ => some .write
  | _ => none

def rebuilding : Pc n → Bool
  | .clear _ | .buildAll _ _ | .building _ _ _ _ _ | .built _ => true
  | _ => false

def LocksSucceed (_ : State T n) (a : Action T n) : Prop := ∀ t, a ≠ .thread t .lockFail

theorem lockMode_of_openAccess {pc : Pc n} {m : Mode} (h : openAccess pc = some m) :
    lockMode pc = some m := by
  cases pc <;> simp_all [openAccess, lockMode]

theorem lockMode_of_rebuilding {pc : Pc n} (h : rebuilding pc = true) :
    lockMode pc = some .write := by
  cases pc <;> simp_all [rebuilding, lockMode]

theorem openAccess_of_unlocked {pc : Pc n} (free : lockMode pc = none) : openAccess pc = none := by
  cases opened : openAccess pc with
  | none => rfl
  | some m => simp [lockMode_of_openAccess opened] at free

theorem rebuilding_of_unlocked {pc : Pc n} (free : lockMode pc ≠ some .write) : rebuilding pc = false := by
  cases building : rebuilding pc with
  | false => rfl
  | true => exact absurd (lockMode_of_rebuilding building) free

theorem lockMode_enter (o : PurgMem T n) (m : Mode) : lockMode (enter o m) = none := by
  unfold enter; split <;> rfl

theorem lockMode_firstLock (m : Mode) : lockMode (firstLock (n := n) m) = none := by
  cases m <;> rfl

theorem lockMode_purged (k : Check) :
    lockMode (purged (n := n) k) = lockMode (.isPurged (n := n) k) := by
  cases k <;> rfl

theorem lockMode_notPurged (k : Check) :
    lockMode (notPurged (n := n) k) = lockMode (.isPurged (n := n) k) := by
  cases k <;> rfl

theorem lockMode_isPresent (k : Check) (i : Nat) :
    lockMode (.isPresent (n := n) k i) = lockMode (.isPurged (n := n) k) := by
  cases k <;> rfl

theorem lockMode_afterBuild (m : Mode) : lockMode (afterBuild (n := n) m) = some .write := by
  cases m <;> rfl

theorem lockMode_afterUnlock (m : Mode) (ret : Bool) :
    lockMode (afterUnlock (n := n) m ret) = none := by
  unfold afterUnlock; split <;> rfl

theorem lockMode_afterBuilder (m : Mode) (rest : List Builder) (ok : Bool) :
    lockMode (afterBuilder (n := n) m rest ok) = some .write := by
  unfold afterBuilder; repeat' split
  all_goals rfl

theorem lockMode_afterModifier (b : Builder) (ok : Bool) :
    lockMode (afterModifier (n := n) b ok) = some .write := by
  unfold afterModifier; split <;> rfl

theorem lockMode_afterPut (r : Option Mode) : lockMode (afterPut (n := n) r) = none := by
  cases r <;> rfl

variable [DecidableEq T]

theorem next_lock {t : T} {o o' : PurgMem T S.len} {pc pc' : Pc S.len} {c : Choice S.len}
    (valid : o.builder ≠ []) (succeeds : c ≠ .lockFail) (h : Next S t o pc c o' pc') :
    (o'.rwlock = o.rwlock ∧ lockMode pc' = lockMode pc) ∨
    (lockMode pc = none ∧ o.rwlock.rdlock t = some o'.rwlock ∧ lockMode pc' = some .read) ∨
    (lockMode pc = none ∧ o.rwlock.wrlock t = some o'.rwlock ∧ lockMode pc' = some .write) ∨
    (lockMode pc ≠ none ∧ o'.rwlock = o.rwlock.unlock t ∧ lockMode pc' = none) := by
  cases h with
  | rdlock l taken => exact .inr (.inl ⟨rfl, taken, rfl⟩)
  | wrlock m l taken =>
    refine .inr (.inr (.inl ⟨rfl, taken, ?_⟩))
    cases m <;> rfl
  | rdUnlock => exact .inr (.inr (.inr ⟨by simp [lockMode], rfl, rfl⟩))
  | endUnlock m => exact .inr (.inr (.inr ⟨by simp [lockMode], rfl, rfl⟩))
  | wrUnlock m ret =>
    exact .inr (.inr (.inr ⟨by simp [lockMode], rfl, lockMode_afterUnlock m ret⟩))
  | rdlockFail | wrlockFail | rdUnlockFail | wrUnlockFail | endUnlockFail => exact absurd rfl succeeds
  | endAccess m => exact .inl ⟨rfl, by rw [leave_valid valid]; rfl⟩
  | _ =>
    refine .inl ⟨rfl, ?_⟩
    first
      | rfl
      | simp only [lockMode_enter, lockMode_firstLock, lockMode_purged, lockMode_notPurged,
          lockMode_isPresent, lockMode_afterBuild, lockMode_afterBuilder, lockMode_afterModifier,
          lockMode_afterPut]
    try rfl

def LockAgrees (s : State T n) : Prop := s.obj.rwlock.Agrees (lockMode ∘ s.pc)

theorem created_lockAgrees {s : State T S.len} (h : Created S s) : LockAgrees s := by
  obtain ⟨-, -, free, -, -, idle⟩ := h
  have none_held : lockMode ∘ s.pc = fun _ => none := by
    funext t
    simp [idle, lockMode]
  rw [LockAgrees, free, none_held]
  exact RwLock.agrees_free

theorem step_lockAgrees {s s' : State T S.len} {a : Action T S.len} (valid : s.obj.builder ≠ [])
    (succeeds : LocksSucceed s a) (agrees : LockAgrees s) (h : step S s a = some s') :
    LockAgrees s' := by
  obtain ⟨t, c, o, pc, rfl, moved, rfl⟩ | ⟨p, rfl, -, -, rfl⟩ := step_cases h
  · have choice : c ≠ .lockFail := fun same => succeeds t (by rw [same])
    rw [LockAgrees, Function.comp_update]
    rcases next_lock valid choice moved with ⟨lock, mode⟩ | ⟨idle, lock, mode⟩ | ⟨-, lock, mode⟩ |
      ⟨held, lock, mode⟩
    · rw [lock]
      exact agrees.same mode
    · rw [mode]
      exact agrees.rdlock idle lock
    · rw [mode]
      exact agrees.wrlock lock
    · rw [lock, mode]
      exact agrees.unlock held
  · exact agrees

theorem reach_lockAgrees {ok : State T S.len → Action T S.len → Prop}
    (succeeds : ∀ s a, ok s a → LocksSucceed s a) {s : State T S.len}
    (reach : (accesses S).Reach ok s) : LockAgrees s := by
  induction reach with
  | init created => exact created_lockAgrees created
  | step before permitted stepped ih =>
    exact step_lockAgrees (reach_valid before) (succeeds _ _ permitted) ih stepped

/-- From the true return of Begin to the unlock of its End a thread holds the lock exactly once and
in the mode of the access; outside it holds nothing. So a write section, and a rebuild for a
reader or a writer, never overlaps an open section of another thread. -/
theorem rwlock_discipline (S : Setup) (s : State T S.len)
    (reach : (accesses S).Reach LocksSucceed s) :
    (∀ t m, openAccess (s.pc t) = some m → ∀ k, s.obj.rwlock.holds t k = if k = m then 1 else 0) ∧
    (∀ t, (s.pc t = .idle ∨ ∃ m, s.pc t = .failed m) → ∀ k, s.obj.rwlock.holds t k = 0) ∧
    (∀ t u, u ≠ t → (openAccess (s.pc t) = some .write ∨ rebuilding (s.pc t) = true) →
      openAccess (s.pc u) = none ∧ rebuilding (s.pc u) = false) := by
  have agrees := reach_lockAgrees (fun _ _ permitted => permitted) reach
  refine ⟨?_, ?_, ?_⟩
  · intro t m opened k
    rw [agrees.holds t k, Function.comp_apply, lockMode_of_openAccess opened]
    simp [eq_comm]
  · intro t outside k
    have mode : lockMode (s.pc t) = none := by
      rcases outside with idle | ⟨m, failed⟩
      · rw [idle]
        rfl
      · rw [failed]
        rfl
    simp [agrees.holds t k, mode]
  · intro t u other writing
    have mode : lockMode (s.pc t) = some .write := by
      rcases writing with opened | building
      · exact lockMode_of_openAccess opened
      · exact lockMode_of_rebuilding building
    have excluded : lockMode (s.pc u) = none := agrees.exclusive mode other
    constructor
    · cases opened : openAccess (s.pc u) with
      | none => rfl
      | some m => simp [lockMode_of_openAccess opened] at excluded
    · cases building : rebuilding (s.pc u) with
      | false => rfl
      | true => simp [lockMode_of_rebuilding building] at excluded

def locksSucceed (_ : State T n) : Action T n → Bool
  | .thread _ .lockFail => false
  | _ => true

omit [DecidableEq T] in
theorem locksSucceed_sound (s : State T n) (a : Action T n) (h : locksSucceed s a = true) :
    LocksSucceed s a := by
  rintro t rfl
  simp [locksSucceed] at h

theorem first_read_holds_once :
    ∃ s : State Bool oneByte.len, (accesses oneByte).Reach LocksSucceed s ∧
      s.obj.rwlock.holds true .read = 1 ∧ s.obj.rwlock.holds true .write = 0 := by
  obtain ⟨s, reach, opened⟩ := System.exists_reach (S := accesses oneByte) LocksSucceed locksSucceed
    locksSucceed_sound (fresh_created Bool) (firstRead true) (fun s => openAccess (s.pc true)) (v := some .read)
    (by decide) (by decide)
  have holds := (rwlock_discipline oneByte s reach).1 true .read opened
  exact ⟨s, reach, holds .read, holds .write⟩

end MemoryUtils.C
