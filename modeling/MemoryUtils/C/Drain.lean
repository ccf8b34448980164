import MemoryUtils.C.Contention
import Mathlib.Algebra.Order.BigOperators.Group.Finset

/-!
Calls in progress come to an end. As long as the clients start nothing new, every statement of every
thread lowers a common rank, so no schedule keeps the threads busy for ever; and whoever holds the lock
can always go on, so the object can be emptied from every reachable state.
-/

namespace MemoryUtils.C
open Lib

variable {T : Type} {S : Setup} {n : Nat}

/-- A choice by which a client starts something: a Begin, a modification, an access to a page. -/
def initiates : Choice n → Bool
  | .beginAccess _ | .append _ _ _ | .touch _ => true
  | _ => false

def Finishing (s : State T n) (a : Action T n) : Prop :=
  LocksSucceed s a ∧ ∀ t c, a = .thread t c → initiates c = false

def outside : Pc n → Bool
  | .idle | .failed _ => true
  | _ => false

/-- The statements up to the next rebuild or out of the access, at most. -/
def homeStage (S : Setup) : Pc S.len → Nat
  | .idle | .failed _ => 0
  | .inside _ => S.pages + 3
  | .endUnlock _ => S.pages + 2
  | .logging _ => S.pages + 4
  | .modifying _ _ _ => S.pages + 5
  | .uxptePut none i => S.pages - i + 1
  | pc => stage S pc + (S.pages + 4)

/-- A modifier that may still be logged. -/
def mayLog : Pc n → Nat
  | .modifying _ _ _ | .logging _ => 1
  | _ => 0

theorem homeStage_of_begin {pc : Pc S.len} (within : beginMode pc ≠ none) :
    homeStage S pc = stage S pc + (S.pages + 4) := by
  cases pc with
  | idle | failed | inside | endUnlock | logging | modifying => exact absurd rfl within
  | uxptePut r i =>
    cases r with
    | none => exact absurd rfl within
    | some m => rfl
  | _ => rfl

theorem lockMode_of_mayLog {pc : Pc n} (pending : mayLog pc ≠ 0) : lockMode pc = some .write := by
  cases pc with
  | modifying | logging => rfl
  | _ => exact absurd rfl pending

theorem rebuildsAhead_of_no_begin (s : State T S.len) {pc : Pc S.len} (none_ : beginMode pc = none) :
    rebuildsAhead S s pc = 0 := by
  cases pc with
  | idle | failed | inside | endUnlock | logging | modifying | uxptePut => rfl
  | _ => cases none_

variable [DecidableEq T]

section Next

variable {t : T} {o o' : PurgMem T S.len} {pc pc' : Pc S.len} {c : Choice S.len}

/-- Outside of a Begin only a new call leads into one. -/
theorem next_no_begin (none_ : beginMode pc = none) (quiet : initiates c = false) (h : Next S t o pc c o' pc') :
    beginMode pc' = none := by
  cases h with
  | beginIdle | beginFailed | touch | append => cases quiet
  | endAccess m =>
    unfold leave
    split <;> rfl
  | modifierReturned b old mid content ok => cases ok <;> rfl
  | logged | logFail | endUnlock | endUnlockFail => rfl
  | put r i below =>
    cases r with
    | none => rfl
    | some m => cases none_
  | putDone r i past => cases r <;> rfl
  | _ => cases none_

theorem next_homeStage (valid : o.builder ≠ []) (succeeds : c ≠ .lockFail) (quiet : initiates c = false)
    (h : Next S t o pc c o' pc') :
    homeStage S pc' < if clearing pc then lap S o + (S.pages + 4) else homeStage S pc := by
  cases mode : beginMode pc with
  | some m =>
    have within : beginMode pc ≠ none := by simp [mode]
    have stages := next_stage within succeeds h
    rw [homeStage_of_begin within]
    obtain going | rfl | rfl := next_beginMode mode h
    · rw [homeStage_of_begin (by simp [going])]
      split_ifs at stages ⊢ <;> omega
    · simp only [homeStage]
      split_ifs at stages ⊢ <;> omega
    · simp only [homeStage]
      split_ifs at stages ⊢ <;> omega
  | none =>
    cases h with
    | beginIdle | beginFailed | touch | append => cases quiet
    | endUnlockFail => exact absurd rfl succeeds
    | endAccess m =>
      rw [leave_valid valid]
      simp [clearing, homeStage]
    | modifierReturned b old mid content ok => cases ok <;> simp [clearing, homeStage, afterModifier]
    | logged | logFail | endUnlock => simp [clearing, homeStage]
    | put r i below =>
      cases r with
      | none =>
        simp only [clearing, homeStage, Bool.false_eq_true, if_false]
        omega
      | some m => cases mode
    | putDone r i past =>
      cases r with
      | none => simp [clearing, homeStage, afterPut]
      | some m => cases mode
    | _ => cases mode

theorem next_mayLog (quiet : initiates c = false) (h : Next S t o pc c o' pc') :
    o'.builder.length + mayLog pc' ≤ o.builder.length + mayLog pc := by
  cases h with
  | beginIdle | beginFailed | touch | append => cases quiet
  | logged b => simp [mayLog]
  | modifierReturned b old mid content ok => cases ok <;> simp [mayLog, afterModifier, setContent]
  | getDone m => cases m <;> exact Nat.le_refl _
  | neverBuilt k | absent k | allPresent k => cases k <;> exact Nat.le_refl _
  | builderReturned m b rest old mid content ok =>
    cases ok <;> cases rest <;> exact Nat.le_refl _
  | built m => cases m <;> exact Nat.le_refl _
  | wrUnlock m ret => cases m <;> cases ret <;> exact Nat.le_refl _
  | putDone r => cases r <;> exact Nat.le_refl _
  | endAccess m =>
    unfold leave
    split <;> exact Nat.le_refl _
  | logFail b => simp [mayLog]
  | _ => exact Nat.le_refl _

end Next

/-! ### Every statement counts -/

variable [Fintype T]

/-- A state from which the chain grows to at most `longest`. -/
structure Winding (S : Setup) (longest : Nat) (s : State T S.len) : Prop where
  contended : Contended S s
  room : ∀ t, s.obj.builder.length + mayLog (s.pc t) ≤ longest

noncomputable def callRank (S : Setup) (longest : Nat) (s : State T S.len) (t : T) : Nat :=
  rebuildsAhead S s (s.pc t) * (4 * S.pages + 18 + 2 * longest) + homeStage S (s.pc t)

noncomputable def totalRank (S : Setup) (longest : Nat) (s : State T S.len) : Nat :=
  ∑ t, callRank S longest s t

theorem step_winding {s s' : State T S.len} {a : Action T S.len} {longest : Nat} (winding : Winding S longest s)
    (finishing : Finishing s a) (h : step S s a = some s') : Winding S longest s' := by
  refine ⟨step_contended winding.contended finishing.1 h, ?_⟩
  obtain ⟨u, c, o, pc, rfl, moved, rfl⟩ | ⟨p, rfl, -, -, rfl⟩ := step_cases h
  · have own := next_mayLog (finishing.2 u c rfl) moved
    apply forall_update (P := fun _ pc => o.builder.length + mayLog pc ≤ longest)
    · exact own.trans (winding.room u)
    · intro t other
      by_cases pending : mayLog (s.pc u) = 0
      · have kept := winding.room t
        omega
      · -- The thread that logs is alone, so nobody else has a modifier of its own to log.
        have free := exclusive_of_agrees winding.contended.agrees u t other (lockMode_of_mayLog pending)
        have nothing : mayLog (s.pc t) = 0 := by
          by_contra logs
          simp [lockMode_of_mayLog logs] at free
        have kept := winding.room u
        omega
  · exact winding.room

theorem thread_callRank {s : State T S.len} {t : T} {c : Choice S.len} {o : PurgMem T S.len} {pc : Pc S.len}
    {longest : Nat} (winding : Winding S longest s) (succeeds : c ≠ .lockFail) (quiet : initiates c = false)
    (moved : Next S t s.obj (s.pc t) c o pc) :
    callRank S longest { obj := o, pc := Function.update s.pc t pc } t < callRank S longest s t := by
  have stages := next_homeStage winding.contended.valid succeeds quiet moved
  have short : lap S s.obj + (S.pages + 4) ≤ 4 * S.pages + 18 + 2 * longest := by
    have room := winding.room t
    unfold lap
    omega
  simp only [callRank, Function.update_self]
  by_cases within : beginMode (s.pc t) = none
  · have calm : clearing (s.pc t) = false := by
      cases at_pc : s.pc t <;> simp_all [clearing, beginMode]
    rw [rebuildsAhead_of_no_begin s within,
      rebuildsAhead_of_no_begin _ (next_no_begin within quiet moved)]
    simpa [calm] using stages
  · have rebuilds := thread_rebuildsAhead winding.contended within succeeds moved
    cases starting : clearing (s.pc t) with
    | true =>
      simp only [starting, if_true] at rebuilds stages
      exact lap_spent rebuilds (stages.trans_le short)
    | false =>
      simp only [starting, Bool.false_eq_true, if_false, Nat.add_zero] at rebuilds stages
      exact Nat.add_lt_add_of_le_of_lt (Nat.mul_le_mul_right _ rebuilds) stages

theorem step_totalRank {s s' : State T S.len} {a : Action T S.len} {longest : Nat} (winding : Winding S longest s)
    (finishing : Finishing s a) (h : step S s a = some s') :
    totalRank S longest s' + (if ofThread s a then 1 else 0) ≤ totalRank S longest s := by
  obtain ⟨u, c, o, pc, rfl, moved, rfl⟩ | ⟨p, rfl, below, zero, rfl⟩ := step_cases h
  · have choice : c ≠ .lockFail := fun same => finishing.1 u (by rw [same])
    refine Finset.sum_lt_sum (fun t _ => ?_)
      ⟨u, Finset.mem_univ u, thread_callRank winding choice (finishing.2 u c rfl) moved⟩
    by_cases own : t = u
    · subst own
      exact (thread_callRank winding choice (finishing.2 t c rfl) moved).le
    · have ahead := other_rebuildsAhead winding.contended own moved
      simp only [callRank, Function.update_of_ne own]
      exact Nat.add_le_add_right (Nat.mul_le_mul_right _ ahead) _
  · refine Finset.sum_le_sum fun t _ => ?_
    have loose : pinned (s.pc t) p = false := by
      by_contra held
      exact absurd (winding.contended.balanced.pos below (by simpa using held)) (by omega)
    exact Nat.add_le_add_right (Nat.mul_le_mul_right _ (rebuildsAhead_of_unpinned loose).le) _

/-! ### Somebody can go on -/

/-- The next statement on the way out: accesses end, and user functions return. -/
def homeward : Pc n → Choice n
  | .inside _ => .endAccess
  | .modifying _ old _ => .ret old false
  | pc => attempt pc

omit [DecidableEq T] [Fintype T] in
theorem homeward_quiet (pc : Pc n) :
    initiates (homeward pc) = false ∧ homeward pc ≠ .lockFail ∧ homeward pc ≠ .allocFail := by
  unfold homeward
  split
  · simp [initiates]
  · simp [initiates]
  · unfold attempt
    split <;> simp [initiates]

/-- A thread that holds the lock waits for nobody, and a free lock is taken at once. -/
theorem homeward_enabled {s : State T S.len} (contended : Contended S s) {t : T} (busy : outside (s.pc t) = false)
    (alone : lockMode (s.pc t) ≠ none ∨ ∀ u, lockMode (s.pc u) = none) :
    ∃ s', step S s (.thread t (homeward (s.pc t))) = some s' := by
  have moves : (threadStep S t s.obj (s.pc t) (homeward (s.pc t))).isSome := by
    cases at_pc : s.pc t with
    | idle | failed => simp [at_pc, outside] at busy
    | rdlock | wrlock =>
      have nobody : ∀ u, lockMode (s.pc u) = none := by
        obtain held | free := alone
        · exact absurd (by rw [at_pc]; rfl) held
        · exact free
      have released := contended.agrees.free nobody
      simp [homeward, attempt, threadStep, RwLock.rdlock, RwLock.wrlock, released]
    | buildAll m rest => cases rest <;> rfl
    | uxpteGet | isPresent | clear | uxptePut =>
      simp only [homeward, attempt, threadStep]
      split <;> rfl
    | isPurged | rdUnlock | building | built | wrUnlock | inside | modifying | logging | endUnlock => rfl
  obtain ⟨r, moved⟩ := Option.isSome_iff_exists.mp moves
  obtain ⟨s', stepped, -⟩ := step_of_threadStep rfl moved
  exact ⟨s', stepped⟩

/-- As long as somebody is in a call, somebody can make the next statement on the way out. -/
theorem exists_homeward {s : State T S.len} (contended : Contended S s)
    (busy : ∃ t, outside (s.pc t) = false) :
    ∃ t s', step S s (.thread t (homeward (s.pc t))) = some s' := by
  obtain ⟨t, busy⟩ := busy
  by_cases free : ∀ u, lockMode (s.pc u) = none
  · exact ⟨t, homeward_enabled contended busy (.inr free)⟩
  · obtain ⟨u, held⟩ := not_forall.mp free
    have inside : outside (s.pc u) = false := by
      cases at_pc : s.pc u with
      | idle | failed => exact absurd (by rw [at_pc]; rfl) held
      | _ => rfl
    exact ⟨u, homeward_enabled contended inside (.inl held)⟩

/-! ### The way out -/

/-- No lock or allocation call fails, and the clients start nothing new. -/
def Draining (s : State T n) (a : Action T n) : Prop := Finishing s a ∧ ∀ t, a ≠ .thread t .allocFail

omit [DecidableEq T] [Fintype T] in
theorem homeward_draining (s : State T n) (t : T) : Draining s (.thread t (homeward (s.pc t))) := by
  obtain ⟨quiet, locks, alloc⟩ := homeward_quiet (s.pc t)
  refine ⟨⟨fun u same => ?_, fun u c same => ?_⟩, fun u same => ?_⟩
  · exact locks (Action.thread.inj same).2
  · rw [← (Action.thread.inj same).2]
    exact quiet
  · exact alloc (Action.thread.inj same).2

theorem exists_lower {s : State T S.len} {longest : Nat} (winding : Winding S longest s)
    (busy : ∃ t, outside (s.pc t) = false) :
    ∃ a s', Draining s a ∧ (accesses S).step s a = some s' ∧ totalRank S longest s' < totalRank S longest s := by
  obtain ⟨t, s', stepped⟩ := exists_homeward winding.contended busy
  have lower := step_totalRank winding (homeward_draining s t).1 stepped
  exact ⟨_, s', homeward_draining s t, stepped, lower⟩

omit [DecidableEq T] [Fintype T] in
theorem outside_cases {pc : Pc n} (out : outside pc = true) : pc = .idle ∨ ∃ m, pc = .failed m := by
  cases pc with
  | idle => exact .inl rfl
  | failed m => exact .inr ⟨m, rfl⟩
  | _ => cases out

omit [DecidableEq T] in
theorem PinsBalanced.unpinned_of_outside {s : State T S.len} (balanced : PinsBalanced S s)
    (out : ∀ t, outside (s.pc t) = true) {p : Nat} (below : p < S.pages) : s.obj.region.refcnt p = 0 := by
  rw [balanced p below]
  refine Finset.sum_eq_zero fun t _ => ?_
  obtain idle | ⟨m, failed⟩ := outside_cases (out t)
  · rw [idle]
    rfl
  · rw [failed]
    rfl

theorem reach_winding {s : State T S.len} (reach : (accesses S).Reach LocksSucceed s) :
    Winding S (s.obj.builder.length + 1) s := by
  refine ⟨reach_contended reach, fun t => Nat.add_le_add_left ?_ _⟩
  unfold mayLog
  split <;> omega

/-- From every reachable state: the threads can execute only so many statements before the clients
start something new, whatever the schedule, the builders and the kernel; and there is a run, in which no
call fails, after which every thread is outside, the lock is free and no page is pinned. -/
theorem calls_in_progress_end (S : Setup) (s : State T S.len) (reach : (accesses S).Reach LocksSucceed s) :
    (∃ bound, ∀ actions s', (accesses S).Along Finishing s actions → (accesses S).run s actions = some s' →
      (accesses S).tally ofThread s actions ≤ bound) ∧
    ∃ actions s', (accesses S).Along Draining s actions ∧ (accesses S).run s actions = some s' ∧
      (∀ t, s'.pc t = .idle ∨ ∃ m, s'.pc t = .failed m) ∧
      (s'.obj.rwlock.writer = none ∧ s'.obj.rwlock.readers = []) ∧
      ∀ p < S.pages, s'.obj.region.refcnt p = 0 := by
  have start := reach_winding reach
  constructor
  · refine ⟨totalRank S (s.obj.builder.length + 1) s, fun actions s' along ran => ?_⟩
    have spent := System.tally_add_rank_le ofThread (totalRank S (s.obj.builder.length + 1))
      (fun _ _ _ => step_winding) (fun _ _ _ => step_totalRank) start along ran
    omega
  · obtain ⟨actions, s', along, ran, winding, done⟩ :=
      System.exists_run_of_rank (fun _ _ _ winding draining => step_winding winding draining.1)
        (fun _ winding busy => exists_lower winding busy) start
    have out : ∀ t, outside (s'.pc t) = true := by simpa using done
    refine ⟨actions, s', along, ran, fun t => outside_cases (out t), ?_, fun p below =>
      winding.contended.balanced.unpinned_of_outside out below⟩
    refine winding.contended.agrees.free fun t => ?_
    obtain idle | ⟨m, failed⟩ := outside_cases (out t)
    · rw [Function.comp_apply, idle]
      rfl
    · rw [Function.comp_apply, failed]
      rfl

theorem writer_and_waiting_reader_leave :
    ∃ s : State Bool oneByte.len, (accesses oneByte).Reach LocksSucceed s ∧
      (openAccess (s.pc false) = some .write ∧ beginMode (s.pc true) = some .read) ∧
      ∃ actions s', (accesses oneByte).Along Draining s actions ∧ (accesses oneByte).run s actions = some s' ∧
        s'.obj.region.refcnt 0 = 0 := by
  obtain ⟨s, ran, seen⟩ : ∃ s, (accesses oneByte).run arrived (writerFirst.take 9) = some s ∧
      (openAccess (s.pc false), beginMode (s.pc true)) = (some .write, some .read) :=
    Option.map_eq_some_iff.mp (by decide)
  have reach : (accesses oneByte).Reach LocksSucceed s :=
    .of_run _ arrived_reached (System.along_of_checks locksSucceed_sound (by decide)) ran
  obtain ⟨-, actions, s', along, ran', -, -, unpinned⟩ := calls_in_progress_end oneByte s reach
  exact ⟨s, reach, Prod.mk.inj seen, actions, s', along, ran', unpinned 0 (by decide)⟩

end MemoryUtils.C
