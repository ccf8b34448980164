import MemoryUtils.C.BeginEnds
import MemoryUtils.C.Replay
import MemoryUtils.C.ReadRetry
import MemoryUtils.Lib.Simulation

/-!
Threads that contend for one object. A thread that has pinned every page shares the rebuilds of the
others: `rebuildsDue` bounds what all threads together still rebuild, and no step of anybody raises it.
So a Begin cannot be kept busy by the others, and a crowd of Begins does not rebuild one after another.
-/

namespace MemoryUtils.C
open Lib

variable {T : Type} {S : Setup} {n : Nat}

/-- Between the clear and the end of a rebuild. -/
def filling : Pc n → Bool
  | .buildAll _ _ | .building _ _ _ _ _ | .built _ => true
  | _ => false

def completing : Pc n → Bool
  | .built _ => true
  | _ => false

def wraps (o : PurgMem T n) : Nat := if (o.buildDataCount + 1) % 2 ^ 32 = 0 then 1 else 0

/-- Some rebuild is running or will be asked for. -/
def AwaitsRebuild (S : Setup) (s : State T S.len) : Prop :=
  (∃ u, filling (s.pc u) = true) ∨ ¬ s.obj.region.AllPresent S.pages ∨ s.obj.buildDataCount = 0

open Classical in
/-- The rebuilds that can still succeed while every page stays pinned. -/
noncomputable def rebuildsDue (S : Setup) (s : State T S.len) : Nat :=
  if AwaitsRebuild S s then 1 + wraps s.obj else 0

/-- A rebuild starts because it is needed, and it keeps every page present. -/
def Settled (S : Setup) (o : PurgMem T S.len) : Pc S.len → Prop
  | .clear _ => ¬ o.region.AllPresent S.pages ∨ o.buildDataCount = 0
  | .buildAll _ _ | .building _ _ _ _ _ | .built _ => o.region.AllPresent S.pages
  | _ => True

theorem wraps_le (o : PurgMem T n) : wraps o ≤ 1 := by
  unfold wraps
  split <;> omega

theorem rebuildsDue_le (s : State T S.len) : rebuildsDue S s ≤ 1 + wraps s.obj := by
  unfold rebuildsDue
  split <;> omega

theorem lockMode_of_filling {pc : Pc n} (h : filling pc = true) : lockMode pc = some .write := by
  cases pc <;> simp_all [filling, lockMode]

theorem settled_of_unlocked {o : PurgMem T S.len} {pc : Pc S.len} (free : lockMode pc ≠ some .write) :
    Settled S o pc := by
  cases pc with
  | clear | buildAll | building | built => exact absurd rfl free
  | _ => trivial

theorem Settled.congr {o o' : PurgMem T S.len} {pc : Pc S.len} (settled : Settled S o pc)
    (present : ∀ p, o'.region.present p = o.region.present p) (count : o'.buildDataCount = o.buildDataCount) :
    Settled S o' pc := by
  have same : o'.region.AllPresent S.pages ↔ o.region.AllPresent S.pages := by
    simp only [Region.AllPresent, present]
  cases pc with
  | clear m =>
    rw [Settled, same, count]
    exact settled
  | buildAll | building | built => exact same.mpr settled
  | _ => trivial

variable [DecidableEq T]

section Next

variable {t : T} {o o' : PurgMem T S.len} {pc pc' : Pc S.len} {c : Choice S.len}

theorem next_settled (here : Settled S o pc) (h : Next S t o pc c o' pc') : Settled S o' pc' := by
  cases h with
  | beginIdle m | beginFailed m' m =>
    unfold enter
    split <;> trivial
  | getDone m => cases m <;> trivial
  | neverBuilt k zero =>
    cases k with
    | tryRead => trivial
    | buildRead | write => exact .inr zero
  | absent k i below gone =>
    have missing : ¬ o.region.AllPresent S.pages := fun all =>
      Bool.false_ne_true (gone.symm.trans (all i below))
    cases k with
    | tryRead => trivial
    | buildRead | write => exact .inl missing
  | allPresent k => cases k <;> trivial
  | clear m => exact o.region.clear_allPresent S.pages
  | call m b rest mid touched => exact Region.AllPresent.touch here touched
  | builderReturned m b rest old mid content ok =>
    unfold afterBuilder
    split_ifs
    · exact here
    · exact here
    · trivial
  | built m => cases m <;> trivial
  | wrUnlock m ret =>
    unfold afterUnlock
    split <;> trivial
  | putDone r => cases r <;> trivial
  | endAccess m =>
    unfold leave
    split <;> trivial
  | modifierReturned b old mid content ok => cases ok <;> trivial
  | _ => trivial

/-- What a step does to the count, the present bits and the rebuild it belongs to. -/
inductive Phase (o o' : PurgMem T n) (pc pc' : Pc n) : Prop where
  | same (goesOn : completing pc = false) (inside : filling pc' = filling pc)
      (count : o'.buildDataCount = o.buildDataCount)
      (present : ∀ p, o.region.present p = true → o'.region.present p = true)
  | started (m : Mode) (here : pc = .clear m) (count : o'.buildDataCount = o.buildDataCount)
  | fills (goesOn : completing pc = false) (before : filling pc = true)
      (count : o'.buildDataCount = o.buildDataCount)
  | done (m : Mode) (here : pc = .built m) (after : filling pc' = false)
      (count : o'.buildDataCount = (o.buildDataCount + 1) % 2 ^ 32) (region : o'.region = o.region)

theorem next_phase (h : Next S t o pc c o' pc') : Phase o o' pc pc' := by
  cases h with
  | clear m => exact .started m rfl rfl
  | clearFail m => exact .same rfl rfl rfl fun _ held => held
  | built m => exact .done m rfl (by cases m <;> rfl) rfl rfl
  | noBuilder m => exact .fills rfl rfl rfl
  | builderReturned m b rest old mid content ok => exact .fills rfl rfl rfl
  | call m b rest mid touched =>
    refine .same rfl rfl rfl fun p held => ?_
    show (o.region.touch touched).present p = true
    simp [held]
  | append b mid touched =>
    refine .same rfl rfl rfl fun p held => ?_
    show (o.region.touch touched).present p = true
    simp [held]
  | touch m p below => exact .same rfl rfl rfl fun q held => by simp [held]
  | get m i => exact .same rfl rfl rfl fun p held => by simpa using held
  | put r i => exact .same rfl rfl rfl fun p held => by simpa using held
  | beginIdle m | beginFailed m' m =>
    refine .same rfl ?_ rfl fun _ held => held
    unfold enter
    split <;> rfl
  | getDone m => exact .same rfl (by cases m <;> rfl) rfl fun _ held => held
  | neverBuilt k | absent k | allPresent k => exact .same rfl (by cases k <;> rfl) rfl fun _ held => held
  | wrUnlock m ret =>
    refine .same rfl ?_ rfl fun _ held => held
    unfold afterUnlock
    split <;> rfl
  | putDone r => exact .same rfl (by cases r <;> rfl) rfl fun _ held => held
  | endAccess m =>
    refine .same rfl ?_ rfl fun _ held => held
    unfold leave
    split <;> rfl
  | modifierReturned b old mid content ok => exact .same rfl (by cases ok <;> rfl) rfl fun _ held => held
  | _ => exact .same rfl rfl rfl fun _ held => held

end Next

/-! ### Every state of a run -/

variable [Fintype T]

/-- What holds in every state of a run whose lock calls succeed. -/
structure Contended (S : Setup) (s : State T S.len) : Prop where
  valid : s.obj.builder ≠ []
  balanced : PinsBalanced S s
  agrees : LockAgrees s
  settled : ∀ t, Settled S s.obj (s.pc t)

theorem step_settled {s s' : State T S.len} {a : Action T S.len} (contended : Contended S s)
    (h : step S s a = some s') (t : T) : Settled S s'.obj (s'.pc t) := by
  obtain ⟨u, c, o, pc, rfl, moved, rfl⟩ | ⟨p, rfl, below, zero, rfl⟩ := step_cases h
  · revert t
    apply forall_update (P := fun _ pc => Settled S o pc)
    · exact next_settled (contended.settled u) moved
    · intro t other
      by_cases writing : lockMode (s.pc t) = some .write
      · -- The thread in the rebuild shuts the others out, so the step touched neither bits nor count.
        have free := exclusive_of_agrees contended.agrees t u (Ne.symm other) writing
        obtain ⟨-, -, -, count, -⟩ := next_frame (by simp [free]) moved
        exact (contended.settled t).congr (fun p => next_present free moved p) count
      · exact settled_of_unlocked writing
  · exact settled_of_unlocked (by simp [unlocked_of_reclaim contended.balanced below zero t])

theorem step_contended {s s' : State T S.len} {a : Action T S.len} (contended : Contended S s)
    (succeeds : LocksSucceed s a) (h : step S s a = some s') : Contended S s' where
  valid := step_valid contended.valid h
  balanced := step_pinsBalanced contended.valid contended.balanced h
  agrees := step_lockAgrees contended.valid succeeds contended.agrees h
  settled := step_settled contended h

theorem reach_contended {s : State T S.len} (reach : (accesses S).Reach LocksSucceed s) : Contended S s := by
  refine reach.invariant (fun s created => ?_) fun s a t contended succeeds => step_contended contended succeeds
  have ⟨⟨b, chain⟩, _, _, _, _, idle⟩ := created
  refine ⟨by simp [chain], created_pinsBalanced created, created_lockAgrees created, fun t => ?_⟩
  rw [idle t]
  trivial

/-! ### The rebuilds of all threads together -/

/-- A thread executes the last statement of a rebuild that succeeded. -/
def completesRebuild (s : State T n) : Action T n → Bool
  | .thread t _ => completing (s.pc t)
  | .reclaim _ => false

omit [DecidableEq T] [Fintype T] in
theorem rebuildsDue_mono {s s' : State T S.len} (count : s'.obj.buildDataCount = s.obj.buildDataCount)
    (awaits : AwaitsRebuild S s' → AwaitsRebuild S s) : rebuildsDue S s' ≤ rebuildsDue S s := by
  have same : wraps s'.obj = wraps s.obj := by rw [wraps, count, wraps]
  unfold rebuildsDue
  rw [same]
  split
  · rename_i now
    rw [if_pos (awaits now)]
  · omega

/-- The last statement of a rebuild leaves the count, and with it one rebuild more where it wrapped. -/
theorem rebuildsDue_built {s : State T S.len} {t : T} {o : PurgMem T S.len} {pc : Pc S.len} {m : Mode}
    (contended : Contended S s) (here : s.pc t = .built m) (after : filling pc = false)
    (count : o.buildDataCount = (s.obj.buildDataCount + 1) % 2 ^ 32) (region : o.region = s.obj.region) :
    rebuildsDue S { obj := o, pc := Function.update s.pc t pc } = wraps s.obj := by
  have writing : lockMode (s.pc t) = some .write := by
    rw [here]
    rfl
  have nobody : ¬ ∃ u, filling (Function.update s.pc t pc u) = true := by
    rintro ⟨u, inside⟩
    by_cases own : u = t
    · subst own
      simp [after] at inside
    · have free := exclusive_of_agrees contended.agrees t u own writing
      rw [Function.update_of_ne own] at inside
      simp [lockMode_of_filling inside] at free
  have all : o.region.AllPresent S.pages := by
    have settled := contended.settled t
    rw [here] at settled
    rw [region]
    exact settled
  have awaits : AwaitsRebuild S { obj := o, pc := Function.update s.pc t pc } ↔ o.buildDataCount = 0 := by
    simp [AwaitsRebuild, nobody, all]
  by_cases zero : (s.obj.buildDataCount + 1) % 2 ^ 32 = 0
  · rw [rebuildsDue, if_pos (awaits.mpr (count.trans zero)), wraps, wraps, count, if_pos zero, zero]
    rfl
  · rw [rebuildsDue, if_neg (fun now => zero (count.symm.trans (awaits.mp now))), wraps, if_neg zero]

omit [Fintype T] in
theorem exists_filling_update {s : State T S.len} {t : T} {pc : Pc S.len} (inside : filling pc = filling (s.pc t))
    (some_ : ∃ u, filling (Function.update s.pc t pc u) = true) : ∃ u, filling (s.pc u) = true := by
  obtain ⟨u, filled⟩ := some_
  refine ⟨u, ?_⟩
  by_cases own : u = t
  · subst own
    simpa [inside] using filled
  · simpa [own] using filled

/-- No step of any thread raises what is due, and the end of a rebuild uses one up. -/
theorem thread_rebuildsDue {s : State T S.len} {t : T} {c : Choice S.len} {o : PurgMem T S.len} {pc : Pc S.len}
    (contended : Contended S s) (moved : Next S t s.obj (s.pc t) c o pc) :
    rebuildsDue S { obj := o, pc := Function.update s.pc t pc } +
      (if completesRebuild s (.thread t c) then 1 else 0) ≤ rebuildsDue S s := by
  have settled := contended.settled t
  cases next_phase moved with
  | done m here after count region =>
    have awaits : AwaitsRebuild S s := .inl ⟨t, by rw [here]; rfl⟩
    have left := rebuildsDue_built contended here after count region
    rw [left, completesRebuild, here, rebuildsDue, if_pos awaits, Nat.add_comm]
    rfl
  | same goesOn inside count present =>
    rw [completesRebuild, goesOn]
    refine rebuildsDue_mono count ?_
    rintro (some_ | missing | zero)
    · exact .inl (exists_filling_update inside some_)
    · exact .inr (.inl fun all => missing fun p below => present p (all p below))
    · exact .inr (.inr (count ▸ zero))
  | started m here count =>
    rw [completesRebuild, here]
    refine rebuildsDue_mono count fun _ => .inr ?_
    rw [here] at settled
    exact settled
  | fills goesOn before count =>
    rw [completesRebuild, goesOn]
    exact rebuildsDue_mono count fun _ => .inl ⟨t, before⟩

theorem rebuildsDue_le_of_next {s : State T S.len} {t : T} {c : Choice S.len} {o : PurgMem T S.len} {pc : Pc S.len}
    (contended : Contended S s) (moved : Next S t s.obj (s.pc t) c o pc) :
    rebuildsDue S { obj := o, pc := Function.update s.pc t pc } ≤ rebuildsDue S s :=
  (Nat.le_add_right _ _).trans (thread_rebuildsDue contended moved)

omit [Fintype T] in
theorem chain_grows {s s' : State T S.len} {a : Action T S.len} (h : step S s a = some s') :
    s.obj.builder.length ≤ s'.obj.builder.length := by
  obtain ⟨t, c, o, pc, rfl, moved, rfl⟩ | ⟨p, rfl, -, -, rfl⟩ := step_cases h
  · obtain same | ⟨b, grown⟩ := next_builder moved
    · exact (congrArg List.length same).ge
    · show s.obj.builder.length ≤ o.builder.length
      simp [grown]
  · exact le_rfl

/-- Thread `t` keeps every page pinned, and no lock call fails. -/
def KeepsPins (S : Setup) (t : T) (s : State T S.len) (a : Action T S.len) : Prop :=
  LocksSucceed s a ∧ ∀ p < S.pages, pinned (s.pc t) p = true

theorem step_rebuildsDue {s s' : State T S.len} {a : Action T S.len} {t : T} (contended : Contended S s)
    (keeps : KeepsPins S t s a) (h : step S s a = some s') :
    rebuildsDue S s' + (if completesRebuild s a then 1 else 0) ≤ rebuildsDue S s := by
  obtain ⟨u, c, o, pc, rfl, moved, rfl⟩ | ⟨p, rfl, below, zero, rfl⟩ := step_cases h
  · exact thread_rebuildsDue contended moved
  · exact absurd (contended.balanced.pos below (keeps.2 p below)) (by omega)

/-- While one thread keeps its pins, all threads together complete at most one rebuild, and a second one
only where the first has wrapped the count to 0. -/
theorem pinned_pages_rebuilt_once (S : Setup) {s s' : State T S.len} (reach : (accesses S).Reach LocksSucceed s)
    (t : T) {actions : List (Action T S.len)} (along : (accesses S).Along (KeepsPins S t) s actions)
    (ran : (accesses S).run s actions = some s') :
    (accesses S).tally completesRebuild s actions ≤ 1 + wraps s.obj := by
  have spent := System.tally_add_rank_le completesRebuild (rebuildsDue S) (P := Contended S)
    (fun _ _ _ contended keeps => step_contended contended keeps.1)
    (fun _ _ _ contended keeps => step_rebuildsDue contended keeps) (reach_contended reach) along ran
  have most := rebuildsDue_le s
  omega

def keepsPins (S : Setup) (t : T) (s : State T S.len) (a : Action T S.len) : Bool :=
  locksSucceed s a && decide (∀ p < S.pages, pinned (s.pc t) p = true)

omit [DecidableEq T] [Fintype T] in
theorem keepsPins_sound (t : T) (s : State T S.len) (a : Action T S.len) (h : keepsPins S t s a = true) :
    KeepsPins S t s a := by
  simp only [keepsPins, Bool.and_eq_true, decide_eq_true_eq] at h
  exact ⟨locksSucceed_sound s a h.1, h.2⟩

/-- A reader has pinned the page and waits for the lock. -/
def arrived : State Bool oneByte.len :=
  ((accesses oneByte).run (fresh Bool)
    (.thread true (.beginAccess .read) :: List.replicate 2 (.thread true .step))).get (by decide)

theorem arrived_reached : (accesses oneByte).Reach LocksSucceed arrived := by
  refine .of_run _ (.init (fresh_created Bool)) ?_ (Option.some_get _).symm
  exact System.along_of_checks locksSucceed_sound (by decide)

/-- A writer comes, rebuilds the content and leaves; then the reader is let in. -/
def writerFirst : List (Action Bool oneByte.len) :=
  .thread false (.beginAccess .write) :: List.replicate 5 (.thread false .step) ++
  [.thread false (.call zeros fun _ => false), .thread false (.ret (fun _ => 7) true), .thread false .step,
    .thread false .endAccess] ++ List.replicate 3 (.thread false .step) ++ List.replicate 4 (.thread true .step)

theorem waiting_reader_shares_rebuild :
    ∃ s, (accesses oneByte).run arrived writerFirst = some s ∧ openAccess (s.pc true) = some .read ∧
      (accesses oneByte).tally completesRebuild arrived writerFirst = 1 := by
  obtain ⟨s, ran, opened⟩ : ∃ s, (accesses oneByte).run arrived writerFirst = some s ∧
      openAccess (s.pc true) = some .read := Option.map_eq_some_iff.mp (by decide)
  have along : (accesses oneByte).Along (KeepsPins oneByte true) arrived writerFirst :=
    System.along_of_checks (keepsPins_sound true) (by decide)
  have most := pinned_pages_rebuilt_once oneByte arrived_reached true along ran
  exact ⟨s, ran, opened, Nat.le_antisymm most (by decide)⟩

/-! ### One Begin among many threads -/

/-- The rebuilds that the Begin at this point can still start. -/
noncomputable def rebuildsAhead (S : Setup) (s : State T S.len) : Pc S.len → Nat
  | .uxpteGet .read _ => 2
  | .rdlock | .rdUnlock | .wrlock .read | .clear .read | .wrUnlock .read true => rebuildsDue S s
  | .isPurged .tryRead | .isPurged .buildRead | .isPresent .tryRead _ | .isPresent .buildRead _ => rebuildsDue S s
  | .uxpteGet .write _ | .wrlock .write | .isPurged .write | .isPresent .write _ | .clear .write => 1
  | .buildAll .read _ | .building .read _ _ _ _ | .built .read => wraps s.obj
  | _ => 0

theorem thread_rebuildsAhead {s : State T S.len} {t : T} {c : Choice S.len} {o : PurgMem T S.len} {pc : Pc S.len}
    (contended : Contended S s) (within : beginMode (s.pc t) ≠ none) (succeeds : c ≠ .lockFail)
    (moved : Next S t s.obj (s.pc t) c o pc) :
    rebuildsAhead S { obj := o, pc := Function.update s.pc t pc } pc + (if clearing (s.pc t) then 1 else 0)
      ≤ rebuildsAhead S s (s.pc t) := by
  have settled := contended.settled t
  have due := rebuildsDue_le_of_next contended moved
  have most : rebuildsDue S s ≤ 1 + wraps s.obj := rebuildsDue_le s
  have one := wraps_le s.obj
  generalize here : s.pc t = before at moved settled within ⊢
  cases moved with
  | rdlockFail | rdUnlockFail | wrlockFail | wrUnlockFail | endUnlockFail => exact absurd rfl succeeds
  | beginIdle | beginFailed | endAccess | touch | append | modifierReturned | logged | logFail | endUnlock =>
    exact absurd rfl within
  | get m => cases m <;> exact Nat.le_refl _
  | getDone m =>
    cases m with
    | read =>
      show rebuildsDue S _ ≤ 2
      exact due.trans (most.trans (Nat.add_le_add_left one 1))
    | write => exact Nat.le_refl _
  | neverBuilt k | absent k | builtBefore k | present k =>
    cases k with
    | tryRead | buildRead => exact due
    | write => exact Nat.le_refl _
  | allPresent k => cases k <;> exact Nat.zero_le _
  | rdlock | rdUnlock => exact due
  | wrlock m =>
    cases m with
    | read => exact due
    | write => exact Nat.le_refl _
  | clear m =>
    cases m with
    | read =>
      have awaits : AwaitsRebuild S s := .inr settled
      show wraps s.obj + 1 ≤ rebuildsDue S s
      rw [rebuildsDue, if_pos awaits, Nat.add_comm]
    | write => exact Nat.le_refl _
  | clearFail m =>
    cases m with
    | read =>
      have awaits : AwaitsRebuild S s := .inr settled
      show 0 + 1 ≤ rebuildsDue S s
      rw [rebuildsDue, if_pos awaits]
      omega
    | write => exact Nat.le_refl _
  | noBuilder m => cases m <;> exact Nat.zero_le _
  | call m => cases m <;> exact Nat.le_refl _
  | builderReturned m b rest old mid content ok =>
    cases ok with
    | false => cases m <;> exact Nat.zero_le _
    | true => cases m <;> cases rest <;> exact Nat.le_refl _
  | built m =>
    cases m with
    | read =>
      show rebuildsDue S _ ≤ wraps s.obj
      refine (rebuildsDue_built contended here ?_ ?_ ?_).le <;> rfl
    | write => exact Nat.zero_le _
  | wrUnlock m ret =>
    cases m with
    | read =>
      cases ret with
      | true => exact due
      | false => exact Nat.le_refl _
    | write => cases ret <;> exact Nat.le_refl _
  | put r => cases r <;> exact Nat.le_refl _
  | putDone r => cases r <;> exact Nat.zero_le _

/-- The steps of the others and of the kernel start nothing on behalf of this thread. -/
theorem other_rebuildsAhead {s : State T S.len} {t u : T} {c : Choice S.len} {o : PurgMem T S.len} {pc : Pc S.len}
    (contended : Contended S s) (other : t ≠ u) (moved : Next S u s.obj (s.pc u) c o pc) :
    rebuildsAhead S { obj := o, pc := Function.update s.pc u pc } (s.pc t) ≤ rebuildsAhead S s (s.pc t) := by
  have due := rebuildsDue_le_of_next contended moved
  have count : filling (s.pc t) = true → wraps o = wraps s.obj := by
    intro inside
    have free := exclusive_of_agrees contended.agrees t u (Ne.symm other) (lockMode_of_filling inside)
    obtain ⟨-, -, -, same, -⟩ := next_frame (by simp [free]) moved
    rw [wraps, same, wraps]
  generalize s.pc t = here at count ⊢
  unfold rebuildsAhead
  split <;> first | exact due | exact Nat.le_refl _ | exact (count rfl).le

omit [DecidableEq T] [Fintype T] in
theorem rebuildsAhead_of_unpinned {s s' : State T S.len} {pc : Pc S.len} {p : Nat} (loose : pinned pc p = false) :
    rebuildsAhead S s' pc = rebuildsAhead S s pc := by
  cases pc with
  | uxpteGet m => cases m <;> rfl
  | uxptePut | idle | failed => rfl
  | _ => exact absurd loose (by simp [pinned])

def startsRebuildOf (t : T) (s : State T n) : Action T n → Bool
  | .thread u _ => decide (u = t) && clearing (s.pc t)
  | .reclaim _ => false

def statementOf (t : T) (_ : State T n) : Action T n → Bool
  | .thread u _ => decide (u = t)
  | .reclaim _ => false

/-- Anything may happen while the Begin of thread `t` runs, except that a lock call fails. -/
def DuringBegin (t : T) (s : State T n) (a : Action T n) : Prop :=
  LocksSucceed s a ∧ beginMode (s.pc t) ≠ none

theorem step_rebuildsAhead {s s' : State T S.len} {a : Action T S.len} {t : T} (contended : Contended S s)
    (during : DuringBegin t s a) (h : step S s a = some s') :
    rebuildsAhead S s' (s'.pc t) + (if startsRebuildOf t s a then 1 else 0) ≤ rebuildsAhead S s (s.pc t) := by
  obtain ⟨u, c, o, pc, rfl, moved, rfl⟩ | ⟨p, rfl, below, zero, rfl⟩ := step_cases h
  · by_cases own : u = t
    · subst own
      have choice : c ≠ .lockFail := fun same => during.1 u (by rw [same])
      simpa [startsRebuildOf] using thread_rebuildsAhead contended during.2 choice moved
    · simpa [startsRebuildOf, own, Ne.symm own] using other_rebuildsAhead contended (Ne.symm own) moved
  · have loose : pinned (s.pc t) p = false := by
      by_contra held
      exact absurd (contended.balanced.pos below (by simpa using held)) (by omega)
    exact (rebuildsAhead_of_unpinned loose).le

/-- The statements of thread `t` up to the return, if no chain is longer than `longest`. -/
noncomputable def beginRank (S : Setup) (longest : Nat) (t : T) (s : State T S.len) : Nat :=
  rebuildsAhead S s (s.pc t) * (3 * S.pages + 14 + 2 * longest) + stage S (s.pc t)

theorem lap_spent {rebuilds rebuilds' lap stage stage' : Nat} (started : rebuilds' + 1 ≤ rebuilds)
    (short : stage' < lap) : rebuilds' * lap + stage' + 1 ≤ rebuilds * lap + stage :=
  calc rebuilds' * lap + stage' + 1
      ≤ rebuilds' * lap + lap := Nat.add_le_add_left short _
    _ = (rebuilds' + 1) * lap := (Nat.succ_mul _ _).symm
    _ ≤ rebuilds * lap := Nat.mul_le_mul_right _ started
    _ ≤ rebuilds * lap + stage := Nat.le_add_right _ _

theorem step_beginRank {s s' : State T S.len} {a : Action T S.len} {t : T} {longest : Nat}
    (contended : Contended S s) (during : DuringBegin t s a) (short : s.obj.builder.length ≤ longest)
    (h : step S s a = some s') :
    beginRank S longest t s' + (if statementOf t s a then 1 else 0) ≤ beginRank S longest t s := by
  have rebuilds := step_rebuildsAhead contended during h
  obtain ⟨u, c, o, pc, rfl, moved, rfl⟩ | ⟨p, rfl, below, zero, rfl⟩ := step_cases h
  · by_cases own : u = t
    · subst own
      have choice : c ≠ .lockFail := fun same => during.1 u (by rw [same])
      have stages := next_stage during.2 choice moved
      have laps : lap S s.obj ≤ 3 * S.pages + 14 + 2 * longest := by
        unfold lap
        omega
      simp only [startsRebuildOf, decide_true, Bool.true_and] at rebuilds
      simp only [beginRank, statementOf, decide_true, if_true, Function.update_self] at rebuilds ⊢
      cases starting : clearing (s.pc u) with
      | true =>
        simp only [starting, if_true] at rebuilds stages
        exact lap_spent rebuilds (stages.trans_le laps)
      | false =>
        simp only [starting, Bool.false_eq_true, if_false, Nat.add_zero] at rebuilds stages
        rw [Nat.add_assoc]
        exact Nat.add_le_add (Nat.mul_le_mul_right _ rebuilds) stages
    · simp only [startsRebuildOf, own, decide_false, Bool.false_and, Bool.false_eq_true, if_false, Nat.add_zero,
        Function.update_of_ne (Ne.symm own)] at rebuilds
      simp only [beginRank, statementOf, own, decide_false, Bool.false_eq_true, if_false, Nat.add_zero,
        Function.update_of_ne (Ne.symm own)]
      exact Nat.add_le_add_right (Nat.mul_le_mul_right _ rebuilds) _
  · exact Nat.add_le_add_right (Nat.mul_le_mul_right _ rebuilds) _

omit [Fintype T] in
theorem step_duringBegin {s s' : State T S.len} {a : Action T S.len} {t : T} {m : Mode}
    (underway : Underway m (s.pc t)) (during : DuringBegin t s a) (h : step S s a = some s') :
    Underway m (s'.pc t) := by
  obtain ⟨u, c, o, pc, rfl, moved, rfl⟩ | ⟨p, rfl, -, -, rfl⟩ := step_cases h
  · by_cases own : u = t
    · subst own
      have mode := underway.mode during.2
      simpa [Underway] using next_beginMode mode moved
    · simpa [Ne.symm own] using underway
  · exact underway

/-- In every interleaving of any number of threads, whatever builders and kernel do: a `PurgMemBeginRead`
starts at most two rebuilds and a `PurgMemBeginWrite` at most one, and the statements the Begin executes
are bounded by the pages and the length that the chain has reached. -/
theorem begin_bounded_among_threads (S : Setup) {s s' : State T S.len}
    (reach : (accesses S).Reach LocksSucceed s) (t : T) (m : Mode) (entered : s.pc t = .uxpteGet m 0)
    {actions : List (Action T S.len)} (during : (accesses S).Along (DuringBegin t) s actions)
    (ran : (accesses S).run s actions = some s') :
    (accesses S).tally (startsRebuildOf t) s actions ≤ (if m = .read then 2 else 1) ∧
    (accesses S).tally (statementOf t) s actions ≤
      2 * (3 * S.pages + 14 + 2 * s'.obj.builder.length) + 4 * S.pages + 11 ∧
    (beginMode (s'.pc t) = some m ∨ s'.pc t = .inside m ∨ s'.pc t = .failed m) := by
  have start := reach_contended reach
  have keep : ∀ s a s', Contended S s → DuringBegin t s a → (accesses S).step s a = some s' → Contended S s' :=
    fun _ _ _ contended during => step_contended contended during.1
  have ahead : rebuildsAhead S s (s.pc t) = if m = .read then 2 else 1 := by
    rw [entered]
    cases m <;> rfl
  refine ⟨?_, ?_, ?_⟩
  · have spent := System.tally_add_rank_le (startsRebuildOf t) (fun s => rebuildsAhead S s (s.pc t)) keep
      (fun _ _ _ => step_rebuildsAhead) start during ran
    omega
  · obtain ⟨-, bounded⟩ := System.along_below (w := fun s : State T S.len => s.obj.builder.length) keep
      (fun _ _ _ _ _ => chain_grows) start during ran
    have spent := System.tally_add_rank_le (statementOf t) (beginRank S s'.obj.builder.length t)
      (fun s a s' contended both => keep s a s' contended both.1)
      (fun _ _ _ contended both => step_beginRank contended both.1 both.2) start bounded ran
    have size : beginRank S s'.obj.builder.length t s ≤
        2 * (3 * S.pages + 14 + 2 * s'.obj.builder.length) + 4 * S.pages + 11 := by
      have twice : rebuildsAhead S s (s.pc t) ≤ 2 := by
        rw [ahead]
        split <;> omega
      have stages : stage S (s.pc t) = 4 * S.pages + 11 := by
        rw [entered, stage]
        omega
      have laps := Nat.mul_le_mul_right (3 * S.pages + 14 + 2 * s'.obj.builder.length) twice
      unfold beginRank
      omega
    omega
  · have underway : Underway m (s.pc t) := .inl (by rw [entered]; rfl)
    exact during.invariant (P := fun s => Underway m (s.pc t)) (fun _ _ _ => step_duringBegin) underway ran

def duringBegin (t : T) (s : State T n) (a : Action T n) : Bool := locksSucceed s a && (beginMode (s.pc t)).isSome

omit [DecidableEq T] [Fintype T] in
theorem duringBegin_sound (t : T) (s : State T n) (a : Action T n) (h : duringBegin t s a = true) :
    DuringBegin t s a := by
  simp only [duringBegin, Bool.and_eq_true, Option.isSome_iff_ne_none] at h
  exact ⟨locksSucceed_sound s a h.1, h.2⟩

/-- The reader has entered its Begin; the writer is idle. -/
def crowded : State Bool oneByte.len :=
  ((accesses oneByte).run (fresh Bool) [.thread true (.beginAccess .read)]).get (by decide)

theorem crowded_reached : (accesses oneByte).Reach LocksSucceed crowded := by
  refine .of_run _ (.init (fresh_created Bool)) ?_ (Option.some_get _).symm
  exact System.along_of_checks locksSucceed_sound (by decide)

def behindWriter : List (Action Bool oneByte.len) := List.replicate 2 (.thread true .step) ++ writerFirst

theorem reader_behind_writer_bounded :
    ∃ s, (accesses oneByte).run crowded behindWriter = some s ∧ openAccess (s.pc true) = some .read ∧
      (accesses oneByte).tally (startsRebuildOf true) crowded behindWriter ≤ 2 ∧
      (accesses oneByte).tally (statementOf true) crowded behindWriter ≤ 53 := by
  obtain ⟨s, ran, seen⟩ : ∃ s, (accesses oneByte).run crowded behindWriter = some s ∧
      (openAccess (s.pc true), s.obj.builder.length) = (some .read, 1) := Option.map_eq_some_iff.mp (by decide)
  obtain ⟨opened, chain⟩ := Prod.mk.inj seen
  have along : (accesses oneByte).Along (DuringBegin true) crowded behindWriter :=
    System.along_of_checks (duringBegin_sound true) (by decide)
  obtain ⟨rebuilds, statements, -⟩ :=
    begin_bounded_among_threads oneByte crowded_reached true .read rfl along ran
  rw [chain] at statements
  exact ⟨s, ran, opened, rebuilds, statements⟩

end MemoryUtils.C
