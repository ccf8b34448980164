import MemoryUtils.C.Replay
import MemoryUtils.Common.PlainMemory

/-!
The C interface refines plain memory behind a reader-writer lock. A Begin that is let in opens a
section, the unlock of its End closes it, and a logged modifier changes the content; pins, lock
retries, rebuilds and every page the kernel reclaims are invisible.
-/

namespace MemoryUtils.C
open Lib

/-! ### Sections of a reader-writer lock -/

inductive SectionEvent (T : Type) where
  | enter (t : T) (m : Mode)
  | leave (t : T)

/-- A section of mode `m` may be open next to a thread in this mode. -/
def admits : Mode → Option Mode → Bool
  | .read, some .write | .write, some _ => false
  | _, _ => true

variable {T : Type} [DecidableEq T] [Fintype T] {S : Setup} {n : Nat}

def sections (T : Type) [DecidableEq T] [Fintype T] : Discipline (T → Option Mode) (SectionEvent T) T where
  outside _ := none
  move opened
    | .enter t m =>
      if opened t = none ∧ ∀ u, admits m (opened u) = true then some (Function.update opened t (some m)) else none
    | .leave t => if opened t = none then none else some (Function.update opened t none)
  mayWrite opened t := opened t == some .write

/-! ### The abstraction -/

def plainView (s : State T n) : PlainMemory (T → Option Mode) n where
  content := replay s.obj.builder
  accesses := openAccess ∘ s.pc

def pointEvent (S : Setup) (t : T) : Pc S.len → Choice S.len → Option (PlainEvent (SectionEvent T) T)
  | .isPresent .tryRead i, .step => if i < S.pages then none else some (.access (.enter t .read))
  | .isPresent .write i, .step => if i < S.pages then none else some (.access (.enter t .write))
  | .built .write, .step => some (.access (.enter t .write))
  | .endUnlock _, .step => some (.access (.leave t))
  | .logging b, .step => some (.modify t b)
  | _, _ => none

def plainEvent (S : Setup) (s : State T S.len) : Action T S.len → Option (PlainEvent (SectionEvent T) T)
  | .thread t c => pointEvent S t (s.pc t) c
  | .reclaim _ => none

/-- What a step of a thread is to plain memory. -/
inductive Seen (t : T) (o o' : PurgMem T n) (pc pc' : Pc n) :
    Option (PlainEvent (SectionEvent T) T) → Prop where
  | nothing (chain : o'.builder = o.builder) (same : openAccess pc' = openAccess pc) : Seen t o o' pc pc' none
  | entered (m : Mode) (chain : o'.builder = o.builder) (held : lockMode pc = some m)
      (closed : openAccess pc = none) (opened : openAccess pc' = some m) :
      Seen t o o' pc pc' (some (.access (.enter t m)))
  | left (chain : o'.builder = o.builder) (opened : openAccess pc ≠ none) (closed : openAccess pc' = none) :
      Seen t o o' pc pc' (some (.access (.leave t)))
  | modified (b : Builder) (here : pc = .logging b) (chain : o'.builder = o.builder ++ [b])
      (inside : openAccess pc' = some .write) : Seen t o o' pc pc' (some (.modify t b))

omit [Fintype T] in
theorem next_seen {t : T} {o o' : PurgMem T S.len} {pc pc' : Pc S.len} {c : Choice S.len}
    (valid : o.builder ≠ []) (locks : c ≠ .lockFail) (alloc : c ≠ .allocFail) (h : Next S t o pc c o' pc') :
    Seen t o o' pc pc' (pointEvent S t pc c) := by
  cases h with
  | present k i below here =>
    have silent : pointEvent S t (.isPresent k i) .step = none := by cases k <;> simp [pointEvent, below]
    rw [silent]
    exact .nothing rfl rfl
  | absent k i below gone =>
    have silent : pointEvent S t (.isPresent k i) .step = none := by cases k <;> simp [pointEvent, below]
    rw [silent]
    refine .nothing rfl ?_
    cases k <;> rfl
  | allPresent k i past =>
    cases k with
    | buildRead => exact .nothing rfl rfl
    | tryRead =>
      rw [pointEvent, if_neg past]
      exact .entered .read rfl rfl rfl rfl
    | write =>
      rw [pointEvent, if_neg past]
      exact .entered .write rfl rfl rfl rfl
  | built m =>
    cases m with
    | read => exact .nothing rfl rfl
    | write => exact .entered .write rfl rfl rfl rfl
  | endUnlock m => exact .left rfl (by simp [openAccess]) rfl
  | logged b => exact .modified b rfl rfl rfl
  | endAccess m =>
    rw [leave_valid valid]
    exact .nothing rfl rfl
  | rdlockFail | wrlockFail | rdUnlockFail | wrUnlockFail | endUnlockFail => exact absurd rfl locks
  | logFail b => exact absurd rfl alloc
  | beginIdle m | beginFailed m' m => exact .nothing rfl (openAccess_of_unlocked (lockMode_enter o m))
  | getDone m i => exact .nothing rfl (openAccess_of_unlocked (lockMode_firstLock m))
  | putDone r i => exact .nothing rfl (openAccess_of_unlocked (lockMode_afterPut r))
  | wrUnlock m ret => exact .nothing rfl (openAccess_of_unlocked (lockMode_afterUnlock m ret))
  | neverBuilt k =>
    refine .nothing rfl ?_
    cases k <;> rfl
  | builderReturned m b rest old mid c ok =>
    refine .nothing rfl ?_
    unfold afterBuilder
    repeat' split
    all_goals rfl
  | modifierReturned b old mid c ok =>
    refine .nothing rfl ?_
    cases ok <;> rfl
  | _ => exact .nothing rfl rfl

/-! ### The run of plain memory -/

omit [Fintype T] in
theorem contract_exclusive {s : State T S.len} (reach : (accesses S).Reach Contract s) : Exclusive s :=
  exclusive_of_agrees (reach_lockAgrees (fun _ _ contract => contract.1) reach)

theorem contract_intact {s : State T S.len} (reach : (accesses S).Reach Contract s) : Intact True S s :=
  reach_intact (fun _ before => contract_exclusive before) (fun _ _ => contract_reliable) reach

omit [Fintype T] in
theorem admits_others {s : State T S.len} (exclusive : Exclusive s) {t : T} {m : Mode}
    (held : lockMode (s.pc t) = some m) (closed : openAccess (s.pc t) = none) (u : T) :
    admits m (openAccess (s.pc u)) = true := by
  by_cases own : u = t
  · rw [own, closed]
    cases m <;> rfl
  · cases m with
    | write =>
      have free := openAccess_of_unlocked (exclusive t u own held)
      rw [free]
      rfl
    | read =>
      have notWriting : openAccess (s.pc u) ≠ some .write := by
        intro writing
        have free := exclusive u t (Ne.symm own) (lockMode_of_openAccess writing)
        simp [held] at free
      unfold admits
      split <;> simp_all

theorem step_follows {s s' : State T S.len} {a : Action T S.len} (reach : (accesses S).Reach Contract s)
    (contract : Contract s a) (h : step S s a = some s') :
    (plainMemory (sections T) S.len).Follows (plainView s) (plainView s') (plainEvent S s a) := by
  obtain ⟨t, c, o, pc, rfl, moved, rfl⟩ | ⟨p, rfl, -, -, rfl⟩ := step_cases h
  · have locks : c ≠ .lockFail := fun same => contract.1 t (by rw [same])
    have alloc : c ≠ .allocFail := fun same => contract.2.1 t (by rw [same])
    have seen := next_seen (reach_valid reach) locks alloc moved
    have after : openAccess ∘ Function.update s.pc t pc
        = Function.update (openAccess ∘ s.pc) t (openAccess pc) := Function.comp_update ..
    rw [plainEvent]
    generalize pointEvent S t (s.pc t) c = event at seen ⊢
    cases seen with
    | nothing chain same =>
      show plainView _ = plainView s
      simp only [plainView, chain, after, same]
      rw [← Function.comp_apply (f := openAccess), Function.update_eq_self]
    | entered m chain held closed opened =>
      have enters : (sections T).move (openAccess ∘ s.pc) (.enter t m)
          = some (Function.update (openAccess ∘ s.pc) t (some m)) :=
        if_pos ⟨closed, admits_others (contract_exclusive reach) held closed⟩
      refine (plainStep_access enters).trans ?_
      simp only [plainView, chain, after, opened]
    | left chain opened closed =>
      have leaves : (sections T).move (openAccess ∘ s.pc) (.leave t)
          = some (Function.update (openAccess ∘ s.pc) t none) := if_neg opened
      refine (plainStep_access leaves).trans ?_
      simp only [plainView, chain, after, closed]
    | modified b here chain inside =>
      have writes : (sections T).mayWrite (plainView s).accesses t = true := by
        simp [sections, plainView, here, openAccess]
      have point := (contract_intact reach).point t
      rw [here] at point
      have succeeded : (b S.len (plainView s).content).2 = true := (replays_append.mp (point.2.2.2 trivial)).2
      refine (plainStep_modify writes succeeded).trans ?_
      have mode : openAccess (s.pc t) = some .write := by
        rw [here]
        rfl
      simp only [plainView, chain, after, inside, replay_append]
      rw [← mode, ← Function.comp_apply (f := openAccess), Function.update_eq_self]
  · rfl

/-- However the kernel reclaims pages and however the threads interleave, a run under the contract is
a run of plain memory behind a reader-writer lock. Inside a section the bytes are those of plain
memory: what the successful modifications of the run, in their order, made of the first content. -/
theorem reclaim_is_invisible (S : Setup) {s s' : State T S.len} (created : Created S s)
    {actions : List (Action T S.len)} (along : (accesses S).Along Contract s actions)
    (ran : (accesses S).run s actions = some s') :
    (plainMemory (sections T) S.len).run (plainView s) ((accesses S).events (plainEvent S) s actions)
      = some (plainView s') ∧
    ∀ t m, s'.pc t = .inside m ∨ s'.pc t = .endUnlock m →
      (plainView s').accesses t = some m ∧ s'.obj.region.content =
        replayFrom (modifications ((accesses S).events (plainEvent S) s actions)) (plainView s).content := by
  have plainRun : (plainMemory (sections T) S.len).run (plainView s)
      ((accesses S).events (plainEvent S) s actions) = some (plainView s') := by
    refine System.run_simulates (P := (accesses S).Reach Contract) ?_ ?_ (.init created) along ran
    · intro s a t reach contract stepped
      exact .step reach contract stepped
    · intro s a t reach contract stepped
      exact step_follows reach contract stepped
  refine ⟨plainRun, fun t m inside => ?_⟩
  have point := (contract_intact (.of_run actions (.init created) along ran)).point t
  rw [← plain_content plainRun]
  obtain here | here := inside
  · rw [here] at point
    exact ⟨by simp [plainView, here, openAccess], point.2.1⟩
  · rw [here] at point
    exact ⟨by simp [plainView, here, openAccess], point.2.1⟩

theorem reclaimed_page_shows_modification :
    ∃ s : State Bool oneByte.len, (accesses oneByte).run (fresh Bool) modifiedThenRead = some s ∧
      s.obj.region.content ⟨0, oneByte.len_pos⟩ = 9 ∧
      (plainMemory (sections Bool) oneByte.len).run (plainView (fresh Bool))
        ((accesses oneByte).events (plainEvent oneByte) (fresh Bool) modifiedThenRead) = some (plainView s) := by
  have ends : ((accesses oneByte).run (fresh Bool) modifiedThenRead).map (fun s => s.pc false) =
      some (.inside .read) := by rfl
  obtain ⟨s, ran, inside⟩ := Option.map_eq_some_iff.mp ends
  have along : (accesses oneByte).Along Contract (fresh Bool) modifiedThenRead :=
    System.along_of_checks contractHolds_sound (by decide)
  obtain ⟨plain, shown⟩ := reclaim_is_invisible oneByte (fresh_created Bool) along ran
  obtain ⟨-, content⟩ := shown false .read (.inl inside)
  refine ⟨s, ran, ?_, plain⟩
  rw [content]
  decide

end MemoryUtils.C
