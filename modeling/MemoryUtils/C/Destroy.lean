import MemoryUtils.Lib.System
import MemoryUtils.Lib.RwLock
import MemoryUtils.Common.Region

/-!
A thread that ends its access next to one that destroys the object. `EndAccessPurgMem` gives the
rwlock back before its `UxptePut`, so the write lock that `PurgMemDestroy` takes does not cover
the last part of an End.
-/

namespace MemoryUtils.C.Destroy
open Lib

inductive Party where
  | ender | destroyer
  deriving DecidableEq

/-- The pointers of the object, each null or not, and `released`: the page table or the object
itself has been given back. -/
structure Obj where
  rwlock : RwLock Party
  builder : Bool
  dataPtr : Bool
  uxPageTable : Bool
  tableInit : Bool
  refcnt : Nat → Int
  released : Bool

inductive EndPc where
  | inside
  | check
  | unlock
  | loadArgs
  | rangeCheck (dataPtr : Bool)
  | putUxpteAt (i : Nat)
  | returned
  deriving DecidableEq

inductive DestroyPc where
  | idle
  | wrlock
  | builder
  | munmap (err : Bool)
  | deinit (err : Bool)
  | freeTable (err : Bool)
  | unlock (err : Bool)
  | rwlockDestroy
  | freeObj
  | returned (ok : Bool)
  deriving DecidableEq

structure State where
  obj : Obj
  ender : EndPc
  destroyer : DestroyPc

def isPurgMemPtrValid (o : Obj) : Bool := o.dataPtr && o.uxPageTable && o.builder

/-- `EndAccessPurgMem`, from the open access to its return. -/
def endStep (S : Setup) (o : Obj) : EndPc → Option (Obj × EndPc)
  | .inside => some (o, .check)
  | .check => some (o, if isPurgMemPtrValid o then .unlock else .returned)
  | .unlock => some ({ o with rwlock := o.rwlock.unlock .ender }, .loadArgs)
  | .loadArgs =>
    -- `UxpteOps` does nothing with a null table.
    some (o, if S.supportUxpt && o.uxPageTable then .rangeCheck o.dataPtr else .returned)
  | .rangeCheck dataPtr =>
    -- A table that was set back to address 0 and size 0, or a null address, is out of range.
    some (o, if dataPtr && o.tableInit then .putUxpteAt 0 else .returned)
  | .putUxpteAt i =>
    some ({ o with refcnt := Function.update o.refcnt i (o.refcnt i - 1) },
      if i + 1 < S.pages then .putUxpteAt (i + 1) else .returned)
  | .returned => none

/-- `PurgMemDestroy`; `ok` is the outcome of the call that the step makes. -/
def destroyStep (S : Setup) (o : Obj) (ok : Bool) : DestroyPc → Option (Obj × DestroyPc)
  | .idle | .returned false => some (o, .wrlock)
  | .wrlock =>
    if ok then (o.rwlock.wrlock .destroyer).map fun l => ({ o with rwlock := l }, .builder)
    else some (o, .returned false)
  | .builder =>
    if o.builder then some ({ o with builder := !ok }, .munmap !ok) else some (o, .munmap false)
  | .munmap err =>
    if o.dataPtr then some ({ o with dataPtr := !ok }, .deinit (err || !ok)) else some (o, .deinit err)
  | .deinit err =>
    if o.uxPageTable then
      if !S.supportUxpt then some (o, .freeTable err)
      else if ok then some ({ o with tableInit := false, released := true }, .freeTable err)
      else some (o, .unlock true)
    else some (o, .unlock err)
  | .freeTable err => some ({ o with uxPageTable := false, released := true }, .unlock err)
  | .unlock err =>
    some ({ o with rwlock := o.rwlock.unlock .destroyer }, if err then .returned false else .rwlockDestroy)
  | .rwlockDestroy => some (o, .freeObj)
  | .freeObj => some ({ o with released := true }, .returned true)
  | .returned true => none

inductive Action where
  | ender
  | destroyer (ok : Bool)

def step (S : Setup) (s : State) : Action → Option State
  | .ender => (endStep S s.obj s.ender).map fun (o, pc) => { s with obj := o, ender := pc }
  | .destroyer ok =>
    (destroyStep S s.obj ok s.destroyer).map fun (o, pc) => { s with obj := o, destroyer := pc }

def endMode (m : Mode) : EndPc → Option Mode
  | .inside | .check | .unlock => some m
  | _ => none

def destroyMode : DestroyPc → Option Mode
  | .builder | .munmap _ | .deinit _ | .freeTable _ | .unlock _ => some .write
  | _ => none

def lockMode (m : Mode) (s : State) : Party → Option Mode
  | .ender => endMode m s.ender
  | .destroyer => destroyMode s.destroyer

/-- A Begin has returned true and nobody has called `PurgMemDestroy` yet. -/
def Opened (s : State) : Prop :=
  isPurgMemPtrValid s.obj = true ∧ s.obj.tableInit = true ∧ s.obj.released = false ∧
    s.ender = .inside ∧ s.destroyer = .idle ∧ ∃ m, s.obj.rwlock.Agrees (lockMode m s)

def endings (S : Setup) : System State Action := { init := Opened, step := step S }

variable {S : Setup} {s s' : State}

theorem step_cases {a : Action} (h : step S s a = some s') :
    (∃ o pc, a = .ender ∧ endStep S s.obj s.ender = some (o, pc) ∧
      s' = { s with obj := o, ender := pc }) ∨
    (∃ ok o pc, a = .destroyer ok ∧ destroyStep S s.obj ok s.destroyer = some (o, pc) ∧
      s' = { s with obj := o, destroyer := pc }) := by
  cases a with
  | ender =>
    obtain ⟨⟨o, pc⟩, stepped, rfl⟩ := Option.map_eq_some_iff.mp h
    exact .inl ⟨o, pc, rfl, stepped, rfl⟩
  | destroyer ok =>
    obtain ⟨⟨o, pc⟩, stepped, rfl⟩ := Option.map_eq_some_iff.mp h
    exact .inr ⟨ok, o, pc, rfl, stepped, rfl⟩

/-! ### The write lock waits for the unlock of an End -/

def locked : DestroyPc → Bool
  | .idle | .wrlock | .returned false => false
  | _ => true

theorem endStep_spec {o o' : Obj} {pc pc' : EndPc} (m : Mode) (h : endStep S o pc = some (o', pc'))
    (valid : endMode m pc ≠ none → isPurgMemPtrValid o = true) :
    o'.released = o.released ∧ isPurgMemPtrValid o' = isPurgMemPtrValid o ∧
      ((o'.rwlock = o.rwlock ∧ endMode m pc' = endMode m pc) ∨
        (endMode m pc ≠ none ∧ o'.rwlock = o.rwlock.unlock .ender ∧ endMode m pc' = none)) := by
  cases pc with
  | check =>
    have intact := valid (by simp [endMode])
    simp only [endStep, intact, if_true, Option.some.injEq, Prod.mk.injEq] at h
    obtain ⟨rfl, rfl⟩ := h
    exact ⟨rfl, rfl, .inl ⟨rfl, rfl⟩⟩
  | unlock =>
    simp only [endStep, Option.some.injEq, Prod.mk.injEq] at h
    obtain ⟨rfl, rfl⟩ := h
    exact ⟨rfl, rfl, .inr ⟨by simp [endMode], rfl, rfl⟩⟩
  | returned => simp [endStep] at h
  | _ =>
    simp only [endStep, Option.some.injEq, Prod.mk.injEq] at h
    obtain ⟨rfl, rfl⟩ := h
    refine ⟨rfl, rfl, .inl ⟨rfl, ?_⟩⟩
    try split
    all_goals rfl

theorem destroyStep_spec {o o' : Obj} {ok : Bool} {pc pc' : DestroyPc}
    (h : destroyStep S o ok pc = some (o', pc')) :
    (locked pc = false → o'.released = o.released ∧ isPurgMemPtrValid o' = isPurgMemPtrValid o) ∧
      (o.released = true → o'.released = true) ∧
      ((o'.rwlock = o.rwlock ∧ destroyMode pc' = destroyMode pc ∧ (locked pc' = true → locked pc = true)) ∨
        (o.rwlock.wrlock .destroyer = some o'.rwlock ∧ destroyMode pc' = some .write) ∨
        (destroyMode pc ≠ none ∧ o'.rwlock = o.rwlock.unlock .destroyer ∧ destroyMode pc' = none)) := by
  cases pc with
  | wrlock =>
    cases ok with
    | true =>
      obtain ⟨l, taken, same⟩ := Option.map_eq_some_iff.mp h
      cases same
      exact ⟨fun _ => ⟨rfl, rfl⟩, id, .inr (.inl ⟨taken, rfl⟩)⟩
    | false =>
      cases h
      exact ⟨fun _ => ⟨rfl, rfl⟩, id, .inl ⟨rfl, rfl, id⟩⟩
  | unlock err =>
    cases h
    refine ⟨fun before => absurd before (by simp [locked]), id, .inr (.inr ⟨by simp [destroyMode], rfl, ?_⟩)⟩
    cases err <;> rfl
  | idle =>
    cases h
    exact ⟨fun _ => ⟨rfl, rfl⟩, id, .inl ⟨rfl, rfl, id⟩⟩
  | returned done =>
    cases done with
    | true => cases h
    | false =>
      cases h
      exact ⟨fun _ => ⟨rfl, rfl⟩, id, .inl ⟨rfl, rfl, id⟩⟩
  | _ =>
    refine ⟨fun before => absurd before (by simp [locked]), ?_⟩
    simp only [destroyStep] at h
    repeat' split at h
    all_goals
      cases h
      exact ⟨fun released => by simp [released], .inl ⟨rfl, rfl, fun _ => rfl⟩⟩

/-- Once `PurgMemDestroy` has the lock, and as long as anything is released, the ending thread is
past its unlock. -/
structure Waited (m : Mode) (s : State) : Prop where
  agrees : s.obj.rwlock.Agrees (lockMode m s)
  intact : endMode m s.ender ≠ none → isPurgMemPtrValid s.obj = true
  unlocked : locked s.destroyer = true ∨ s.obj.released = true → endMode m s.ender = none

theorem lockMode_ender (m : Mode) (o : Obj) (pc : EndPc) :
    lockMode m { s with obj := o, ender := pc } = Function.update (lockMode m s) .ender (endMode m pc) := by
  funext p
  cases p <;> simp [lockMode]

theorem lockMode_destroyer (m : Mode) (o : Obj) (pc : DestroyPc) :
    lockMode m { s with obj := o, destroyer := pc }
      = Function.update (lockMode m s) .destroyer (destroyMode pc) := by
  funext p
  cases p <;> simp [lockMode]

theorem step_waited {m : Mode} {a : Action} (waited : Waited m s) (h : step S s a = some s') :
    Waited m s' := by
  obtain ⟨agrees, intact, unlocked⟩ := waited
  obtain ⟨o, pc, rfl, stepped, rfl⟩ | ⟨ok, o, pc, rfl, stepped, rfl⟩ := step_cases h
  · obtain ⟨released, valid, lock⟩ := endStep_spec m stepped intact
    have mode : endMode m pc = endMode m s.ender ∨ endMode m pc = none :=
      lock.imp (·.2) (·.2.2)
    refine ⟨?_, ?_, ?_⟩
    · rw [lockMode_ender]
      obtain ⟨same, kept⟩ | ⟨held, given, none_left⟩ := lock
      · rw [same]
        exact agrees.same kept
      · rw [given, none_left]
        exact agrees.unlock held
    · intro held
      rw [valid]
      refine intact fun before => held ?_
      rcases mode with same | gone
      · exact same.trans before
      · exact gone
    · intro past
      rw [released] at past
      rcases mode with same | gone
      · exact same.trans (unlocked past)
      · exact gone
  · obtain ⟨before, -, lock⟩ := destroyStep_spec stepped
    have agreed : o.rwlock.Agrees (lockMode m { s with obj := o, destroyer := pc }) := by
      rw [lockMode_destroyer]
      obtain ⟨same, kept, -⟩ | ⟨taken, writes⟩ | ⟨held, given, none_left⟩ := lock
      · rw [same]
        exact agrees.same kept
      · rw [writes]
        exact agrees.wrlock taken
      · rw [given, none_left]
        exact agrees.unlock held
    have gone : locked pc = true → endMode m s.ender = none := by
      intro past
      obtain ⟨-, -, was⟩ | ⟨-, writes⟩ | ⟨held, -⟩ := lock
      · exact unlocked (.inl (was past))
      · have writing : lockMode m { s with obj := o, destroyer := pc } .destroyer = some .write := writes
        exact agreed.exclusive writing (u := .ender) (by decide)
      · refine unlocked (.inl ?_)
        revert held
        cases s.destroyer <;> simp [destroyMode, locked]
    refine ⟨agreed, ?_, ?_⟩
    · intro held
      cases past : locked s.destroyer with
      | true => exact absurd (unlocked (.inl past)) held
      | false => exact ((before past).2).trans (intact held)
    · rintro (past | released)
      · exact gone past
      · cases past : locked s.destroyer with
        | true => exact unlocked (.inl past)
        | false => exact unlocked (.inr ((before past).1 ▸ released))

theorem opened_waited (opened : Opened s) : ∃ m, Waited m s := by
  obtain ⟨valid, -, alive, inside, idle, m, agrees⟩ := opened
  refine ⟨m, agrees, fun _ => valid, ?_⟩
  rintro (past | released)
  · rw [idle] at past
    cases past
  · rw [alive] at released
    cases released

/-! ### The end of an End -/

def ending : EndPc → Bool
  | .loadArgs | .rangeCheck _ | .putUxpteAt _ => true
  | _ => false

def UsesLive (S : Setup) (s : State) (a : Action) : Prop :=
  ∀ s', a = .ender → step S s a = some s' → s.obj.released = false

/-- The first release does not fall between the unlock of the End and its return. -/
def SparesEnding (S : Setup) (s : State) (a : Action) : Prop :=
  ∀ s', step S s a = some s' → s.obj.released = false → s'.obj.released = true →
    ending s.ender = false

theorem returned_of_not_ending {m : Mode} {pc : EndPc} (unlocked : endMode m pc = none)
    (spared : ending pc = false) : pc = .returned := by
  cases pc <;> simp_all [endMode, ending]

theorem released_of_ender {o : Obj} {pc : EndPc} (h : endStep S s.obj s.ender = some (o, pc)) :
    o.released = s.obj.released := by
  cases at_ : s.ender <;> rw [at_] at h <;> cases h <;> rfl

structure Spared (m : Mode) (s : State) : Prop where
  waited : Waited m s
  returned : s.obj.released = true → s.ender = .returned

theorem step_spared {m : Mode} {a : Action} (spared : Spared m s) (spares : SparesEnding S s a)
    (h : step S s a = some s') : Spared m s' := by
  have waited := step_waited spared.waited h
  refine ⟨waited, fun released => ?_⟩
  obtain ⟨o, pc, rfl, stepped, rfl⟩ | ⟨ok, o, pc, rfl, stepped, rfl⟩ := step_cases h
  · have before := (released_of_ender stepped).symm.trans released
    rw [spared.returned before] at stepped
    cases stepped
  · cases before : s.obj.released with
    | true => exact spared.returned before
    | false => exact returned_of_not_ending (waited.unlocked (.inr released)) (spares _ h before released)

theorem Spared.usesLive {m : Mode} (spared : Spared m s) (a : Action) : UsesLive S s a := by
  intro s' isEnder h
  subst isEnder
  obtain ⟨⟨o, pc⟩, stepped, -⟩ := Option.map_eq_some_iff.mp h
  cases released : s.obj.released with
  | false => rfl
  | true =>
    rw [spared.returned released] at stepped
    cases stepped

theorem reach_spared (reach : (endings S).Reach (SparesEnding S) s) : ∃ m, Spared m s := by
  refine reach.invariant (P := fun s => ∃ m, Spared m s) (fun t opened => ?_)
    fun t a t' spared spares h => ?_
  · obtain ⟨m, waited⟩ := opened_waited opened
    refine ⟨m, waited, fun released => ?_⟩
    rw [opened.2.2.1] at released
    cases released
  · obtain ⟨m, spared⟩ := spared
    exact ⟨m, step_spared spared spares h⟩

theorem stuck_of_released {actions : List Action} (released : s.obj.released = true)
    (live : (endings S).Along (UsesLive S) s actions) (ran : (endings S).run s actions = some s') :
    s'.ender = s.ender := by
  induction actions generalizing s with
  | nil =>
    cases ran
    rfl
  | cons a rest ih =>
    obtain ⟨next, stepped, ran⟩ := Option.bind_eq_some_iff.mp ran
    obtain ⟨o, pc, rfl, -, -⟩ | ⟨ok, o, pc, rfl, destroyed, rfl⟩ := step_cases stepped
    · have alive := live.1 next rfl stepped
      rw [released] at alive
      cases alive
    · have last := ih ((destroyStep_spec destroyed).2.1 released) (live.2 _ stepped) ran
      exact last

theorem spares_of_live {actions : List Action} (live : (endings S).Along (UsesLive S) s actions)
    (ran : (endings S).run s actions = some s') (returned : s'.ender = .returned) :
    (endings S).Along (SparesEnding S) s actions := by
  induction actions generalizing s with
  | nil => trivial
  | cons a rest ih =>
    obtain ⟨next, stepped, ran⟩ := Option.bind_eq_some_iff.mp ran
    have tail := live.2 next stepped
    refine ⟨fun t again alive released => ?_, fun t again => ?_⟩
    · obtain rfl := Option.some.inj (stepped.symm.trans again)
      have last := stuck_of_released released tail ran
      obtain ⟨o, pc, rfl, ended, rfl⟩ | ⟨ok, o, pc, rfl, -, rfl⟩ := step_cases stepped
      · rw [← released_of_ender ended, released] at alive
        cases alive
      · rw [← last, returned]
        rfl
    · obtain rfl := Option.some.inj (stepped.symm.trans again)
      exact ih tail ran

/-- No step of the ending thread follows a release in a run whose releases spare the part of the
End after its unlock; and in a run that completes the End there is no other way. -/
theorem end_runs_live_iff_release_spares_it (opened : Opened s) (actions : List Action) :
    ((endings S).Along (SparesEnding S) s actions → (endings S).Along (UsesLive S) s actions) ∧
      ∀ t, (endings S).run s actions = some t → t.ender = .returned →
        (endings S).Along (UsesLive S) s actions → (endings S).Along (SparesEnding S) s actions := by
  refine ⟨fun spares => ?_, fun t ran returned live => spares_of_live live ran returned⟩
  refine System.Reach.along (fun t a reach _ => ?_) (.init opened) spares
  obtain ⟨m, spared⟩ := reach_spared reach
  exact spared.usesLive a

def opened (m : Mode) : State :=
  { obj := { rwlock := match m with
               | .read => { readers := [.ender] }
               | .write => { writer := some .ender }
             builder := true, dataPtr := true, uxPageTable := true, tableInit := true
             refcnt := fun _ => 1, released := false }
    ender := .inside, destroyer := .idle }

theorem opened_opened (m : Mode) : Opened (opened m) := by
  refine ⟨rfl, rfl, rfl, rfl, rfl, m, ?_, ?_⟩
  · intro p k
    cases m <;> cases p <;> cases k <;> rfl
  · cases m <;> simp [opened]

def destroyWith (ok : Bool) (steps : Nat) : List Action := List.replicate steps (.destroyer ok)

def destroyAfterEnd : List Action :=
  .destroyer true :: List.replicate 6 .ender ++ destroyWith true 8

def sparesEnding (s : State) (a : Action) : Bool :=
  (step oneByte s a).all fun t => s.obj.released || !t.obj.released || !ending s.ender

theorem sparesEnding_sound (s : State) (a : Action) (h : sparesEnding s a = true) :
    SparesEnding oneByte s a := by
  intro t stepped alive released
  simpa [sparesEnding, stepped, alive, released] using h

theorem end_runs_live_before_destroy :
    (endings oneByte).Along (UsesLive oneByte) (opened .read) destroyAfterEnd :=
  (end_runs_live_iff_release_spares_it (opened_opened .read) destroyAfterEnd).1
    (System.along_of_checks sparesEnding_sound (by decide))

/-- The End has unlocked and loaded the table pointer when `PurgMemDestroy` gets the lock. -/
def destroyInsideEnd : List Action := List.replicate 4 .ender ++ destroyWith true 6

theorem end_reads_released_table :
    Opened (opened .read) ∧
      ((endings oneByte).run (opened .read) destroyInsideEnd).map
        (fun s => (s.ender, s.obj.released)) = some (.rangeCheck true, true) ∧
      ¬ (endings oneByte).Along (UsesLive oneByte) (opened .read) (destroyInsideEnd ++ [.ender]) := by
  have seen : ((endings oneByte).run (opened .read) destroyInsideEnd).map
      (fun s => (s.ender, s.obj.released)) = some (.rangeCheck true, true) := by decide
  refine ⟨opened_opened .read, seen, fun live => ?_⟩
  obtain ⟨s, ran, view⟩ := Option.map_eq_some_iff.mp seen
  obtain ⟨checking, released⟩ := Prod.mk.inj view
  have alive := live.after ran _ rfl (by rw [step, checking]; rfl)
  rw [released] at alive
  cases alive

end MemoryUtils.C.Destroy
