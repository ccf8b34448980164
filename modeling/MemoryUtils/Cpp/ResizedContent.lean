import MemoryUtils.Cpp.Resize
import MemoryUtils.FailedRebuild

/-!
The content after `ResizeData`. The new memory is zero while `buildDataCount_` still counts the
builds of the old one, so whether the next access rebuilds the content is left to the purged check:
the entries of new pages say absent, a new ashmem file says not purged.
-/

namespace MemoryUtils.Cpp
open Lib

variable {n : Nat} {D K : Type}

/-! ### Counting, whatever the page table -/

section Counting

variable {V : Virtuals n D K} {E : Env n K} {o : Base D}

theorem ifNeedRebuild_counted {t : Nat} (counted : Counted o) : Counted (ifNeedRebuild V E t o).1 := by
  unfold ifNeedRebuild
  split <;> exact counted

theorem buildContent_counted {t : Nat} (counted : Counted o) : Counted (buildContent V E t o).1 := by
  simp only [buildContent]
  split
  · split
    · change (o.buildDataCount + 1) % 2 ^ 32 = (o.rebuilds + 1) % 2 ^ 32
      rw [counted]
      omega
    · exact counted
  · exact counted

theorem rebuild_counted {t : Nat} {o₁ o₂ : Base D} {ok : Bool} (counted : Counted o)
    (need : ifNeedRebuild V E t o = (o₁, true)) (built : buildContent V E t o₁ = (o₂, ok)) : Counted o₂ := by
  have checked : Counted o₁ := by
    have kept := @ifNeedRebuild_counted n D K V E o t counted
    rw [need] at kept
    exact kept
  have kept := @buildContent_counted n D K V E o₁ t checked
  rw [built] at kept
  exact kept

theorem readLoop_counted {left t : Nat} {r : Base D × Bool} (loop : ReadLoop V E left t o r)
    (counted : Counted o) : Counted r.1 := by
  induction loop with
  | exhausted t o => exact counted
  | @present left t o o₁ need =>
    have kept := @ifNeedRebuild_counted n D K V E o t counted
    rw [need] at kept
    exact kept
  | failed need built => exact rebuild_counted counted need built
  | gaveUp need built last =>
    have kept := rebuild_counted counted need built
    exact kept
  | again need built rest ih =>
    have kept := rebuild_counted counted need built
    exact ih kept

theorem step_counted {s t : State D} {a : Action n K} (counted : Counted s.obj) (h : step V s a = some t) :
    Counted t.obj := by
  cases a with
  | beginRead E =>
    have begun := beginRead_cases V E s.obj
    cases h
    generalize beginRead V E s.obj = r at begun
    cases begun with
    | refused => exact counted
    | granted valid chain loop => exact readLoop_counted loop counted
    | denied chain loop => exact readLoop_counted loop counted
  | beginWrite E =>
    have begun := beginWrite_cases V E s.obj
    cases h
    generalize beginWrite V E s.obj = r at begun
    cases begun with
    | refused => exact counted
    | present chain need =>
      have kept := @ifNeedRebuild_counted n D K V E (pin V E s.obj) 0 counted
      rw [need] at kept
      exact kept
    | rebuilt chain need built =>
      have kept := rebuild_counted (o := pin V E s.obj) counted need built
      exact kept
    | failed chain need built =>
      have kept := rebuild_counted (o := pin V E s.obj) counted need built
      exact kept
  | endRead E =>
    obtain ⟨-, ⟨⟩⟩ := Option.ite_none_right_eq_some.mp h
    simp only [endRead]
    split <;> exact counted
  | endWrite E =>
    obtain ⟨-, ⟨⟩⟩ := Option.ite_none_right_eq_some.mp h
    exact counted
  | modify modifier E =>
    obtain ⟨count, rebuilds, -⟩ := modify_counters V E modifier s.obj
    cases h
    rw [Counted, count, rebuilds]
    exact counted
  | setDataValid target =>
    cases h
    exact counted
  | touch touched =>
    obtain ⟨-, ⟨⟩⟩ := Option.ite_none_right_eq_some.mp h
    exact counted
  | kernel k =>
    cases h
    exact counted

end Counting

/-- A new memory that nobody uses yet. What was built before has to be the replay at the new size as well. -/
theorem replaying_moved {n' : Nat} {D' : Type} {V' : Virtuals n' D' K} {G : Guard V'} {o : Base D} {d : D'}
    {dataPtr : Bool} {reads writes : Nat} (counted : Counted o) (closed : reads + writes = 0) (held : G.Held 0 d)
    (sound : o.buildDataCount ≠ 0 → Built G (o.moved d dataPtr)) :
    Replaying G { obj := o.moved d dataPtr, reads := reads, writes := writes } := by
  have none_ : State.opens { obj := o.moved d dataPtr, reads := reads, writes := writes } = 0 := closed
  refine ⟨?_, sound, fun opened => ?_, counted, fun opened => ?_⟩
  · rw [none_]
    exact held
  · omega
  · omega

/-- Every Begin that is granted in a guarded state shows the replay. -/
theorem Replaying.shown {V : Virtuals n D K} {G : Guard V} {s : State D} (replaying : Replaying G s)
    {E : Env n K} (lawful : E.Lawful G.lawful) (careful : Careful G E s.obj) {o : Base D}
    (granted : beginRead V E s.obj = (o, true) ∨ beginWrite V E s.obj = (o, true)) :
    V.content o.data = replay o.builder := by
  rcases granted with read | write
  · have begun := beginRead_begun lawful (beginRead_cases V E s.obj) replaying.held replaying.sound careful
    rw [read] at begun
    exact (begun.granted rfl).2.1
  · have begun := beginWrite_begun lawful (beginWrite_cases V E s.obj) replaying.held replaying.sound careful
    rw [write] at begun
    exact (begun.granted rfl).2.1

/-! ### `PurgeableMem` -/

namespace PurgeableMem

/-- A size is changed while no access is open; and what was built before can be rebuilt at the new size,
if the new memory and its page table are there, because the system has uxpt and the builders succeed. -/
def ResizeUsage (x : Object resizable) : Call resizable → Prop
  | .access a => x.index.pageTable = .ready → Usage lawful FailsOnlyUnbuilt x.state (a x.index)
  | .resizeData newSize c =>
    x.state.opens = 0 ∧ (0 < newSize → newSize < maximumPurgeableMemory →
      c.pageTable x.index.setup.supportUxpt = .ready → x.state.obj.buildDataCount = 0 ∨
        x.index.setup.supportUxpt = true ∧ Replays x.state.obj.builder (zeros : Content newSize))

def Sized (x : Object resizable) : Prop :=
  Counted x.state.obj ∧ (x.index.pageTable = .ready → Replaying (guard x.index.setup) x.state)

theorem careful_of_failsOnlyUnbuilt {S : Setup} (E : Env S.len PageStep) (o : Base (Region S.len))
    (unbuilt : FailsOnlyUnbuilt E o) : Careful (guard S) E o :=
  fun nonzero => .inr (unbuilt nonzero)

/-- No page of a new memory is present, so there is nothing in it that could differ from the replay. -/
theorem built_absent {S : Setup} (supported : S.supportUxpt = true) (small : S.len < maximumPurgeableMemory)
    {o : Base (Region S.len)} (absent : ∀ p, o.data.present p = false) (finished : o.rebuildFailed = false)
    (replays : Replays o.builder (zeros : Content S.len)) : Built (guard S) o := by
  refine ⟨memset_fits S.len_pos small, replays, fun i kept => ?_, .inr finished⟩
  have below : pageOf i < S.pages := by
    have inside := i.isLt
    rw [pageOf, Setup.pages, supported, if_pos rfl, Setup.pageCount, roundUp_page S.len_fits, pageSize_eq]
    omega
  rw [absent] at kept
  exact absurd (kept below) (by decide)

theorem step_sized {x y : Object resizable} {a : Call resizable} (sized : Sized x) (usage : ResizeUsage x a)
    (h : resizable.calls.step x a = some y) : Sized y := by
  obtain ⟨counted, replaying⟩ := sized
  cases a with
  | access a =>
    obtain ⟨t, stepped, rfl⟩ := Option.map_eq_some_iff.mp h
    refine ⟨step_counted counted stepped, fun ready => ?_⟩
    obtain ⟨⟨S, pageTable⟩, s⟩ := x
    obtain rfl : pageTable = .ready := ready
    exact step_replaying (replaying rfl) ((usage rfl).imp careful_of_failsOnlyUnbuilt) stepped
  | resizeData newSize c =>
    obtain ⟨closed, rebuildable⟩ := usage
    cases h
    rw [resizeData]
    split
    · rename_i accepted
      refine ⟨counted, fun ready => replaying_moved counted closed (fun p _ => le_rfl) fun nonzero => ?_⟩
      obtain ⟨supported, replays⟩ := (rebuildable accepted.1 accepted.2 ready).resolve_left nonzero
      refine built_absent ?_ ?_ (fun _ => rfl) rfl replays
      · exact supported
      · exact accepted.2
    · exact ⟨counted, replaying⟩

theorem reach_sized {x : Object resizable} (reach : resizable.calls.Reach ResizeUsage x) : Sized x := by
  refine reach.invariant (fun x initial => ?_) fun _ _ _ => step_sized
  have start := initial
  obtain ⟨fresh, -, count, -, rebuilds, reads, writes⟩ := initial
  refine ⟨by simp [Counted, count, rebuilds], fun ready => ?_⟩
  obtain ⟨⟨S, pageTable⟩, s⟩ := x
  obtain rfl : pageTable = .ready := ready
  exact reach_replaying (fun r fresh p _ => (fresh p).ge) (.init start)

end PurgeableMem

/-! ### `PurgeableAshMem` -/

namespace PurgeableAshMem

variable {isSupport : Bool}

/-- A size is changed while no access is open, and before anything was built. -/
def ResizeUsage (x : Object (resizable isSupport)) : Call (resizable isSupport) → Prop
  | .access a => Usage lawful (fun _ _ => True) x.state (a x.index)
  | .resizeData newSize c =>
    x.state.opens = 0 ∧ (0 < newSize → newSize < maximumPurgeableMemory →
      0 ≤ c.fd → c.protSet = true → c.mapped = true → x.state.obj.buildDataCount = 0)

/-- Where the last creation failed there is no data and no access. -/
def Sized (x : Object (resizable isSupport)) : Prop :=
  Counted x.state.obj ∧
    (Replaying (guard x.index.dataSizeInput isSupport x.index.ashmemFd) x.state ∨
      x.state.obj.dataPtr = false ∧ x.state.opens = 0)

theorem created_fresh (i : Index) (newSize : Nat) (c : AshmemCreation) :
    (createPurgeableData isSupport i newSize c).2.2 = false ∨
      (0 ≤ c.fd ∧ c.protSet = true ∧ c.mapped = true) ∧
        Fresh isSupport (createPurgeableData isSupport i newSize c).1.ashmemFd
          (createPurgeableData isSupport i newSize c).2.1 := by
  generalize shape : createPurgeableData isSupport i newSize c = created
  unfold createPurgeableData at shape
  split at shape
  · subst shape
    exact .inl rfl
  · rename_i opened
    simp only [not_or, Int.not_lt, Bool.not_eq_false] at opened
    split at shape
    · subst shape
      exact .inl rfl
    · rename_i mapped
      subst shape
      exact .inr ⟨⟨opened.1, opened.2, by simpa using mapped⟩, _, rfl, rfl, rfl⟩

theorem step_absent {n : Nat} {V : Virtuals n (Ashmem n) AshmemStep} {s t : State (Ashmem n)}
    {a : Action n AshmemStep} (usage : Usage lawful (fun _ _ => True) s a) (absent : s.obj.dataPtr = false)
    (closed : s.opens = 0) (h : step V s a = some t) : t.obj.dataPtr = false ∧ t.opens = 0 := by
  have access : a.isAccess = true := by
    cases a with
    | modify modifier E =>
      have writing := usage.2.1
      unfold State.opens at closed
      omega
    | _ => rfl
  obtain ⟨-, dataPtr, still, -⟩ := step_refused (.inr absent) closed access h
  exact ⟨dataPtr.trans absent, still⟩

theorem step_sized {x y : Object (resizable isSupport)} {a : Call (resizable isSupport)} (sized : Sized x)
    (usage : ResizeUsage x a) (h : (resizable isSupport).calls.step x a = some y) : Sized y := by
  obtain ⟨counted, replaying⟩ := sized
  cases a with
  | access a =>
    obtain ⟨t, stepped, rfl⟩ := Option.map_eq_some_iff.mp h
    refine ⟨step_counted counted stepped, ?_⟩
    have usage : Usage lawful (fun _ _ => True) x.state (a x.index) := usage
    rcases replaying with replaying | ⟨absent, closed⟩
    · exact .inl (step_replaying replaying (usage.imp fun E o _ _ => .inl trivial) stepped)
    · exact .inr (step_absent usage absent closed stepped)
  | resizeData newSize c =>
    obtain ⟨closed, unbuilt⟩ := usage
    cases h
    rw [resizeData]
    split
    · rename_i accepted
      refine ⟨counted, ?_⟩
      rcases created_fresh x.index newSize c with failed | ⟨⟨opened, protSet, mapped⟩, fresh⟩
      · exact .inr ⟨failed, closed⟩
      · have zero := unbuilt accepted.1 accepted.2 opened protSet mapped
        exact .inl (replaying_moved counted closed (held_of_fresh fresh) fun nonzero => absurd zero nonzero)
    · exact ⟨counted, replaying⟩

theorem reach_sized {x : Object (resizable isSupport)} (reach : (resizable isSupport).calls.Reach ResizeUsage x) :
    Sized x := by
  refine reach.invariant (fun x initial => ?_) fun _ _ _ => step_sized
  have start := initial
  obtain ⟨-, -, count, -, rebuilds, -, -⟩ := initial
  refine ⟨by simp [Counted, count, rebuilds], .inl ?_⟩
  exact reach_replaying (fun d fresh => held_of_fresh fresh) (.init start)

end PurgeableAshMem

/-- An access that is granted shows the replay of the builders at the size the object has now, if each
resize so far came before anything was built, or replaced pages that the next access finds absent. -/
theorem resized_access_shows_replay (isSupport : Bool) :
    (∀ x, PurgeableMem.resizable.calls.Reach PurgeableMem.ResizeUsage x → x.index.pageTable = .ready →
      ∀ E : Env x.index.setup.len PageStep, E.Lawful PurgeableMem.lawful → FailsOnlyUnbuilt E x.state.obj →
      ∀ o, beginRead (PurgeableMem.resizable.virtuals x.index) E x.state.obj = (o, true) ∨
          beginWrite (PurgeableMem.resizable.virtuals x.index) E x.state.obj = (o, true) →
        Region.content o.data = replay o.builder) ∧
    ∀ x, (PurgeableAshMem.resizable isSupport).calls.Reach PurgeableAshMem.ResizeUsage x →
      ∀ E : Env x.index.dataSizeInput AshmemStep, E.Lawful PurgeableAshMem.lawful →
      ∀ o, beginRead ((PurgeableAshMem.resizable isSupport).virtuals x.index) E x.state.obj = (o, true) ∨
          beginWrite ((PurgeableAshMem.resizable isSupport).virtuals x.index) E x.state.obj = (o, true) →
        Ashmem.content o.data = replay o.builder := by
  constructor
  · rintro ⟨⟨S, pageTable⟩, s⟩ reach ready E lawful unbuilt o granted
    obtain rfl : pageTable = .ready := ready
    have replaying := (PurgeableMem.reach_sized reach).2 rfl
    exact replaying.shown lawful (PurgeableMem.careful_of_failsOnlyUnbuilt E _ unbuilt) granted
  · intro x reach E lawful o granted
    rcases (PurgeableAshMem.reach_sized reach).2 with replaying | ⟨absent, closed⟩
    · exact replaying.shown lawful (fun _ => .inl trivial) granted
    · simp [beginRead, beginWrite, absent] at granted

/-! ### A read, a resize and a read -/

namespace PurgeableMem

def filled (supportUxpt : Bool) : Object resizable :=
  ⟨⟨{ oneByte with supportUxpt := supportUxpt }, .ready⟩,
    { obj := { data := ⟨zeros, fun _ => {}⟩, dataPtr := true, builder := [fill 7] } }⟩

theorem filled_init (supportUxpt : Bool) : resizable.calls.init (filled supportUxpt) :=
  ⟨fun _ => rfl, rfl, rfl, rfl, rfl, rfl, rfl⟩

def readThenResize : List (Call resizable) :=
  [.access fun _ => .beginRead {}, .access fun _ => .endRead {}, .resizeData 2 {}]

theorem readThenResize_usage : resizable.calls.Along ResizeUsage (filled true) readThenResize := by
  refine ⟨fun _ => ⟨fun _ => undisturbed rfl, fun _ _ _ => rfl⟩, fun x read => ?_⟩
  cases read
  refine ⟨fun _ _ => undisturbed rfl, fun x ended => ?_⟩
  cases ended
  exact ⟨⟨rfl, fun _ _ _ => .inr ⟨rfl, rfl, trivial⟩⟩, fun _ _ => trivial⟩

end PurgeableMem

namespace PurgeableAshMem

def filled : Object (resizable true) := ⟨⟨1, 3⟩, freshAsh⟩

def readThenResize : List (Call (resizable true)) :=
  [.access fun _ => .beginRead {}, .access fun _ => .endRead {}, .resizeData 2 { fd := 4 }]

end PurgeableAshMem

theorem read_after_resize_shows_replay : ∃ x o, PurgeableMem.resizable.calls.Reach PurgeableMem.ResizeUsage x ∧
    x.index.setup.len = 2 ∧ x.state.obj.buildDataCount = 1 ∧
    beginRead (PurgeableMem.resizable.virtuals x.index) {} x.state.obj = (o, true) ∧
    Region.content o.data = replay o.builder := by
  have seen : (PurgeableMem.resizable.calls.run (PurgeableMem.filled true) PurgeableMem.readThenResize).map
      (fun x => (x.index.setup.len, x.index.pageTable, x.state.obj.buildDataCount,
        (beginRead (PurgeableMem.resizable.virtuals x.index) {} x.state.obj).2)) = some (2, .ready, 1, true) := by
    decide
  obtain ⟨x, ran, view⟩ := Option.map_eq_some_iff.mp seen
  simp only [Prod.mk.injEq] at view
  obtain ⟨size, ready, count, granted⟩ := view
  have reach : PurgeableMem.resizable.calls.Reach PurgeableMem.ResizeUsage x :=
    .of_run _ (.init (PurgeableMem.filled_init true)) PurgeableMem.readThenResize_usage ran
  refine ⟨x, _, reach, size, count, Prod.ext rfl granted, ?_⟩
  exact (resized_access_shows_replay true).1 x reach ready {} (fun _ => undisturbed rfl) (fun _ _ _ => rfl) _
    (.inl (Prod.ext rfl granted))

/-- Without uxpt, and on an ashmem file, the read after the resize is granted with the zeros of the new
memory. -/
theorem read_after_resize_shows_zeros :
    (PurgeableMem.resizable.calls.init (PurgeableMem.filled false) ∧
      ∃ x, PurgeableMem.resizable.calls.run (PurgeableMem.filled false) PurgeableMem.readThenResize = some x ∧
        x.state.opens = 0 ∧ x.index.setup.len = 2 ∧
        (beginRead (PurgeableMem.resizable.virtuals x.index) {} x.state.obj).2 = true ∧
        Region.content (beginRead (PurgeableMem.resizable.virtuals x.index) {} x.state.obj).1.data
          ≠ replay x.state.obj.builder) ∧
    (PurgeableAshMem.resizable true).calls.init PurgeableAshMem.filled ∧
      ∃ x, (PurgeableAshMem.resizable true).calls.run PurgeableAshMem.filled PurgeableAshMem.readThenResize = some x ∧
        x.state.opens = 0 ∧ x.index.dataSizeInput = 2 ∧
        (beginRead ((PurgeableAshMem.resizable true).virtuals x.index) {} x.state.obj).2 = true ∧
        Ashmem.content (beginRead ((PurgeableAshMem.resizable true).virtuals x.index) {} x.state.obj).1.data
          ≠ replay x.state.obj.builder := by
  refine ⟨⟨PurgeableMem.filled_init false, ?_⟩, PurgeableAshMem.freshAsh_init, ?_⟩
  · have seen : (PurgeableMem.resizable.calls.run (PurgeableMem.filled false) PurgeableMem.readThenResize).map
        (fun x => (x.state.opens, x.index.setup.len,
          (beginRead (PurgeableMem.resizable.virtuals x.index) {} x.state.obj).2,
          decide (Region.content (beginRead (PurgeableMem.resizable.virtuals x.index) {} x.state.obj).1.data
            = replay x.state.obj.builder))) = some (0, 2, true, false) := by decide
    obtain ⟨x, ran, view⟩ := Option.map_eq_some_iff.mp seen
    simp only [Prod.mk.injEq, decide_eq_false_iff_not] at view
    exact ⟨x, ran, view⟩
  · have seen : ((PurgeableAshMem.resizable true).calls.run PurgeableAshMem.filled
        PurgeableAshMem.readThenResize).map
        (fun x => (x.state.opens, x.index.dataSizeInput,
          (beginRead ((PurgeableAshMem.resizable true).virtuals x.index) {} x.state.obj).2,
          decide (Ashmem.content (beginRead ((PurgeableAshMem.resizable true).virtuals x.index) {} x.state.obj).1.data
            = replay x.state.obj.builder))) = some (0, 2, true, false) := by decide
    obtain ⟨x, ran, view⟩ := Option.map_eq_some_iff.mp seen
    simp only [Prod.mk.injEq, decide_eq_false_iff_not] at view
    exact ⟨x, ran, view⟩

end MemoryUtils.Cpp
