import MemoryUtils.Cpp.Contract
import MemoryUtils.Common.PlainMemory

/-!
The C++ classes refine plain memory too. Their accesses may overlap in any way, so plain memory only
counts them; a Begin that returns true opens one, an End closes one, and a modifier that returns true
changes the content. The rebuilds inside the calls and the work of the kernel are invisible.
-/

namespace MemoryUtils.Cpp
open Lib

inductive AccessEvent where
  | openRead | closeRead | openWrite | closeWrite

structure Opens where
  reads : Nat
  writes : Nat

def overlaps : Discipline Opens AccessEvent Unit where
  outside := ⟨0, 0⟩
  move g
    | .openRead => some { g with reads := g.reads + 1 }
    | .openWrite => some { g with writes := g.writes + 1 }
    | .closeRead => if 0 < g.reads then some { g with reads := g.reads - 1 } else none
    | .closeWrite => if 0 < g.writes then some { g with writes := g.writes - 1 } else none
  mayWrite g _ := decide (0 < g.writes)

variable {n : Nat} {D K : Type} {V : Virtuals n D K} {G : Guard V} {s t : State D} {a : Action n K}

def plainView (n : Nat) (s : State D) : PlainMemory Opens n where
  content := replay s.obj.builder
  accesses := ⟨s.reads, s.writes⟩

def plainEvent (V : Virtuals n D K) (s : State D) : Action n K → Option (PlainEvent AccessEvent Unit)
  | .beginRead E => if (beginRead V E s.obj).2 then some (.access (.openRead)) else none
  | .endRead _ => some (.access (.closeRead))
  | .beginWrite E => if (beginWrite V E s.obj).2 then some (.access (.openWrite)) else none
  | .endWrite _ => some (.access (.closeWrite))
  | .modify (some b) E =>
    if (modifyContentByBuilder V E (some b) s.obj).2 then some (.modify () b) else none
  | _ => none

/-! ### One call -/

theorem follows_access {o : Base D} {reads writes : Nat} {e : AccessEvent} (chain : o.builder = s.obj.builder)
    (moved : overlaps.move ⟨s.reads, s.writes⟩ e = some ⟨reads, writes⟩) :
    (plainMemory overlaps n).Follows (plainView n s) (plainView n { obj := o, reads := reads, writes := writes })
      (some (.access e)) := by
  refine (plainStep_access moved).trans ?_
  rw [plainView, plainView, chain]

theorem follows_stutter {o : Base D} (chain : o.builder = s.obj.builder) :
    (plainMemory overlaps n).Follows (plainView n s) (plainView n { s with obj := o }) none := by
  show plainView n _ = plainView n s
  rw [plainView, plainView, chain]

/-- A modifier that succeeded ran on the bytes of plain memory, so it is logged with what it left there. -/
theorem modify_follows {E : Env n K} {b : Builder} (replaying : Replaying G s)
    (usage : Usage G.lawful (Careful G) s (.modify (some b) E)) (few : s.obj.rebuilds < 2 ^ 32) :
    (plainMemory overlaps n).Follows (plainView n s)
      (plainView n { s with obj := (modifyContentByBuilder V E (some b) s.obj).1 })
      (plainEvent V s (.modify (some b) E)) := by
  obtain ⟨lawful, writing, -⟩ := usage
  have opened : 0 < s.opens := by
    unfold State.opens
    omega
  obtain ⟨m, -, held⟩ := replaying.exists_held opened
  have ran := build_ran lawful held 0 0 b
  have shown := replaying.content opened (replaying.count_ne_zero opened few)
  rw [plainEvent, modifyContentByBuilder]
  rcases result : build V E 0 0 b s.obj.data with ⟨d, _ | _⟩
  · rfl
  · rw [result] at ran
    obtain ⟨⟨succeeded, -⟩, -⟩ := ran.built rfl
    rw [shown] at succeeded
    refine (plainStep_modify (by simpa [overlaps, plainView] using writing) succeeded).trans ?_
    simp [plainView, replay, replayFrom_append]

theorem step_follows (replaying : Replaying G s) (usage : Usage G.lawful (Careful G) s a)
    (few : s.obj.rebuilds < 2 ^ 32) (h : step V s a = some t) :
    (plainMemory overlaps n).Follows (plainView n s) (plainView n t) (plainEvent V s a) := by
  cases a with
  | beginRead E =>
    have begun := beginRead_begun usage.1 (beginRead_cases V E s.obj) replaying.held replaying.sound usage.2
    cases h
    rw [plainEvent]
    cases (beginRead V E s.obj).2 with
    | true => exact follows_access begun.chain rfl
    | false => exact follows_stutter begun.chain
  | beginWrite E =>
    have begun := beginWrite_begun usage.1 (beginWrite_cases V E s.obj) replaying.held replaying.sound usage.2
    cases h
    rw [plainEvent]
    cases (beginWrite V E s.obj).2 with
    | true => exact follows_access begun.chain rfl
    | false => exact follows_stutter begun.chain
  | endRead E =>
    obtain ⟨opened, ⟨⟩⟩ := Option.ite_none_right_eq_some.mp h
    refine follows_access ?_ (if_pos opened)
    unfold endRead
    split <;> rfl
  | endWrite E =>
    obtain ⟨opened, ⟨⟩⟩ := Option.ite_none_right_eq_some.mp h
    exact follows_access rfl (if_pos opened)
  | modify modifier E =>
    cases h
    cases modifier with
    | none => exact follows_stutter rfl
    | some b => exact modify_follows replaying usage few
  | setDataValid target =>
    cases h
    exact follows_stutter rfl
  | touch touched =>
    obtain ⟨-, ⟨⟩⟩ := Option.ite_none_right_eq_some.mp h
    exact follows_stutter rfl
  | kernel k =>
    cases h
    exact follows_stutter rfl

theorem step_rebuilds (replaying : Replaying G s) (usage : Usage G.lawful (Careful G) s a)
    (h : step V s a = some t) : s.obj.rebuilds ≤ t.obj.rebuilds := by
  cases a with
  | beginRead E =>
    have begun := beginRead_begun usage.1 (beginRead_cases V E s.obj) replaying.held replaying.sound usage.2
    cases h
    exact begun.grows
  | beginWrite E =>
    have begun := beginWrite_begun usage.1 (beginWrite_cases V E s.obj) replaying.held replaying.sound usage.2
    cases h
    exact begun.grows
  | endRead E =>
    obtain ⟨-, ⟨⟩⟩ := Option.ite_none_right_eq_some.mp h
    unfold endRead
    split <;> exact le_rfl
  | endWrite E | touch touched =>
    obtain ⟨-, ⟨⟩⟩ := Option.ite_none_right_eq_some.mp h
    exact le_rfl
  | modify modifier E =>
    cases h
    exact (modify_counters V E modifier s.obj).2.1.ge
  | setDataValid target | kernel k =>
    cases h
    exact le_rfl

/-! ### Runs -/

/-- The events of a run are a run of plain memory, and an open access sees its content. -/
structure PlainRun (V : Virtuals n D K) (fresh : D → Prop) (s t : State D) (actions : List (Action n K)) :
    Prop where
  run : (plainMemory overlaps n).run (plainView n s) ((calls V fresh).events (plainEvent V) s actions)
    = some (plainView n t)
  content : 0 < t.opens → V.content t.obj.data =
    replayFrom (modifications ((calls V fresh).events (plainEvent V) s actions)) (replay s.obj.builder)

theorem Replaying.plainRun {fresh : D → Prop} {actions : List (Action n K)} (first : Replaying G s)
    (along : (calls V fresh).Along (Usage G.lawful (Careful G)) s actions)
    (ran : (calls V fresh).run s actions = some t) (few : t.obj.rebuilds < 2 ^ 32) :
    PlainRun V fresh s t actions := by
  have keep : ∀ s a t, Replaying G s → Usage G.lawful (Careful G) s a → (calls V fresh).step s a = some t →
      Replaying G t := fun s a t replaying usage stepped => step_replaying replaying usage stepped
  obtain ⟨-, bounded⟩ := System.along_below (w := fun s : State D => s.obj.rebuilds) keep
    (fun s a t replaying usage stepped => step_rebuilds replaying usage stepped) first along ran
  have plain : (plainMemory overlaps n).run (plainView n s)
      ((calls V fresh).events (plainEvent V) s actions) = some (plainView n t) := by
    refine System.run_simulates ?_ ?_ first bounded ran
    · intro s a t replaying usage stepped
      exact keep s a t replaying usage.1 stepped
    · intro s a t replaying usage stepped
      exact step_follows replaying usage.1 (usage.2.trans_lt few) stepped
  have last : Replaying G t := along.invariant keep first ran
  refine ⟨plain, fun opened => ?_⟩
  rw [last.content opened (last.count_ne_zero opened few)]
  exact plain_content plain

theorem plainRun_of_run {fresh : D → Prop} (unpinned : ∀ d, fresh d → G.Held 0 d)
    {actions : List (Action n K)} (initial : (calls V fresh).init s)
    (along : (calls V fresh).Along (Usage G.lawful (Careful G)) s actions)
    (ran : (calls V fresh).run s actions = some t) (few : t.obj.rebuilds < 2 ^ 32) :
    PlainRun V fresh s t actions := by
  have first : Replaying G s := reach_replaying unpinned (.init initial)
  exact first.plainRun along ran few

theorem fill_keeps (v : UInt8) : ({} : UserCall n).Keeps (fill v) := by
  intro c failed
  simp [UserCall.outcome, fill] at failed

namespace PurgeableMem

variable {S : Setup}

/-- A run with deterministic builders: whatever pages the kernel reclaims and whatever the calls
rebuild, the clients cannot tell the object from plain memory. -/
theorem reclaimed_pages_are_invisible {pageTable : PageTable}
    (usable : pageTable = .ready ∨ S.supportUxpt = false) {s t : State (Region S.len)}
    (initial : (calls (virtuals S pageTable) (Fresh S)).init s) {actions : List (Action S.len PageStep)}
    (along : (calls (virtuals S pageTable) (Fresh S)).Along (Usage lawful Faultless) s actions)
    (ran : (calls (virtuals S pageTable) (Fresh S)).run s actions = some t)
    (few : t.obj.rebuilds < 2 ^ 32) : PlainRun (virtuals S pageTable) (Fresh S) s t actions := by
  rw [virtuals_eq_ready usable] at *
  refine plainRun_of_run (G := guard S) ?_ initial ?_ ran few
  · intro r fresh p _
    exact (fresh p).ge
  · exact along.imp (P := fun _ => True) (fun _ _ _ _ _ _ => trivial) (fun s a _ => Usage.imp faultless_careful) trivial

/-- A write access with one modification, the loss of the page, and a read that rebuilds it. -/
def modifiedThenRead : List (Action oneByte.len PageStep) :=
  [.beginWrite {}, .modify (some (fill 9)) {}, .endWrite {}, .kernel (.reclaim 0), .beginRead {}]

def writeEvents : List (PlainEvent AccessEvent Unit) :=
  [.access .openWrite, .modify () (fill 9), .access .closeWrite, .access .openRead]

theorem modifiedThenRead_along : (calls (virtuals oneByte .ready) (Fresh oneByte)).Along
    (Usage lawful Faultless) freshMem modifiedThenRead := by
  refine ⟨⟨fun _ => undisturbed rfl, fun _ _ => rfl⟩, fun s stepped => ⟨?_, fun _ _ => ⟨fun _ => undisturbed rfl,
    fun _ _ => ⟨⟨0, rfl⟩, fun _ _ => ⟨⟨fun _ => undisturbed rfl, fun _ _ => rfl⟩, fun _ _ => trivial⟩⟩⟩⟩⟩
  have writing : s.writes = 1 := by
    have seen := congrArg (Option.map State.writes) stepped
    exact Option.some.inj (seen.symm.trans (by decide))
  exact ⟨fun _ => undisturbed rfl, by omega, fun b member => Option.some.inj member ▸ fill_keeps 9⟩

theorem reclaimed_page_rebuilt_with_modification :
    ∃ s, (calls (virtuals oneByte .ready) (Fresh oneByte)).run freshMem modifiedThenRead = some s ∧
      (plainMemory overlaps oneByte.len).run (plainView oneByte.len freshMem) writeEvents
        = some (plainView oneByte.len s) ∧ s.obj.data.content ⟨0, oneByte.len_pos⟩ = 9 := by
  obtain ⟨s, ran, seen⟩ : ∃ s, (calls (virtuals oneByte .ready) (Fresh oneByte)).run freshMem modifiedThenRead
      = some s ∧ (s.opens, s.obj.rebuilds) = (1, 2) := Option.map_eq_some_iff.mp (by decide)
  obtain ⟨opened, few⟩ := Prod.mk.inj seen
  have plain := reclaimed_pages_are_invisible (.inl rfl) freshMem_init modifiedThenRead_along ran (by omega)
  have content := plain.content (by omega)
  refine ⟨s, ran, plain.run, ?_⟩
  exact (congrFun content _).trans (by decide)

end PurgeableMem

namespace PurgeableAshMem

variable {isSupport : Bool} {ashmemFd : Int}

/-- The same for an ashmem file, and here the builders may fail in any rebuild: a Begin that met a
failure returned false, and the purged flag makes the next one rebuild again. -/
theorem purges_are_invisible {s t : State (Ashmem n)}
    (initial : (calls (virtuals n isSupport ashmemFd) (Fresh isSupport ashmemFd)).init s)
    {actions : List (Action n AshmemStep)}
    (along : (calls (virtuals n isSupport ashmemFd) (Fresh isSupport ashmemFd)).Along
      (Usage lawful fun _ _ => True) s actions)
    (ran : (calls (virtuals n isSupport ashmemFd) (Fresh isSupport ashmemFd)).run s actions = some t)
    (few : t.obj.rebuilds < 2 ^ 32) :
    PlainRun (virtuals n isSupport ashmemFd) (Fresh isSupport ashmemFd) s t actions := by
  refine plainRun_of_run (G := guard n isSupport ashmemFd) (fun d fresh => held_of_fresh fresh) initial ?_ ran few
  exact along.imp (P := fun _ => True) (fun _ _ _ _ _ _ => trivial)
    (fun s a _ => Usage.imp fun E o _ _ => .inl trivial) trivial

/-- The same events, with a purge and a rebuild that fails before the last read. -/
def purgedThenRead : List (Action 1 AshmemStep) :=
  [.beginWrite {}, .modify (some (fill 9)) {}, .endWrite {}, .kernel .purge, .beginRead failing, .beginRead {}]

theorem purgedThenRead_along : (calls (virtuals 1 true 3) (Fresh true 3)).Along
    (Usage lawful fun _ _ => True) freshAsh purgedThenRead := by
  refine ⟨⟨fun _ => undisturbed rfl, trivial⟩, fun s stepped => ⟨?_, fun _ _ => ⟨fun _ => undisturbed rfl,
    fun _ _ => ⟨rfl, fun _ _ => ⟨⟨fun _ => undisturbed rfl, trivial⟩, fun _ _ =>
      ⟨⟨fun _ => undisturbed rfl, trivial⟩, fun _ _ => trivial⟩⟩⟩⟩⟩⟩
  have writing : s.writes = 1 := by
    have seen := congrArg (Option.map State.writes) stepped
    exact Option.some.inj (seen.symm.trans (by decide))
  exact ⟨fun _ => undisturbed rfl, by omega, fun b member => Option.some.inj member ▸ fill_keeps 9⟩

theorem purged_file_rebuilt_with_modification :
    ∃ s, (calls (virtuals 1 true 3) (Fresh true 3)).run freshAsh purgedThenRead = some s ∧
      (plainMemory overlaps 1).run (plainView 1 freshAsh) PurgeableMem.writeEvents = some (plainView 1 s) ∧
      s.obj.data.content 0 = 9 := by
  obtain ⟨s, ran, seen⟩ : ∃ s, (calls (virtuals 1 true 3) (Fresh true 3)).run freshAsh purgedThenRead = some s ∧
      (s.opens, s.obj.rebuilds) = (1, 2) := Option.map_eq_some_iff.mp (by decide)
  obtain ⟨opened, few⟩ := Prod.mk.inj seen
  have plain := purges_are_invisible freshAsh_init purgedThenRead_along ran (by omega)
  have content := plain.content (by omega)
  refine ⟨s, ran, plain.run, ?_⟩
  exact (congrFun content _).trans (by decide)

end PurgeableAshMem

end MemoryUtils.Cpp
