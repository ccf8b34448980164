import MemoryUtils.C.Replay
import MemoryUtils.Cpp.Contract

/-!
Rebuilds that fail midway. Both interfaces infer from `buildDataCount` and the present bits that the
content is valid, and a rebuild sets the present bits when it clears the content. A builder that
fails in a later rebuild therefore leaves content that passes for complete; one that fails before
anything was built does not.
-/

namespace MemoryUtils
open Lib

def Cpp.FailsOnlyUnbuilt {n : Nat} {D K : Type} (E : Cpp.Env n K) (o : Cpp.Base D) : Prop :=
  o.buildDataCount ≠ 0 → ∀ t j, (E.call t j).fault = none

/-- The content is the replay of the whole chain and no failed rebuild is left. -/
def Cpp.Complete {n : Nat} {D K : Type} (V : Cpp.Virtuals n D K) (o : Cpp.Base D) : Prop :=
  V.content o.data = replay o.builder ∧ o.rebuildFailed = false

def C.Complete {T : Type} {n : Nat} (o : C.PurgMem T n) : Prop :=
  o.region.content = replay o.builder ∧ o.rebuildFailed = false

/-- In a run of one thread in which builders fail only while nothing was built, the content is
complete whenever a Begin has returned true. -/
theorem begin_shows_complete_replay (S : Setup) :
    (∀ s : C.State Unit S.len, (C.accesses S).Reach (C.Reliable False) s →
      ∀ m, s.pc () = .inside m → C.Complete s.obj) ∧
    ∀ s : Cpp.State (Region S.len),
      (Cpp.calls (Cpp.PurgeableMem.virtuals S .ready) (Cpp.PurgeableMem.Fresh S)).Reach
        (Cpp.Usage Cpp.PurgeableMem.lawful Cpp.FailsOnlyUnbuilt) s →
      ∀ E : Cpp.Env S.len Cpp.PageStep, E.Lawful Cpp.PurgeableMem.lawful → Cpp.FailsOnlyUnbuilt E s.obj →
      ((Cpp.beginRead (Cpp.PurgeableMem.virtuals S .ready) E s.obj).2 = true →
        Cpp.Complete (Cpp.PurgeableMem.virtuals S .ready)
          (Cpp.beginRead (Cpp.PurgeableMem.virtuals S .ready) E s.obj).1) ∧
      ((Cpp.beginWrite (Cpp.PurgeableMem.virtuals S .ready) E s.obj).2 = true →
        Cpp.Complete (Cpp.PurgeableMem.virtuals S .ready)
          (Cpp.beginWrite (Cpp.PurgeableMem.virtuals S .ready) E s.obj).1) := by
  constructor
  · intro s reach m inside
    have alone : ∀ s : C.State Unit S.len, (C.accesses S).Reach (C.Reliable False) s → C.Exclusive s :=
      fun _ _ _ _ other => absurd rfl other
    have here := (C.reach_intact alone (fun _ _ reliable => reliable) reach).point ()
    rw [inside] at here
    exact ⟨here.2.1, here.2.2.1⟩
  · intro s reach E lawful unbuilt
    have careful : ∀ (E : Cpp.Env S.len Cpp.PageStep) (o : Cpp.Base (Region S.len)),
        Cpp.FailsOnlyUnbuilt E o → Cpp.Careful (Cpp.PurgeableMem.guard S) E o :=
      fun E o unbuilt nonzero => .inr (unbuilt nonzero)
    have replaying : Cpp.Replaying (Cpp.PurgeableMem.guard S) s := by
      refine Cpp.reach_replaying (fun r fresh p _ => ?_) (reach.mono fun s a => Cpp.Usage.imp careful)
      exact (fresh p).ge
    have complete : ∀ {r}, Cpp.Begun (Cpp.PurgeableMem.guard S) s.opens s.obj r → r.2 = true →
        Cpp.Complete (Cpp.PurgeableMem.virtuals S .ready) r.1 := by
      intro r begun granted
      obtain ⟨-, content, -, finished⟩ := begun.granted granted
      exact ⟨content, finished.resolve_left id⟩
    constructor
    · exact complete (Cpp.beginRead_begun lawful (Cpp.beginRead_cases ..) replaying.held replaying.sound
        (careful E _ unbuilt))
    · exact complete (Cpp.beginWrite_begun lawful (Cpp.beginWrite_cases ..) replaying.held replaying.sound
        (careful E _ unbuilt))

theorem complete_after_failed_first_build :
    ∃ s, (Cpp.calls (Cpp.PurgeableMem.virtuals oneByte .ready) (Cpp.PurgeableMem.Fresh oneByte)).Reach
        (Cpp.Usage Cpp.PurgeableMem.lawful Cpp.FailsOnlyUnbuilt) s ∧ s.obj.rebuildFailed = true ∧
      Cpp.Complete (Cpp.PurgeableMem.virtuals oneByte .ready)
        (Cpp.beginRead (Cpp.PurgeableMem.virtuals oneByte .ready) {} s.obj).1 := by
  have first : Cpp.Usage (n := oneByte.len) Cpp.PurgeableMem.lawful Cpp.FailsOnlyUnbuilt Cpp.freshMem
      (.beginRead Cpp.failing) :=
    ⟨fun _ => Cpp.undisturbed rfl, fun nonzero => absurd rfl nonzero⟩
  refine ⟨_, .step (.init Cpp.freshMem_init) first rfl, by decide, ?_⟩
  exact ((begin_shows_complete_replay oneByte).2 _ (.step (.init Cpp.freshMem_init) first rfl) {}
    (fun _ => Cpp.undisturbed rfl) (fun _ _ _ => rfl)).1 (by decide)

/-! ### The failure that passes for content -/

/-- A builder of a rebuild may fail at any time; one that returns true is the function it stands for. -/
def C.MayFail {T : Type} {n : Nat} (s : C.State T n) (a : C.Action T n) : Prop :=
  ∀ t c ok, a = .thread t (.ret c ok) →
    match s.pc t with
    | .building _ b _ old _ => ok = true → c = (b n old).1
    | _ => True

def C.mayFail {T : Type} {n : Nat} (s : C.State T n) : C.Action T n → Bool
  | .thread t (.ret c ok) =>
    match s.pc t with
    | .building _ b _ old _ => decide (ok = true → c = (b n old).1)
    | _ => true
  | _ => true

theorem C.mayFail_sound {T : Type} {n : Nat} (s : C.State T n) (a : C.Action T n)
    (h : C.mayFail s a = true) : C.MayFail s a := by
  rintro t c ok rfl
  cases at_pc : s.pc t with
  | building m b rest old mid =>
    simp only [C.mayFail, at_pc, decide_eq_true_eq] at h
    exact h
  | _ => trivial

/-- A successful read, a reclaim, a read whose rebuild fails, and one more read. -/
def C.rereadAfterFailure : List (C.Action Unit oneByte.len) :=
  C.firstRead () ++ .thread () .endAccess :: List.replicate 3 (.thread () .step) ++
  [.reclaim 0, .thread () (.beginAccess .read)] ++ List.replicate 10 (.thread () .step) ++
  [.thread () (.call zeros fun _ => false), .thread () (.ret zeros false)] ++
  List.replicate 3 (.thread () .step) ++
  .thread () (.beginAccess .read) :: List.replicate 6 (.thread () .step)

def C.isInside {n : Nat} : C.Pc n → Bool
  | .inside _ => true
  | _ => false

def firstByte (c : Content oneByte.len) : UInt8 := c ⟨0, oneByte.len_pos⟩

def Cpp.rereadAfterFailure : List (Cpp.Action oneByte.len Cpp.PageStep) :=
  [.beginRead {}, .endRead {}, .kernel (.reclaim 0), .beginRead Cpp.failing, .beginRead {}]

theorem Cpp.rereadAfterFailure_usage : ∀ a ∈ Cpp.rereadAfterFailure, ∀ s : Cpp.State (Region oneByte.len),
    Cpp.Usage Cpp.PurgeableMem.lawful (fun _ _ => True) s a := by
  intro a member s
  simp only [Cpp.rereadAfterFailure, List.mem_cons, List.not_mem_nil, or_false] at member
  obtain rfl | rfl | rfl | rfl | rfl := member
  · exact ⟨fun _ => Cpp.undisturbed rfl, trivial⟩
  · exact fun _ => Cpp.undisturbed rfl
  · exact ⟨0, rfl⟩
  · exact ⟨fun _ => Cpp.undisturbed rfl, trivial⟩
  · exact ⟨fun _ => Cpp.undisturbed rfl, trivial⟩

theorem failed_rebuild_passes_for_content :
    (∃ s : C.State Unit oneByte.len, (C.accesses oneByte).Reach C.MayFail s ∧
      C.isInside (s.pc ()) = true ∧ ¬ C.Complete s.obj) ∧
    ∃ s, (Cpp.calls (Cpp.PurgeableMem.virtuals oneByte .ready) (Cpp.PurgeableMem.Fresh oneByte)).Reach
        (Cpp.Usage Cpp.PurgeableMem.lawful fun _ _ => True) s ∧
      s.opens = 1 ∧ ¬ Cpp.Complete (Cpp.PurgeableMem.virtuals oneByte .ready) s.obj := by
  constructor
  · obtain ⟨s, reach, seen⟩ := System.exists_reach (S := C.accesses oneByte) C.MayFail C.mayFail
      C.mayFail_sound (C.fresh_created Unit) C.rereadAfterFailure
      (fun s => (C.isInside (s.pc ()), firstByte s.obj.region.content, firstByte (replay s.obj.builder)))
      (v := (true, 0, 7)) (by decide) (by decide)
    simp only [Prod.mk.injEq] at seen
    obtain ⟨inside, byte, built⟩ := seen
    refine ⟨s, reach, inside, fun complete => ?_⟩
    rw [complete.1, built] at byte
    exact absurd byte (by decide)
  · obtain ⟨s, reach, seen⟩ := System.exists_reach_of_forall
      (S := Cpp.calls (Cpp.PurgeableMem.virtuals oneByte .ready) (Cpp.PurgeableMem.Fresh oneByte))
      Cpp.freshMem_init Cpp.rereadAfterFailure Cpp.rereadAfterFailure_usage
      (fun s => (s.opens, firstByte s.obj.data.content, firstByte (replay s.obj.builder)))
      (v := (1, 0, 7)) (by decide)
    simp only [Prod.mk.injEq] at seen
    obtain ⟨opened, byte, built⟩ := seen
    refine ⟨s, reach, opened, fun complete => ?_⟩
    have same : firstByte s.obj.data.content = firstByte (replay s.obj.builder) := congrArg firstByte complete.1
    rw [byte, built] at same
    exact absurd same (by decide)

end MemoryUtils
