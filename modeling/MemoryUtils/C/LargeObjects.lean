import MemoryUtils.C.BeginEnds
import MemoryUtils.C.ReadRetry

/-!
The sizes that `PurgMemCreate` accepts and the one that `memset_s` can clear. A rebuild passes the
rounded size as the bound of the destination, so an object whose rounded size is above
`SECUREC_MEM_MAX_LEN` is created and can never be accessed; every smaller one can.
-/

namespace MemoryUtils.C
open Lib

variable {T : Type} {S : Setup} {n : Nat}

/-- For a single thread whose lock and builder calls succeed every Begin returns, and never with
false. -/
def EveryBeginReturnsTrue (S : Setup) : Prop :=
  ∀ s : State Unit S.len, (accesses S).Reach CallsSucceed s →
    (∀ m, s.pc () = .uxpteGet m 0 → ∃ bound, ReturnsWithin S m s bound) ∧ ∀ m, s.pc () ≠ .failed m

/-! ### Objects that can be cleared -/

theorem reach_lone_orderly {s : State Unit S.len} (reach : (accesses S).Reach CallsSucceed s) : Orderly S s :=
  reach_orderly (reach.mono fun _ _ permitted => permitted.1)

/-- Nothing can rebuild the content between the two checks of a single reader. -/
theorem Orderly.secondCheckPurged {s : State Unit S.len} (orderly : Orderly S s) (a : Action Unit S.len) :
    SecondCheckPurged S s a := by
  intro t at_pc _
  have known := orderly.steady
  rw [show s.pc () = .isPurged .buildRead from at_pc] at known
  unfold isPurged
  by_cases zero : s.obj.buildDataCount = 0
  · simp [zero]
  · have missing : ¬ ∀ p < S.pages, s.obj.region.present p = true := fun all => known ⟨all, zero⟩
    simp only [missing, decide_false, Bool.not_false, Bool.or_true]

theorem reach_lone_hopeful (small : roundUp S.len pageSize ≤ securecMemMaxLen) {s : State Unit S.len}
    (reach : (accesses S).Reach CallsSucceed s) : ∀ t, Hopeful S s.obj (s.pc t) := by
  induction reach with
  | init created => exact created_hopeful created
  | step before permitted stepped ih =>
    have orderly := reach_lone_orderly before
    exact step_hopeful (S.memsetSucceeds_iff.mpr small) orderly.valid orderly.agrees permitted
      (orderly.secondCheckPurged _) ih stepped

theorem begins_return_true (small : roundUp S.len pageSize ≤ securecMemMaxLen) : EveryBeginReturnsTrue S := by
  intro s reach
  constructor
  · intro m entered
    exact ⟨_, (reach_lone_orderly reach).returnsWithin (by rw [entered]; rfl)⟩
  · intro m failed
    have hopeful := reach_lone_hopeful small reach ()
    rw [failed] at hopeful
    exact hopeful

/-! ### Objects that cannot -/

/-- The program points of a thread that has never seen the content built. -/
def Unbuilt : Pc n → Prop
  | .isPresent _ _ | .buildAll _ _ | .building _ _ _ _ _ | .built _ | .inside _ | .modifying _ _ _ | .logging _
  | .endUnlock _ => False
  | .wrUnlock _ ret => ret = false
  | _ => True

section Large

variable [DecidableEq T] (large : ¬ roundUp S.len pageSize ≤ securecMemMaxLen)
include large

theorem next_unbuilt {t : T} {o o' : PurgMem T S.len} {pc pc' : Pc S.len} {c : Choice S.len}
    (zero : o.buildDataCount = 0) (here : Unbuilt pc) (h : Next S t o pc c o' pc') :
    o'.buildDataCount = 0 ∧ Unbuilt pc' := by
  cases h with
  | clear m fits => exact absurd (S.memsetSucceeds_iff.mp fits) large
  | clearFail m => exact ⟨zero, rfl⟩
  | beginIdle m | beginFailed m' m =>
    refine ⟨zero, ?_⟩
    unfold enter
    split <;> trivial
  | getDone m => cases m <;> exact ⟨zero, trivial⟩
  | neverBuilt k => cases k <;> exact ⟨zero, trivial⟩
  | builtBefore k nonzero => exact absurd zero nonzero
  | wrUnlock m ret =>
    obtain rfl : ret = false := here
    refine ⟨zero, ?_⟩
    unfold afterUnlock
    split <;> trivial
  | putDone r => cases r <;> exact ⟨zero, trivial⟩
  | _ => first | exact ⟨zero, trivial⟩ | exact here.elim

/-- No access of an object that cannot be cleared is ever opened, in any run of any threads. -/
theorem reach_unbuilt {ok : State T S.len → Action T S.len → Prop} {s : State T S.len}
    (reach : (accesses S).Reach ok s) : s.obj.buildDataCount = 0 ∧ ∀ t, Unbuilt (s.pc t) := by
  induction reach with
  | init created =>
    refine ⟨created.2.1, fun t => ?_⟩
    rw [created.2.2.2.2.2 t]
    trivial
  | step _ _ stepped ih =>
    obtain ⟨t, c, o, pc, rfl, moved, rfl⟩ | ⟨p, rfl, -, -, rfl⟩ := step_cases stepped
    · obtain ⟨zero, own⟩ := next_unbuilt large ih.1 (ih.2 t) moved
      exact ⟨zero, forall_update (P := fun _ pc => Unbuilt pc) own fun u _ => ih.2 u⟩
    · exact ih

end Large

theorem attempt_callsSucceed (s : State Unit n) : CallsSucceed s (.thread () (attempt (s.pc ()))) := by
  constructor
  · intro t same
    injection same with _ choice
    exact attempt_ne_lockFail _ choice
  · intro t m b rest old mid c ok at_pc same
    rw [show s.pc () = .building m b rest old mid from at_pc] at same
    cases same
    rfl

theorem begin_can_return {s : State Unit S.len} {m : Mode} (reach : (accesses S).Reach CallsSucceed s)
    (started : beginMode (s.pc ()) = some m) :
    ∃ s', (accesses S).Reach CallsSucceed s' ∧ (s'.pc () = .inside m ∨ s'.pc () = .failed m) := by
  have keep : ∀ s a s', (accesses S).Reach CallsSucceed s ∧ Underway m (s.pc ()) →
      CallsSucceed s a ∧ beginMode (s.pc ()) ≠ none → (accesses S).step s a = some s' →
      (accesses S).Reach CallsSucceed s' ∧ Underway m (s'.pc ()) := by
    rintro s a s' ⟨reach, underway⟩ ⟨permitted, within⟩ stepped
    refine ⟨.step reach permitted stepped, ?_⟩
    exact (step_underway ⟨reach_lone_orderly reach, underway⟩ ⟨permitted.1, within⟩ stepped).2
  have progress : ∀ s, (accesses S).Reach CallsSucceed s ∧ Underway m (s.pc ()) → beginMode (s.pc ()) ≠ none →
      ∃ a s', (CallsSucceed s a ∧ beginMode (s.pc ()) ≠ none) ∧ (accesses S).step s a = some s' ∧
        rank S s'.obj (s'.pc ()) < rank S s.obj (s.pc ()) := by
    rintro s ⟨reach, -⟩ within
    have orderly := reach_lone_orderly reach
    have permitted := attempt_callsSucceed s
    obtain ⟨s', moved⟩ := attempt_enabled orderly within
    exact ⟨_, s', ⟨permitted, within⟩, moved, step_rank orderly ⟨permitted.1, within⟩ moved⟩
  obtain ⟨-, s', -, -, ⟨reached, underway⟩, ended⟩ := System.exists_run_of_rank keep progress ⟨reach, .inl started⟩
  obtain running | returned := underway
  · exact absurd (by simp [running]) ended
  · exact ⟨s', reached, returned⟩

/-- A new object of any size, with one builder. -/
def created (S : Setup) : State Unit S.len where
  obj := { region := { content := zeros, entries := fun _ => {} }, builder := [fill 7] }
  pc _ := .idle

theorem begins_return_false (large : ¬ roundUp S.len pageSize ≤ securecMemMaxLen) : ¬ EveryBeginReturnsTrue S := by
  intro every
  have start : Created S (created S) := ⟨⟨_, rfl⟩, rfl, rfl, rfl, fun _ => rfl, fun _ => rfl⟩
  have calls : CallsSucceed (created S) (.thread () (.beginAccess .read)) := callsSucceed_sound _ _ rfl
  have entered := System.Reach.step (t := { created S with pc := fun _ => .uxpteGet .read 0 })
    (.init (S := accesses S) start) calls rfl
  obtain ⟨s, reach, opened | failed⟩ := begin_can_return entered (m := .read) rfl
  · have unbuilt := (reach_unbuilt large reach).2 ()
    rw [opened] at unbuilt
    exact unbuilt
  · exact (every s reach).2 .read failed

/-- The objects that are created and can always be accessed are those whose rounded size is within
the limit of `memset_s`. -/
theorem every_begin_returns_true_iff (S : Setup) : EveryBeginReturnsTrue S ↔ S.len ≤ 0x7ffff000 := by
  rw [← S.roundUp_len_le_iff]
  constructor
  · intro every
    by_contra large
    exact begins_return_false large every
  · exact begins_return_true

def twoGiB : Setup where
  len := 2 ^ 31
  supportUxpt := true
  len_pos := by decide
  len_fits := by decide

theorem twoGiB_begins_return_false : ¬ EveryBeginReturnsTrue twoGiB :=
  begins_return_false (by rw [twoGiB.roundUp_len_le_iff]; decide)

end MemoryUtils.C
