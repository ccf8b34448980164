import MemoryUtils.C.Access
import Mathlib.Algebra.BigOperators.Ring.Finset

/-!
Pin balance of the C interface. The refcount of a page is the number of calls that have got the
page and not yet put it, whatever lock and builder calls fail on the way.
-/

namespace MemoryUtils.C
open Lib

variable {T : Type} {S : Setup} {n : Nat}

/-- The call in progress, or the open access, has executed `UxpteGet` on page `p` and its
`UxptePut` has not yet reached that page. -/
def pinned : Pc n → Nat → Bool
  | .idle, _ | .failed _, _ => false
  | .uxpteGet _ i, p => decide (p < i)
  | .uxptePut _ i, p => decide (i ≤ p)
  | _, _ => true

def pin (pc : Pc n) (p : Nat) : Int := if pinned pc p then 1 else 0

@[simp] theorem pinned_enter (o : PurgMem T n) (m : Mode) (p : Nat) : pinned (enter o m) p = false := by
  unfold enter; split <;> simp [pinned]

@[simp] theorem pinned_firstLock (m : Mode) (p : Nat) : pinned (firstLock (n := n) m) p = true := by
  cases m <;> rfl

@[simp] theorem pinned_purged (k : Check) (p : Nat) : pinned (purged (n := n) k) p = true := by
  cases k <;> rfl

@[simp] theorem pinned_notPurged (k : Check) (p : Nat) : pinned (notPurged (n := n) k) p = true := by
  cases k <;> rfl

@[simp] theorem pinned_afterBuild (m : Mode) (p : Nat) : pinned (afterBuild (n := n) m) p = true := by
  cases m <;> rfl

@[simp] theorem pinned_afterUnlock (m : Mode) (ret : Bool) (p : Nat) :
    pinned (afterUnlock (n := n) m ret) p = true := by
  unfold afterUnlock; split <;> simp [pinned]

@[simp] theorem pinned_afterBuilder (m : Mode) (rest : List Builder) (ok : Bool) (p : Nat) :
    pinned (afterBuilder (n := n) m rest ok) p = true := by
  unfold afterBuilder; repeat' split
  all_goals rfl

@[simp] theorem pinned_afterModifier (b : Builder) (ok : Bool) (p : Nat) :
    pinned (afterModifier (n := n) b ok) p = true := by
  unfold afterModifier; split <;> rfl

@[simp] theorem pinned_afterPut (r : Option Mode) (p : Nat) : pinned (afterPut (n := n) r) p = false := by
  cases r <;> rfl

variable [DecidableEq T]

theorem next_pin {t : T} {o o' : PurgMem T S.len} {pc pc' : Pc S.len} {c : Choice S.len}
    (valid : o.builder ≠ []) (h : Next S t o pc c o' pc') {p : Nat} (below : p < S.pages) :
    o'.region.refcnt p = o.region.refcnt p + (pin pc' p - pin pc p) := by
  cases h with
  | get m i =>
    rw [Region.getUxpteAt_refcnt]
    simp only [pin, pinned, decide_eq_true_eq]
    split_ifs <;> omega
  | put r i =>
    rw [Region.putUxpteAt_refcnt]
    simp only [pin, pinned, decide_eq_true_eq]
    split_ifs <;> omega
  | getDone m i past =>
    have all : pinned (n := S.len) (.uxpteGet m i) p = true := decide_eq_true (by omega)
    simp [pin, all]
  | putDone r i past =>
    have none_left : pinned (n := S.len) (.uxptePut r i) p = false := decide_eq_false (by omega)
    simp [pin, none_left]
  | endAccess m =>
    rw [leave_valid valid]
    simp [pin, pinned]
  | _ =>
    -- Nothing is got or put here, and both program points hold the same pins.
    simp only [pin, pinned_enter, pinned_purged, pinned_notPurged, pinned_afterBuild,
      pinned_afterUnlock, pinned_afterBuilder, pinned_afterModifier]
    simp [pinned, startCall, setContent, Region.refcnt, Region.touch, Region.clear]

variable [Fintype T]

def PinsBalanced (S : Setup) (s : State T S.len) : Prop :=
  ∀ p < S.pages, s.obj.region.refcnt p = ∑ t, pin (s.pc t) p

omit [DecidableEq T] in
theorem created_pinsBalanced {s : State T S.len} (h : Created S s) : PinsBalanced S s := by
  obtain ⟨-, -, -, -, zero, idle⟩ := h
  intro p _
  simp [zero, idle, pin, pinned]

theorem step_pinsBalanced {s s' : State T S.len} {a : Action T S.len} (valid : s.obj.builder ≠ [])
    (balanced : PinsBalanced S s) (h : step S s a = some s') : PinsBalanced S s' := by
  intro p below
  obtain ⟨t, c, o, pc, rfl, moved, rfl⟩ | ⟨q, rfl, -, -, rfl⟩ := step_cases h
  · have change := next_pin valid moved below
    rw [sum_update (fun q => pin q p), change, balanced p below]
  · exact (Region.reclaim_refcnt ..).trans (balanced p below)

theorem reach_pinsBalanced {ok : State T S.len → Action T S.len → Prop} {s : State T S.len}
    (reach : (accesses S).Reach ok s) : PinsBalanced S s := by
  induction reach with
  | init created => exact created_pinsBalanced created
  | step before _ stepped ih => exact step_pinsBalanced (reach_valid before) ih stepped

omit [DecidableEq T] in
theorem sum_pin (s : State T S.len) (p : Nat) :
    ∑ t, pin (s.pc t) p = ((Finset.univ.filter fun t => pinned (s.pc t) p = true).card : Int) := by
  simp only [pin]
  rw [Finset.sum_ite, Finset.sum_const_zero, add_zero, Finset.sum_const, nsmul_eq_mul, mul_one]

omit [DecidableEq T] in
theorem PinsBalanced.pos {s : State T S.len} (balanced : PinsBalanced S s) {t : T} {p : Nat}
    (below : p < S.pages) (got : pinned (s.pc t) p = true) : 0 < s.obj.region.refcnt p := by
  rw [balanced p below, sum_pin]
  have member : t ∈ Finset.univ.filter fun t => pinned (s.pc t) p = true := by simp [got]
  exact_mod_cast Finset.card_pos.mpr ⟨t, member⟩

/-- In every interleaving, with any lock call and any builder call failing, the refcount of each
page is the number of calls that hold a pin on it. A Begin that returned false holds none, no
`UxptePut` meets a refcount of zero, and all refcounts are zero when every thread is outside. -/
theorem refcnt_eq_pinned_calls (S : Setup) (s : State T S.len)
    (reach : (accesses S).Reach (fun _ _ => True) s) :
    (∀ p < S.pages, s.obj.region.refcnt p =
      ((Finset.univ.filter fun t => pinned (s.pc t) p = true).card : Int)) ∧
    (∀ t m, s.pc t = .failed m → ∀ p, pinned (s.pc t) p = false) ∧
    (∀ t r i, s.pc t = .uxptePut r i → i < S.pages → 0 < s.obj.region.refcnt i) ∧
    ((∀ t, s.pc t = .idle ∨ ∃ m, s.pc t = .failed m) → ∀ p < S.pages, s.obj.region.refcnt p = 0) := by
  have balanced := reach_pinsBalanced reach
  refine ⟨fun p below => (balanced p below).trans (sum_pin s p), ?_, ?_, ?_⟩
  · intro t m returned p
    rw [returned]
    rfl
  · intro t r i putting below
    exact balanced.pos below (t := t) (by simp [putting, pinned])
  · intro outside p below
    rw [balanced p below]
    apply Finset.sum_eq_zero
    intro t _
    obtain idle | ⟨m, failed⟩ := outside t
    · simp [idle, pin, pinned]
    · simp [failed, pin, pinned]

theorem refcnt_one_after_get :
    ∃ s : State Bool oneByte.len, (accesses oneByte).Reach (fun _ _ => True) s ∧
      s.obj.region.refcnt 0 = 1 := by
  obtain ⟨s, reach, held⟩ := System.exists_reach (S := accesses oneByte)
    (fun _ _ => True) (fun _ _ => true) (fun _ _ _ => trivial) (fresh_created Bool)
    [.thread true (.beginAccess .read), .thread true .step]
    (fun s => (Finset.univ.filter fun t => pinned (s.pc t) 0 = true).card) (v := 1)
    (by decide) (by decide)
  have count := (refcnt_eq_pinned_calls oneByte s reach).1 0 (by decide)
  exact ⟨s, reach, by rw [count, held]; rfl⟩

end MemoryUtils.C
