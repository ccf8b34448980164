import MemoryUtils.Common.UxpteRanges
import Mathlib.Data.List.Induction

/-!
Sequences of `UxpteGet` and `UxptePut` over ranges of one table. Each call adds or takes back one
pin of every page that its rounded range covers, so an entry only depends on how many calls of
each kind covered it.
-/

namespace MemoryUtils.UxPageTable
open Uxpte

inductive Call where
  | get (addr len : UInt64)
  | put (addr len : UInt64)

namespace Call

def addr : Call → UInt64
  | .get addr _ | .put addr _ => addr

def len : Call → UInt64
  | .get _ len | .put _ len => len

def op : Call → UxpteOp
  | .get .. => .get
  | .put .. => .put

def run (fuel : Nat) (upt : UxPageTableStruct) : Call → Entries → Option Outcome
  | .get addr len, e => uxpteGet true fuel (some upt) addr len e
  | .put addr len, e => uxptePut true fuel (some upt) addr len e

/-- The rounded range of the call covers page `p`. -/
def covers (p : Nat) (c : Call) : Bool :=
  decide ((roundDown c.addr pageBytes).toNat ≤ p * pageSize ∧
    p * pageSize < (roundUp (c.addr + c.len) pageBytes).toNat)

def gets (p : Nat) (c : Call) : Bool := c.op == .get && c.covers p

def puts (p : Nat) (c : Call) : Bool := c.op == .put && c.covers p

end Call

/-- The entries after the calls, and those after each update on the way. -/
def runCalls (fuel : Nat) (upt : UxPageTableStruct) : List Call → Entries → Option (Entries × List Entries)
  | [], e => some (e, [])
  | c :: rest, e =>
    (c.run fuel upt e).bind fun r =>
      (runCalls fuel upt rest r.entries).map fun (e', passed) => (e', r.passed ++ passed)

/-- No page is taken back more often than it was pinned. -/
def Balanced (calls : List Call) : Prop :=
  ∀ before, before <+: calls → ∀ p, before.countP (Call.puts p) ≤ before.countP (Call.gets p)

/-- What the calls make of the entry of page `p`. -/
def wordAfter (p : Nat) (calls : List Call) (pte : UInt64) : UInt64 :=
  calls.foldl (fun pte c => if c.covers p then c.op.apply pte else pte) pte

/-! ### The table, entry by entry -/

section Table

variable {upt : UxPageTableStruct} (ready : Ready upt) {c : Call} {p : Nat} {e : Entries}

theorem wordAfter_cons (calls : List Call) (pte : UInt64) : wordAfter p (c :: calls) pte
    = wordAfter p calls (if c.covers p then c.op.apply pte else pte) := rfl

theorem wordAfter_concat (calls : List Call) (pte : UInt64) : wordAfter p (calls ++ [c]) pte
    = if c.covers p then c.op.apply (wordAfter p calls pte) else wordAfter p calls pte := by
  simp [wordAfter]

theorem op_never_stops (c : Call) (pte : UInt64) : c.op.stops pte = false := by
  cases c <;> rfl

include ready

theorem covers_iff (ok : accepts upt c.addr c.len = true) :
    c.covers p = true ↔ p ∈ pagesOf c.addr c.len := by
  have start := roundDown_toNat c.addr
  have stop := end_toNat ready ok
  rw [Call.covers, decide_eq_true_eq, pagesOf, pagesBetween, List.mem_range'_1, pageSize_eq]
  omega

theorem run_eq (ok : accepts upt c.addr c.len = true) {fuel : Nat} (enough : 2 ^ 52 < fuel) :
    c.run fuel upt e = some ((overPages c.op (pagesOf c.addr c.len) e).indexed upt.first) := by
  cases c with
  | get addr len =>
    change accepts upt addr len = true at ok
    simp [Call.run, uxpteGet, uxpteOps_eq ready .get enough, ok]
    rfl
  | put addr len =>
    change accepts upt addr len = true at ok
    simp [Call.run, uxptePut, uxpteOps_eq ready .put enough, ok]
    rfl

theorem run_entries (ok : accepts upt c.addr c.len = true) :
    (overPages c.op (pagesOf c.addr c.len) e).entries p
      = if c.covers p then c.op.apply (e p) else e p := by
  have once : (pagesOf c.addr c.len).Nodup := (pagesOf_increasing _ _).imp Nat.ne_of_lt
  by_cases covered : c.covers p = true
  · rw [if_pos covered]
    exact overPages_entries_of_mem (op_never_stops c) once ((covers_iff ready ok).mp covered)
  · rw [if_neg covered]
    exact overPages_entries_of_notMem fun member => covered ((covers_iff ready ok).mpr member)

theorem run_passed (ok : accepts upt c.addr c.len = true) {m : Entries}
    (passed : m ∈ (overPages c.op (pagesOf c.addr c.len) e).passed) :
    m p = e p ∨ m p = if c.covers p then c.op.apply (e p) else e p := by
  have once : (pagesOf c.addr c.len).Nodup := (pagesOf_increasing _ _).imp Nat.ne_of_lt
  rcases overPages_passed once passed with kept | ⟨member, value⟩
  · exact .inl kept
  · rw [if_pos ((covers_iff ready ok).mpr member)]
    exact .inr value

/-- Every entry goes through the calls on its own, and on the way it is where some number of whole
calls leaves it. -/
theorem runCalls_eq {calls : List Call} (ok : ∀ c ∈ calls, accepts upt c.addr c.len = true) (e : Entries) :
    ∃ passed, (∀ fuel > 2 ^ 52, runCalls fuel upt calls e = some (fun p => wordAfter p calls (e p), passed)) ∧
      ∀ m ∈ passed, ∀ p, ∃ before, before <+: calls ∧ m p = wordAfter p before (e p) := by
  induction calls generalizing e with
  | nil => exact ⟨[], fun _ _ => rfl, by simp⟩
  | cons c rest ih =>
    obtain ⟨first, later⟩ := List.forall_mem_cons.mp ok
    obtain ⟨passed, done, way⟩ := ih later (overPages c.op (pagesOf c.addr c.len) e).entries
    refine ⟨(overPages c.op (pagesOf c.addr c.len) e).passed ++ passed, fun fuel enough => ?_, ?_⟩
    · have call := @run_eq _ ready _ e first _ enough
      have rest := done fuel enough
      rw [runCalls, call, Option.bind_some]
      simp only [Outcome.indexed, rest, Option.map_some, wordAfter_cons, run_entries ready first]
    · intro m member p
      rcases List.mem_append.mp member with during | after
      · rcases @run_passed _ ready _ p _ first _ during with kept | changed
        · exact ⟨[], List.nil_prefix, kept⟩
        · exact ⟨[c], by simp, changed⟩
      · obtain ⟨before, part, value⟩ := way m after p
        refine ⟨c :: before, by simpa using part, ?_⟩
        rw [value, wordAfter_cons, run_entries ready first]

end Table

/-! ### Counting -/

section Word

variable {p : Nat} {calls : List Call} {pte : UInt64}

theorem Balanced.of_prefix {before : List Call} (balanced : Balanced calls) (part : before <+: calls) :
    Balanced before :=
  fun earlier within => balanced earlier (within.trans part)

theorem wordAfter_of_uncovered (outside : ∀ c ∈ calls, c.covers p = false) : wordAfter p calls pte = pte := by
  induction calls with
  | nil => rfl
  | cons c rest ih =>
    obtain ⟨first, later⟩ := List.forall_mem_cons.mp outside
    rw [wordAfter_cons, first, if_neg (by decide), ih later]

theorem uxpteAdd_toNat (room : pte.toNat + 4 < 2 ^ 64) :
    (UxpteOp.get.apply pte).toNat = pte.toNat + 2 := by
  rw [UxpteOp.apply, uxpteAdd, addBody_of_room 0 room]
  exact add_one_toNat room

theorem uxpteSub_toNat (pinned : 2 ≤ pte.toNat) : (UxpteOp.put.apply pte).toNat + 2 = pte.toNat := by
  have counted : 0 < refcnt pte := Nat.div_pos pinned (by decide)
  have less := sub_one_toNat counted
  change (pte - uxpteRefcntOne).toNat + 2 = pte.toNat
  omega

/-- An entry that starts at refcount 0 holds the difference of the counts above its present bit. -/
theorem wordAfter_toNat (unpinned : refcnt pte = 0) (few : calls.length < 2 ^ 62) (balanced : Balanced calls) :
    (wordAfter p calls pte).toNat + 2 * calls.countP (Call.puts p)
      = pte.toNat + 2 * calls.countP (Call.gets p) := by
  have low : pte.toNat ≤ 1 := by
    rw [refcnt, refcntOne_toNat] at unpinned
    omega
  induction calls using List.reverseRecOn with
  | nil => rfl
  | append_singleton calls c ih =>
    rw [List.length_append, List.length_singleton] at few
    have before := ih (by omega) (balanced.of_prefix (List.prefix_append ..))
    have counted := balanced _ List.prefix_rfl p
    have atMost : calls.countP (Call.gets p) ≤ calls.length := List.countP_le_length
    rw [List.countP_append, List.countP_append, List.countP_singleton, List.countP_singleton] at counted ⊢
    rw [wordAfter_concat]
    cases covered : c.covers p with
    | false =>
      simp only [Call.gets, Call.puts, covered, Bool.and_false, Bool.false_eq_true, if_false]
      omega
    | true =>
      cases c with
      | get addr len =>
        have more := @uxpteAdd_toNat (wordAfter p calls pte) (by omega)
        simp [Call.gets, Call.puts, Call.op, covered, more]
        omega
      | put addr len =>
        simp [Call.gets, Call.puts, Call.op, covered] at counted ⊢
        have less := @uxpteSub_toNat (wordAfter p calls pte) (by omega)
        omega

theorem wordAfter_unmarked (unpinned : refcnt pte = 0) (few : calls.length < 2 ^ 62)
    (balanced : Balanced calls) : isUxpteUnderReclaim (wordAfter p calls pte) = false := by
  have value := @wordAfter_toNat p calls pte unpinned few balanced
  have atMost : calls.countP (Call.gets p) ≤ calls.length := List.countP_le_length
  have below : (wordAfter p calls pte).toNat < 2 ^ 64 - 2 := by
    rw [refcnt, refcntOne_toNat] at unpinned
    omega
  simpa [isUxpteUnderReclaim] using ne_underReclaim_of_toNat_lt below

/-- Two balanced orders of the same calls leave the same word. -/
theorem wordAfter_of_perm {calls' : List Call} (reordered : calls'.Perm calls) (unpinned : refcnt pte = 0)
    (few : calls.length < 2 ^ 62) (balanced : Balanced calls) (balanced' : Balanced calls') :
    wordAfter p calls' pte = wordAfter p calls pte := by
  have value := @wordAfter_toNat p calls pte unpinned few balanced
  have value' := @wordAfter_toNat p calls' pte unpinned (by rw [reordered.length_eq]; exact few) balanced'
  rw [reordered.countP_eq, reordered.countP_eq] at value'
  apply UInt64.toNat_inj.mp
  omega

end Word

/-- Each entry counts the pins that cover its page, in whatever order they were made. -/
theorem refcnt_eq_covering_pins {upt : UxPageTableStruct} {addr len : UInt64} (set : SetUp upt addr len)
    {e : Entries} (unpinned : ∀ p, Meets p addr len → refcnt (e p) = 0) {calls : List Call}
    (few : calls.length < 2 ^ 62) (accepted : ∀ c ∈ calls, accepts upt c.addr c.len = true)
    (balanced : Balanced calls) :
    ∃ e' passed, (∀ fuel > 2 ^ 52, runCalls fuel upt calls e = some (e', passed)) ∧
      (∀ p, Meets p addr len →
        refcnt (e' p) + calls.countP (Call.puts p) = calls.countP (Call.gets p) ∧
        isUxptePresent (e' p) = isUxptePresent (e p) ∧
        ∀ m ∈ passed, isUxpteUnderReclaim (m p) = false) ∧
      ∀ calls', calls'.Perm calls → Balanced calls' →
        ∃ passed', ∀ fuel > 2 ^ 52, runCalls fuel upt calls' e = some (e', passed') := by
  obtain ⟨ready, rfl, rfl⟩ := set.ready
  obtain ⟨passed, done, way⟩ := runCalls_eq ready accepted e
  refine ⟨_, passed, done, fun p meets => ?_, fun calls' reordered balanced' => ?_⟩
  · have value := @wordAfter_toNat p calls _ (unpinned p meets) few balanced
    have low := unpinned p meets
    simp only [refcnt, refcntOne_toNat] at low ⊢
    refine ⟨by omega, ?_, fun m member => ?_⟩
    · rw [isUxptePresent_eq, isUxptePresent_eq]
      congr 2
      omega
    · obtain ⟨before, part, holds⟩ := way m member p
      rw [holds]
      exact wordAfter_unmarked (unpinned p meets) (part.length_le.trans_lt few) (balanced.of_prefix part)
  · have accepted' : ∀ c ∈ calls', accepts upt c.addr c.len = true :=
      fun c member => accepted c (reordered.mem_iff.mp member)
    obtain ⟨passed', done', -⟩ := runCalls_eq ready accepted' e
    refine ⟨passed', fun fuel enough => ?_⟩
    rw [done' fuel enough]
    congr 2
    funext p
    by_cases meets : Meets p upt.dataAddr upt.dataSize
    · exact wordAfter_of_perm reordered (unpinned p meets) few balanced balanced'
    · have outside : ∀ c ∈ calls, c.covers p = false := by
        intro c member
        rw [Bool.eq_false_iff]
        intro covered
        have ok := accepted c member
        exact meets (meets_data ready ok ((covers_iff ready ok).mp covered))
      rw [wordAfter_of_uncovered outside, wordAfter_of_uncovered]
      exact fun c member => outside c (reordered.mem_iff.mp member)

def overlapping : List Call := [.get 0x1ff800 0x1000, .get 0x200010 1, .put 0x1ff800 0x1000]

theorem overlapping_balanced : Balanced overlapping := by
  intro before part p
  have same : (Call.put 0x1ff800 0x1000).covers p = (Call.get 0x1ff800 0x1000).covers p := rfl
  simp only [overlapping, List.prefix_cons_iff, List.prefix_nil] at part
  rcases part with rfl | ⟨_, rfl, rfl | ⟨_, rfl, rfl | ⟨_, rfl, rfl⟩⟩⟩ <;>
    simp [List.countP_cons, Call.puts, Call.gets, Call.op, same]

/-- Two overlapping pins, of which the longer one is taken back. -/
theorem overlapping_pins_counted :
    ∃ e' passed, (∀ fuel > 2 ^ 52, runCalls fuel straddling overlapping (fun _ => 1) = some (e', passed)) ∧
      ∀ p, Meets p 0x1ff000 0x2000 →
        refcnt (e' p) + overlapping.countP (Call.puts p) = overlapping.countP (Call.gets p) := by
  obtain ⟨e', passed, done, counted, -⟩ := @refcnt_eq_covering_pins straddling 0x1ff000 0x2000
    straddling_setUp (fun _ => 1) (fun _ _ => by decide) overlapping (by decide) (by decide) overlapping_balanced
  exact ⟨e', passed, done, fun p meets => (counted p meets).1⟩

end MemoryUtils.UxPageTable
