import MemoryUtils.Common.Uxpte
import Mathlib.Algebra.BigOperators.Ring.Finset

/-!
Pins taken and given back on one entry while no reclaim is in progress. Loads may be stale by the
time their compare-and-swap is tried and the kernel may set or clear the present bit in between; no
update is lost either way.
-/

namespace MemoryUtils.Uxpte
open Lib

variable {T : Type} [DecidableEq T]

/-- The kernel only changes the present bit, and a thread pins again only after it has given its
pin back. -/
def PinsOnce (s : Cell T) : Action T → Prop
  | .callAdd t => (s.callers t).adds = (s.callers t).subs
  | .startReclaim | .endReclaim => False
  | .callSub _ | .step _ | .setPresent _ => True

def addSwaps (s : Cell T) : Action T → Bool
  | .step t =>
    match (s.callers t).pc with
    | .addCas old _ => s.pte == old
    | _ => false
  | _ => false

def subSwaps (s : Cell T) : Action T → Bool
  | .step t =>
    match (s.callers t).pc with
    | .subCas old => s.pte == old
    | _ => false
  | _ => false

/-- At most one pin is held, and only between a completed `UxpteAdd` and its `UxpteSub`. -/
def Caller.Alternates (c : Caller) : Prop :=
  c.adds ≤ c.subs + 1 ∧
  match c.pc with
  | .addLoad _ | .addCas _ _ => c.adds = c.subs
  | .subLoad | .subCas _ => c.swaps = []
  | .subbed => ∃ v, c.swaps = [(v, v - uxpteRefcntOne)]
  | .idle | .added => True

theorem callerStep_alternates {pte pte' : UInt64} {c c' : Caller} (room : pte.toNat + 4 < 2 ^ 64)
    (alternates : c.Alternates) (h : callerStep pte c = some (pte', c')) : c'.Alternates := by
  obtain ⟨pc, adds, subs, swaps⟩ := c
  obtain ⟨single, point⟩ := alternates
  cases pc with
  | idle | added | subbed => simp [callerStep] at h
  | addLoad newVal =>
    simp only [callerStep, addBody_of_room newVal room, Option.some.injEq, Prod.mk.injEq] at h
    obtain ⟨-, rfl⟩ := h
    exact ⟨single, point⟩
  | addCas old newVal =>
    have balanced : adds = subs := point
    by_cases same : pte = old
    · simp only [callerStep, same, if_true, Option.some.injEq, Prod.mk.injEq] at h
      obtain ⟨-, rfl⟩ := h
      refine ⟨?_, trivial⟩
      simp only [Caller.endAdd, Caller.swapped]
      omega
    · simp only [callerStep, same, if_false, Option.some.injEq, Prod.mk.injEq] at h
      obtain ⟨-, rfl⟩ := h
      exact ⟨single, point⟩
  | subLoad =>
    simp only [callerStep, Option.some.injEq, Prod.mk.injEq] at h
    obtain ⟨-, rfl⟩ := h
    exact ⟨single, point⟩
  | subCas old =>
    have empty : swaps = [] := point
    by_cases same : pte = old
    · simp only [callerStep, same, if_true, Option.some.injEq, Prod.mk.injEq] at h
      obtain ⟨-, rfl⟩ := h
      refine ⟨?_, old, ?_⟩
      · simp only [Caller.endSub, Caller.swapped] at single ⊢
        omega
      · simp [Caller.endSub, Caller.swapped, empty]
    · simp only [callerStep, same, if_false, Option.some.injEq, Prod.mk.injEq] at h
      obtain ⟨-, rfl⟩ := h
      exact ⟨single, point⟩

/-- Where nothing overflows, the pins a caller holds follow its successful swaps. -/
theorem callerStep_held {pte pte' : UInt64} {c c' : Caller} (room : pte.toNat + 4 < 2 ^ 64)
    (h : callerStep pte c = some (pte', c')) :
    c'.held = c.held + (match c.pc with | .addCas old _ => if pte = old then 1 else 0 | _ => 0)
      - (match c.pc with | .subCas old => if pte = old then 1 else 0 | _ => 0) := by
  obtain ⟨pc, adds, subs, swaps⟩ := c
  cases pc with
  | idle | added | subbed => simp [callerStep] at h
  | addLoad newVal =>
    simp only [callerStep, addBody_of_room newVal room, Option.some.injEq, Prod.mk.injEq] at h
    obtain ⟨-, rfl⟩ := h
    simp [Caller.held]
  | addCas old newVal =>
    simp only [callerStep] at h
    split at h <;> cases h <;> simp_all [Caller.held, Caller.endAdd, Caller.swapped]
    omega
  | subLoad =>
    simp only [callerStep, Option.some.injEq, Prod.mk.injEq] at h
    obtain ⟨-, rfl⟩ := h
    simp [Caller.held]
  | subCas old =>
    simp only [callerStep] at h
    split at h <;> cases h <;> simp_all [Caller.held, Caller.endSub, Caller.swapped]
    omega

/-- A swap leaves the present bit as the kernel last set it. -/
theorem callerStep_present {pte pte' : UInt64} {c c' : Caller} (room : pte.toNat + 4 < 2 ^ 64)
    (sound : c.Sound) (covered : c.subs < c.adds → 0 < refcnt pte)
    (h : callerStep pte c = some (pte', c')) : isUxptePresent pte' = isUxptePresent pte := by
  obtain ⟨pc, adds, subs, swaps⟩ := c
  obtain ⟨-, point⟩ := sound
  cases pc with
  | idle | added | subbed => simp [callerStep] at h
  | addLoad newVal =>
    simp only [callerStep, addBody_of_room newVal room, Option.some.injEq, Prod.mk.injEq] at h
    rw [h.1]
  | addCas old newVal =>
    simp only [callerStep] at h
    split at h
    · rename_i same
      cases h
      subst same
      obtain ⟨-, -, prepared⟩ := point
      rw [prepared (ne_underReclaim_of_toNat_lt (by omega)), isUxptePresent_eq, isUxptePresent_eq,
        add_one_toNat room, Nat.add_mod_right]
    · cases h
      rfl
  | subLoad =>
    simp only [callerStep, Option.some.injEq, Prod.mk.injEq] at h
    rw [h.1]
  | subCas old =>
    simp only [callerStep] at h
    split at h
    · rename_i same
      cases h
      subst same
      have pinned := covered point
      have less := sub_one_toNat pinned
      unfold refcnt at pinned
      rw [refcntOne_toNat] at pinned
      rw [isUxptePresent_eq, isUxptePresent_eq, less]
      congr 2
      omega
    · cases h
      rfl

/-! ### Runs -/

variable [Fintype T]

structure Pinning (before : Nat) (s : Cell T) : Prop where
  shared : Shared before s
  unmarked : s.pte ≠ uxpteUnderReclaim
  alternates : ∀ t, (s.callers t).Alternates

section Step

variable {before : Nat} {s s' : Cell T} {a : Action T}

omit [DecidableEq T] in
theorem Pinning.refcnt_eq (pinning : Pinning before s) :
    (refcnt s.pte : Int) = before + ∑ t, (s.callers t).held := by
  have balanced := pinning.shared.balanced
  rwa [pins_of_ne pinning.unmarked] at balanced

omit [DecidableEq T] in
theorem Pinning.covered (pinning : Pinning before s) (t : T)
    (owes : (s.callers t).subs < (s.callers t).adds) : 0 < refcnt s.pte := by
  have positive := pinning.shared.covered t owes
  rwa [pins_of_ne pinning.unmarked] at positive

omit [DecidableEq T] in
/-- Each thread holds at most one pin, so the word stays below its upper end. -/
theorem Pinning.room (pinning : Pinning before s) (low : before < 2 ^ 62)
    (few : Fintype.card T < 2 ^ 60) : s.pte.toNat + 4 < 2 ^ 64 := by
  have count := pinning.refcnt_eq
  have each : ∀ t ∈ Finset.univ, (s.callers t).held ≤ 1 := by
    intro t _
    have single := (pinning.alternates t).1
    rw [Caller.held]
    omega
  have total := Finset.sum_le_card_nsmul Finset.univ (fun t => (s.callers t).held) 1 each
  rw [Finset.card_univ, nsmul_eq_mul, mul_one] at total
  unfold refcnt at count
  rw [refcntOne_toNat] at count
  omega

theorem step_pinning (pinning : Pinning before s) (low : before < 2 ^ 62)
    (few : Fintype.card T < 2 ^ 60) (once : PinsOnce s a) (h : step s a = some s') :
    Pinning before s' := by
  have room := pinning.room low few
  have shared : Shared before s' :=
    step_shared pinning.shared (.inr room) (fun _ _ _ _ => pinning.unmarked) h
  cases a with
  | callAdd t =>
    obtain ⟨-, ⟨⟩⟩ := Option.ite_none_right_eq_some.mp h
    refine ⟨shared, pinning.unmarked, forall_update ?_ fun u _ => pinning.alternates u⟩
    exact ⟨(pinning.alternates t).1, once⟩
  | callSub t =>
    obtain ⟨-, ⟨⟩⟩ := Option.ite_none_right_eq_some.mp h
    refine ⟨shared, pinning.unmarked, forall_update ?_ fun u _ => pinning.alternates u⟩
    exact ⟨(pinning.alternates t).1, rfl⟩
  | step t =>
    obtain ⟨⟨pte, c⟩, stepped, rfl⟩ := Option.map_eq_some_iff.mp h
    have marker := (callerStep_sound (.inr room) (pinning.shared.sound t) (pinning.shared.covered t)
      (fun _ _ => pinning.unmarked) stepped).2.2
    refine ⟨shared, fun marked => pinning.unmarked (marker.mp marked), ?_⟩
    exact forall_update (callerStep_alternates room (pinning.alternates t) stepped)
      fun u _ => pinning.alternates u
  | startReclaim => exact once.elim
  | endReclaim => exact once.elim
  | setPresent present =>
    obtain ⟨-, ⟨⟩⟩ := Option.ite_none_left_eq_some.mp h
    have value := setPresent_toNat room present
    have bit : (if present then 1 else 0) ≤ 1 := by split <;> omega
    refine ⟨shared, ne_underReclaim_of_toNat_lt (lt_of_eq_of_lt value ?_), pinning.alternates⟩
    omega

theorem step_refcnt (pinning : Pinning before s) (low : before < 2 ^ 62)
    (few : Fintype.card T < 2 ^ 60) (once : PinsOnce s a) (h : step s a = some s') :
    (refcnt s'.pte : Int) = refcnt s.pte + (if addSwaps s a then 1 else 0)
      - (if subSwaps s a then 1 else 0) := by
  have room := pinning.room low few
  rw [(step_pinning pinning low few once h).refcnt_eq, pinning.refcnt_eq]
  cases a with
  | callAdd t | callSub t =>
    obtain ⟨-, ⟨⟩⟩ := Option.ite_none_right_eq_some.mp h
    simp only [Cell.setCaller]
    rw [sum_update Caller.held]
    simp [Caller.held, addSwaps, subSwaps]
  | step t =>
    obtain ⟨⟨pte, c⟩, stepped, rfl⟩ := Option.map_eq_some_iff.mp h
    have moved := callerStep_held room stepped
    simp only [Cell.setCaller]
    rw [sum_update Caller.held, moved]
    cases at_ : (s.callers t).pc <;> simp [addSwaps, subSwaps, at_]
    all_goals omega
  | startReclaim => exact once.elim
  | endReclaim => exact once.elim
  | setPresent present =>
    obtain ⟨-, ⟨⟩⟩ := Option.ite_none_left_eq_some.mp h
    simp [addSwaps, subSwaps]

end Step

omit [DecidableEq T] in
theorem quiet_pinning {s : Cell T} (quiet : Quiet s) (below : s.pte.toNat < 2 ^ 63) :
    Pinning (refcnt s.pte) s := by
  have unmarked := ne_underReclaim_of_toNat_lt (show s.pte.toNat < 2 ^ 64 - 2 by omega)
  refine ⟨?_, unmarked, fun t => ?_⟩
  · rw [← pins_of_ne unmarked]
    exact quiet_shared quiet
  · rw [quiet t]
    exact ⟨by decide, trivial⟩

/-- In every interleaving the refcount is what it was before, with one more for each successful swap
of a `UxpteAdd` and one less for each of a `UxpteSub`. A call that has returned swapped exactly
once, and no swap undoes what the kernel did to the present bit. -/
theorem no_lost_pin_update (few : Fintype.card T < 2 ^ 60) {s s' : Cell T} (quiet : Quiet s)
    (below : s.pte.toNat < 2 ^ 63) {actions : List (Action T)}
    (once : (sharing T).Along PinsOnce s actions) (ran : (sharing T).run s actions = some s') :
    (refcnt s'.pte : Int) = refcnt s.pte + (sharing T).tally addSwaps s actions
      - (sharing T).tally subSwaps s actions ∧
    (∀ t, (s'.callers t).pc = .added ∨ (s'.callers t).pc = .subbed → (s'.callers t).swaps.length = 1) ∧
    ∀ t s'', step s' (.step t) = some s'' → isUxptePresent s''.pte = isUxptePresent s'.pte := by
  have low : refcnt s.pte < 2 ^ 62 := by
    unfold refcnt
    rw [refcntOne_toNat]
    omega
  have start := quiet_pinning quiet below
  have keep : ∀ (s₁ : Cell T) a s₂, Pinning (refcnt s.pte) s₁ → PinsOnce s₁ a →
      (sharing T).step s₁ a = some s₂ → Pinning (refcnt s.pte) s₂ :=
    fun _ _ _ pinning once h => step_pinning pinning low few once h
  have pinning : Pinning (refcnt s.pte) s' := System.Along.invariant keep start once ran
  refine ⟨?_, ?_, ?_⟩
  · exact System.value_eq_tally (P := Pinning (refcnt s.pte)) (w := fun s => (refcnt s.pte : Int)) keep
      (fun _ _ _ pinning once h => step_refcnt pinning low few once h) start once ran
  · rintro t (added | subbed)
    · obtain ⟨-, point⟩ := pinning.shared.sound t
      rw [added] at point
      obtain ⟨v, -, swaps⟩ := point
      rw [swaps]
      rfl
    · obtain ⟨-, point⟩ := pinning.alternates t
      rw [subbed] at point
      obtain ⟨v, swaps⟩ := point
      rw [swaps]
      rfl
  · intro t s'' h
    obtain ⟨⟨pte, c⟩, stepped, rfl⟩ := Option.map_eq_some_iff.mp h
    exact callerStep_present (pinning.room low few) (pinning.shared.sound t) (pinning.covered t) stepped

def pinsOnce (s : Cell Bool) : Action Bool → Bool
  | .callAdd t => (s.callers t).adds == (s.callers t).subs
  | .startReclaim | .endReclaim => false
  | _ => true

theorem pinsOnce_sound (s : Cell Bool) (a : Action Bool) (h : pinsOnce s a = true) : PinsOnce s a := by
  cases a with
  | callAdd t => exact eq_of_beq h
  | startReclaim => cases h
  | endReclaim => cases h
  | _ => trivial

def idleCell : Cell Bool := { pte := 0, callers := fun _ => ⟨.idle, 0, 0, []⟩ }

/-- Two threads load the same value, the present bit changes before the second swap, and the first
thread gives its pin back. -/
def racingPins : List (Action Bool) :=
  [.callAdd true, .callAdd false, .step true, .step false, .step true, .setPresent true, .step false,
    .step false, .step false, .callSub true, .step true, .step true]

theorem racing_pins_all_counted :
    ∃ s', (sharing Bool).run idleCell racingPins = some s' ∧ refcnt s'.pte = 1 ∧
      (s'.callers false).swaps.length = 1 := by
  have once := System.along_of_checks pinsOnce_sound
    (show (sharing Bool).checks pinsOnce idleCell racingPins = true by decide)
  have seen : ((sharing Bool).run idleCell racingPins).map (fun s => (s.callers false).pc) = some .added := by
    decide
  obtain ⟨s', ran, returned⟩ := Option.map_eq_some_iff.mp seen
  obtain ⟨count, swapped, -⟩ := no_lost_pin_update (by decide) (fun _ => rfl) (by decide) once ran
  have adds : (sharing Bool).tally addSwaps idleCell racingPins = 2 := by decide
  have subs : (sharing Bool).tally subSwaps idleCell racingPins = 1 := by decide
  have before : refcnt idleCell.pte = 0 := by decide
  rw [adds, subs, before] at count
  exact ⟨s', ran, by omega, swapped false (.inl returned)⟩

end MemoryUtils.Uxpte
