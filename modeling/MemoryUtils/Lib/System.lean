import Mathlib.Algebra.BigOperators.Group.Finset.Piecewise
import Mathlib.Data.Fintype.BigOperators

/-!
Labelled transition systems with a partial step function, and the rules the concrete systems
use: an invariant of every reachable state, runs given by their action list, and properties
that hold along a run. A condition `ok` on a step restricts which steps a run may take.
-/

namespace MemoryUtils.Lib

structure System (σ α : Type) where
  init : σ → Prop
  step : σ → α → Option σ

namespace System

variable {σ α : Type} (S : System σ α)

/-- The states reached by steps that all meet `ok`. -/
inductive Reach (ok : σ → α → Prop) : σ → Prop where
  | init {s : σ} : S.init s → Reach ok s
  | step {s t : σ} {a : α} : Reach ok s → ok s a → S.step s a = some t → Reach ok t

def run : σ → List α → Option σ
  | s, [] => some s
  | s, a :: rest => (S.step s a).bind fun t => run t rest

/-- `P` holds of every step that the actions take from `s`, up to the first disabled one. -/
def Along (P : σ → α → Prop) : σ → List α → Prop
  | _, [] => True
  | s, a :: rest => P s a ∧ ∀ t, S.step s a = some t → Along P t rest

def Visits (P : σ → Prop) : σ → List α → Prop
  | s, [] => P s
  | s, a :: rest => P s ∧ ∀ t, S.step s a = some t → Visits P t rest

/-- A run whose steps all pass a test that can be evaluated. -/
def checks (test : σ → α → Bool) : σ → List α → Bool
  | _, [] => true
  | s, a :: rest => test s a && (S.step s a).all fun t => checks test t rest

def probes (test : σ → Bool) : σ → List α → Bool
  | s, [] => test s
  | s, a :: rest => test s && (S.step s a).all fun t => probes test t rest

/-- How many steps of a run pass a test. -/
def tally (test : σ → α → Bool) : σ → List α → Nat
  | _, [] => 0
  | s, a :: rest => (if test s a then 1 else 0) + ((S.step s a).map fun t => tally test t rest).getD 0

variable {S} {ok ok' : σ → α → Prop} {P : σ → Prop}

theorem Reach.invariant (start : ∀ s, S.init s → P s)
    (keep : ∀ s a t, P s → ok s a → S.step s a = some t → P t)
    {s : σ} (reach : S.Reach ok s) : P s := by
  induction reach with
  | init initial => exact start _ initial
  | step _ permitted stepped ih => exact keep _ _ _ ih permitted stepped

theorem Reach.mono (imp : ∀ s a, ok s a → ok' s a) {s : σ} (reach : S.Reach ok s) :
    S.Reach ok' s := by
  induction reach with
  | init initial => exact .init initial
  | step _ permitted stepped ih => exact .step ih (imp _ _ permitted) stepped

theorem Reach.of_run {s t : σ} (actions : List α) (reach : S.Reach ok s)
    (along : S.Along ok s actions) (ran : S.run s actions = some t) : S.Reach ok t := by
  induction actions generalizing s with
  | nil =>
    cases ran
    exact reach
  | cons a rest ih =>
    obtain ⟨next, stepped, ran⟩ := Option.bind_eq_some_iff.mp ran
    exact ih (.step reach along.1 stepped) (along.2 next stepped) ran

theorem run_cons_of_step {s t : σ} {a : α} (stepped : S.step s a = some t) (rest : List α) :
    S.run s (a :: rest) = S.run t rest := by
  rw [run, stepped]
  rfl

theorem along_of_checks {test : σ → α → Bool} (sound : ∀ s a, test s a = true → ok s a)
    {actions : List α} {s : σ} (checked : S.checks test s actions = true) :
    S.Along ok s actions := by
  induction actions generalizing s with
  | nil => trivial
  | cons a rest ih =>
    simp only [checks, Bool.and_eq_true] at checked
    refine ⟨sound s a checked.1, fun t stepped => ih ?_⟩
    simpa [stepped] using checked.2

theorem visits_of_probes {test : σ → Bool} (sound : ∀ s, test s = true → P s)
    {actions : List α} {s : σ} (probed : S.probes test s actions = true) :
    S.Visits P s actions := by
  induction actions generalizing s with
  | nil => exact sound s probed
  | cons a rest ih =>
    simp only [probes, Bool.and_eq_true] at probed
    refine ⟨sound s probed.1, fun t stepped => ih ?_⟩
    simpa [stepped] using probed.2

/-- A concrete run, evaluated: its last state is reachable and looks as computed. -/
theorem exists_reach {β : Type} (ok : σ → α → Prop) (test : σ → α → Bool)
    (sound : ∀ s a, test s a = true → ok s a) {s : σ} (initial : S.init s) (actions : List α) (view : σ → β) {v : β}
    (checked : S.checks test s actions = true) (ran : (S.run s actions).map view = some v) :
    ∃ t, S.Reach ok t ∧ view t = v := by
  obtain ⟨t, ran, seen⟩ := Option.map_eq_some_iff.mp ran
  exact ⟨t, .of_run actions (.init initial) (along_of_checks sound checked) ran, seen⟩

theorem along_of_forall {actions : List α} (each : ∀ a ∈ actions, ∀ s, ok s a) (s : σ) :
    S.Along ok s actions := by
  induction actions generalizing s with
  | nil => trivial
  | cons a rest ih =>
    exact ⟨each a (by simp) s, fun t _ => ih (fun b member => each b (by simp [member])) t⟩

theorem exists_reach_of_forall {β : Type} {s : σ} (initial : S.init s) (actions : List α)
    (each : ∀ a ∈ actions, ∀ s, ok s a) (view : σ → β) {v : β}
    (ran : (S.run s actions).map view = some v) : ∃ t, S.Reach ok t ∧ view t = v := by
  obtain ⟨t, ran, seen⟩ := Option.map_eq_some_iff.mp ran
  exact ⟨t, .of_run actions (.init initial) (along_of_forall each s) ran, seen⟩

theorem Reach.along {R : σ → α → Prop} (all : ∀ s a, S.Reach ok s → ok s a → R s a)
    {s : σ} {actions : List α} (reach : S.Reach ok s) (along : S.Along ok s actions) :
    S.Along R s actions := by
  induction actions generalizing s with
  | nil => trivial
  | cons a rest ih =>
    exact ⟨all s a reach along.1, fun t stepped => ih (.step reach along.1 stepped) (along.2 t stepped)⟩

theorem Along.after {before rest : List α} {a : α} {s t : σ}
    (along : S.Along ok s (before ++ a :: rest)) (ran : S.run s before = some t) : ok t a := by
  induction before generalizing s with
  | nil =>
    cases ran
    exact along.1
  | cons b before ih =>
    obtain ⟨next, stepped, ran⟩ := Option.bind_eq_some_iff.mp ran
    exact ih (along.2 next stepped) ran

theorem Visits.imp {Q : σ → Prop} (imp : ∀ s, P s → Q s) {s : σ} {actions : List α}
    (visits : S.Visits P s actions) : S.Visits Q s actions := by
  induction actions generalizing s with
  | nil => exact imp s visits
  | cons a rest ih => exact ⟨imp s visits.1, fun t stepped => ih (visits.2 t stepped)⟩

theorem visits_congr {Q : σ → Prop} (same : ∀ s, P s ↔ Q s) {s : σ} {actions : List α} :
    S.Visits P s actions ↔ S.Visits Q s actions :=
  ⟨.imp fun s => (same s).mp, .imp fun s => (same s).mpr⟩

section Invariant

variable {I F : σ → Prop} {Q R : σ → α → Prop} {s : σ} {actions : List α}

theorem Along.visits (keep : ∀ s a t, I s → F s → Q s a → S.step s a = some t → I t)
    (holds : I s) (within : S.Visits F s actions) (along : S.Along Q s actions) :
    S.Visits I s actions := by
  induction actions generalizing s with
  | nil => exact holds
  | cons a rest ih =>
    refine ⟨holds, fun t stepped => ?_⟩
    exact ih (keep s a t holds within.1 along.1 stepped) (within.2 t stepped) (along.2 t stepped)

/-- Two conditions that agree at every step from a state with the invariant hold of the same runs. -/
theorem along_iff (agree : ∀ s a, I s → F s → (R s a ↔ Q s a))
    (keep : ∀ s a t, I s → F s → Q s a → S.step s a = some t → I t)
    (holds : I s) (within : S.Visits F s actions) :
    S.Along R s actions ↔ S.Along Q s actions := by
  induction actions generalizing s with
  | nil => exact Iff.rfl
  | cons a rest ih =>
    rw [Along, Along, agree s a holds within.1]
    refine and_congr_right fun permitted => forall₂_congr fun t stepped => ?_
    exact ih (keep s a t holds within.1 permitted stepped) (within.2 t stepped)

end Invariant

/-- A state property that each step keeps exactly when it meets `R` holds on the runs that meet `R`
throughout. -/
theorem visits_iff_along {R : σ → α → Prop} (disabled : ∀ s a, S.step s a = none → R s a)
    (agree : ∀ s a t, P s → S.step s a = some t → (P t ↔ R s a)) {s : σ} {actions : List α}
    (holds : P s) : S.Visits P s actions ↔ S.Along R s actions := by
  induction actions generalizing s with
  | nil => exact iff_of_true holds trivial
  | cons a rest ih =>
    rw [Visits, Along, and_iff_right holds]
    cases stepped : S.step s a with
    | none => simp [disabled s a stepped]
    | some t =>
      simp only [Option.some.injEq, forall_eq']
      constructor
      · intro visits
        have after : P t := by
          cases rest with
          | nil => exact visits
          | cons _ _ => exact visits.1
        exact ⟨(agree s a t holds stepped).mp after, (ih after).mp visits⟩
      · rintro ⟨met, along⟩
        exact (ih ((agree s a t holds stepped).mpr met)).mpr along

theorem Along.keeps (keep : ∀ s a t, P s → ok s a → S.step s a = some t → P t) {s : σ} {actions : List α}
    (holds : P s) (along : S.Along ok s actions) : S.Visits P s actions := by
  induction actions generalizing s with
  | nil => exact holds
  | cons a rest ih =>
    exact ⟨holds, fun t stepped => ih (keep s a t holds along.1 stepped) (along.2 t stepped)⟩

theorem Along.imp {R : σ → α → Prop} (keep : ∀ s a t, P s → ok s a → S.step s a = some t → P t)
    (imp : ∀ s a, P s → ok s a → R s a) {s : σ} {actions : List α} (holds : P s)
    (along : S.Along ok s actions) : S.Along R s actions := by
  induction actions generalizing s with
  | nil => trivial
  | cons a rest ih =>
    exact ⟨imp s a holds along.1, fun t stepped => ih (keep s a t holds along.1 stepped) (along.2 t stepped)⟩

theorem Along.invariant (keep : ∀ s a t, P s → ok s a → S.step s a = some t → P t) {s t : σ}
    {actions : List α} (holds : P s) (along : S.Along ok s actions) (ran : S.run s actions = some t) : P t := by
  induction actions generalizing s with
  | nil =>
    cases ran
    exact holds
  | cons a rest ih =>
    obtain ⟨next, stepped, ran⟩ := Option.bind_eq_some_iff.mp ran
    exact ih (keep s a next holds along.1 stepped) (along.2 next stepped) ran

/-- A quantity that each permitted step moves by one or leaves alone is known from counting the
steps. -/
theorem value_eq_tally {up down : σ → α → Bool} {w : σ → Int}
    (keep : ∀ s a t, P s → ok s a → S.step s a = some t → P t)
    (change : ∀ s a t, P s → ok s a → S.step s a = some t →
      w t = w s + (if up s a then 1 else 0) - (if down s a then 1 else 0))
    {s t : σ} {actions : List α} (holds : P s) (along : S.Along ok s actions)
    (ran : S.run s actions = some t) :
    w t = w s + S.tally up s actions - S.tally down s actions := by
  induction actions generalizing s with
  | nil =>
    cases ran
    simp [tally]
  | cons a rest ih =>
    obtain ⟨next, stepped, ran⟩ := Option.bind_eq_some_iff.mp ran
    have later := ih (keep s a next holds along.1 stepped) (along.2 next stepped) ran
    have first := change s a next holds along.1 stepped
    simp only [tally, stepped, Option.map_some, Option.getD_some]
    rw [later, first]
    split_ifs <;> omega

theorem tally_never (s : σ) (actions : List α) : S.tally (fun _ _ => false) s actions = 0 := by
  induction actions generalizing s with
  | nil => rfl
  | cons a rest ih =>
    rw [tally]
    cases S.step s a with
    | none => rfl
    | some t => simp [ih]

/-- A rank that every counted step uses up bounds how many of them a run makes. -/
theorem tally_add_rank_le (test : σ → α → Bool) (rank : σ → Nat)
    (keep : ∀ s a t, P s → ok s a → S.step s a = some t → P t)
    (drops : ∀ s a t, P s → ok s a → S.step s a = some t → rank t + (if test s a then 1 else 0) ≤ rank s)
    {s t : σ} {actions : List α} (holds : P s) (along : S.Along ok s actions)
    (ran : S.run s actions = some t) : S.tally test s actions + rank t ≤ rank s := by
  induction actions generalizing s with
  | nil =>
    cases ran
    simp [tally]
  | cons a rest ih =>
    obtain ⟨next, stepped, ran⟩ := Option.bind_eq_some_iff.mp ran
    have later := ih (keep s a next holds along.1 stepped) (along.2 next stepped) ran
    have first := drops s a next holds along.1 stepped
    simp only [tally, stepped, Option.map_some, Option.getD_some]
    omega

/-- Where a step that lowers the rank can be made as long as `going` holds, a run makes it false. -/
theorem exists_run_of_rank {rank : σ → Nat} {going : σ → Prop}
    (keep : ∀ s a t, P s → ok s a → S.step s a = some t → P t)
    (progress : ∀ s, P s → going s → ∃ a t, ok s a ∧ S.step s a = some t ∧ rank t < rank s) {s : σ}
    (holds : P s) : ∃ actions t, S.Along ok s actions ∧ S.run s actions = some t ∧ P t ∧ ¬ going t := by
  induction size : rank s using Nat.strong_induction_on generalizing s with
  | _ size ih =>
    by_cases more : going s
    · obtain ⟨a, next, permitted, stepped, lower⟩ := progress s holds more
      obtain ⟨actions, t, along, ran, last⟩ :=
        ih (rank next) (size ▸ lower) (keep s a next holds permitted stepped) rfl
      refine ⟨a :: actions, t, ⟨permitted, ?_⟩, ?_, last⟩
      · intro next' stepped'
        obtain rfl := Option.some.inj (stepped.symm.trans stepped')
        exact along
      · rw [run_cons_of_step stepped]
        exact ran
    · exact ⟨[], s, trivial, rfl, holds, more⟩

end System

/-! ### One entry of a thread map -/

section ThreadMap

variable {T β : Type} [DecidableEq T]

theorem forall_update {P : T → β → Prop} {f : T → β} {t : T} {x : β}
    (own : P t x) (others : ∀ u, u ≠ t → P u (f u)) : ∀ u, P u (Function.update f t x u) := by
  intro u
  by_cases same : u = t
  · subst same
    simpa using own
  · simpa [same] using others u same

theorem sum_update [Fintype T] (w : β → Int) (f : T → β) (t : T) (x : β) :
    ∑ u, w (Function.update f t x u) = (∑ u, w (f u)) + (w x - w (f t)) := by
  have shape : ∀ u, w (Function.update f t x u) = Function.update (fun v => w (f v)) t (w x) u := by
    intro u
    by_cases same : u = t <;> simp [Function.update, same]
  simp only [shape]
  rw [Finset.sum_update_of_mem (Finset.mem_univ t),
    ← Finset.add_sum_erase Finset.univ (fun u => w (f u)) (Finset.mem_univ t), Finset.sdiff_singleton_eq_erase]
  omega

end ThreadMap

end MemoryUtils.Lib
