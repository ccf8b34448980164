import MemoryUtils.Lib.System

/-!
Forward simulation along a state abstraction. Each step of the concrete system is one event of the
abstract one, or none; a whole run then follows the run of its events.
-/

namespace MemoryUtils.Lib.System

variable {σ α τ β : Type} (S : System σ α) (A : System τ β)

/-- The events of the steps that the actions take from `s`, in order. -/
def events (event : σ → α → Option β) : σ → List α → List β
  | _, [] => []
  | s, a :: rest =>
    (event s a).toList ++ ((S.step s a).map fun t => events event t rest).getD []

/-- What a step with this event does to the abstract state; without an event it stutters. -/
def Follows (x y : τ) : Option β → Prop
  | none => y = x
  | some e => A.step x e = some y

variable {S A} {P : σ → Prop} {ok : σ → α → Prop} {view : σ → τ} {event : σ → α → Option β}

theorem run_append {x y : τ} {first : List β} (ran : A.run x first = some y) (rest : List β) :
    A.run x (first ++ rest) = A.run y rest := by
  induction first generalizing x with
  | nil =>
    cases ran
    rfl
  | cons e first ih =>
    obtain ⟨next, stepped, ran⟩ := Option.bind_eq_some_iff.mp ran
    rw [List.cons_append, run_cons_of_step stepped]
    exact ih ran

theorem Follows.run {x y : τ} {e : Option β} (follows : A.Follows x y e) : A.run x e.toList = some y := by
  cases e with
  | none =>
    cases follows
    rfl
  | some e => exact (run_cons_of_step follows []).trans rfl

theorem run_simulates (keep : ∀ s a t, P s → ok s a → S.step s a = some t → P t)
    (follow : ∀ s a t, P s → ok s a → S.step s a = some t → A.Follows (view s) (view t) (event s a))
    {s t : σ} {actions : List α} (holds : P s) (along : S.Along ok s actions)
    (ran : S.run s actions = some t) : A.run (view s) (S.events event s actions) = some (view t) := by
  induction actions generalizing s with
  | nil =>
    cases ran
    rfl
  | cons a rest ih =>
    obtain ⟨next, stepped, ran⟩ := Option.bind_eq_some_iff.mp ran
    have first := (follow s a next holds along.1 stepped).run
    have later := ih (keep s a next holds along.1 stepped) (along.2 next stepped) ran
    rw [events, stepped, Option.map_some, Option.getD_some, run_append first]
    exact later

/-- Two systems that take related steps, or none, on corresponding actions run alike. The relation may
depend on how many actions are left. -/
theorem run_rel_within {R : Nat → σ → τ → Prop} {f : α → β}
    (alike : ∀ left s x a, R (left + 1) s x → ok s a → Option.Rel (R left) (S.step s a) (A.step x (f a))) {s : σ}
    {x : τ} {actions : List α} (related : R actions.length s x) (along : S.Along ok s actions) :
    Option.Rel (R 0) (S.run s actions) (A.run x (actions.map f)) := by
  induction actions generalizing s x with
  | nil => exact .some related
  | cons a rest ih =>
    have first := alike rest.length s x a related along.1
    have later := along.2
    rw [List.map_cons, run, run]
    generalize S.step s a = next at first later
    generalize A.step x (f a) = next' at first
    cases first with
    | none => exact .none
    | some related => exact ih related (later _ rfl)

theorem run_rel {R : σ → τ → Prop} {f : α → β}
    (alike : ∀ s x a, R s x → ok s a → Option.Rel R (S.step s a) (A.step x (f a))) {s : σ} {x : τ} {actions : List α}
    (related : R s x) (along : S.Along ok s actions) : Option.Rel R (S.run s actions) (A.run x (actions.map f)) :=
  run_rel_within (R := fun _ => R) (fun _ => alike) related along

section Alike

variable {R : Nat → σ → τ → Prop} {f : α → β}
  (alike : ∀ left s x a, R (left + 1) s x → Option.Rel (R left) (S.step s a) (A.step x (f a)))
  {s : σ} {x : τ} {actions : List α}

include alike

/-- Systems that run alike visit states that agree on what related states agree on. -/
theorem visits_iff_of_rel {Q : τ → Prop} (agree : ∀ left s x, R left s x → (P s ↔ Q x))
    (related : R actions.length s x) : S.Visits P s actions ↔ A.Visits Q x (actions.map f) := by
  induction actions generalizing s x with
  | nil => exact agree 0 s x related
  | cons a rest ih =>
    have first := alike rest.length s x a related
    rw [List.map_cons, Visits, Visits, agree _ s x related]
    refine and_congr_right fun _ => ?_
    generalize S.step s a = next at first
    generalize A.step x (f a) = next' at first
    cases first with
    | none => simp
    | some related => simpa using ih related

theorem along_iff_of_rel {ok' : τ → β → Prop} (agree : ∀ left s x a, R (left + 1) s x → (ok s a ↔ ok' x (f a)))
    (related : R actions.length s x) : S.Along ok s actions ↔ A.Along ok' x (actions.map f) := by
  induction actions generalizing s x with
  | nil => exact Iff.rfl
  | cons a rest ih =>
    have first := alike rest.length s x a related
    rw [List.map_cons, Along, Along, agree _ s x a related]
    refine and_congr_right fun _ => ?_
    generalize S.step s a = next at first
    generalize A.step x (f a) = next' at first
    cases first with
    | none => simp
    | some related => simpa using ih related

end Alike

/-- What the first system's conditions imply of related states holds along the second one's run. -/
theorem along_rel {R : σ → τ → Prop} {f : α → β} {ok' : τ → β → Prop}
    (alike : ∀ s x a, R s x → ok s a → Option.Rel R (S.step s a) (A.step x (f a)))
    (implied : ∀ s x a, R s x → ok s a → ok' x (f a)) {s : σ} {x : τ} {actions : List α} (related : R s x)
    (along : S.Along ok s actions) : A.Along ok' x (actions.map f) := by
  induction actions generalizing s x with
  | nil => exact trivial
  | cons a rest ih =>
    have first := alike s x a related along.1
    have later := along.2
    rw [List.map_cons]
    refine ⟨implied s x a related along.1, fun next' stepped => ?_⟩
    rw [stepped] at first
    generalize S.step s a = next at first later
    cases first with
    | some related => exact ih related (later _ rfl)

/-- A quantity that no step lowers is below its last value throughout the run. -/
theorem along_below {w : σ → Nat} (keep : ∀ s a t, P s → ok s a → S.step s a = some t → P t)
    (grows : ∀ s a t, P s → ok s a → S.step s a = some t → w s ≤ w t) {s t : σ} {actions : List α}
    (holds : P s) (along : S.Along ok s actions) (ran : S.run s actions = some t) :
    w s ≤ w t ∧ S.Along (fun s a => ok s a ∧ w s ≤ w t) s actions := by
  induction actions generalizing s with
  | nil =>
    cases ran
    exact ⟨le_rfl, trivial⟩
  | cons a rest ih =>
    obtain ⟨next, stepped, ran⟩ := Option.bind_eq_some_iff.mp ran
    have grown := grows s a next holds along.1 stepped
    obtain ⟨below, later⟩ := ih (keep s a next holds along.1 stepped) (along.2 next stepped) ran
    refine ⟨grown.trans below, ⟨along.1, grown.trans below⟩, fun next' stepped' => ?_⟩
    obtain rfl := Option.some.inj (stepped.symm.trans stepped')
    exact later

end MemoryUtils.Lib.System
