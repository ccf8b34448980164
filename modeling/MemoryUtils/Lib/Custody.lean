import Mathlib.Data.List.Induction

/-!
Handles that are acquired and released one at a time. A log of uses says which handles were acquired
with which value, lent by somebody else, and released. A custodian that holds at most one handle and
releases what it owns before it takes another one releases each handle once, with its own value,
unless it still owns one at the end.
-/

namespace MemoryUtils.Lib

inductive Use (H V : Type) where
  | acquire (h : H) (v : V)
  | lend (h : H)
  | release (h : H) (v : V)
  deriving DecidableEq

inductive Custody (H V : Type) where
  | free
  | owned (h : H) (v : V)
  | borrowed (h : H)
  deriving DecidableEq

variable {H V : Type} [DecidableEq H] [DecidableEq V]

/-- The values `h` is released with before it is acquired or lent again. -/
def releasesOf (h : H) : List (Use H V) → List V
  | [] => []
  | .acquire other _ :: rest => if other = h then [] else releasesOf h rest
  | .lend other :: rest => if other = h then [] else releasesOf h rest
  | .release other v :: rest => if other = h then v :: releasesOf h rest else releasesOf h rest

/-- Every acquired handle is released once, with the value it was acquired with. -/
def ReleasedOnce (log : List (Use H V)) : Prop :=
  ∀ before h v after, log = before ++ .acquire h v :: after → releasesOf h after = [v]

namespace Custody

/-- What is owned must be released first; what is borrowed may just be dropped. -/
def next : Custody H V → Use H V → Option (Custody H V)
  | .free, .acquire h v | .borrowed _, .acquire h v => some (.owned h v)
  | .free, .lend h | .borrowed _, .lend h => some (.borrowed h)
  | .owned h v, .release other w => if other = h ∧ w = v then some .free else none
  | .borrowed h, .release other _ => if other = h then some .free else none
  | .free, .release _ _ | .owned _ _, .acquire _ _ | .owned _ _, .lend _ => none

def run : Custody H V → List (Use H V) → Option (Custody H V)
  | c, [] => some c
  | c, u :: rest => (c.next u).bind fun c' => run c' rest

def owns : Custody H V → Bool
  | .owned _ _ => true
  | .free | .borrowed _ => false

def holds (h : H) : Custody H V → Bool
  | .free => false
  | .owned other _ | .borrowed other => other = h

theorem next_acquire {c : Custody H V} (unowned : c.owns = false) (h : H) (v : V) :
    c.next (.acquire h v) = some (.owned h v) := by
  cases c with
  | owned => cases unowned
  | free | borrowed => rfl

theorem next_lend {c : Custody H V} (unowned : c.owns = false) (h : H) :
    c.next (.lend h) = some (.borrowed h) := by
  cases c with
  | owned => cases unowned
  | free | borrowed => rfl

@[simp] theorem next_release_owned (h : H) (v : V) : (owned h v).next (.release h v) = some .free :=
  if_pos ⟨rfl, rfl⟩

@[simp] theorem next_release_borrowed (h : H) (v : V) : (borrowed h).next (.release h v) = some .free :=
  if_pos rfl

theorem run_append (c : Custody H V) (xs ys : List (Use H V)) :
    c.run (xs ++ ys) = (c.run xs).bind fun c' => c'.run ys := by
  induction xs generalizing c with
  | nil => rfl
  | cons u rest ih =>
    rw [List.cons_append, run, run]
    cases c.next u with
    | none => rfl
    | some c' => exact ih c'

/-- What a use can do to the custody. -/
theorem next_cases {c c' : Custody H V} {u : Use H V} (stepped : c.next u = some c') :
    (∃ h v, u = .acquire h v ∧ c.owns = false ∧ c' = .owned h v) ∨
      (∃ h, u = .lend h ∧ c.owns = false ∧ c' = .borrowed h) ∨
      (∃ h v, u = .release h v ∧ (c = .owned h v ∨ c = .borrowed h) ∧ c' = .free) := by
  cases c with
  | free =>
    cases u with
    | acquire h v => exact .inl ⟨h, v, rfl, rfl, (Option.some.inj stepped).symm⟩
    | lend h => exact .inr (.inl ⟨h, rfl, rfl, (Option.some.inj stepped).symm⟩)
    | release h v => cases stepped
  | borrowed g =>
    cases u with
    | acquire h v => exact .inl ⟨h, v, rfl, rfl, (Option.some.inj stepped).symm⟩
    | lend h => exact .inr (.inl ⟨h, rfl, rfl, (Option.some.inj stepped).symm⟩)
    | release h v =>
      obtain ⟨rfl, same⟩ := Option.ite_none_right_eq_some.mp stepped
      exact .inr (.inr ⟨h, v, rfl, .inr rfl, (Option.some.inj same).symm⟩)
  | owned g w =>
    cases u with
    | acquire h v => cases stepped
    | lend h => cases stepped
    | release h v =>
      obtain ⟨⟨rfl, rfl⟩, same⟩ := Option.ite_none_right_eq_some.mp stepped
      exact .inr (.inr ⟨h, v, rfl, .inl rfl, (Option.some.inj same).symm⟩)

/-- A handle that is not held is not released before it is acquired or lent. -/
theorem releasesOf_of_not_holds {log : List (Use H V)} {c c' : Custody H V} {h : H}
    (other : c.holds h = false) (ran : c.run log = some c') : releasesOf h log = [] := by
  induction log generalizing c with
  | nil => rfl
  | cons u rest ih =>
    obtain ⟨middle, stepped, later⟩ := Option.bind_eq_some_iff.mp ran
    obtain ⟨g, v, rfl, -, rfl⟩ | ⟨g, rfl, -, rfl⟩ | ⟨g, v, rfl, held, rfl⟩ := next_cases stepped
    · rw [releasesOf]
      split
      · rfl
      · rename_i different
        exact ih (by simpa [holds] using different) later
    · rw [releasesOf]
      split
      · rfl
      · rename_i different
        exact ih (by simpa [holds] using different) later
    · have different : g ≠ h := by
        rcases held with rfl | rfl <;> simpa [holds] using other
      rw [releasesOf, if_neg different]
      exact ih rfl later

theorem releasesOf_of_owned {log : List (Use H V)} {c : Custody H V} {h : H} {v : V}
    (ran : (owned h v).run log = some c) (released : c.owns = false) : releasesOf h log = [v] := by
  cases log with
  | nil =>
    cases ran
    cases released
  | cons u rest =>
    obtain ⟨middle, stepped, later⟩ := Option.bind_eq_some_iff.mp ran
    obtain ⟨g, w, rfl, unowned, -⟩ | ⟨g, rfl, unowned, -⟩ | ⟨g, w, rfl, held, rfl⟩ := next_cases stepped
    · cases unowned
    · cases unowned
    · rcases held with same | same
      · cases same
        rw [releasesOf, if_pos rfl, releasesOf_of_not_holds rfl later]
      · cases same

theorem run_owned {log : List (Use H V)} {c : Custody H V} {h : H} {v : V} (unowned : c.owns = false)
    (ran : c.run log = some (.owned h v)) : ∃ before, log = before ++ [.acquire h v] := by
  induction log using List.reverseRecOn with
  | nil =>
    cases ran
    cases unowned
  | append_singleton before u ih =>
    rw [run_append] at ran
    obtain ⟨middle, -, last⟩ := Option.bind_eq_some_iff.mp ran
    obtain ⟨end_, stepped, same⟩ := Option.bind_eq_some_iff.mp last
    cases same
    obtain ⟨g, w, rfl, -, same⟩ | ⟨g, -, -, same⟩ | ⟨g, w, -, -, same⟩ := next_cases stepped
    · cases same
      exact ⟨before, rfl⟩
    · cases same
    · cases same

/-- What a custodian acquires is released once, exactly when it owns nothing at the end. -/
theorem releasedOnce_iff {log : List (Use H V)} {c : Custody H V} (ran : (free : Custody H V).run log = some c) :
    ReleasedOnce log ↔ c.owns = false := by
  constructor
  · intro once
    cases c with
    | free | borrowed h => rfl
    | owned h v =>
      obtain ⟨before, same⟩ := run_owned rfl ran
      have released := once before h v [] same
      cases released
  · rintro unowned before h v after rfl
    rw [run_append] at ran
    obtain ⟨middle, -, later⟩ := Option.bind_eq_some_iff.mp ran
    obtain ⟨c', stepped, ran⟩ := Option.bind_eq_some_iff.mp later
    obtain ⟨g, w, same, -, rfl⟩ | ⟨g, same, -, -⟩ | ⟨g, w, same, -, -⟩ := next_cases stepped
    · cases same
      exact releasesOf_of_owned ran unowned
    · cases same
    · cases same

end Custody

end MemoryUtils.Lib
