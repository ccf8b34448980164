import MemoryUtils.Common.Region
import MemoryUtils.Lib.Simulation

/-!
What a purgeable object is for: memory that keeps its bytes. Nothing is reclaimed, pinned or rebuilt
here. The content changes only when somebody who is inside for writing modifies it; who may be
inside together is a parameter.
-/

namespace MemoryUtils
open Lib

/-- How accesses open and close, and which of them may write. -/
structure Discipline (Γ E W : Type) where
  outside : Γ
  move : Γ → E → Option Γ
  mayWrite : Γ → W → Bool

structure PlainMemory (Γ : Type) (n : Nat) where
  content : Content n
  accesses : Γ

inductive PlainEvent (E W : Type) where
  | access (e : E)
  | modify (w : W) (b : Builder)

variable {Γ E W : Type} {n : Nat}

/-- A modifier that fails leaves no event. -/
def plainStep (A : Discipline Γ E W) (s : PlainMemory Γ n) : PlainEvent E W → Option (PlainMemory Γ n)
  | .access e => (A.move s.accesses e).map fun g => { s with accesses := g }
  | .modify w b =>
    if A.mayWrite s.accesses w && (b n s.content).2 then some { s with content := (b n s.content).1 }
    else none

def plainMemory (A : Discipline Γ E W) (n : Nat) : System (PlainMemory Γ n) (PlainEvent E W) where
  init s := s.accesses = A.outside
  step := plainStep A

def modifications : List (PlainEvent E W) → List Builder
  | [] => []
  | .access _ :: rest => modifications rest
  | .modify _ b :: rest => b :: modifications rest

theorem plainStep_access {A : Discipline Γ E W} {s : PlainMemory Γ n} {e : E} {g : Γ}
    (moved : A.move s.accesses e = some g) : plainStep A s (.access e) = some { s with accesses := g } := by
  rw [plainStep, moved]
  rfl

theorem plainStep_modify {A : Discipline Γ E W} {s : PlainMemory Γ n} {w : W} {b : Builder}
    (writes : A.mayWrite s.accesses w = true) (succeeded : (b n s.content).2 = true) :
    plainStep A s (.modify w b) = some { s with content := (b n s.content).1 } := by
  simp [plainStep, writes, succeeded]

/-- The content is what the modifications made of the first one, whatever accesses lie between. -/
theorem plain_content {A : Discipline Γ E W} {s t : PlainMemory Γ n} {events : List (PlainEvent E W)}
    (ran : (plainMemory A n).run s events = some t) :
    t.content = replayFrom (modifications events) s.content := by
  induction events generalizing s with
  | nil =>
    cases ran
    rfl
  | cons e rest ih =>
    obtain ⟨next, stepped, ran⟩ := Option.bind_eq_some_iff.mp ran
    rw [ih ran]
    cases e with
    | access e =>
      obtain ⟨g, -, rfl⟩ := Option.map_eq_some_iff.mp stepped
      rfl
    | modify w b =>
      obtain ⟨-, ⟨⟩⟩ := Option.ite_none_right_eq_some.mp stepped
      rfl

end MemoryUtils
