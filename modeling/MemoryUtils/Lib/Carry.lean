import Mathlib.Algebra.Order.BigOperators.Group.List

/-!
A variable shared by the rounds of a loop that only some rounds write. A round that does not write
it sees what the last writing round left there, so a sum over the rounds counts that value again.
-/

namespace MemoryUtils.Lib

variable {A M N : Type}

/-- The variable after the rounds `as`, started at `m`. -/
def carry (write : A → Option M) (m : M) (as : List A) : M :=
  as.foldl (fun m a => (write a).getD m) m

/-- The variable after each of the rounds. -/
def trail (write : A → Option M) : M → List A → List M
  | _, [] => []
  | m, a :: as => (write a).getD m :: trail write ((write a).getD m) as

@[simp] theorem carry_nil (write : A → Option M) (m : M) : carry write m [] = m := rfl

@[simp] theorem carry_cons (write : A → Option M) (m : M) (a : A) (as : List A) :
    carry write m (a :: as) = carry write ((write a).getD m) as := rfl

theorem map_carry (f : M → N) (write : A → Option M) (m : M) (as : List A) :
    f (carry write m as) = carry (fun a => (write a).map f) (f m) as := by
  induction as generalizing m with
  | nil => rfl
  | cons a as ih => rw [carry_cons, carry_cons, ih, Option.getD_map]

theorem map_trail (f : M → N) (write : A → Option M) (m : M) (as : List A) :
    (trail write m as).map f = trail (fun a => (write a).map f) (f m) as := by
  induction as generalizing m with
  | nil => rfl
  | cons a as ih => rw [trail, trail, List.map_cons, ih, Option.getD_map]

theorem mem_trail {write : A → Option M} {a : A} {v : M} (wrote : write a = some v) (m : M)
    {as : List A} (member : a ∈ as) : v ∈ trail write m as := by
  induction as generalizing m with
  | nil => cases member
  | cons b as ih =>
    rw [trail, List.mem_cons]
    rcases List.mem_cons.mp member with rfl | later
    · left
      rw [wrote, Option.getD_some]
    · right
      exact ih _ later

section Sum

variable [AddCommMonoid M] [PartialOrder M] [CanonicallyOrderedAdd M]

theorem getD_zero_le (x : Option M) (m : M) : x.getD 0 ≤ x.getD m := by
  cases x with
  | none => exact zero_le
  | some v => exact le_rfl

variable [IsOrderedCancelAddMonoid M]

theorem sum_fresh_le_sum_trail (write : A → Option M) (m : M) (as : List A) :
    (as.map fun a => (write a).getD 0).sum ≤ (trail write m as).sum := by
  induction as generalizing m with
  | nil => exact le_rfl
  | cons a as ih =>
    rw [trail, List.map_cons, List.sum_cons, List.sum_cons]
    exact add_le_add (getD_zero_le _ _) (ih _)

/-- The carried values add up to what the rounds themselves wrote exactly if every round that writes
nothing finds a zero. -/
theorem sum_trail_eq_iff (write : A → Option M) (m : M) (as : List A) :
    (trail write m as).sum = (as.map fun a => (write a).getD 0).sum ↔
      ∀ before a after, as = before ++ a :: after → write a = none → carry write m before = 0 := by
  induction as generalizing m with
  | nil => simp [trail]
  | cons a as ih =>
    have rest := sum_fresh_le_sum_trail write ((write a).getD m) as
    rw [trail, List.map_cons, List.sum_cons, List.sum_cons, eq_comm,
      add_eq_add_iff_eq_and_eq (getD_zero_le _ _) rest, eq_comm (b := (trail _ _ _).sum), ih]
    constructor
    · rintro ⟨here, later⟩ before b after split silent
      cases before with
      | nil =>
        obtain ⟨rfl, rfl⟩ := List.cons_eq_cons.mp split
        simpa [silent] using here.symm
      | cons c before =>
        obtain ⟨rfl, rest⟩ := List.cons_eq_cons.mp split
        exact later before b after rest silent
    · intro all
      refine ⟨?_, fun before b after split silent => ?_⟩
      · cases wrote : write a with
        | none => exact (all [] a as rfl wrote).symm
        | some v => rfl
      · exact all (a :: before) b after (by rw [split]; rfl) silent

end Sum

end MemoryUtils.Lib
