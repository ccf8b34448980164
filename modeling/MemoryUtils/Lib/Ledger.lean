import Mathlib.Data.Multiset.AddSub

/-!
What is held, each thing as often as it was acquired. To release or use something that is not held
has no result. What cannot be given back any more stays held and is written off.
-/

namespace MemoryUtils.Lib

structure Ledger (R : Type) where
  held : Multiset R
  left : Multiset R := 0

namespace Ledger

variable {R : Type} [DecidableEq R]

omit [DecidableEq R] in
def acquire (r : R) (l : Ledger R) : Ledger R := { l with held := r ::ₘ l.held }

def release (r : R) (l : Ledger R) : Option (Ledger R) :=
  if r ∈ l.held then some { l with held := l.held.erase r } else none

def writeOff (r : R) (l : Ledger R) : Option (Ledger R) :=
  if r ∈ l.held then some { l with left := r ::ₘ l.left } else none

def use (r : R) (l : Ledger R) : Option Unit := if r ∈ l.held then some () else none

/-- A release that may fail, and then cannot be tried again. -/
def giveBack (r : R) (succeeds : Bool) (l : Ledger R) : Option (Ledger R) :=
  if succeeds then l.release r else l.writeOff r

/-! The same for what there may not be any of, such as the thing behind a null pointer. -/

omit [DecidableEq R] in
def acquireIf (r : Option R) (l : Ledger R) : Ledger R := r.elim l fun r => l.acquire r

def giveBackIf (r : Option R) (succeeds : Bool) (l : Ledger R) : Option (Ledger R) :=
  r.elim (some l) fun r => l.giveBack r succeeds

def useIf (r : Option R) (l : Ledger R) : Option Unit := r.elim (some ()) fun r => l.use r

omit [DecidableEq R] in
def those (r : Option R) : Multiset R := r.elim 0 fun r => {r}

omit [DecidableEq R] in
/-- Beyond `base`, what is held is what was written off and what somebody still owns. -/
def Accounts (base own : Multiset R) (l : Ledger R) : Prop := l.held = base + l.left + own

variable {base own : Multiset R} {r : R} {l : Ledger R}

omit [DecidableEq R] in
theorem Accounts.acquire (accounts : l.Accounts base own) (r : R) : (l.acquire r).Accounts base (r ::ₘ own) := by
  show r ::ₘ l.held = base + l.left + r ::ₘ own
  rw [accounts, Multiset.add_cons]

omit [DecidableEq R] in
theorem Accounts.mem (accounts : l.Accounts base own) (owned : r ∈ own) : r ∈ l.held := by
  rw [accounts]
  exact Multiset.mem_add.mpr (.inr owned)

theorem Accounts.use (accounts : l.Accounts base own) (owned : r ∈ own) : l.use r = some () :=
  if_pos (accounts.mem owned)

theorem Accounts.release (accounts : l.Accounts base (r ::ₘ own)) :
    ∃ l', l.release r = some l' ∧ l'.Accounts base own ∧ l'.left = l.left := by
  have member := accounts.mem (Multiset.mem_cons_self r own)
  refine ⟨{ l with held := l.held.erase r }, if_pos member, ?_, rfl⟩
  show l.held.erase r = base + l.left + own
  rw [accounts, Multiset.add_cons, Multiset.erase_cons_head]

theorem Accounts.writeOff (accounts : l.Accounts base (r ::ₘ own)) :
    ∃ l', l.writeOff r = some l' ∧ l'.Accounts base own ∧ l'.left = r ::ₘ l.left := by
  have member := accounts.mem (Multiset.mem_cons_self r own)
  refine ⟨{ l with left := r ::ₘ l.left }, if_pos member, ?_, rfl⟩
  show l.held = base + r ::ₘ l.left + own
  rw [accounts, Multiset.add_cons, Multiset.add_cons, Multiset.cons_add]

theorem Accounts.giveBack (accounts : l.Accounts base (r ::ₘ own)) (succeeds : Bool) :
    ∃ l', l.giveBack r succeeds = some l' ∧ l'.Accounts base own ∧
      l'.left = (if succeeds then 0 else {r}) + l.left := by
  cases succeeds with
  | true =>
    obtain ⟨l', released, accounts, left⟩ := accounts.release
    exact ⟨l', released, accounts, by simp [left]⟩
  | false =>
    obtain ⟨l', kept, accounts, left⟩ := accounts.writeOff
    exact ⟨l', kept, accounts, by simp [left, Multiset.singleton_add]⟩

omit [DecidableEq R] in
theorem Accounts.acquireIf (accounts : l.Accounts base own) (r : Option R) :
    (l.acquireIf r).Accounts base (those r + own) := by
  cases r with
  | none =>
    rw [those, Option.elim_none, Multiset.zero_add]
    exact accounts
  | some r =>
    rw [those, Option.elim_some, Multiset.singleton_add]
    exact accounts.acquire r

theorem Accounts.giveBackIf {r : Option R} (accounts : l.Accounts base (those r + own)) (succeeds : Bool) :
    ∃ l', l.giveBackIf r succeeds = some l' ∧ l'.Accounts base own ∧
      l'.left = (if succeeds then 0 else those r) + l.left := by
  cases r with
  | none =>
    rw [those, Option.elim_none, Multiset.zero_add] at accounts
    exact ⟨l, rfl, accounts, by simp [those]⟩
  | some r =>
    rw [those, Option.elim_some, Multiset.singleton_add] at accounts
    exact accounts.giveBack succeeds

theorem Accounts.useIf (accounts : l.Accounts base own) {r : Option R} (owned : those r ≤ own) :
    l.useIf r = some () := by
  cases r with
  | none => rfl
  | some r => exact accounts.use (Multiset.mem_of_le owned (Multiset.mem_singleton_self r))

end Ledger

end MemoryUtils.Lib
