import Mathlib.Data.List.Count

/-!
A reader-writer lock: any number of read holds or one write hold. Acquiring is partial, since a
call that has to wait takes no step. `Agrees` ties the lock to the mode each thread believes it
holds; it survives every call a thread makes in the right mode, and it implies exclusion.
-/

namespace MemoryUtils.Lib

inductive Mode where
  | read | write
  deriving DecidableEq

structure RwLock (T : Type) where
  writer : Option T := none
  readers : List T := []

namespace RwLock

variable {T : Type} [DecidableEq T]

def rdlock (l : RwLock T) (t : T) : Option (RwLock T) :=
  if l.writer = none then some { l with readers := t :: l.readers } else none

def wrlock (l : RwLock T) (t : T) : Option (RwLock T) :=
  if l.writer = none ∧ l.readers = [] then some { l with writer := some t } else none

/-- Gives back one hold of `t`; the write hold first, as a thread never has both. -/
def unlock (l : RwLock T) (t : T) : RwLock T :=
  if l.writer = some t then { l with writer := none } else { l with readers := l.readers.erase t }

def holds (l : RwLock T) (t : T) : Mode → Nat
  | .read => l.readers.count t
  | .write => if l.writer = some t then 1 else 0

/-- Each thread holds the lock exactly as `mode` says, and a writer is alone. -/
structure Agrees (l : RwLock T) (mode : T → Option Mode) : Prop where
  holds : ∀ t m, l.holds t m = if mode t = some m then 1 else 0
  alone : l.writer ≠ none → l.readers = []

variable {l l' : RwLock T} {mode : T → Option Mode} {t u : T}

theorem agrees_free : Agrees ({} : RwLock T) fun _ => none := by
  constructor
  · intro t m
    cases m <;> simp [RwLock.holds]
  · simp

theorem Agrees.writer_iff (h : l.Agrees mode) (t : T) :
    l.writer = some t ↔ mode t = some .write := by
  have count := h.holds t .write
  simp only [RwLock.holds] at count
  by_cases own : l.writer = some t <;> by_cases believed : mode t = some .write <;>
    simp_all

theorem Agrees.count (h : l.Agrees mode) (t : T) :
    l.readers.count t = if mode t = some .read then 1 else 0 := h.holds t .read

theorem Agrees.exclusive (h : l.Agrees mode) (writing : mode t = some .write) (other : u ≠ t) :
    mode u = none := by
  have owner := (h.writer_iff t).mpr writing
  have empty := h.alone (by simp [owner])
  cases believed : mode u with
  | none => rfl
  | some m =>
    cases m with
    | read =>
      have count := h.count u
      simp [empty, believed] at count
    | write =>
      have owner' := (h.writer_iff u).mpr believed
      exact absurd (Option.some.inj (owner'.symm.trans owner)) other

theorem Agrees.free (h : l.Agrees mode) (outside : ∀ t, mode t = none) :
    l.writer = none ∧ l.readers = [] := by
  constructor
  · cases owner : l.writer with
    | none => rfl
    | some t => simpa [outside t] using (h.writer_iff t).mp owner
  · refine List.eq_nil_iff_forall_not_mem.mpr fun t => ?_
    rw [← List.count_eq_zero, h.count t, outside t]
    rfl

theorem Agrees.same (h : l.Agrees mode) {m : Option Mode} (unchanged : m = mode t) :
    l.Agrees (Function.update mode t m) := by
  subst unchanged
  simpa using h

theorem Agrees.rdlock (h : l.Agrees mode) (idle : mode t = none) (taken : l.rdlock t = some l') :
    l'.Agrees (Function.update mode t (some .read)) := by
  unfold RwLock.rdlock at taken
  split at taken
  · rename_i free
    cases taken
    constructor
    · intro u m
      have count := h.count u
      by_cases same : u = t
      · subst same
        cases m <;> simp_all [RwLock.holds]
      · have writes := h.writer_iff u
        cases m <;> simp_all [RwLock.holds, Ne.symm same]
    · simp [free]
  · cases taken

theorem Agrees.wrlock (h : l.Agrees mode) (taken : l.wrlock t = some l') :
    l'.Agrees (Function.update mode t (some .write)) := by
  unfold RwLock.wrlock at taken
  split at taken
  · rename_i free
    cases taken
    constructor
    · intro u m
      have count := h.count u
      have writes := h.writer_iff u
      by_cases same : u = t
      · subst same
        cases m <;> simp_all [RwLock.holds]
      · cases m <;> simp_all [RwLock.holds, Ne.symm same]
    · intro _
      exact free.2
  · cases taken

theorem Agrees.unlock (h : l.Agrees mode) (held : mode t ≠ none) :
    (l.unlock t).Agrees (Function.update mode t none) := by
  obtain ⟨m, believed⟩ := Option.ne_none_iff_exists'.mp held
  cases m with
  | write =>
    have owner := (h.writer_iff t).mpr believed
    have empty := h.alone (by simp [owner])
    simp only [RwLock.unlock, owner, if_true]
    constructor
    · intro u m
      by_cases same : u = t
      · subst same
        cases m <;> simp [RwLock.holds, empty]
      · have none_held := h.exclusive believed same
        cases m <;> simp [RwLock.holds, empty, same, none_held]
    · simp
  | read =>
    have notOwner : l.writer ≠ some t := by
      rw [ne_eq, h.writer_iff t, believed]
      simp
    simp only [RwLock.unlock, notOwner, if_false]
    constructor
    · intro u m
      have count := h.count u
      have writes := h.writer_iff u
      by_cases same : u = t
      · subst same
        cases m <;> simp_all [RwLock.holds, List.count_erase_self]
      · cases m <;> simp_all [RwLock.holds, List.count_erase_of_ne]
    · intro owned
      simp [h.alone owned]

/-! ### Holds that are never given back -/

/-- What a thread believes to hold it holds, and a writer is alone. More may be held than believed. -/
structure Backs (l : RwLock T) (mode : T → Option Mode) : Prop where
  held : ∀ t m, mode t = some m → 0 < l.holds t m
  alone : l.writer ≠ none → l.readers = []

variable {k m : Mode}

theorem holds_rdlock (taken : l.rdlock t = some l') (u : T) (m : Mode) :
    l'.holds u m = l.holds u m + if u = t ∧ m = .read then 1 else 0 := by
  unfold RwLock.rdlock at taken
  split at taken
  · cases taken
    cases m with
    | write => simp [RwLock.holds]
    | read =>
      by_cases same : u = t
      · simp [RwLock.holds, same]
      · simp [RwLock.holds, same, Ne.symm same]
  · cases taken

theorem holds_wrlock (taken : l.wrlock t = some l') (u : T) (m : Mode) :
    l'.holds u m = l.holds u m + if u = t ∧ m = .write then 1 else 0 := by
  unfold RwLock.wrlock at taken
  split at taken
  · rename_i free
    cases taken
    cases m with
    | read => simp [RwLock.holds]
    | write =>
      by_cases same : u = t
      · simp [RwLock.holds, same, free.1]
      · simp [RwLock.holds, same, Ne.symm same, free.1]
  · cases taken

/-- A held write lock leaves room for no other hold. -/
theorem Backs.only_writer (h : l.Backs mode) (owner : l.writer = some t) (believed : mode u = some m) :
    u = t ∧ m = .write := by
  have empty := h.alone (by simp [owner])
  have positive := h.held u m believed
  cases m with
  | read => simp [RwLock.holds, empty] at positive
  | write =>
    by_cases same : t = u
    · exact ⟨same.symm, rfl⟩
    · simp [RwLock.holds, owner, same] at positive

theorem Backs.writer (h : l.Backs mode) (believed : mode t = some .write) : l.writer = some t := by
  have positive := h.held t .write believed
  by_contra other
  simp [RwLock.holds, other] at positive

theorem Backs.holds_unlock (h : l.Backs mode) (believed : mode t = some k) (u : T) (m : Mode) :
    (l.unlock t).holds u m + (if u = t ∧ m = k then 1 else 0) = l.holds u m := by
  cases k with
  | write =>
    have owner := h.writer believed
    cases m with
    | read => simp [RwLock.unlock, RwLock.holds, owner]
    | write => by_cases same : t = u <;> simp [RwLock.unlock, RwLock.holds, owner, same, eq_comm]
  | read =>
    have notOwner : l.writer ≠ some t := fun owner => by simpa using (h.only_writer owner believed).2
    have positive := h.held t .read believed
    cases m with
    | write => simp [RwLock.unlock, RwLock.holds, notOwner]
    | read =>
      by_cases same : u = t
      · subst same
        simp only [RwLock.holds] at positive
        simp only [RwLock.unlock, RwLock.holds, notOwner, if_false, List.count_erase_self, and_self, if_true]
        omega
      · simp [RwLock.unlock, RwLock.holds, notOwner, same, List.count_erase_of_ne same]

theorem Backs.same (h : l.Backs mode) {m : Option Mode} (unchanged : m = mode t) :
    l.Backs (Function.update mode t m) := by
  subst unchanged
  simpa using h

theorem Backs.rdlock (h : l.Backs mode) (taken : l.rdlock t = some l') :
    l'.Backs (Function.update mode t (some .read)) := by
  constructor
  · intro u m believed
    rw [holds_rdlock taken]
    by_cases same : u = t
    · subst same
      obtain rfl : Mode.read = m := by simpa using believed
      simp
    · have before := h.held u m (by simpa [same] using believed)
      omega
  · unfold RwLock.rdlock at taken
    split at taken
    · rename_i free
      cases taken
      simp [free]
    · cases taken

theorem Backs.wrlock (h : l.Backs mode) (taken : l.wrlock t = some l') :
    l'.Backs (Function.update mode t (some .write)) := by
  constructor
  · intro u m believed
    rw [holds_wrlock taken]
    by_cases same : u = t
    · subst same
      obtain rfl : Mode.write = m := by simpa using believed
      simp
    · have before := h.held u m (by simpa [same] using believed)
      omega
  · unfold RwLock.wrlock at taken
    split at taken
    · rename_i free
      cases taken
      simp [free.2]
    · cases taken

theorem Backs.unlock (h : l.Backs mode) (believed : mode t = some k) :
    (l.unlock t).Backs (Function.update mode t none) := by
  constructor
  · intro u m others
    have other : u ≠ t := by
      rintro rfl
      simp at others
    have before := h.held u m (by simpa [other] using others)
    have after := h.holds_unlock believed u m
    simp only [other, false_and, if_false] at after
    omega
  · unfold RwLock.unlock
    split
    · simp
    · intro owned
      simp [h.alone owned]

/-- A failed unlock: the hold stays, the thread goes on without it. -/
theorem Backs.forget (h : l.Backs mode) (t : T) : l.Backs (Function.update mode t none) := by
  refine ⟨fun u m others => ?_, h.alone⟩
  by_cases same : u = t
  · subst same
    simp at others
  · exact h.held u m (by simpa [same] using others)

end RwLock

end MemoryUtils.Lib
