import MemoryUtils.Lib.System
import MemoryUtils.Common.Region
import Mathlib.Algebra.Order.BigOperators.Group.Finset
import Mathlib.Algebra.Order.Group.Int

/-!
One user extend page table entry as a shared 64-bit cell. `UxpteAdd` and `UxpteSub` act on it by
separate load and compare-and-swap steps, next to a kernel that marks an unpinned entry while it
reclaims the page.
-/

namespace MemoryUtils.Uxpte
open Lib

def uxptePresentBit : UInt64 := 1
def uxptePresentMask : UInt64 := (1 <<< uxptePresentBit) - 1
def uxpteRefcntOne : UInt64 := 1 <<< uxptePresentBit
def uxpteUnderReclaim : UInt64 := 0 - uxpteRefcntOne

def isUxptePresent (pte : UInt64) : Bool := pte &&& uxptePresentMask != 0
def isUxpteUnderReclaim (pte : UInt64) : Bool := pte == uxpteUnderReclaim

def ulongMax : UInt64 := 0 - 1

/-- The bits above the present bit. -/
def refcnt (pte : UInt64) : Nat := pte.toNat / uxpteRefcntOne.toNat

inductive Pc where
  | idle
  | addLoad (newVal : UInt64)
  | addCas (old newVal : UInt64)
  | added
  | subLoad
  | subCas (old : UInt64)
  | subbed
  deriving DecidableEq

/-- A thread that pins through `UxpteAdd` and unpins through `UxpteSub`: its completed calls, and
the successful swaps of its current or last call. -/
structure Caller where
  pc : Pc
  adds : Nat
  subs : Nat
  swaps : List (UInt64 × UInt64)
  deriving DecidableEq

def Caller.between (c : Caller) : Bool :=
  match c.pc with
  | .idle | .added | .subbed => true
  | _ => false

/-- The body of the loop of `UxpteAdd` on a loaded value. -/
def addBody (old newVal incNum : UInt64) : Pc :=
  -- `continue` goes to the loop condition, which swaps with the `newVal` of an earlier pass.
  if isUxpteUnderReclaim old then .addCas old newVal
  else if old + incNum < old ∨ old + incNum < incNum then .added
  else if ulongMax - old < incNum then .added
  else .addCas old (old + incNum)

def Caller.endAdd (c : Caller) : Caller := { c with pc := .added, adds := c.adds + 1 }

def Caller.endSub (c : Caller) : Caller := { c with pc := .subbed, subs := c.subs + 1 }

def Caller.swapped (c : Caller) (old newVal : UInt64) : Caller :=
  { c with swaps := c.swaps ++ [(old, newVal)] }

def callerStep (pte : UInt64) (c : Caller) : Option (UInt64 × Caller) :=
  match c.pc with
  | .addLoad newVal =>
    match addBody pte newVal uxpteRefcntOne with
    | .added => some (pte, c.endAdd)
    | pc => some (pte, { c with pc := pc })
  | .addCas old newVal =>
    if pte = old then some (newVal, (c.swapped old newVal).endAdd)
    else some (pte, { c with pc := .addLoad newVal })
  | .subLoad => some (pte, { c with pc := .subCas pte })
  | .subCas old =>
    if pte = old then
      some (old - uxpteRefcntOne, (c.swapped old (old - uxpteRefcntOne)).endSub)
    else some (pte, { c with pc := .subLoad })
  | .idle | .added | .subbed => none

structure Cell (T : Type) where
  pte : UInt64
  callers : T → Caller

def Cell.setCaller {T : Type} [DecidableEq T] (s : Cell T) (t : T) (c : Caller) : Cell T :=
  { s with callers := Function.update s.callers t c }

inductive Action (T : Type) where
  | callAdd (t : T)
  | callSub (t : T)
  | step (t : T)
  | startReclaim
  | endReclaim
  | setPresent (present : Bool)

variable {T : Type} [DecidableEq T]

def step (s : Cell T) : Action T → Option (Cell T)
  | .callAdd t =>
    if (s.callers t).between then
      some (s.setCaller t { s.callers t with pc := .addLoad 0, swaps := [] })
    else none
  | .callSub t =>
    -- A thread only takes back what its own completed `UxpteAdd` gave it.
    if (s.callers t).between ∧ (s.callers t).subs < (s.callers t).adds then
      some (s.setCaller t { s.callers t with pc := .subLoad, swaps := [] })
    else none
  | .step t =>
    (callerStep s.pte (s.callers t)).map fun (pte, c) => { s with pte := pte }.setCaller t c
  | .startReclaim =>
    if refcnt s.pte = 0 then some { s with pte := uxpteUnderReclaim } else none
  | .endReclaim =>
    if isUxpteUnderReclaim s.pte then some { s with pte := 0 } else none
  | .setPresent present =>
    if isUxpteUnderReclaim s.pte then none
    else some { s with pte := s.pte - s.pte % uxpteRefcntOne + if present then 1 else 0 }

def Quiet (s : Cell T) : Prop := ∀ t, s.callers t = ⟨.idle, 0, 0, []⟩

def sharing (T : Type) [DecidableEq T] : System (Cell T) (Action T) := { init := Quiet, step := step }

/-! ### Arithmetic of the entry -/

def pins (pte : UInt64) : Nat := if isUxpteUnderReclaim pte then 0 else refcnt pte

/-- The entry is marked, or its refcount is nowhere near a 64-bit overflow. -/
def Far (pte : UInt64) : Prop := pte = uxpteUnderReclaim ∨ pte.toNat < 2 ^ 63

/-- The entry is marked, or one more pin neither wraps nor looks like the marker. -/
def Roomy (pte : UInt64) : Prop := pte = uxpteUnderReclaim ∨ pte.toNat + 4 < 2 ^ 64

theorem Far.roomy {pte : UInt64} (far : Far pte) : Roomy pte := by
  rcases far with marked | below
  · exact .inl marked
  · exact .inr (by omega)

theorem underReclaim_toNat : uxpteUnderReclaim.toNat = 2 ^ 64 - 2 := rfl

theorem refcntOne_toNat : uxpteRefcntOne.toNat = 2 := rfl

theorem isUxpteUnderReclaim_iff {pte : UInt64} :
    isUxpteUnderReclaim pte = true ↔ pte = uxpteUnderReclaim := beq_iff_eq

theorem ne_underReclaim_of_toNat_lt {pte : UInt64} (below : pte.toNat < 2 ^ 64 - 2) :
    pte ≠ uxpteUnderReclaim := by
  rintro rfl
  rw [underReclaim_toNat] at below
  omega

theorem pins_of_ne {pte : UInt64} (unmarked : pte ≠ uxpteUnderReclaim) : pins pte = refcnt pte := by
  simp [pins, isUxpteUnderReclaim_iff, unmarked]

theorem pins_underReclaim : pins uxpteUnderReclaim = 0 := rfl

theorem add_one_toNat {pte : UInt64} (room : pte.toNat + 4 < 2 ^ 64) :
    (pte + uxpteRefcntOne).toNat = pte.toNat + 2 := by
  rw [UInt64.toNat_add, refcntOne_toNat]
  omega

theorem sub_one_toNat {pte : UInt64} (pinned : 0 < refcnt pte) :
    (pte - uxpteRefcntOne).toNat = pte.toNat - 2 := by
  have bound := pte.toNat_lt
  rw [refcnt, refcntOne_toNat] at pinned
  rw [UInt64.toNat_sub, refcntOne_toNat]
  omega

theorem refcnt_add_one {pte : UInt64} (room : pte.toNat + 4 < 2 ^ 64) :
    refcnt (pte + uxpteRefcntOne) = refcnt pte + 1 := by
  unfold refcnt
  rw [add_one_toNat room, refcntOne_toNat]
  omega

theorem refcnt_sub_one {pte : UInt64} (pinned : 0 < refcnt pte) :
    refcnt (pte - uxpteRefcntOne) + 1 = refcnt pte := by
  have less := sub_one_toNat pinned
  unfold refcnt at pinned ⊢
  rw [refcntOne_toNat] at pinned ⊢
  omega

theorem add_one_ne_underReclaim {pte : UInt64} (room : pte.toNat + 4 < 2 ^ 64) :
    pte + uxpteRefcntOne ≠ uxpteUnderReclaim := by
  have sum := add_one_toNat room
  exact ne_underReclaim_of_toNat_lt (by omega)

theorem sub_one_ne_underReclaim {pte : UInt64} (room : pte.toNat + 4 < 2 ^ 64) (pinned : 0 < refcnt pte) :
    pte - uxpteRefcntOne ≠ uxpteUnderReclaim := by
  have less := sub_one_toNat pinned
  exact ne_underReclaim_of_toNat_lt (by omega)

theorem setPresent_toNat {pte : UInt64} (room : pte.toNat + 4 < 2 ^ 64) (present : Bool) :
    (pte - pte % uxpteRefcntOne + if present then 1 else 0).toNat
      = pte.toNat / 2 * 2 + if present then 1 else 0 := by
  have bit : (if present then (1 : UInt64) else 0).toNat = if present then 1 else 0 := by
    cases present <;> rfl
  rw [UInt64.toNat_add, UInt64.toNat_sub, UInt64.toNat_mod, refcntOne_toNat, bit]
  split <;> omega

theorem addBody_underReclaim (newVal : UInt64) :
    addBody uxpteUnderReclaim newVal uxpteRefcntOne = .addCas uxpteUnderReclaim newVal := rfl

theorem addBody_of_room {old : UInt64} (newVal : UInt64) (room : old.toNat + 4 < 2 ^ 64) :
    addBody old newVal uxpteRefcntOne = .addCas old (old + uxpteRefcntOne) := by
  have unmarked : isUxpteUnderReclaim old = false := by
    simpa [isUxpteUnderReclaim] using ne_underReclaim_of_toNat_lt (by omega)
  have sum := add_one_toNat room
  have noWrap : ¬ (old + uxpteRefcntOne < old ∨ old + uxpteRefcntOne < uxpteRefcntOne) := by
    rw [UInt64.lt_iff_toNat_lt, UInt64.lt_iff_toNat_lt, sum, refcntOne_toNat]
    omega
  have fits : ¬ ulongMax - old < uxpteRefcntOne := by
    have max : ulongMax.toNat = 2 ^ 64 - 1 := rfl
    rw [UInt64.lt_iff_toNat_lt, UInt64.toNat_sub, max, refcntOne_toNat]
    omega
  simp [addBody, unmarked, noWrap, fits]

/-! ### What a call may do -/

def Caller.held (c : Caller) : Int := c.adds - c.subs

/-- A call that is about to swap does so with the value its load prepared, unless it read the
marker: then `newVal` is left over from an earlier pass. -/
def Caller.Sound (c : Caller) : Prop :=
  c.subs ≤ c.adds ∧
  match c.pc with
  | .addLoad newVal => newVal ≠ uxpteUnderReclaim ∧ c.swaps = []
  | .addCas old newVal => newVal ≠ uxpteUnderReclaim ∧ c.swaps = [] ∧
      (old ≠ uxpteUnderReclaim → newVal = old + uxpteRefcntOne)
  | .added => ∃ v, v ≠ uxpteUnderReclaim ∧ c.swaps = [(v, v + uxpteRefcntOne)]
  | .subLoad | .subCas _ => c.subs < c.adds
  | .idle | .subbed => True

theorem callerStep_sound {pte pte' : UInt64} {c c' : Caller} (roomy : Roomy pte) (sound : c.Sound)
    (covered : c.subs < c.adds → 0 < pins pte)
    (changed : ∀ newVal, c.pc = .addCas uxpteUnderReclaim newVal → pte ≠ uxpteUnderReclaim)
    (h : callerStep pte c = some (pte', c')) :
    c'.Sound ∧ (pins pte' : Int) = pins pte + (c'.held - c.held) ∧
      (pte' = uxpteUnderReclaim ↔ pte = uxpteUnderReclaim) := by
  obtain ⟨pc, adds, subs, swaps⟩ := c
  obtain ⟨ordered, point⟩ := sound
  cases pc with
  | idle | added | subbed => simp [callerStep] at h
  | addLoad newVal =>
    obtain ⟨fresh, empty⟩ := point
    rcases roomy with rfl | room
    · simp only [callerStep, addBody_underReclaim, Option.some.injEq, Prod.mk.injEq] at h
      obtain ⟨rfl, rfl⟩ := h
      exact ⟨⟨ordered, fresh, empty, fun other => absurd rfl other⟩, by simp [Caller.held], Iff.rfl⟩
    · simp only [callerStep, addBody_of_room newVal room, Option.some.injEq, Prod.mk.injEq] at h
      obtain ⟨rfl, rfl⟩ := h
      refine ⟨⟨ordered, add_one_ne_underReclaim room, empty, fun _ => rfl⟩, ?_, Iff.rfl⟩
      simp [Caller.held]
  | addCas old newVal =>
    obtain ⟨fresh, empty, prepared⟩ := point
    by_cases same : pte = old
    · subst same
      have unmarked : pte ≠ uxpteUnderReclaim := by
        intro marked
        subst marked
        exact changed newVal rfl rfl
      have count := refcnt_add_one (roomy.resolve_left unmarked)
      obtain rfl := prepared unmarked
      simp only [callerStep, if_true, Option.some.injEq, Prod.mk.injEq] at h
      obtain ⟨rfl, rfl⟩ := h
      refine ⟨⟨?_, pte, unmarked, ?_⟩, ?_, iff_of_false fresh unmarked⟩
      · simp only [Caller.endAdd, Caller.swapped] at ordered ⊢
        omega
      · simp only [Caller.endAdd, Caller.swapped] at empty ⊢
        simp [empty]
      · rw [pins_of_ne fresh, pins_of_ne unmarked, count]
        simp only [Caller.held, Caller.endAdd, Caller.swapped]
        omega
    · simp only [callerStep, same, if_false, Option.some.injEq, Prod.mk.injEq] at h
      obtain ⟨rfl, rfl⟩ := h
      exact ⟨⟨ordered, fresh, empty⟩, by simp [Caller.held], Iff.rfl⟩
  | subLoad =>
    simp only [callerStep, Option.some.injEq, Prod.mk.injEq] at h
    obtain ⟨rfl, rfl⟩ := h
    exact ⟨⟨ordered, point⟩, by simp [Caller.held], Iff.rfl⟩
  | subCas old =>
    by_cases same : pte = old
    · subst same
      have pinned := covered point
      have unmarked : pte ≠ uxpteUnderReclaim := by
        rintro rfl
        exact absurd pinned (by decide)
      rw [pins_of_ne unmarked] at pinned
      have count := refcnt_sub_one pinned
      have fresh := sub_one_ne_underReclaim (roomy.resolve_left unmarked) pinned
      simp only [callerStep, if_true, Option.some.injEq, Prod.mk.injEq] at h
      obtain ⟨rfl, rfl⟩ := h
      refine ⟨⟨?_, trivial⟩, ?_, iff_of_false fresh unmarked⟩
      · simp only [Caller.endSub, Caller.swapped] at point ⊢
        omega
      · rw [pins_of_ne fresh, pins_of_ne unmarked]
        simp only [Caller.held, Caller.endSub, Caller.swapped]
        omega
    · simp only [callerStep, same, if_false, Option.some.injEq, Prod.mk.injEq] at h
      obtain ⟨rfl, rfl⟩ := h
      exact ⟨⟨ordered, point⟩, by simp [Caller.held], Iff.rfl⟩

/-! ### Runs of any number of threads -/

/-- A call that read the marker reaches the loop condition only after the kernel has finished the
reclaim it yielded to. -/
def YieldSeesChange (s : Cell T) (a : Action T) : Prop :=
  ∀ t newVal, a = .step t → (s.callers t).pc = .addCas uxpteUnderReclaim newVal →
    s.pte ≠ uxpteUnderReclaim

def KeepsMarker (s : Cell T) (a : Action T) : Prop :=
  ∀ t s', a = .step t → step s a = some s' → s.pte = uxpteUnderReclaim → s'.pte = uxpteUnderReclaim

def AddsSwapOnce (s : Cell T) : Prop :=
  ∀ t, (s.callers t).pc = .added →
    ∃ v, v ≠ uxpteUnderReclaim ∧ (s.callers t).swaps = [(v, v + uxpteRefcntOne)]

variable [Fintype T]

/-- Every call is sound, and the entry shows the pins it had before the run and those that the
callers hold. -/
structure Shared (before : Nat) (s : Cell T) : Prop where
  sound : ∀ t, (s.callers t).Sound
  balanced : (pins s.pte : Int) = before + ∑ t, (s.callers t).held

omit [DecidableEq T] in
theorem Shared.covered {before : Nat} {s : Cell T} (shared : Shared before s) (t : T)
    (owes : (s.callers t).subs < (s.callers t).adds) : 0 < pins s.pte := by
  have nonneg : ∀ u ∈ Finset.univ, 0 ≤ (s.callers u).held := by
    intro u _
    have ordered := (shared.sound u).1
    rw [Caller.held]
    omega
  have own := Finset.single_le_sum nonneg (Finset.mem_univ t)
  have balanced := shared.balanced
  rw [Caller.held] at own
  omega

theorem Shared.setCaller {before : Nat} {s : Cell T} {t : T} {pte : UInt64} {c : Caller}
    (shared : Shared before s) (sound : c.Sound)
    (change : (pins pte : Int) = pins s.pte + (c.held - (s.callers t).held)) :
    Shared before ({ s with pte := pte }.setCaller t c) := by
  refine ⟨forall_update sound fun u _ => shared.sound u, ?_⟩
  simp only [Cell.setCaller]
  rw [sum_update Caller.held, change, shared.balanced]
  omega

omit [DecidableEq T] in
theorem Shared.setPte {before : Nat} {s : Cell T} {pte : UInt64} (shared : Shared before s)
    (same : pins pte = pins s.pte) : Shared before { s with pte := pte } := by
  refine ⟨shared.sound, ?_⟩
  rw [← shared.balanced, same]

theorem step_shared {before : Nat} {s s' : Cell T} {a : Action T} (shared : Shared before s)
    (roomy : Roomy s.pte) (changed : YieldSeesChange s a) (h : step s a = some s') :
    Shared before s' := by
  cases a with
  | callAdd t =>
    obtain ⟨-, ⟨⟩⟩ := Option.ite_none_right_eq_some.mp h
    refine shared.setCaller ⟨(shared.sound t).1, ?_, rfl⟩ (by simp [Caller.held])
    exact ne_underReclaim_of_toNat_lt (by decide)
  | callSub t =>
    obtain ⟨⟨-, owes⟩, ⟨⟩⟩ := Option.ite_none_right_eq_some.mp h
    exact shared.setCaller ⟨(shared.sound t).1, owes⟩ (by simp [Caller.held])
  | step t =>
    obtain ⟨⟨pte, c⟩, stepped, rfl⟩ := Option.map_eq_some_iff.mp h
    obtain ⟨sound, change, -⟩ := callerStep_sound roomy (shared.sound t) (shared.covered t)
      (fun newVal => changed t newVal rfl) stepped
    exact shared.setCaller sound change
  | startReclaim =>
    obtain ⟨unpinned, ⟨⟩⟩ := Option.ite_none_right_eq_some.mp h
    have unmarked : s.pte ≠ uxpteUnderReclaim := by
      intro marked
      rw [marked] at unpinned
      exact absurd unpinned (by decide)
    exact shared.setPte (by rw [pins_of_ne unmarked, unpinned, pins_underReclaim])
  | endReclaim =>
    obtain ⟨marked, ⟨⟩⟩ := Option.ite_none_right_eq_some.mp h
    rw [isUxpteUnderReclaim_iff] at marked
    exact shared.setPte (by rw [marked]; rfl)
  | setPresent present =>
    obtain ⟨unmarked, ⟨⟩⟩ := Option.ite_none_left_eq_some.mp h
    rw [isUxpteUnderReclaim_iff] at unmarked
    have room := roomy.resolve_left unmarked
    have value := setPresent_toNat room present
    have bit : (if present then 1 else 0) ≤ 1 := by split <;> omega
    refine shared.setPte ?_
    rw [pins_of_ne unmarked, pins_of_ne (ne_underReclaim_of_toNat_lt (by omega)), refcnt, refcnt, value,
      refcntOne_toNat]
    omega

theorem keepsMarker_iff {before : Nat} {s : Cell T} (a : Action T) (shared : Shared before s)
    (far : Far s.pte) : KeepsMarker s a ↔ YieldSeesChange s a := by
  constructor
  · intro keeps t newVal isStep atCas marked
    subst isStep
    obtain ⟨-, point⟩ := shared.sound t
    rw [atCas] at point
    have stepped : callerStep s.pte (s.callers t)
        = some (newVal, ((s.callers t).swapped uxpteUnderReclaim newVal).endAdd) := by
      simp [callerStep, atCas, marked]
    have overwritten := keeps t _ rfl (by rw [step, stepped]; rfl) marked
    exact point.1 overwritten
  · intro changed t s' isStep stepped marked
    subst isStep
    obtain ⟨⟨pte, c⟩, moved, rfl⟩ := Option.map_eq_some_iff.mp stepped
    exact (callerStep_sound far.roomy (shared.sound t) (shared.covered t)
      (fun newVal => changed t newVal rfl) moved).2.2.mpr marked

omit [DecidableEq T] in
theorem quiet_shared {s : Cell T} (quiet : Quiet s) : Shared (pins s.pte) s := by
  refine ⟨fun t => ?_, ?_⟩
  · rw [quiet t]
    exact ⟨le_rfl, trivial⟩
  · have none_held : ∀ t, (s.callers t).held = 0 := by
      intro t
      rw [quiet t]
      rfl
    simp [none_held]

omit [DecidableEq T] in
theorem Shared.addsSwapOnce {before : Nat} {s : Cell T} (shared : Shared before s) :
    AddsSwapOnce s := by
  intro t returned
  obtain ⟨-, once⟩ := shared.sound t
  rwa [returned] at once

/-- Along a run that stays far from overflow, no call overwrites the marker and every returned
`UxpteAdd` has swapped once, exactly when no call swaps against a marker that is still set. -/
theorem marker_respected_iff_yield_sees_change {s : Cell T} (quiet : Quiet s)
    (actions : List (Action T)) (far : (sharing T).Visits (fun s => Far s.pte) s actions) :
    ((sharing T).Along KeepsMarker s actions ∧ (sharing T).Visits AddsSwapOnce s actions) ↔
      (sharing T).Along YieldSeesChange s actions := by
  have start := quiet_shared quiet
  have keep : ∀ (s' : Cell T) a s'', Shared (pins s.pte) s' → Far s'.pte → YieldSeesChange s' a →
      (sharing T).step s' a = some s'' → Shared (pins s.pte) s'' :=
    fun s a s' shared far changed stepped => step_shared shared far.roomy changed stepped
  have agree := System.along_iff (I := Shared (pins s.pte))
    (fun s' a shared far => keepsMarker_iff a shared far) keep start far
  refine ⟨fun ⟨keeps, _⟩ => agree.mp keeps, fun changed => ⟨agree.mpr changed, ?_⟩⟩
  exact (System.Along.visits keep start far changed).imp fun _ => Shared.addsSwapOnce

def unpinned : Cell Unit := { pte := 0, callers := fun _ => ⟨.idle, 0, 0, []⟩ }

def isFar (s : Cell Unit) : Bool := isUxpteUnderReclaim s.pte || decide (s.pte.toNat < 2 ^ 63)

theorem isFar_sound (s : Cell Unit) (h : isFar s = true) : Far s.pte := by
  simpa [isFar, Far, isUxpteUnderReclaim_iff] using h

def yieldSeesChange (s : Cell Unit) : Action Unit → Bool
  | .step t =>
    match (s.callers t).pc with
    | .addCas old _ => !isUxpteUnderReclaim old || !isUxpteUnderReclaim s.pte
    | _ => true
  | _ => true

theorem yieldSeesChange_sound (s : Cell Unit) (a : Action Unit) (h : yieldSeesChange s a = true) :
    YieldSeesChange s a := by
  intro t newVal isStep atCas
  subst isStep
  have marker : isUxpteUnderReclaim uxpteUnderReclaim = true := rfl
  simpa [yieldSeesChange, atCas, marker, isUxpteUnderReclaim] using h

def patientAdd : List (Action Unit) :=
  [.startReclaim, .callAdd (), .step (), .endReclaim, .step (), .step (), .step ()]

theorem patient_add_respects_marker :
    (sharing Unit).Along KeepsMarker unpinned patientAdd ∧
      (sharing Unit).Visits AddsSwapOnce unpinned patientAdd :=
  (marker_respected_iff_yield_sees_change (fun _ => rfl) patientAdd
    (System.visits_of_probes isFar_sound (by decide))).mpr
    (System.along_of_checks yieldSeesChange_sound (by decide))

/-- The kernel is still reclaiming when the loop condition is reached. -/
def hastyAdd : List (Action Unit) := [.startReclaim, .callAdd (), .step (), .step ()]

theorem add_overwrites_marker :
    Quiet unpinned ∧ (sharing Unit).Visits (fun s => Far s.pte) unpinned hastyAdd ∧
      ¬ (sharing Unit).Along KeepsMarker unpinned hastyAdd ∧
      ¬ (sharing Unit).Visits AddsSwapOnce unpinned hastyAdd := by
  refine ⟨fun _ => rfl, System.visits_of_probes isFar_sound (by decide), ?_, ?_⟩
  · intro keeps
    have last := (((keeps.2 _ rfl).2 _ rfl).2 _ rfl).1 () _ rfl rfl rfl
    exact absurd last (by decide)
  · intro once
    obtain ⟨v, unmarked, swaps⟩ := ((((once.2 _ rfl).2 _ rfl).2 _ rfl).2 _ rfl) () rfl
    -- The only swap of the call went from the marker to the initial value of `newVal`.
    have only : ((uxpteUnderReclaim, 0) : UInt64 × UInt64) = (v, v + uxpteRefcntOne) :=
      List.head_eq_of_cons_eq swaps
    exact unmarked (congrArg Prod.fst only).symm

/-! ### The entries of a region -/

/-- The word is an entry that is not under reclaim, with the fields of `e`. -/
structure Encodes (pte : UInt64) (e : Entry) : Prop where
  unmarked : pte ≠ uxpteUnderReclaim
  refcnt : (refcnt pte : Int) = e.refcnt
  present : isUxptePresent pte = e.present

theorem isUxptePresent_eq (pte : UInt64) : isUxptePresent pte = decide (pte.toNat % 2 = 1) := by
  have mask : (pte &&& uxptePresentMask).toNat = pte.toNat % 2 := by
    rw [UInt64.toNat_and, show uxptePresentMask.toNat = 1 from rfl, Nat.and_one_is_mod]
  have zero : pte &&& uxptePresentMask = 0 ↔ pte.toNat % 2 = 0 := by
    rw [← UInt64.toNat_inj, mask]
    rfl
  by_cases even : pte.toNat % 2 = 0
  · simp [isUxptePresent, zero.mpr even, even]
  · have odd : pte.toNat % 2 = 1 := by omega
    simp [isUxptePresent, zero, odd]

theorem present_toNat (pte : UInt64) : (pte ||| uxptePresentMask).toNat = pte.toNat / 2 * 2 + 1 := by
  rw [UInt64.toNat_or, show uxptePresentMask.toNat = 1 from rfl]
  have upper : (pte.toNat ||| 1) / 2 = pte.toNat / 2 := by simp [Nat.or_div_two]
  have lower : (pte.toNat ||| 1) % 2 = 1 := Nat.or_mod_two_eq_one.mpr (.inr rfl)
  omega

theorem encodes_touch {pte : UInt64} {e : Entry} (encodes : Encodes pte e) :
    Encodes (pte ||| uxptePresentMask) { e with present := true } := by
  have word := present_toNat pte
  refine ⟨fun marked => ?_, ?_, ?_⟩
  · have same := congrArg UInt64.toNat marked
    rw [word, underReclaim_toNat] at same
    omega
  · rw [← encodes.refcnt, refcnt, refcnt, word, refcntOne_toNat]
    omega
  · rw [isUxptePresent_eq, word]
    simp

theorem encodes_reclaim {pte : UInt64} {e : Entry} (encodes : Encodes pte e) (unpinned : refcnt pte = 0) :
    Encodes 0 { e with present := false } := by
  have count := encodes.refcnt
  rw [unpinned] at count
  exact ⟨by decide, count, rfl⟩

/-- The kernel sets or clears the present bit. A word without it is the marker only if it has all pins. -/
theorem encodes_setPresent {pte : UInt64} {e : Entry} (encodes : Encodes pte e) (few : refcnt pte < 2 ^ 63 - 1)
    (present : Bool) :
    Encodes (pte - pte % uxpteRefcntOne + if present then 1 else 0) { e with present := present } := by
  have bound := pte.toNat_lt
  have low : (pte - pte % uxpteRefcntOne).toNat = pte.toNat / 2 * 2 := by
    rw [UInt64.toNat_sub_of_le, UInt64.toNat_mod, refcntOne_toNat]
    · omega
    · rw [UInt64.le_iff_toNat_le, UInt64.toNat_mod]
      exact Nat.mod_le _ _
  have word : (pte - pte % uxpteRefcntOne + if present then 1 else 0).toNat
      = pte.toNat / 2 * 2 + if present then 1 else 0 := by
    cases present with
    | false => simpa using low
    | true =>
      simp only [if_true]
      rw [UInt64.toNat_add, low, show (1 : UInt64).toNat = 1 from rfl]
      omega
  rw [refcnt, refcntOne_toNat] at few
  refine ⟨fun marked => ?_, ?_, ?_⟩
  · have same := congrArg UInt64.toNat marked
    rw [word, underReclaim_toNat] at same
    split at same <;> omega
  · rw [← encodes.refcnt, refcnt, refcnt, word, refcntOne_toNat]
    split <;> omega
  · rw [isUxptePresent_eq, word]
    cases present <;> simp

section Entries

variable {pte : UInt64} {n : Nat} {r : Region n} {p : Nat}

theorem Encodes.getUxpteAt (encodes : Encodes pte (r.entries p)) (room : pte.toNat + 4 < 2 ^ 64) :
    Encodes (pte + uxpteRefcntOne) ((r.getUxpteAt p).entries p) := by
  obtain ⟨-, count, present⟩ := encodes
  refine ⟨add_one_ne_underReclaim room, ?_, ?_⟩
  · simp only [Region.getUxpteAt, Function.update_self, Region.refcnt]
    rw [← count, refcnt_add_one room]
    rfl
  · simp only [Region.getUxpteAt, Function.update_self]
    rw [← present, isUxptePresent_eq, isUxptePresent_eq, add_one_toNat room, Nat.add_mod_right]

theorem Encodes.putUxpteAt (encodes : Encodes pte (r.entries p)) (room : pte.toNat + 4 < 2 ^ 64)
    (pinned : 0 < r.refcnt p) : Encodes (pte - uxpteRefcntOne) ((r.putUxpteAt p).entries p) := by
  obtain ⟨-, count, present⟩ := encodes
  rw [Region.refcnt, ← count] at pinned
  have counted : 0 < Uxpte.refcnt pte := by omega
  refine ⟨sub_one_ne_underReclaim room counted, ?_, ?_⟩
  · simp only [Region.putUxpteAt, Function.update_self, Region.refcnt]
    have fewer := refcnt_sub_one counted
    omega
  · have less := sub_one_toNat counted
    unfold Uxpte.refcnt at counted
    rw [refcntOne_toNat] at counted
    simp only [Region.putUxpteAt, Function.update_self]
    rw [← present, isUxptePresent_eq, isUxptePresent_eq, less]
    congr 2
    omega

end Entries

section Alone

variable {s : Cell T} {t : T} {n : Nat} {r : Region n} {p : Nat}

omit [Fintype T] in
theorem uxpteAdd_getUxpteAt (between : (s.callers t).between = true)
    (encodes : Encodes s.pte (r.entries p)) (room : s.pte.toNat + 4 < 2 ^ 64) :
    ∃ s', (sharing T).run s [.callAdd t, .step t, .step t] = some s' ∧
      Encodes s'.pte ((r.getUxpteAt p).entries p) := by
  have loaded := addBody_of_room 0 room
  have ran : ((sharing T).run s [.callAdd t, .step t, .step t]).map Cell.pte
      = some (s.pte + uxpteRefcntOne) := by
    simp [System.run, sharing, step, between, Cell.setCaller, callerStep, loaded]
  obtain ⟨s', run, word⟩ := Option.map_eq_some_iff.mp ran
  exact ⟨s', run, word ▸ encodes.getUxpteAt room⟩

omit [Fintype T] in
theorem uxpteSub_putUxpteAt (between : (s.callers t).between = true)
    (owes : (s.callers t).subs < (s.callers t).adds) (encodes : Encodes s.pte (r.entries p))
    (room : s.pte.toNat + 4 < 2 ^ 64) (pinned : 0 < r.refcnt p) :
    ∃ s', (sharing T).run s [.callSub t, .step t, .step t] = some s' ∧
      Encodes s'.pte ((r.putUxpteAt p).entries p) := by
  have ran : ((sharing T).run s [.callSub t, .step t, .step t]).map Cell.pte
      = some (s.pte - uxpteRefcntOne) := by
    simp [System.run, sharing, step, between, owes, Cell.setCaller, callerStep]
  obtain ⟨s', run, word⟩ := Option.map_eq_some_iff.mp ran
  exact ⟨s', run, word ▸ encodes.putUxpteAt room pinned⟩

end Alone

end MemoryUtils.Uxpte
