import MemoryUtils.Cpp.Classes

/-!
Pin balance of the C++ classes. Every function pins and unpins by what it opens and closes, except
an `EndRead` that finds `isDataValid_` false: it ends the access and keeps its pin.
-/

namespace MemoryUtils.Cpp
open Lib

variable {n : Nat} {D K : Type}

structure PinLaws (V : Virtuals n D K) (pins : D → Int) : Prop where
  kernel : ∀ d k, pins (V.kernel d k) = pins d
  store : ∀ d touched c, pins (V.store d touched c) = pins d
  clear : ∀ d, pins (V.clear d) = pins d
  pin : ∀ between d, (∀ i d, pins (between i d) = pins d) → pins (V.pin between d) = pins d + 1
  unpin : ∀ between d, (∀ i d, pins (between i d) = pins d) → pins (V.unpin between d) = pins d - 1
  isPurged : ∀ between d, (∀ i d, pins (between i d) = pins d) → pins (V.isPurged between d).1 = pins d
  afterRebuildSucc : ∀ d, pins (V.afterRebuildSucc d) = pins d

section Balance

variable {V : Virtuals n D K} {pins : D → Int} (laws : PinLaws V pins) (E : Env n K)

include laws

theorem at_pins (p : Point) (d : D) : pins (E.at_ V p d) = pins d := by
  unfold Env.at_
  induction E.kernel p generalizing d with
  | nil => rfl
  | cons k rest ih => rw [List.foldl_cons, ih, laws.kernel]

theorem build_pins (t j : Nat) (b : Builder) (d : D) : pins (build V E t j b d).1 = pins d := by
  simp only [build, laws.store, at_pins laws]

theorem buildAll_pins (t j : Nat) (chain : List Builder) (d : D) :
    pins (buildAll V E t j chain d).1 = pins d := by
  induction chain generalizing j d with
  | nil => rfl
  | cons b rest ih =>
    have call := build_pins laws E t j b d
    rw [buildAll]
    split
    · rename_i d' built
      rw [built] at call
      exact call
    · rename_i d' built
      rw [built] at call
      split
      · exact call
      · rw [ih]
        exact call

theorem ifNeedRebuild_pins (t : Nat) (o : Base D) :
    pins (ifNeedRebuild V E t o).1.data = pins o.data := by
  unfold ifNeedRebuild
  split
  · rfl
  · exact laws.isPurged _ _ fun _ => at_pins laws E _

theorem buildContent_pins (t : Nat) (o : Base D) :
    pins (buildContent V E t o).1.data = pins o.data := by
  have all := buildAll_pins laws E t 0 o.builder (V.clear (E.at_ V (.clear t) o.data))
  rw [laws.clear, at_pins laws] at all
  simp only [buildContent]
  split
  · split <;> (rename_i d built; rw [built] at all; exact all)
  · exact at_pins laws E _ _

theorem rebuild_pins {t : Nat} {o o₁ o₂ : Base D} {ok : Bool}
    (need : ifNeedRebuild V E t o = (o₁, true)) (built : buildContent V E t o₁ = (o₂, ok)) :
    pins o₂.data = pins o.data := by
  have checked := ifNeedRebuild_pins laws E t o
  have rebuilt := buildContent_pins laws E t o₁
  rw [need] at checked
  rw [built] at rebuilt
  exact rebuilt.trans checked

theorem afterRebuildSucc_pins (t : Nat) (o : Base D) :
    pins (afterRebuildSucc V E t o).data = pins o.data := by
  rw [afterRebuildSucc, laws.afterRebuildSucc, at_pins laws]

theorem readLoop_pins {left t : Nat} {o : Base D} {r : Base D × Bool}
    (loop : ReadLoop V E left t o r) : pins r.1.data = pins o.data := by
  induction loop with
  | exhausted => rfl
  | @present left t o o₁ need =>
    have checked := ifNeedRebuild_pins laws E t o
    rw [need] at checked
    exact checked
  | @failed left t o o₁ o₂ need built =>
    exact rebuild_pins laws E need built
  | @gaveUp left t o o₁ o₂ need built =>
    exact (afterRebuildSucc_pins laws E t o₂).trans (rebuild_pins laws E need built)
  | @again left t o o₁ o₂ r need built rest ih =>
    rw [ih, afterRebuildSucc_pins laws E t o₂]
    exact rebuild_pins laws E need built

theorem pin_pins (o : Base D) : pins (pin V E o).data = pins o.data + 1 :=
  laws.pin _ _ fun _ => at_pins laws E _

theorem unpin_pins (o : Base D) : pins (unpin V E o).data = pins o.data - 1 :=
  laws.unpin _ _ fun _ => at_pins laws E _

theorem beginRead_pins {o : Base D} {r : Base D × Bool} (begun : BeginRead V E o r) :
    pins r.1.data = pins o.data + if r.2 then 1 else 0 := by
  cases begun with
  | refused => simp
  | granted valid chain loop =>
    have looped := readLoop_pins laws E loop
    rw [pin_pins laws] at looped
    simpa using looped
  | @denied o₁ chain loop =>
    have looped : pins o₁.data = pins o.data + 1 := (readLoop_pins laws E loop).trans (pin_pins laws E o)
    have back := unpin_pins laws E o₁
    simp only [Bool.false_eq_true, if_false]
    omega

theorem endRead_pins (o : Base D) :
    pins (endRead V E o).data = pins o.data - if o.isDataValid then 1 else 0 := by
  unfold endRead
  split
  · exact unpin_pins laws E o
  · simp

theorem beginWrite_pins {o : Base D} {r : Base D × Bool} (begun : BeginWrite V E o r) :
    pins r.1.data = pins o.data + if r.2 then 1 else 0 := by
  have pinned := pin_pins laws E o
  cases begun with
  | refused => simp
  | present chain need =>
    have checked := ifNeedRebuild_pins laws E 0 (pin V E o)
    rw [need, pinned] at checked
    simpa using checked
  | @rebuilt o₁ o₂ chain need built =>
    have rebuilt : pins o₂.data = pins (pin V E o).data := rebuild_pins laws E need built
    have succ := afterRebuildSucc_pins laws E 0 o₂
    simp only [if_true]
    omega
  | @failed o₁ o₂ chain need built =>
    have rebuilt : pins o₂.data = pins (pin V E o).data := rebuild_pins laws E need built
    have back := unpin_pins laws E o₂
    simp only [Bool.false_eq_true, if_false]
    omega

theorem modifyContentByBuilder_pins (modifier : Option Builder) (o : Base D) :
    pins (modifyContentByBuilder V E modifier o).1.data = pins o.data := by
  cases modifier with
  | none => rfl
  | some b =>
    have call := build_pins laws E 0 0 b o.data
    rw [modifyContentByBuilder]
    split <;> (rename_i d built; rw [built] at call; exact call)

end Balance

/-! ### The pin counts of the two classes -/

theorem uxpteOps_refcnt {op : Region n → Nat → Region n} {between : Nat → Region n → Region n}
    {p : Nat} (delta : Int) (one : ∀ r i, (op r i).refcnt p = r.refcnt p + if p = i then delta else 0)
    (same : ∀ i (r : Region n), (between i r).refcnt p = r.refcnt p) (pages : List Nat) (r : Region n) :
    (PurgeableMem.uxpteOps op between pages r).refcnt p = r.refcnt p + delta * pages.count p := by
  unfold PurgeableMem.uxpteOps
  induction pages generalizing r with
  | nil => simp
  | cons i rest ih =>
    rw [List.foldl_cons, ih, one, same, List.count_cons]
    by_cases here : i = p
    · simp only [here, if_true, beq_self_eq_true]
      rw [Int.natCast_add, Int.mul_add]
      omega
    · simp [here, Ne.symm here]

theorem uxpteIsPresent_refcnt {between : Nat → Region n → Region n} {p : Nat}
    (same : ∀ i (r : Region n), (between i r).refcnt p = r.refcnt p) (pages : List Nat) (r : Region n) :
    (PurgeableMem.uxpteIsPresent between pages r).1.refcnt p = r.refcnt p := by
  induction pages generalizing r with
  | nil => rfl
  | cons i rest ih =>
    rw [PurgeableMem.uxpteIsPresent]
    split
    · rw [ih, same]
    · exact same i r

theorem count_range_of_lt {p m : Nat} (below : p < m) : (List.range m).count p = 1 :=
  List.count_eq_one_of_mem List.nodup_range (List.mem_range.mpr below)

theorem PurgeableMem.kernel_refcnt {S : Setup} (r : Region S.len) (k : PageStep) (p : Nat) :
    (PurgeableMem.kernel S r k).refcnt p = r.refcnt p := by
  cases k with
  | reclaim q =>
    rw [PurgeableMem.kernel]
    split
    · exact r.reclaim_refcnt q p
    · rfl
  | setPresent q present => exact r.setPresent_refcnt q p present

theorem PurgeableMem.pinLaws (S : Setup) {p : Nat} (below : p < S.pages) :
    PinLaws (PurgeableMem.virtuals S .ready) (fun r => r.refcnt p) where
  kernel r k := PurgeableMem.kernel_refcnt r k p
  store _ _ _ := rfl
  clear _ := rfl
  pin between r same := by
    refine (uxpteOps_refcnt 1 (fun r i => r.getUxpteAt_refcnt i p) same _ r).trans ?_
    rw [count_range_of_lt below]
    omega
  unpin between r same := by
    refine (uxpteOps_refcnt (-1) (fun r i => ?_) same _ r).trans ?_
    · rw [r.putUxpteAt_refcnt i p]
      split <;> omega
    · rw [count_range_of_lt below]
      omega
  isPurged between r same := uxpteIsPresent_refcnt same _ r
  afterRebuildSucc _ := rfl

theorem PurgeableAshMem.pinLaws (n : Nat) {ashmemFd : Int} (opened : ashmemFd > 0) :
    PinLaws (PurgeableAshMem.virtuals n true ashmemFd) Ashmem.pinCount where
  kernel d k := by
    cases k with
    | purge =>
      simp only [PurgeableAshMem.virtuals, PurgeableAshMem.kernel]
      split <;> rfl
    | setPurged purged => rfl
  store _ _ _ := rfl
  clear _ := rfl
  pin between d same := by
    simp [PurgeableAshMem.virtuals, PurgeableAshMem.pin, opened, same]
  unpin between d same := by
    simp [PurgeableAshMem.virtuals, PurgeableAshMem.unpin, opened, same]
  isPurged between d same := same 0 d
  afterRebuildSucc _ := rfl

/-! ### Runs -/

/-- An `EndRead` that is let through finds the data valid. -/
def EndReadValid (s : State D) (a : Action n K) : Prop :=
  ∀ E, a = .endRead E → 0 < s.reads → s.obj.isDataValid = true

/-- A step moves the pin count with the number of open accesses, unless it is an `EndRead` that keeps
its pin. -/
theorem step_pins {V : Virtuals n D K} {pins : D → Int} (laws : PinLaws V pins) {s t : State D}
    {a : Action n K} (h : step V s a = some t) :
    EndReadValid s a ∧ pins t.obj.data = pins s.obj.data + t.opens - s.opens ∨
      ¬ EndReadValid s a ∧ t.opens + 1 = s.opens ∧ pins t.obj.data = pins s.obj.data := by
  have follows : (∀ E, a ≠ .endRead E) → pins t.obj.data = pins s.obj.data + t.opens - s.opens →
      EndReadValid s a ∧ pins t.obj.data = pins s.obj.data + t.opens - s.opens ∨
        ¬ EndReadValid s a ∧ t.opens + 1 = s.opens ∧ pins t.obj.data = pins s.obj.data :=
    fun other change => .inl ⟨fun E same => absurd same (other E), change⟩
  cases a with
  | beginRead E =>
    have begun := beginRead_pins laws E (beginRead_cases V E s.obj)
    cases h
    apply follows (by simp)
    simp only [State.opens]
    split_ifs at begun ⊢ <;> omega
  | endRead E =>
    obtain ⟨nonzero, ⟨⟩⟩ := Option.ite_none_right_eq_some.mp h
    have ended := endRead_pins laws E s.obj
    cases valid : s.obj.isDataValid with
    | true =>
      refine .inl ⟨fun _ _ _ => valid, ?_⟩
      simp only [State.opens, valid, if_true] at ended ⊢
      omega
    | false =>
      refine .inr ⟨fun all => ?_, ?_, ?_⟩
      · rw [all E rfl nonzero] at valid
        cases valid
      · simp only [State.opens]
        omega
      · simpa [valid] using ended
  | beginWrite E =>
    have begun := beginWrite_pins laws E (beginWrite_cases V E s.obj)
    cases h
    apply follows (by simp)
    simp only [State.opens]
    split_ifs at begun ⊢ <;> omega
  | endWrite E =>
    obtain ⟨nonzero, ⟨⟩⟩ := Option.ite_none_right_eq_some.mp h
    have ended := unpin_pins laws E s.obj
    apply follows (by simp)
    simp only [State.opens, endWrite]
    omega
  | modify modifier E =>
    have changed := modifyContentByBuilder_pins laws E modifier s.obj
    cases h
    apply follows (by simp)
    simp only [State.opens]
    omega
  | setDataValid target =>
    cases h
    apply follows (by simp)
    simp only [State.opens, setDataValid]
    omega
  | touch touched =>
    obtain ⟨-, ⟨⟩⟩ := Option.ite_none_right_eq_some.mp h
    apply follows (by simp)
    simp only [State.opens, laws.store]
    omega
  | kernel k =>
    cases h
    apply follows (by simp)
    simp only [State.opens, laws.kernel]
    omega

section Run

variable {V : Virtuals n D K} {ι : Type} [Nonempty ι] {pins : ι → D → Int} (laws : ∀ i, PinLaws V (pins i))

def Balanced (pins : ι → D → Int) (start : ι → Int) (s : State D) : Prop :=
  ∀ i, pins i s.obj.data = start i + s.opens

include laws

theorem step_balanced_iff {start : ι → Int} {s t : State D} {a : Action n K}
    (balanced : Balanced pins start s) (h : step V s a = some t) :
    Balanced pins start t ↔ EndReadValid s a := by
  constructor
  · intro after
    obtain ⟨i⟩ := ‹Nonempty ι›
    have now := after i
    have before := balanced i
    rcases step_pins (laws i) h with ⟨valid, -⟩ | ⟨-, closed, kept⟩
    · exact valid
    · omega
  · intro valid i
    have before := balanced i
    rcases step_pins (laws i) h with ⟨-, change⟩ | ⟨invalid, -⟩
    · omega
    · exact absurd valid invalid

theorem run_balanced_iff {fresh : D → Prop} {s : State D} (initial : (calls V fresh).init s)
    (actions : List (Action n K)) :
    (calls V fresh).Visits (Balanced pins fun i => pins i s.obj.data) s actions ↔
      (calls V fresh).Along EndReadValid s actions := by
  refine System.visits_iff_along ?_ (fun s a t balanced h => step_balanced_iff laws balanced h) ?_
  · intro s a disabled E isEnd nonzero
    subst isEnd
    simp [calls, step, nonzero] at disabled
  · obtain ⟨-, -, -, -, -, reads, writes⟩ := initial
    intro i
    simp [State.opens, reads, writes]

end Run

/-- In every run on either class, the pin counts follow the open accesses after every call exactly
when no `EndRead` runs while the data is marked invalid. -/
theorem pins_follow_accesses_iff_endRead_valid (S : Setup) (supported : S.supportUxpt = true) (n : Nat)
    (ashmemFd : Int) (opened : ashmemFd > 0) :
    (∀ (s : State (Region S.len)) (actions : List (Action S.len PageStep)),
      (calls (PurgeableMem.virtuals S .ready) (PurgeableMem.Fresh S)).init s →
      ((calls (PurgeableMem.virtuals S .ready) (PurgeableMem.Fresh S)).Visits
          (fun t => ∀ p < S.pages, t.obj.data.refcnt p = t.opens) s actions ↔
        (calls (PurgeableMem.virtuals S .ready) (PurgeableMem.Fresh S)).Along EndReadValid s actions)) ∧
    ∀ (s : State (Ashmem n)) (actions : List (Action n AshmemStep)),
      (calls (PurgeableAshMem.virtuals n true ashmemFd) (PurgeableAshMem.Fresh true ashmemFd)).init s →
      ((calls (PurgeableAshMem.virtuals n true ashmemFd) (PurgeableAshMem.Fresh true ashmemFd)).Visits
          (fun t => t.obj.data.pinCount - s.obj.data.pinCount = t.opens) s actions ↔
        (calls (PurgeableAshMem.virtuals n true ashmemFd)
          (PurgeableAshMem.Fresh true ashmemFd)).Along EndReadValid s actions) := by
  constructor
  · intro s actions initial
    have zero : ∀ p, s.obj.data.refcnt p = 0 := initial.1
    have : Nonempty (Fin S.pages) := ⟨⟨0, S.pages_pos supported⟩⟩
    rw [← run_balanced_iff (ι := Fin S.pages) (fun p => PurgeableMem.pinLaws S p.isLt) initial]
    refine System.visits_congr fun t => ?_
    simp only [Balanced, zero, Int.zero_add]
    exact ⟨fun all p => all p p.isLt, fun all p below => all ⟨p, below⟩⟩
  · intro s actions initial
    rw [← run_balanced_iff (ι := Unit) (fun _ => PurgeableAshMem.pinLaws n opened) initial]
    refine System.visits_congr fun t => ?_
    simp only [Balanced, forall_const]
    omega

def freshMem : State (Region oneByte.len) :=
  { obj := { data := { content := zeros, entries := fun _ => {} }, dataPtr := true, builder := [fill 7] } }

theorem freshMem_init :
    (calls (PurgeableMem.virtuals oneByte .ready) (PurgeableMem.Fresh oneByte)).init freshMem :=
  ⟨fun _ => rfl, rfl, rfl, rfl, rfl, rfl, rfl⟩

def endReadValid (s : State D) : Action n K → Bool
  | .endRead _ => s.reads == 0 || s.obj.isDataValid
  | _ => true

theorem endReadValid_sound (s : State D) (a : Action n K) (h : endReadValid s a = true) :
    EndReadValid s a := by
  intro E isEnd nonzero
  subst isEnd
  simp only [endReadValid, Bool.or_eq_true, beq_iff_eq] at h
  exact h.resolve_left (by omega)

theorem read_then_write_balanced :
    (calls (PurgeableMem.virtuals oneByte .ready) (PurgeableMem.Fresh oneByte)).Visits
      (fun t => ∀ p < oneByte.pages, t.obj.data.refcnt p = t.opens) freshMem
      [.beginRead {}, .beginWrite {}, .endRead {}, .setDataValid false, .endWrite {}] :=
  ((pins_follow_accesses_iff_endRead_valid oneByte rfl 1 3 (by decide)).1 freshMem _
    freshMem_init).mpr
    (System.along_of_checks endReadValid_sound (by decide))

/-- The data is marked invalid between a `BeginRead` and its `EndRead`. -/
def invalidatedRead : List (Action oneByte.len PageStep) :=
  [.beginRead {}, .setDataValid false, .endRead {}]

theorem endRead_leaks_pin :
    (calls (PurgeableMem.virtuals oneByte .ready) (PurgeableMem.Fresh oneByte)).init freshMem ∧
      ∃ t, (calls (PurgeableMem.virtuals oneByte .ready) (PurgeableMem.Fresh oneByte)).run freshMem
        invalidatedRead = some t ∧ t.opens = 0 ∧ 0 < oneByte.pages ∧ t.obj.data.refcnt 0 = 1 := by
  refine ⟨freshMem_init, ?_⟩
  have seen : ((calls (PurgeableMem.virtuals oneByte .ready) (PurgeableMem.Fresh oneByte)).run
      freshMem invalidatedRead).map (fun t => (t.opens, t.obj.data.refcnt 0)) = some (0, 1) := by decide
  obtain ⟨t, ran, view⟩ := Option.map_eq_some_iff.mp seen
  obtain ⟨closed, pinned⟩ := Prod.mk.inj view
  exact ⟨t, ran, closed, by decide, pinned⟩

end MemoryUtils.Cpp
