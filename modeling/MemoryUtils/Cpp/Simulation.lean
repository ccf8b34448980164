import MemoryUtils.Cpp.PinBalance
import MemoryUtils.Cpp.Replay
import MemoryUtils.Lib.Simulation

/-!
Two implementations of the virtual functions under one `PurgeableMemBase`. If each function keeps a
relation between the two memories and gives the same answer, then so do the access functions, and with
them whole runs. A pin may need room and an unpin a pin to undo; that both are there follows from the
pin counts of the second implementation.
-/

namespace MemoryUtils.Cpp
open Lib

variable {n : Nat} {D D' K ι : Type}

/-- What the kernel does before each statement of a virtual function. -/
def acting (V : Virtuals n D K) (steps : Nat → List K) : Nat → D → D := fun i d => (steps i).foldl V.kernel d

structure Simulates (V : Virtuals n D K) (V' : Virtuals n D' K) (R : D → D' → Prop) (pins : ι → D' → Int)
    (limit : Int) : Prop where
  kernel : ∀ {d d'} k, R d d' → R (V.kernel d k) (V'.kernel d' k)
  content : ∀ {d d'}, R d d' → V.content d = V'.content d'
  store : ∀ {d d'} touched c, R d d' → R (V.store d touched c) (V'.store d' touched c)
  clear : ∀ {d d'}, R d d' → R (V.clear d) (V'.clear d')
  afterRebuildSucc : ∀ {d d'}, R d d' → R (V.afterRebuildSucc d) (V'.afterRebuildSucc d')
  isPurged : ∀ {d d'} steps, R d d' → R (V.isPurged (acting V steps) d).1 (V'.isPurged (acting V' steps) d').1 ∧
    (V.isPurged (acting V steps) d).2 = (V'.isPurged (acting V' steps) d').2
  pin : ∀ {d d'} steps, R d d' → (∀ i, 0 ≤ pins i d' ∧ pins i d' < limit) →
    R (V.pin (acting V steps) d) (V'.pin (acting V' steps) d')
  unpin : ∀ {d d'} steps, R d d' → (∀ i, 0 < pins i d' ∧ pins i d' ≤ limit) →
    R (V.unpin (acting V steps) d) (V'.unpin (acting V' steps) d')

/-- The object with another memory. -/
def Base.on (o : Base D) (d : D') : Base D' where
  data := d
  dataPtr := o.dataPtr
  isDataValid := o.isDataValid
  builder := o.builder
  buildDataCount := o.buildDataCount
  clears := o.clears
  rebuilds := o.rebuilds
  rebuildFailed := o.rebuildFailed

def BaseRel (R : D → D' → Prop) (o : Base D) (o' : Base D') : Prop := ∃ d', R o.data d' ∧ o' = o.on d'

theorem BaseRel.isDataValid {R : D → D' → Prop} {o : Base D} {o' : Base D'} (rel : BaseRel R o o') :
    o'.isDataValid = o.isDataValid := by
  obtain ⟨d', -, rfl⟩ := rel
  rfl

theorem BaseRel.dataPtr {R : D → D' → Prop} {o : Base D} {o' : Base D'} (rel : BaseRel R o o') :
    o'.dataPtr = o.dataPtr := by
  obtain ⟨d', -, rfl⟩ := rel
  rfl

theorem BaseRel.builder {R : D → D' → Prop} {o : Base D} {o' : Base D'} (rel : BaseRel R o o') :
    o'.builder = o.builder := by
  obtain ⟨d', -, rfl⟩ := rel
  rfl

def ResultRel (R : D → D' → Prop) (x : Base D × Bool) (y : Base D' × Bool) : Prop := BaseRel R x.1 y.1 ∧ x.2 = y.2

structure StateRel (R : D → D' → Prop) (s : State D) (s' : State D') : Prop where
  obj : BaseRel R s.obj s'.obj
  reads : s.reads = s'.reads
  writes : s.writes = s'.writes

theorem StateRel.opens {R : D → D' → Prop} {s : State D} {s' : State D'} (rel : StateRel R s s') :
    s.opens = s'.opens := by
  rw [State.opens, State.opens, rel.reads, rel.writes]

theorem StateRel.endReadValid_iff {R : D → D' → Prop} {s : State D} {s' : State D'} (rel : StateRel R s s')
    (a : Action n K) : EndReadValid s a ↔ EndReadValid s' a := by
  rw [EndReadValid, EndReadValid, rel.reads, rel.obj.isDataValid]

theorem StateRel.usage_iff {R : D → D' → Prop} {lawful : K → Prop} {building : Env n K → Base D → Prop}
    {building' : Env n K → Base D' → Prop} (agree : ∀ E o o', BaseRel R o o' → (building E o ↔ building' E o'))
    {s : State D} {s' : State D'} (rel : StateRel R s s') (a : Action n K) :
    Usage lawful building s a ↔ Usage lawful building' s' a := by
  cases a with
  | beginRead E | beginWrite E => exact and_congr_right fun _ => agree E _ _ rel.obj
  | modify modifier E => rw [Usage, Usage, rel.writes]
  | _ => exact Iff.rfl

section Functions

variable {V : Virtuals n D K} {V' : Virtuals n D' K} {R : D → D' → Prop} {pins : ι → D' → Int} {limit : Int}
variable (sim : Simulates V V' R pins limit) (E : Env n K)

include sim

theorem at_rel (p : Point) {d : D} {d' : D'} (rel : R d d') : R (E.at_ V p d) (E.at_ V' p d') := by
  unfold Env.at_
  induction E.kernel p generalizing d d' with
  | nil => exact rel
  | cons k rest ih => exact ih (sim.kernel k rel)

theorem build_rel (t j : Nat) (b : Builder) {d : D} {d' : D'} (rel : R d d') :
    R (build V E t j b d).1 (build V' E t j b d').1 ∧ (build V E t j b d).2 = (build V' E t j b d').2 := by
  have before := at_rel sim E (.build t j) rel
  have within := at_rel sim E (.within t j) (sim.store (E.call t j).touched (E.call t j).mid before)
  unfold build
  simp only [sim.content before, sim.content within, and_true]
  exact sim.store _ _ within

theorem buildAll_rel (t j : Nat) (chain : List Builder) {d : D} {d' : D'} (rel : R d d') :
    R (buildAll V E t j chain d).1 (buildAll V' E t j chain d').1 ∧
      (buildAll V E t j chain d).2 = (buildAll V' E t j chain d').2 := by
  induction chain generalizing j d d' with
  | nil => exact ⟨rel, rfl⟩
  | cons b rest ih =>
    obtain ⟨after, same⟩ := build_rel sim E t j b rel
    rw [buildAll, buildAll]
    generalize build V E t j b d = x at after same
    generalize build V' E t j b d' = y at after same
    obtain ⟨d, ok⟩ := x
    obtain ⟨d', ok'⟩ := y
    obtain rfl : ok = ok' := same
    cases ok with
    | false => exact ⟨after, rfl⟩
    | true =>
      dsimp only
      split
      · exact ⟨after, rfl⟩
      · exact ih (j + 1) after

variable {o : Base D} {o' : Base D'}

theorem pin_rel (rel : BaseRel R o o') (room : ∀ i, 0 ≤ pins i o'.data ∧ pins i o'.data < limit) :
    BaseRel R (pin V E o) (pin V' E o') := by
  obtain ⟨d', rel, rfl⟩ := rel
  exact ⟨_, sim.pin (fun i => E.kernel (.pin i)) rel room, rfl⟩

theorem unpin_rel (rel : BaseRel R o o') (pinned : ∀ i, 0 < pins i o'.data ∧ pins i o'.data ≤ limit) :
    BaseRel R (unpin V E o) (unpin V' E o') := by
  obtain ⟨d', rel, rfl⟩ := rel
  exact ⟨_, sim.unpin (fun i => E.kernel (.unpin i)) rel pinned, rfl⟩

theorem ifNeedRebuild_rel (t : Nat) (rel : BaseRel R o o') :
    ResultRel R (ifNeedRebuild V E t o) (ifNeedRebuild V' E t o') := by
  obtain ⟨d', rel, rfl⟩ := rel
  unfold ifNeedRebuild
  show ResultRel R (ite _ _ _) (ite (o.buildDataCount = 0) _ _)
  split
  · exact ⟨⟨d', rel, rfl⟩, rfl⟩
  · obtain ⟨after, same⟩ := sim.isPurged (fun i => E.kernel (.check t i)) rel
    exact ⟨⟨_, after, rfl⟩, same⟩

theorem buildContent_rel (t : Nat) (rel : BaseRel R o o') :
    ResultRel R (buildContent V E t o) (buildContent V' E t o') := by
  obtain ⟨d', rel, rfl⟩ := rel
  have before := at_rel sim E (.clear t) rel
  obtain ⟨after, same⟩ := buildAll_rel sim E t 0 o.builder (sim.clear before)
  unfold buildContent
  dsimp only [Base.on]
  split
  · generalize buildAll V E t 0 o.builder (V.clear (E.at_ V (.clear t) o.data)) = x at after same
    generalize buildAll V' E t 0 o.builder (V'.clear (E.at_ V' (.clear t) d')) = y at after same
    obtain ⟨d, ok⟩ := x
    obtain ⟨d'', ok'⟩ := y
    obtain rfl : ok = ok' := same
    cases ok with
    | false => exact ⟨⟨_, after, rfl⟩, rfl⟩
    | true => exact ⟨⟨_, after, rfl⟩, rfl⟩
  · exact ⟨⟨_, before, rfl⟩, rfl⟩

theorem afterRebuildSucc_rel (t : Nat) (rel : BaseRel R o o') :
    BaseRel R (afterRebuildSucc V E t o) (afterRebuildSucc V' E t o') := by
  obtain ⟨d', rel, rfl⟩ := rel
  exact ⟨_, sim.afterRebuildSucc (at_rel sim E (.rebuilt t) rel), rfl⟩

theorem readLoop_rel (left t : Nat) (rel : BaseRel R o o') :
    ResultRel R (readLoop V E left t o) (readLoop V' E left t o') := by
  induction left generalizing t o o' with
  | zero => exact ⟨rel, rfl⟩
  | succ left ih =>
    obtain ⟨checked, same⟩ := ifNeedRebuild_rel sim E t rel
    rw [readLoop, readLoop]
    generalize ifNeedRebuild V E t o = x at checked same
    generalize ifNeedRebuild V' E t o' = y at checked same
    obtain ⟨o, need⟩ := x
    obtain ⟨o', need'⟩ := y
    obtain rfl : need = need' := same
    cases need with
    | false => exact ⟨checked, rfl⟩
    | true =>
      obtain ⟨built, same⟩ := buildContent_rel sim E t checked
      dsimp only at built same ⊢
      generalize buildContent V E t o = x at built same
      generalize buildContent V' E t o' = y at built same
      obtain ⟨o, ok⟩ := x
      obtain ⟨o', ok'⟩ := y
      obtain rfl : ok = ok' := same
      cases ok with
      | false => exact ⟨built, rfl⟩
      | true =>
        have after := afterRebuildSucc_rel sim E t built
        dsimp only
        split
        · exact ⟨after, rfl⟩
        · exact ih (t + 1) after

theorem modifyContentByBuilder_rel (modifier : Option Builder) (rel : BaseRel R o o') :
    ResultRel R (modifyContentByBuilder V E modifier o) (modifyContentByBuilder V' E modifier o') := by
  cases modifier with
  | none => exact ⟨rel, rfl⟩
  | some b =>
    obtain ⟨d', rel, rfl⟩ := rel
    obtain ⟨after, same⟩ := build_rel sim E 0 0 b rel
    unfold modifyContentByBuilder
    dsimp only [Base.on]
    generalize build V E 0 0 b o.data = x at after same
    generalize build V' E 0 0 b d' = y at after same
    obtain ⟨d, ok⟩ := x
    obtain ⟨d'', ok'⟩ := y
    obtain rfl : ok = ok' := same
    cases ok with
    | false => exact ⟨⟨_, after, rfl⟩, rfl⟩
    | true => exact ⟨⟨_, after, rfl⟩, rfl⟩

/-! The counts at the end of a call are those at its start, so the unpin of a call that fails has a pin
to undo. -/

variable (laws : ∀ i, PinLaws V' (pins i))

include laws

theorem unpin_after_pin {o₁ : Base D} {o₁' : Base D'} (rel : BaseRel R o₁ o₁')
    (room : ∀ i, 0 ≤ pins i o'.data ∧ pins i o'.data < limit)
    (kept : ∀ i, pins i o₁'.data = pins i (pin V' E o').data) : BaseRel R (unpin V E o₁) (unpin V' E o₁') := by
  refine unpin_rel sim E rel fun i => ?_
  have before := room i
  rw [kept i, pin_pins (laws i)]
  omega

theorem beginRead_rel (rel : BaseRel R o o') (room : ∀ i, 0 ≤ pins i o'.data ∧ pins i o'.data < limit) :
    ResultRel R (beginRead V E o) (beginRead V' E o') := by
  obtain ⟨looped, same⟩ := readLoop_rel sim E (maxBuildTrytimes + 1) 0 (pin_rel sim E rel room)
  have kept := fun i => readLoop_pins (laws i) E (readLoop_cases V' E (maxBuildTrytimes + 1) 0 (pin V' E o'))
  unfold beginRead
  rw [rel.isDataValid, rel.dataPtr, rel.builder]
  split
  · exact ⟨rel, rfl⟩
  · split
    · exact ⟨rel, rfl⟩
    · split
      · exact ⟨rel, rfl⟩
      · generalize readLoop V E (maxBuildTrytimes + 1) 0 (pin V E o) = x at looped same
        generalize readLoop V' E (maxBuildTrytimes + 1) 0 (pin V' E o') = y at looped same kept
        obtain ⟨o₁, ok⟩ := x
        obtain ⟨o₁', ok'⟩ := y
        obtain rfl : ok = ok' := same
        cases ok with
        | true => exact ⟨looped, rfl⟩
        | false => exact ⟨unpin_after_pin sim E laws looped room kept, rfl⟩

theorem beginWrite_rel (rel : BaseRel R o o') (room : ∀ i, 0 ≤ pins i o'.data ∧ pins i o'.data < limit) :
    ResultRel R (beginWrite V E o) (beginWrite V' E o') := by
  obtain ⟨checked, same⟩ := ifNeedRebuild_rel sim E 0 (pin_rel sim E rel room)
  have kept := fun i => ifNeedRebuild_pins (laws i) E 0 (pin V' E o')
  unfold beginWrite
  rw [rel.dataPtr, rel.builder]
  split
  · exact ⟨rel, rfl⟩
  · split
    · exact ⟨rel, rfl⟩
    · generalize ifNeedRebuild V E 0 (pin V E o) = x at checked same
      generalize ifNeedRebuild V' E 0 (pin V' E o') = y at checked same kept
      obtain ⟨o₁, need⟩ := x
      obtain ⟨o₁', need'⟩ := y
      obtain rfl : need = need' := same
      cases need with
      | false => exact ⟨checked, rfl⟩
      | true =>
        obtain ⟨built, same⟩ := buildContent_rel sim E 0 checked
        have kept := fun i => (buildContent_pins (laws i) E 0 o₁').trans (kept i)
        dsimp only at built same kept ⊢
        generalize buildContent V E 0 o₁ = x at built same
        generalize buildContent V' E 0 o₁' = y at built same kept
        obtain ⟨o₂, ok⟩ := x
        obtain ⟨o₂', ok'⟩ := y
        obtain rfl : ok = ok' := same
        cases ok with
        | true => exact ⟨afterRebuildSucc_rel sim E 0 built, rfl⟩
        | false => exact ⟨unpin_after_pin sim E laws built room kept, rfl⟩

omit laws in
theorem endRead_rel (rel : BaseRel R o o') (pinned : ∀ i, 0 < pins i o'.data ∧ pins i o'.data ≤ limit) :
    BaseRel R (endRead V E o) (endRead V' E o') := by
  unfold endRead
  rw [rel.isDataValid]
  split
  · exact unpin_rel sim E rel pinned
  · exact rel

/-! ### Steps and runs -/

variable {s : State D} {s' : State D'}

/-- The second implementation holds a pin for every open access, and there is room for `left` more. -/
def Bounded (pins : ι → D' → Int) (limit : Int) (left : Nat) (s' : State D') : Prop :=
  ∀ i, (s'.opens : Int) ≤ pins i s'.obj.data ∧ pins i s'.obj.data + left ≤ limit

theorem step_rel {left : Nat} (a : Action n K) (rel : StateRel R s s') (bounded : Bounded pins limit (left + 1) s') :
    Option.Rel (StateRel R) (step V s a) (step V' s' a) := by
  have opens := rel.opens
  have room : ∀ i, 0 ≤ pins i s'.obj.data ∧ pins i s'.obj.data < limit := by
    intro i
    have counted := bounded i
    omega
  have pinned : 0 < s'.opens → ∀ i, 0 < pins i s'.obj.data ∧ pins i s'.obj.data ≤ limit := by
    intro nonzero i
    have counted := bounded i
    omega
  cases a with
  | beginRead E =>
    obtain ⟨begun, same⟩ := beginRead_rel sim E laws rel.obj room
    refine .some ⟨begun, ?_, rel.writes⟩
    rw [same, rel.reads]
  | endRead E =>
    rw [step, step, rel.reads]
    split
    · rename_i nonzero
      exact .some ⟨endRead_rel sim E rel.obj (pinned (by rw [State.opens]; omega)), rfl, rel.writes⟩
    · exact .none
  | beginWrite E =>
    obtain ⟨begun, same⟩ := beginWrite_rel sim E laws rel.obj room
    refine .some ⟨begun, rel.reads, ?_⟩
    rw [same, rel.writes]
  | endWrite E =>
    rw [step, step, rel.writes]
    split
    · rename_i nonzero
      exact .some ⟨unpin_rel sim E rel.obj (pinned (by rw [State.opens]; omega)), rel.reads, rfl⟩
    · exact .none
  | modify modifier E => exact .some ⟨(modifyContentByBuilder_rel sim E modifier rel.obj).1, rel.reads, rel.writes⟩
  | setDataValid target =>
    obtain ⟨d', same, obj⟩ := rel.obj
    exact .some ⟨⟨d', same, by rw [obj]; rfl⟩, rel.reads, rel.writes⟩
  | touch touched =>
    rw [step, step, opens]
    split
    · obtain ⟨d', same, obj⟩ := rel.obj
      refine .some ⟨⟨_, sim.store touched (V.content s.obj.data) same, ?_⟩, rel.reads, rel.writes⟩
      rw [obj, sim.content same]
      rfl
    · exact .none
  | kernel k =>
    obtain ⟨d', same, obj⟩ := rel.obj
    exact .some ⟨⟨_, sim.kernel k same, by rw [obj]; rfl⟩, rel.reads, rel.writes⟩

end Functions

theorem step_opens_le {V : Virtuals n D K} {s t : State D} {a : Action n K} (h : step V s a = some t) :
    t.opens ≤ s.opens + 1 := by
  cases a with
  | beginRead E | beginWrite E =>
    cases h
    simp only [State.opens]
    split_ifs <;> omega
  | endRead E | endWrite E | touch touched =>
    obtain ⟨-, ⟨⟩⟩ := Option.ite_none_right_eq_some.mp h
    simp only [State.opens]
    omega
  | modify modifier E | setDataValid target | kernel k =>
    cases h
    exact Nat.le_succ _

theorem Bounded.step {V' : Virtuals n D' K} {pins : ι → D' → Int} {limit : Int} (laws : ∀ i, PinLaws V' (pins i))
    {left : Nat} {s t : State D'} {a : Action n K} (bounded : Bounded pins limit (left + 1) s)
    (h : Cpp.step V' s a = some t) : Bounded pins limit left t := by
  intro i
  have before := bounded i
  have opened := step_opens_le h
  rcases step_pins (laws i) h with ⟨-, change⟩ | ⟨-, closed, kept⟩ <;> omega

/-- Related states, with room for as many pins as there are actions left. -/
def Alike (R : D → D' → Prop) (pins : ι → D' → Int) (limit : Int) (left : Nat) (s : State D) (s' : State D') : Prop :=
  StateRel R s s' ∧ Bounded pins limit left s'

section Run

variable {V : Virtuals n D K} {V' : Virtuals n D' K} {R : D → D' → Prop} {pins : ι → D' → Int} {limit : Int}
variable (sim : Simulates V V' R pins limit) (laws : ∀ i, PinLaws V' (pins i))

include sim laws

theorem step_alike (left : Nat) (s : State D) (s' : State D') (a : Action n K)
    (alike : Alike R pins limit (left + 1) s s') :
    Option.Rel (Alike R pins limit left) (step V s a) (step V' s' a) := by
  obtain ⟨rel, bounded⟩ := alike
  have stepped := step_rel sim laws a rel bounded
  cases second : step V' s' a with
  | none =>
    rw [second] at stepped
    generalize step V s a = next at stepped
    cases stepped
    exact .none
  | some t' =>
    rw [second] at stepped
    generalize step V s a = next at stepped
    cases stepped with
    | some related => exact .some ⟨related, bounded.step laws second⟩

variable {fresh : D → Prop} {fresh' : D' → Prop} {s : State D} {s' : State D'} {actions : List (Action n K)}
  (alike : Alike R pins limit actions.length s s')

include alike

theorem run_alike :
    Option.Rel (StateRel R) ((calls V fresh).run s actions) ((calls V' fresh').run s' actions) := by
  have every : (calls V fresh).Along (fun _ _ => True) s actions := System.along_of_forall (fun _ _ _ => trivial) s
  have ran := System.run_rel_within (S := calls V fresh) (A := calls V' fresh') (f := id)
    (fun left s s' a related _ => step_alike sim laws left s s' a related) alike every
  rw [List.map_id] at ran
  generalize (calls V fresh).run s actions = x at ran ⊢
  generalize (calls V' fresh').run s' actions = y at ran ⊢
  cases ran with
  | some related => exact .some related.1
  | none => exact .none

theorem visits_alike {P : State D → Prop} {Q : State D' → Prop}
    (agree : ∀ s s', StateRel R s s' → (P s ↔ Q s')) :
    (calls V fresh).Visits P s actions ↔ (calls V' fresh').Visits Q s' actions := by
  have visits := System.visits_iff_of_rel (S := calls V fresh) (A := calls V' fresh') (f := id) (step_alike sim laws)
    (fun _ s s' related => agree s s' related.1) alike
  rwa [List.map_id] at visits

theorem along_alike {ok : State D → Action n K → Prop} {ok' : State D' → Action n K → Prop}
    (agree : ∀ s s' a, StateRel R s s' → (ok s a ↔ ok' s' a)) :
    (calls V fresh).Along ok s actions ↔ (calls V' fresh').Along ok' s' actions := by
  have along := System.along_iff_of_rel (S := calls V fresh) (A := calls V' fresh') (f := id) (step_alike sim laws)
    (fun _ s s' a related => agree s s' a related.1) alike
  rwa [List.map_id] at along

end Run

end MemoryUtils.Cpp
