import MemoryUtils.Cpp.Classes

/-!
The replay contract of `PurgeableMemBase`, for any class whose memory is guarded by its pins. A
pin comes before the purged check, so from the check to the matching Unpin the kernel changes
nothing, and what an open access sees is the builder chain replayed over zeros.
-/

namespace MemoryUtils.Cpp
open Lib

variable {n : Nat} {D K : Type}

def Yields (V : Virtuals n D K) (lawful : K → Prop) (between : Nat → D → D) : Prop :=
  ∀ i d, ∃ steps : List K, (∀ k ∈ steps, lawful k) ∧ between i d = steps.foldl V.kernel d

theorem Yields.keep {V : Virtuals n D K} {lawful : K → Prop} {between : Nat → D → D}
    (yields : Yields V lawful between) {P : D → Prop}
    (keep : ∀ d k, lawful k → P d → P (V.kernel d k)) (i : Nat) {d : D} (holds : P d) :
    P (between i d) := by
  obtain ⟨steps, each, same⟩ := yields i d
  rw [same]
  clear same
  induction steps generalizing d with
  | nil => exact holds
  | cons k rest ih =>
    exact ih (keep d k (each k (by simp)) holds) fun k' member => each k' (by simp [member])

/-- How pins guard the memory of a class. `Held m` says that at least `m` pins protect it,
`Intact c` that it holds `c` wherever nothing was lost, `Whole` that nothing is marked lost, and
`Cleared` that no page was missing when it was cleared. Where `tolerant`, a loss stays marked until
a rebuild has succeeded. -/
structure Guard (V : Virtuals n D K) where
  lawful : K → Prop
  Held : Nat → D → Prop
  Intact : Content n → D → Prop
  Whole : D → Prop
  Cleared : D → Prop
  tolerant : Prop
  held_pred : ∀ {m d}, Held (m + 1) d → Held m d
  intact_of_content : ∀ {c d}, V.content d = c → Intact c d
  content_of_whole : ∀ {c d}, Intact c d → Whole d → V.content d = c
  intact_of_lost : ∀ {c d}, tolerant → ¬ Whole d → Intact c d
  kernel_held : ∀ {m d k}, lawful k → Held m d → Held m (V.kernel d k)
  kernel_still : ∀ {m d k}, lawful k → Held (m + 1) d → V.kernel d k = d
  kernel_intact : ∀ {c d k}, lawful k → Intact c d → Intact c (V.kernel d k)
  store_held : ∀ {m d touched c}, Held m d → Held m (V.store d touched c)
  store_content : ∀ {d touched c}, V.content (V.store d touched c) = c
  store_whole : ∀ {d touched c}, Whole d → Whole (V.store d touched c)
  store_lost : ∀ {d touched c}, tolerant → ¬ Whole d → ¬ Whole (V.store d touched c)
  store_cleared : ∀ {d touched c}, Cleared d → Cleared (V.store d touched c)
  clear_held : ∀ {m d}, Held m d → Held m (V.clear d)
  clear_content : ∀ {d}, V.content (V.clear d) = zeros
  clear_lost : ∀ {d}, tolerant → ¬ Whole d → ¬ Whole (V.clear d)
  clear_cleared : ∀ {d}, Cleared (V.clear d)
  rebuilt_held : ∀ {m d}, Held m d → Held m (V.afterRebuildSucc d)
  rebuilt_content : ∀ {d}, V.content (V.afterRebuildSucc d) = V.content d
  rebuilt_whole : ∀ {d}, Cleared d → Whole (V.afterRebuildSucc d)
  pin_held : ∀ {between m d}, Yields V lawful between → Held m d → Held (m + 1) (V.pin between d)
  pin_intact : ∀ {between c d}, Yields V lawful between → Intact c d → Intact c (V.pin between d)
  pin_whole : ∀ {between m d}, Yields V lawful between → Held (m + 1) d → Whole d →
    Whole (V.pin between d)
  unpin_held : ∀ {between m d}, Yields V lawful between → Held (m + 1) d → Held m (V.unpin between d)
  unpin_intact : ∀ {between c d}, Yields V lawful between → Intact c d → Intact c (V.unpin between d)
  unpin_whole : ∀ {between m d}, Yields V lawful between → Held (m + 2) d → Whole d →
    Whole (V.unpin between d)
  isPurged_still : ∀ {between m d}, Yields V lawful between → Held (m + 1) d →
    (V.isPurged between d).1 = d ∧ ((V.isPurged between d).2 = false ↔ Whole d)

variable {V : Virtuals n D K} (G : Guard V)

def Env.Lawful (E : Env n K) (lawful : K → Prop) : Prop := ∀ p, ∀ k ∈ E.kernel p, lawful k

/-! ### One call under a pin -/

section Call

variable {G} {E : Env n K} (lawful : E.Lawful G.lawful)

include lawful

theorem at_yields (point : Nat → Point) : Yields V G.lawful fun i => E.at_ V (point i) :=
  fun i _ => ⟨E.kernel (point i), lawful (point i), rfl⟩

theorem at_still {m : Nat} {d : D} (p : Point) (held : G.Held (m + 1) d) : E.at_ V p d = d :=
  (at_yields lawful fun _ => p).keep (P := fun d' => d' = d)
    (fun _ _ allowed same => by rw [same]; exact G.kernel_still allowed held) 0 rfl

theorem build_still {m : Nat} {d : D} (held : G.Held (m + 1) d) (t j : Nat) (b : Builder) :
    build V E t j b d =
      (V.store (V.store d (E.call t j).touched (E.call t j).mid) (fun _ => false)
        ((E.call t j).outcome b (V.content d)).1, ((E.call t j).outcome b (V.content d)).2) := by
  have after : G.Held (m + 1) (V.store d (E.call t j).touched (E.call t j).mid) := G.store_held held
  simp only [build, at_still lawful _ held, at_still lawful _ after, G.store_content, if_true]

/-- What a run of the chain leaves: the replay if it succeeds, and a marked loss stays marked. -/
structure Ran (G : Guard V) (m : Nat) (chain : List Builder) (d d' : D) (ok : Bool) : Prop where
  held : G.Held m d'
  cleared : G.Cleared d → G.Cleared d'
  lost : G.tolerant → ¬ G.Whole d → ¬ G.Whole d'
  built : ok = true → Replays chain (V.content d) ∧ V.content d' = replayFrom chain (V.content d)

theorem build_ran {m : Nat} {d : D} (held : G.Held (m + 1) d) (t j : Nat) (b : Builder) :
    Ran G (m + 1) [b] d (build V E t j b d).1 (build V E t j b d).2 := by
  rw [build_still lawful held]
  refine ⟨G.store_held (G.store_held held), fun cleared => G.store_cleared (G.store_cleared cleared),
    fun tolerant lost => G.store_lost tolerant (G.store_lost tolerant lost), fun ok => ?_⟩
  have plain : (E.call t j).outcome b (V.content d) = b n (V.content d) := by
    cases fault : (E.call t j).fault with
    | none => simp [UserCall.outcome, fault]
    | some left => simp [UserCall.outcome, fault] at ok
  rw [plain] at ok ⊢
  exact ⟨⟨ok, trivial⟩, G.store_content⟩

theorem buildAll_ran {m : Nat} {d : D} (held : G.Held (m + 1) d) (t j : Nat) (chain : List Builder) :
    Ran G (m + 1) chain d (buildAll V E t j chain d).1 (buildAll V E t j chain d).2 := by
  induction chain generalizing j d with
  | nil => exact ⟨held, id, fun _ lost => lost, by simp [buildAll]⟩
  | cons b rest ih =>
    have first := build_ran lawful held t j b
    rw [buildAll]
    split
    · rename_i d' result
      rw [result] at first
      exact ⟨first.held, first.cleared, first.lost, by simp⟩
    · rename_i d' result
      rw [result] at first
      obtain ⟨⟨succ, -⟩, left⟩ := first.built rfl
      split
      · rename_i empty
        obtain rfl : rest = [] := by simpa using empty
        exact ⟨first.held, first.cleared, first.lost, fun _ => ⟨⟨succ, trivial⟩, left⟩⟩
      · have later := ih first.held (j + 1)
        refine ⟨later.held, fun cleared => later.cleared (first.cleared cleared),
          fun tolerant lost => later.lost tolerant (first.lost tolerant lost), fun ok => ?_⟩
        obtain ⟨replays, content⟩ := later.built ok
        rw [left] at replays content
        exact ⟨⟨succ, replays⟩, content⟩

theorem buildAll_faultless {m : Nat} {d : D} (held : G.Held (m + 1) d)
    (faultless : ∀ t j, (E.call t j).fault = none) (t j : Nat) (chain : List Builder) :
    (V.content (buildAll V E t j chain d).1, (buildAll V E t j chain d).2)
      = MemoryUtils.buildAll chain (V.content d) := by
  induction chain generalizing j d with
  | nil => rfl
  | cons b rest ih =>
    have still := build_still lawful held t j b
    have plain : (E.call t j).outcome b (V.content d) = b n (V.content d) := by
      simp [UserCall.outcome, faultless]
    rw [plain] at still
    have first := build_ran lawful held t j b
    rw [still] at first
    rw [buildAll, MemoryUtils.buildAll, still]
    cases result : b n (V.content d) with
    | mk c ok =>
      rw [result] at first
      cases ok with
      | false => simp [G.store_content]
      | true =>
        by_cases last : rest = []
        · simp [last, G.store_content]
        · have later := ih first.held (j + 1)
          rw [G.store_content] at later
          simpa [last] using later

end Call

/-! ### The object -/

/-- The object has been built: its chain replays, and what is not lost of it is the replay. -/
structure Built (o : Base D) : Prop where
  fits : memsetSucceeds (roundUp n pageSize) n = true
  replays : Replays o.builder (zeros : Content n)
  intact : G.Intact (replay o.builder) o.data
  finished : G.tolerant ∨ o.rebuildFailed = false

def Sound (o : Base D) : Prop := o.buildDataCount ≠ 0 → Built G o

def Ready (o : Base D) : Prop := o.buildDataCount ≠ 0 → G.Whole o.data

def Counted (o : Base D) : Prop := o.buildDataCount = o.rebuilds % 2 ^ 32

/-- The builders do not fail in a rebuild of an object that was built before, unless the class can
tell that the rebuild is incomplete. -/
def Careful (E : Env n K) (o : Base D) : Prop :=
  o.buildDataCount ≠ 0 → G.tolerant ∨ ∀ t j, (E.call t j).fault = none

section Object

variable {G} {E : Env n K} (lawful : E.Lawful G.lawful) {m : Nat} {o : Base D}

include lawful

theorem ifNeedRebuild_still (t : Nat) (held : G.Held (m + 1) o.data) :
    (ifNeedRebuild V E t o).1 = o ∧
      ((ifNeedRebuild V E t o).2 = false ↔ o.buildDataCount ≠ 0 ∧ G.Whole o.data) := by
  obtain ⟨same, answer⟩ := G.isPurged_still (at_yields lawful (.check t)) held
  unfold ifNeedRebuild
  split
  · rename_i zero
    simp [zero]
  · rename_i nonzero
    dsimp only
    rw [same]
    exact ⟨rfl, by simpa [nonzero] using answer⟩

structure Rebuilt (G : Guard V) (m : Nat) (o o' : Base D) (ok : Bool) : Prop where
  held : G.Held m o'.data
  chain : o'.builder = o.builder
  succ : ok = true → memsetSucceeds (roundUp n pageSize) n = true ∧
    Replays o.builder (zeros : Content n) ∧ G.Cleared o'.data ∧ V.content o'.data = replay o.builder ∧
    o'.rebuilds = o.rebuilds + 1 ∧ o'.buildDataCount = (o.buildDataCount + 1) % 2 ^ 32 ∧
    o'.rebuildFailed = false
  fail : ok = false → o'.buildDataCount = o.buildDataCount ∧ o'.rebuilds = o.rebuilds ∧
    (G.tolerant → ¬ G.Whole o.data → ¬ G.Whole o'.data)

theorem buildContent_rebuilt (t : Nat) (held : G.Held (m + 1) o.data) :
    Rebuilt G (m + 1) o (buildContent V E t o).1 (buildContent V E t o).2 := by
  have ran := buildAll_ran lawful (G.clear_held held) t 0 o.builder
  simp only [buildContent, at_still lawful _ held]
  split
  · rename_i fits
    split
    · rename_i d result
      rw [result] at ran
      refine ⟨ran.held, rfl, fun _ => ?_, by simp⟩
      obtain ⟨replays, content⟩ := ran.built rfl
      rw [G.clear_content] at replays content
      exact ⟨fits, replays, ran.cleared G.clear_cleared, content, rfl, rfl, rfl⟩
    · rename_i d result
      rw [result] at ran
      refine ⟨ran.held, rfl, by simp, fun _ => ⟨rfl, rfl, fun tolerant lost => ?_⟩⟩
      exact ran.lost tolerant (G.clear_lost tolerant lost)
  · exact ⟨held, rfl, by simp, fun _ => ⟨rfl, rfl, fun _ lost => lost⟩⟩

theorem buildContent_of_built (t : Nat) (held : G.Held (m + 1) o.data) (chain : o.builder ≠ [])
    (built : Built G o) (faultless : ∀ t j, (E.call t j).fault = none) :
    (buildContent V E t o).2 = true := by
  have again := congrArg Prod.snd (buildAll_faultless lawful (G.clear_held held) faultless t 0 o.builder)
  rw [G.clear_content, buildAll_of_replays chain built.replays] at again
  simp only [buildContent, at_still lawful _ held, built.fits, if_true]
  split
  · rfl
  · rename_i d result
    rw [result] at again
    exact absurd again (by simp)

/-- A failed rebuild leaves the object sound: nothing was built before, or the loss is still marked. -/
theorem Rebuilt.sound_of_fail {o' : Base D} {t : Nat} (held : G.Held (m + 1) o.data)
    (chain : o.builder ≠ []) (sound : Sound G o) (safe : Ready G o ∨ Careful G E o)
    (need : ifNeedRebuild V E t o = (o, true)) (built : buildContent V E t o = (o', false)) :
    Sound G o' := by
  intro nonzero
  have rebuilt := buildContent_rebuilt lawful t held
  rw [built] at rebuilt
  obtain ⟨count, -, lost⟩ := rebuilt.fail rfl
  have before : o.buildDataCount ≠ 0 := fun zero => nonzero (count.trans zero)
  have gone : ¬ G.Whole o.data := by
    intro whole
    have answer := (ifNeedRebuild_still lawful t held).2.mpr ⟨before, whole⟩
    rw [need] at answer
    exact absurd answer (by simp)
  rcases safe with ready | careful
  · exact absurd (ready before) gone
  · rcases careful before with tolerant | faultless
    · have old := sound before
      refine ⟨old.fits, ?_, G.intact_of_lost tolerant (lost tolerant gone), .inl tolerant⟩
      rw [rebuilt.chain]
      exact old.replays
    · have done := buildContent_of_built lawful t held chain (sound before) faultless
      rw [built] at done
      exact absurd done (by simp)

structure Renewed (G : Guard V) (m : Nat) (o o' : Base D) : Prop where
  held : G.Held m o'.data
  chain : o'.builder = o.builder
  whole : G.Whole o'.data
  content : V.content o'.data = replay o.builder
  built : Built G o'
  finished : o'.rebuildFailed = false
  rebuilds : o'.rebuilds = o.rebuilds + 1
  count : o'.buildDataCount = (o.buildDataCount + 1) % 2 ^ 32

theorem renewed_of_succ {o' : Base D} {t : Nat} (held : G.Held (m + 1) o.data)
    (built : buildContent V E t o = (o', true)) :
    Renewed G (m + 1) o (afterRebuildSucc V E t o') := by
  have rebuilt := buildContent_rebuilt lawful t held
  rw [built] at rebuilt
  obtain ⟨fits, replays, cleared, content, rebuilds, count, finished⟩ := rebuilt.succ rfl
  have still : E.at_ V (.rebuilt t) o'.data = o'.data := at_still lawful _ rebuilt.held
  have chain : (afterRebuildSucc V E t o').builder = o.builder := rebuilt.chain
  have shown : V.content (afterRebuildSucc V E t o').data = replay o.builder := by
    rw [afterRebuildSucc, still, G.rebuilt_content]
    exact content
  refine ⟨?_, chain, ?_, shown, ⟨fits, ?_, ?_, .inr finished⟩, finished, rebuilds, count⟩
  · rw [afterRebuildSucc, still]
    exact G.rebuilt_held rebuilt.held
  · rw [afterRebuildSucc, still]
    exact G.rebuilt_whole cleared
  · rw [chain]
    exact replays
  · rw [chain]
    exact G.intact_of_content shown

theorem need_eq {o₁ : Base D} {t : Nat} {need : Bool} (held : G.Held (m + 1) o.data)
    (h : ifNeedRebuild V E t o = (o₁, need)) : o₁ = o := by
  have same := (ifNeedRebuild_still lawful t held).1
  rw [h] at same
  exact same

structure Served (G : Guard V) (m : Nat) (o : Base D) (r : Base D × Bool) : Prop where
  held : G.Held m r.1.data
  chain : r.1.builder = o.builder
  sound : Sound G r.1
  ready : Ready G o → Ready G r.1
  counted : Counted o → Counted r.1
  grows : o.rebuilds ≤ r.1.rebuilds
  granted : r.2 = true → Ready G r.1 ∧ V.content r.1.data = replay r.1.builder ∧
    (Counted o → 0 < r.1.rebuilds) ∧ (G.tolerant ∨ r.1.rebuildFailed = false)

theorem served_of_present {t : Nat} (held : G.Held (m + 1) o.data) (sound : Sound G o)
    (need : ifNeedRebuild V E t o = (o, false)) : Served G (m + 1) o (o, true) := by
  have answer := (ifNeedRebuild_still lawful t held).2
  rw [need] at answer
  obtain ⟨nonzero, whole⟩ := answer.mp rfl
  refine ⟨held, rfl, sound, id, id, le_rfl,
    fun _ => ⟨fun _ => whole, ?_, fun counted => ?_, (sound nonzero).finished⟩⟩
  · exact G.content_of_whole (sound nonzero).intact whole
  · refine Nat.pos_of_ne_zero fun zero => nonzero ?_
    rw [counted, zero]
    rfl

theorem served_of_fail {o' : Base D} {t : Nat} (held : G.Held (m + 1) o.data) (chain : o.builder ≠ [])
    (sound : Sound G o) (safe : Ready G o ∨ Careful G E o) (need : ifNeedRebuild V E t o = (o, true))
    (built : buildContent V E t o = (o', false)) : Served G (m + 1) o (o', false) := by
  have rebuilt := buildContent_rebuilt lawful t held
  rw [built] at rebuilt
  obtain ⟨count, rebuilds, -⟩ := rebuilt.fail rfl
  refine ⟨rebuilt.held, rebuilt.chain, Rebuilt.sound_of_fail lawful held chain sound safe need built,
    fun ready nonzero => ?_, fun counted => ?_, rebuilds.symm.le, by simp⟩
  · have before : o.buildDataCount ≠ 0 := fun zero => nonzero (count.trans zero)
    have answer := (ifNeedRebuild_still lawful t held).2.mpr ⟨before, ready before⟩
    rw [need] at answer
    exact absurd answer (by simp)
  · rw [Counted, count, rebuilds]
    exact counted

omit lawful in
theorem Renewed.counted {o' : Base D} (renewed : Renewed G m o o') (counted : Counted o) :
    Counted o' := by
  rw [Counted, renewed.count, renewed.rebuilds, counted]
  omega

omit lawful in
theorem served_of_renewed {o' : Base D} (renewed : Renewed G m o o') (ok : Bool) :
    Served G m o (o', ok) := by
  refine ⟨renewed.held, renewed.chain, fun _ => renewed.built, fun _ _ => renewed.whole,
    renewed.counted, by rw [renewed.rebuilds]; omega,
    fun _ => ⟨fun _ => renewed.whole, ?_, fun _ => ?_, .inr renewed.finished⟩⟩
  · rw [renewed.chain]
    exact renewed.content
  · rw [renewed.rebuilds]
    omega

omit lawful in
theorem Served.trans {o' : Base D} {r : Base D × Bool} (renewed : Renewed G m o o')
    (served : Served G m o' r) : Served G m o r where
  held := served.held
  chain := served.chain.trans renewed.chain
  sound := served.sound
  ready _ := served.ready fun _ => renewed.whole
  counted counted := served.counted (renewed.counted counted)
  grows := by
    have grown := served.grows
    rw [renewed.rebuilds] at grown
    omega
  granted ok := by
    obtain ⟨ready, content, positive, finished⟩ := served.granted ok
    exact ⟨ready, content, fun counted => positive (renewed.counted counted), finished⟩

theorem readLoop_served {left t : Nat} {o : Base D} {r : Base D × Bool} (loop : ReadLoop V E left t o r)
    (held : G.Held (m + 1) o.data) (chain : o.builder ≠ []) (sound : Sound G o)
    (safe : Ready G o ∨ Careful G E o) : Served G (m + 1) o r := by
  induction loop with
  | exhausted t o => exact ⟨held, rfl, sound, id, id, le_rfl, by simp⟩
  | present need =>
    obtain rfl := need_eq lawful held need
    exact served_of_present lawful held sound need
  | failed need built =>
    obtain rfl := need_eq lawful held need
    exact served_of_fail lawful held chain sound safe need built
  | gaveUp need built last =>
    obtain rfl := need_eq lawful held need
    exact served_of_renewed (renewed_of_succ lawful held built) false
  | again need built rest ih =>
    obtain rfl := need_eq lawful held need
    have renewed := renewed_of_succ lawful held built
    refine .trans renewed (ih renewed.held ?_ (fun _ => renewed.built) (.inl fun _ => renewed.whole))
    rw [renewed.chain]
    exact chain

/-- What a Begin leaves behind for `m` accesses that were open before. -/
structure Begun (G : Guard V) (m : Nat) (o : Base D) (r : Base D × Bool) : Prop where
  held : G.Held (if r.2 then m + 1 else m) r.1.data
  chain : r.1.builder = o.builder
  sound : Sound G r.1
  ready : 0 < m → Ready G o → Ready G r.1
  counted : Counted o → Counted r.1
  grows : o.rebuilds ≤ r.1.rebuilds
  granted : r.2 = true → Ready G r.1 ∧ V.content r.1.data = replay r.1.builder ∧
    (Counted o → 0 < r.1.rebuilds) ∧ (G.tolerant ∨ r.1.rebuildFailed = false)

omit lawful in
/-- Only the memory changes: the object stays sound as long as what is left of it is the replay. -/
theorem Sound.setData {d : D} (sound : Sound G o)
    (intact : o.buildDataCount ≠ 0 → G.Intact (replay o.builder) o.data → G.Intact (replay o.builder) d) :
    Sound G { o with data := d } := by
  intro nonzero
  obtain ⟨fits, replays, before, finished⟩ := sound nonzero
  exact ⟨fits, replays, intact nonzero before, finished⟩

theorem pin_sound (sound : Sound G o) : Sound G (pin V E o) :=
  sound.setData fun _ intact => G.pin_intact (at_yields lawful .pin) intact

theorem pin_ready (held : G.Held (m + 1) o.data) (ready : Ready G o) : Ready G (pin V E o) :=
  fun nonzero => G.pin_whole (at_yields lawful .pin) held (ready nonzero)

theorem unpin_sound (sound : Sound G o) : Sound G (unpin V E o) :=
  sound.setData fun _ intact => G.unpin_intact (at_yields lawful .unpin) intact

theorem unpin_ready (held : G.Held (m + 2) o.data) (ready : Ready G o) : Ready G (unpin V E o) :=
  fun nonzero => G.unpin_whole (at_yields lawful .unpin) held (ready nonzero)

omit lawful in
theorem begun_of_refused (held : G.Held m o.data) (sound : Sound G o) : Begun G m o (o, false) :=
  ⟨held, rfl, sound, fun _ ready => ready, id, le_rfl, by simp⟩

theorem begun_of_granted {o' : Base D} (held : G.Held m o.data)
    (served : Served G (m + 1) (pin V E o) (o', true)) : Begun G m o (o', true) := by
  refine ⟨served.held, served.chain, served.sound, fun positive ready => ?_, served.counted, served.grows,
    served.granted⟩
  obtain ⟨k, rfl⟩ := Nat.exists_eq_succ_of_ne_zero positive.ne'
  exact served.ready (pin_ready lawful held ready)

theorem begun_of_denied {o' : Base D} (held : G.Held m o.data)
    (served : Served G (m + 1) (pin V E o) (o', false)) : Begun G m o (unpin V E o', false) := by
  refine ⟨G.unpin_held (at_yields lawful .unpin) served.held, served.chain,
    unpin_sound lawful served.sound, fun positive ready => ?_, served.counted, served.grows, by simp⟩
  obtain ⟨k, rfl⟩ := Nat.exists_eq_succ_of_ne_zero positive.ne'
  exact unpin_ready lawful served.held (served.ready (pin_ready lawful held ready))

theorem beginRead_begun {r : Base D × Bool} (begun : BeginRead V E o r) (held : G.Held m o.data)
    (sound : Sound G o) (careful : Careful G E o) : Begun G m o r := by
  have pinned := G.pin_held (at_yields lawful .pin) held
  have kept := pin_sound lawful sound
  cases begun with
  | refused => exact begun_of_refused held sound
  | granted valid chain loop =>
    exact begun_of_granted lawful held (readLoop_served lawful loop pinned chain kept (.inr careful))
  | denied chain loop =>
    exact begun_of_denied lawful held (readLoop_served lawful loop pinned chain kept (.inr careful))

theorem beginWrite_begun {r : Base D × Bool} (begun : BeginWrite V E o r) (held : G.Held m o.data)
    (sound : Sound G o) (careful : Careful G E o) : Begun G m o r := by
  have pinned := G.pin_held (at_yields lawful .pin) held
  have kept := pin_sound lawful sound
  cases begun with
  | refused => exact begun_of_refused held sound
  | present chain need =>
    obtain rfl := need_eq lawful pinned need
    exact begun_of_granted lawful held (served_of_present lawful pinned kept need)
  | rebuilt chain need built =>
    obtain rfl := need_eq lawful pinned need
    exact begun_of_granted lawful held (served_of_renewed (renewed_of_succ lawful pinned built) true)
  | failed chain need built =>
    obtain rfl := need_eq lawful pinned need
    exact begun_of_denied lawful held
      (served_of_fail lawful pinned chain kept (.inr careful) need built)

omit lawful in
theorem modify_counters (V : Virtuals n D K) (E : Env n K) (modifier : Option Builder) (o : Base D) :
    (modifyContentByBuilder V E modifier o).1.buildDataCount = o.buildDataCount ∧
      (modifyContentByBuilder V E modifier o).1.rebuilds = o.rebuilds ∧
      (modifyContentByBuilder V E modifier o).1.clears = o.clears := by
  cases modifier with
  | none => exact ⟨rfl, rfl, rfl⟩
  | some b =>
    rw [modifyContentByBuilder]
    split <;> exact ⟨rfl, rfl, rfl⟩

theorem modify_sound {modifier : Option Builder} (held : G.Held (m + 1) o.data) (sound : Sound G o)
    (ready : Ready G o)
    (keeps : ∀ b ∈ modifier, ∀ c, ((E.call 0 0).outcome b c).2 = false → ((E.call 0 0).outcome b c).1 = c) :
    G.Held (m + 1) (modifyContentByBuilder V E modifier o).1.data ∧
      Sound G (modifyContentByBuilder V E modifier o).1 ∧
      Ready G (modifyContentByBuilder V E modifier o).1 := by
  cases modifier with
  | none => exact ⟨held, sound, ready⟩
  | some b =>
    have ran := build_ran lawful held 0 0 b
    have still := build_still lawful held 0 0 b
    have whole : G.Whole o.data → G.Whole (build V E 0 0 b o.data).1 := by
      rw [still]
      exact fun whole => G.store_whole (G.store_whole whole)
    have content : V.content (build V E 0 0 b o.data).1 = ((E.call 0 0).outcome b (V.content o.data)).1 := by
      rw [still]
      exact G.store_content
    have result : (build V E 0 0 b o.data).2 = ((E.call 0 0).outcome b (V.content o.data)).2 := by
      rw [still]
    have shown : o.buildDataCount ≠ 0 → V.content o.data = replay o.builder :=
      fun nonzero => G.content_of_whole (sound nonzero).intact (ready nonzero)
    rw [modifyContentByBuilder]
    split
    · rename_i d failed
      rw [failed] at ran whole content result
      refine ⟨ran.held, fun nonzero => ?_, fun nonzero => whole (ready nonzero)⟩
      obtain ⟨fits, replays, -, finished⟩ := sound nonzero
      refine ⟨fits, replays, G.intact_of_content ?_, finished⟩
      exact content.trans ((keeps b rfl _ result.symm).trans (shown nonzero))
    · rename_i d done
      rw [done] at ran whole
      refine ⟨ran.held, fun nonzero => ?_, fun nonzero => whole (ready nonzero)⟩
      obtain ⟨fits, replays, -, finished⟩ := sound nonzero
      obtain ⟨⟨succ, -⟩, left⟩ := ran.built rfl
      rw [shown nonzero] at succ left
      refine ⟨fits, replays_append.mpr ⟨replays, succ⟩, G.intact_of_content ?_, finished⟩
      exact left.trans (replayFrom_append o.builder b zeros).symm

end Object

/-! ### Runs -/

def UserCall.Keeps (u : UserCall n) (b : Builder) : Prop :=
  ∀ c, (u.outcome b c).2 = false → (u.outcome b c).1 = c

/-- The kernel keeps to its rule, modifiers run inside a write access and keep the content when they
fail, and the builders behave as `building` says in a rebuild. -/
def Usage (lawful : K → Prop) (building : Env n K → Base D → Prop) (s : State D) : Action n K → Prop
  | .beginRead E | .beginWrite E => E.Lawful lawful ∧ building E s.obj
  | .endRead E | .endWrite E => E.Lawful lawful
  | .modify modifier E => E.Lawful lawful ∧ 0 < s.writes ∧ ∀ b ∈ modifier, (E.call 0 0).Keeps b
  | .setDataValid _ | .touch _ => True
  | .kernel k => lawful k

theorem Usage.imp {lawful : K → Prop} {building building' : Env n K → Base D → Prop}
    (imp : ∀ E o, building E o → building' E o) {s : State D} {a : Action n K}
    (usage : Usage lawful building s a) : Usage lawful building' s a := by
  cases a with
  | beginRead E | beginWrite E => exact ⟨usage.1, imp E _ usage.2⟩
  | _ => exact usage

structure Replaying (s : State D) : Prop where
  held : G.Held s.opens s.obj.data
  sound : Sound G s.obj
  ready : 0 < s.opens → Ready G s.obj
  counted : Counted s.obj
  rebuilt : 0 < s.opens → 0 < s.obj.rebuilds

variable {G} {s t : State D} {a : Action n K}

theorem Replaying.content (replaying : Replaying G s) (opened : 0 < s.opens)
    (nonzero : s.obj.buildDataCount ≠ 0) : V.content s.obj.data = replay s.obj.builder :=
  G.content_of_whole (replaying.sound nonzero).intact (replaying.ready opened nonzero)

theorem Replaying.count_ne_zero (replaying : Replaying G s) (opened : 0 < s.opens)
    (few : s.obj.rebuilds < 2 ^ 32) : s.obj.buildDataCount ≠ 0 := by
  have positive := replaying.rebuilt opened
  rw [replaying.counted]
  omega

theorem Replaying.exists_held (replaying : Replaying G s) (opened : 0 < s.opens) :
    ∃ m, s.opens = m + 1 ∧ G.Held (m + 1) s.obj.data := by
  obtain ⟨m, more⟩ := Nat.exists_eq_succ_of_ne_zero opened.ne'
  have held := replaying.held
  rw [more] at held
  exact ⟨m, more, held⟩

theorem Replaying.begun {r : Base D × Bool} {reads writes : Nat} (replaying : Replaying G s)
    (begun : Begun G s.opens s.obj r) (opens : reads + writes = if r.2 then s.opens + 1 else s.opens) :
    Replaying G { obj := r.1, reads := reads, writes := writes } := by
  refine ⟨?_, begun.sound, fun opened => ?_, begun.counted replaying.counted, fun opened => ?_⟩
  · rw [State.opens, opens]
    exact begun.held
  · cases result : r.2 with
    | true => exact (begun.granted result).1
    | false =>
      simp only [State.opens, result, Bool.false_eq_true, if_false] at opened opens
      rw [opens] at opened
      exact begun.ready opened (replaying.ready opened)
  · cases result : r.2 with
    | true => exact (begun.granted result).2.2.1 replaying.counted
    | false =>
      simp only [State.opens, result, Bool.false_eq_true, if_false] at opened opens
      rw [opens] at opened
      exact (replaying.rebuilt opened).trans_le begun.grows

theorem Replaying.unpin {E : Env n K} {reads writes : Nat} (replaying : Replaying G s)
    (lawful : E.Lawful G.lawful) (opens : reads + writes + 1 = s.opens) :
    Replaying G { obj := unpin V E s.obj, reads := reads, writes := writes } := by
  have held := replaying.held
  rw [← opens] at held
  refine ⟨G.unpin_held (at_yields lawful .unpin) held, unpin_sound lawful replaying.sound, fun opened => ?_,
    replaying.counted, fun _ => replaying.rebuilt (by omega)⟩
  obtain ⟨k, more⟩ := Nat.exists_eq_succ_of_ne_zero opened.ne'
  simp only [State.opens] at more
  rw [more] at held
  exact unpin_ready lawful held (replaying.ready (by omega))

theorem Replaying.endRead {E : Env n K} {reads writes : Nat} (replaying : Replaying G s)
    (lawful : E.Lawful G.lawful) (opens : reads + writes + 1 = s.opens) :
    Replaying G { obj := endRead V E s.obj, reads := reads, writes := writes } := by
  cases valid : s.obj.isDataValid with
  | true =>
    have same : Cpp.endRead V E s.obj = Cpp.unpin V E s.obj := by simp [Cpp.endRead, valid]
    rw [same]
    exact replaying.unpin lawful opens
  | false =>
    -- The access ends and its pin stays: one pin more than the open accesses need.
    have same : Cpp.endRead V E s.obj = s.obj := by simp [Cpp.endRead, valid]
    have held := replaying.held
    rw [← opens] at held
    rw [same]
    exact ⟨G.held_pred held, replaying.sound, fun _ => replaying.ready (by omega), replaying.counted,
      fun _ => replaying.rebuilt (by omega)⟩

theorem Replaying.modify {modifier : Option Builder} {E : Env n K} (replaying : Replaying G s)
    (usage : Usage G.lawful (Careful G) s (.modify modifier E)) :
    Replaying G { s with obj := (modifyContentByBuilder V E modifier s.obj).1 } := by
  obtain ⟨lawful, writing, keeps⟩ := usage
  have opened : 0 < s.opens := by
    unfold State.opens
    omega
  obtain ⟨m, more, held⟩ := replaying.exists_held opened
  obtain ⟨held', sound, ready⟩ := modify_sound lawful held replaying.sound (replaying.ready opened) keeps
  obtain ⟨count, rebuilds, -⟩ := modify_counters V E modifier s.obj
  refine ⟨?_, sound, fun _ => ready, ?_, fun _ => ?_⟩
  · unfold State.opens at more ⊢
    rw [more]
    exact held'
  · rw [Counted, count, rebuilds]
    exact replaying.counted
  · rw [rebuilds]
    exact replaying.rebuilt opened

theorem Replaying.setData {d : D} (replaying : Replaying G s) (held : G.Held s.opens d)
    (intact : s.obj.buildDataCount ≠ 0 → G.Intact (replay s.obj.builder) s.obj.data →
      G.Intact (replay s.obj.builder) d)
    (whole : 0 < s.opens → G.Whole s.obj.data → G.Whole d) :
    Replaying G { s with obj := { s.obj with data := d } } :=
  ⟨held, replaying.sound.setData intact, fun opened nonzero => whole opened (replaying.ready opened nonzero),
    replaying.counted, replaying.rebuilt⟩

theorem step_replaying (replaying : Replaying G s) (reliable : Usage G.lawful (Careful G) s a)
    (h : step V s a = some t) : Replaying G t := by
  cases a with
  | beginRead E =>
    obtain ⟨lawful, careful⟩ := reliable
    have begun := beginRead_begun lawful (beginRead_cases V E s.obj) replaying.held replaying.sound careful
    cases h
    refine replaying.begun begun ?_
    rw [State.opens]
    split <;> omega
  | endRead E =>
    obtain ⟨nonzero, ⟨⟩⟩ := Option.ite_none_right_eq_some.mp h
    have opens : s.reads - 1 + s.writes + 1 = s.opens := by
      rw [State.opens]
      omega
    exact replaying.endRead reliable opens
  | beginWrite E =>
    obtain ⟨lawful, careful⟩ := reliable
    have begun := beginWrite_begun lawful (beginWrite_cases V E s.obj) replaying.held replaying.sound careful
    cases h
    refine replaying.begun begun ?_
    rw [State.opens]
    split <;> omega
  | endWrite E =>
    obtain ⟨nonzero, ⟨⟩⟩ := Option.ite_none_right_eq_some.mp h
    refine replaying.unpin reliable ?_
    rw [State.opens]
    omega
  | modify modifier E =>
    cases h
    exact replaying.modify reliable
  | setDataValid target =>
    cases h
    refine ⟨replaying.held, fun nonzero => ?_, replaying.ready, replaying.counted, replaying.rebuilt⟩
    obtain ⟨fits, replays, intact, finished⟩ := replaying.sound nonzero
    exact ⟨fits, replays, intact, finished⟩
  | touch touched =>
    obtain ⟨opened, ⟨⟩⟩ := Option.ite_none_right_eq_some.mp h
    refine replaying.setData (G.store_held replaying.held) (fun nonzero _ => ?_) fun _ whole =>
      G.store_whole whole
    exact G.intact_of_content (G.store_content.trans (replaying.content opened nonzero))
  | kernel k =>
    cases h
    refine replaying.setData (G.kernel_held reliable replaying.held)
      (fun _ intact => G.kernel_intact reliable intact) fun opened whole => ?_
    obtain ⟨m, -, held⟩ := replaying.exists_held opened
    rw [G.kernel_still reliable held]
    exact whole

theorem need_false {E : Env n K} {m t : Nat} {o : Base D} (lawful : E.Lawful G.lawful) (held : G.Held (m + 1) o.data)
    (nonzero : o.buildDataCount ≠ 0) (whole : G.Whole o.data) :
    ifNeedRebuild V E t o = (o, false) := by
  obtain ⟨same, answer⟩ := ifNeedRebuild_still lawful t held
  exact Prod.ext same (answer.mpr ⟨nonzero, whole⟩)

/-- A Begin next to an open access clears nothing, and neither does any other call. -/
theorem step_clears (replaying : Replaying G s) (reliable : Usage G.lawful (Careful G) s a) (opened : 0 < s.opens)
    (nonzero : s.obj.buildDataCount ≠ 0) (h : step V s a = some t) : t.obj.clears = s.obj.clears := by
  have present : ∀ E : Env n K, E.Lawful G.lawful → ∀ t, ifNeedRebuild V E t (pin V E s.obj) = (pin V E s.obj, false) := by
    intro E lawful t
    obtain ⟨m, -, held⟩ := replaying.exists_held opened
    have whole := pin_ready lawful held (replaying.ready opened) nonzero
    exact need_false lawful (G.pin_held (at_yields lawful .pin) held) nonzero whole
  cases a with
  | beginRead E =>
    cases h
    have same := present E reliable.1 0
    have granted : readLoop V E (maxBuildTrytimes + 1) 0 (pin V E s.obj) = (pin V E s.obj, true) := by
      rw [readLoop, same]
    simp only [beginRead, granted]
    repeat' split
    all_goals rfl
  | beginWrite E =>
    cases h
    have same := present E reliable.1 0
    simp only [beginWrite, same]
    repeat' split
    all_goals rfl
  | endRead E =>
    obtain ⟨-, ⟨⟩⟩ := Option.ite_none_right_eq_some.mp h
    simp only [endRead]
    split <;> rfl
  | endWrite E =>
    obtain ⟨-, ⟨⟩⟩ := Option.ite_none_right_eq_some.mp h
    rfl
  | modify modifier E =>
    cases h
    exact (modify_counters V E modifier s.obj).2.2
  | setDataValid target =>
    cases h
    rfl
  | touch touched =>
    obtain ⟨-, ⟨⟩⟩ := Option.ite_none_right_eq_some.mp h
    rfl
  | kernel k =>
    cases h
    rfl

theorem reach_replaying {fresh : D → Prop} (unpinned : ∀ d, fresh d → G.Held 0 d)
    (reach : (calls V fresh).Reach (Usage G.lawful (Careful G)) s) : Replaying G s := by
  refine reach.invariant (fun s initial => ?_) fun s a t replaying reliable h =>
    step_replaying replaying reliable h
  obtain ⟨new, -, count, -, rebuilds, reads, writes⟩ := initial
  have closed : s.opens = 0 := by simp [State.opens, reads, writes]
  refine ⟨?_, fun nonzero => absurd count nonzero, fun opened => ?_, ?_, fun opened => ?_⟩
  · rw [closed]
    exact unpinned _ new
  · omega
  · simp [Counted, count, rebuilds]
  · omega

end MemoryUtils.Cpp
