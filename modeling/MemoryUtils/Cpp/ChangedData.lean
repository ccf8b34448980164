import MemoryUtils.Cpp.Refinement
import MemoryUtils.Cpp.ResizedContent

/-!
`ChangeAshmemData`: a client hands over an ashmem file with the content already in it. The change
counts as a build, so the next access takes the content as it finds it; the builders stay, and it is
their content that comes back after a purge.
-/

namespace MemoryUtils.Cpp
open Lib

variable {n : Nat} {D K : Type}

section Granted

variable {V : Virtuals n D K} {G : Guard V} {E : Env n K} {m : Nat} {o : Base D}

theorem Built.pin (built : Built G o) (lawful : E.Lawful G.lawful) : Built G (pin V E o) :=
  ⟨built.fits, built.replays, G.pin_intact (at_yields lawful .pin) built.intact, built.finished⟩

/-- A write access to an object that can be rebuilt is granted, after one rebuild at most. -/
theorem beginWrite_of_built (lawful : E.Lawful G.lawful) (faultless : ∀ t j, (E.call t j).fault = none)
    (held : G.Held m o.data) (mapped : o.dataPtr = true) (chain : o.builder ≠ []) (built : Built G o) :
    ∃ o', beginWrite V E o = (o', true) ∧ o'.rebuilds ≤ o.rebuilds + 1 := by
  have pinned : G.Held (m + 1) (pin V E o).data := G.pin_held (at_yields lawful .pin) held
  have present : o.builder.isEmpty = false := by simpa using chain
  have done := buildContent_of_built lawful 0 pinned chain (built.pin lawful) faultless
  rcases need : ifNeedRebuild V E 0 (pin V E o) with ⟨o₁, _ | _⟩
  · obtain rfl := need_eq lawful pinned need
    exact ⟨pin V E o, by simp [beginWrite, mapped, present, need], Nat.le_succ _⟩
  · obtain rfl := need_eq lawful pinned need
    rcases result : buildContent V E 0 (pin V E o) with ⟨o₂, _ | _⟩
    · rw [result] at done
      cases done
    · have renewed := renewed_of_succ lawful pinned result
      exact ⟨_, by simp [beginWrite, mapped, present, need, result], renewed.rebuilds.le⟩

end Granted

namespace PurgeableAshMem

/-- What stays fixed between two changes of the memory. `isSupport_` is never taken back. -/
structure FileIndex where
  dataSizeInput : Nat
  ashmemFd : Int
  isSupport : Bool

/-- Here every creation is told whether its file is purgeable. -/
@[reducible] def files : Resizable AshmemStep (AshmemCreation × Bool) where
  Index := FileIndex
  size i := i.dataSizeInput
  Data i := Ashmem i.dataSizeInput
  virtuals i := virtuals i.dataSizeInput i.isSupport i.ashmemFd
  Fresh i := Fresh i.isSupport i.ashmemFd
  createPurgeableData i dataSizeInput _ _ c :=
    let isSupport := i.isSupport || c.2
    let created := createPurgeableData isSupport ⟨i.dataSizeInput, i.ashmemFd⟩ dataSizeInput c.1
    ⟨⟨created.1.dataSizeInput, created.1.ashmemFd, if created.2.2 then isSupport else i.isSupport⟩, created.2⟩

/-- The arguments of `ChangeAshmemData`: a file that maybe was purged before, `data` that may be null,
and the answer of the system to `ASHMEM_GET_PURGEABLE`. -/
structure Handed (size : Nat) where
  fd : Int
  data : Bool := true
  content : Content size
  purged : Bool := false
  purgeable : Bool := true

/-- `ASHMEM_SET_PURGEABLE` pins the file once, and no purge comes between it and `Unpin`. The ghost
counts the change as a build because `buildDataCount_` does. -/
def handOver {size : Nat} (given : Handed size) (isSupport : Bool) (s : State D) : State (Ashmem size) where
  obj :=
    { s.obj.moved (unpin isSupport given.fd (fun _ d => d)
        { content := given.content, pinCount := 1, purged := given.purged }) given.data with
      buildDataCount := (s.obj.buildDataCount + 1) % 2 ^ 32
      rebuilds := s.obj.rebuilds + 1 }
  reads := s.reads
  writes := s.writes

/-- Whether the old memory can be unmapped makes no difference to the object. -/
def changeAshmemData (size : Nat) (given : Handed size) (x : Object files) : Object files × Bool :=
  if 0 < size ∧ size < maximumPurgeableMemory then
    let isSupport := x.index.isSupport || given.purgeable
    (⟨⟨size, given.fd, isSupport⟩, handOver given isSupport x.state⟩, true)
  else (x, false)

inductive FileCall where
  | call (c : Call files)
  | changeAshmemData (size : Nat) (given : Handed size)

def fileCalls : System (Object files) FileCall where
  init := files.calls.init
  step x
    | .call c => files.calls.step x c
    | .changeAshmemData size given => some (changeAshmemData size given x).1

/-! ### One change -/

theorem handOver_counted {size : Nat} {given : Handed size} {isSupport : Bool} {s : State D}
    (counted : Counted s.obj) : Counted (handOver given isSupport s).obj := by
  show (s.obj.buildDataCount + 1) % 2 ^ 32 = (s.obj.rebuilds + 1) % 2 ^ 32
  rw [counted]
  omega

theorem fileStep_counted {x y : Object files} {c : FileCall} (counted : Counted x.state.obj)
    (h : fileCalls.step x c = some y) : Counted y.state.obj := by
  cases c with
  | call c =>
    cases c with
    | access a =>
      obtain ⟨t, stepped, rfl⟩ := Option.map_eq_some_iff.mp h
      exact step_counted counted stepped
    | resizeData newSize c =>
      obtain rfl : resizeData files newSize c x = y := Option.some.inj h
      generalize result : resizeData files newSize c x = y
      unfold resizeData at result
      split at result
      all_goals
        subst result
        exact counted
  | changeAshmemData size given =>
    obtain rfl : (changeAshmemData size given x).1 = y := Option.some.inj h
    generalize result : changeAshmemData size given x = y
    unfold changeAshmemData at result
    split at result
    · subst result
      exact handOver_counted counted
    · subst result
      exact counted

theorem reach_counted {ok : Object files → FileCall → Prop} {x : Object files} (reach : fileCalls.Reach ok x) :
    Counted x.state.obj := by
  refine reach.invariant (fun x initial => ?_) fun _ _ _ counted _ => fileStep_counted counted
  obtain ⟨-, -, count, -, rebuilds, -, -⟩ := initial
  rw [Counted, count, rebuilds]
  rfl

theorem changeAshmemData_eq {x : Object files} {size : Nat} {given : Handed size} {s : State (Ashmem size)}
    (purgeable : given.purgeable = true)
    (changed : changeAshmemData size given x = (⟨⟨size, given.fd, true⟩, s⟩, true)) :
    0 < size ∧ size < maximumPurgeableMemory ∧ s = handOver given true x.state := by
  unfold changeAshmemData at changed
  split at changed
  · rename_i accepted
    rw [purgeable, Bool.or_true] at changed
    cases changed
    exact ⟨accepted.1, accepted.2, rfl⟩
  · exact absurd (congrArg Prod.snd changed) (by simp)

/-- A memory that nobody uses yet, and that holds the replay unless it is marked as purged. -/
theorem replaying_of_file {size : Nat} {isSupport : Bool} {fd : Int} {s : State (Ashmem size)}
    (closed : s.opens = 0) (counted : Counted s.obj) (positive : 0 < size) (small : size < maximumPurgeableMemory)
    (replays : Replays s.obj.builder (zeros : Content size)) (held : Held isSupport fd 0 s.obj.data)
    (intact : s.obj.data.purged = false → s.obj.data.content = replay s.obj.builder) :
    Replaying (guard size isSupport fd) s := by
  refine ⟨?_, fun _ => ⟨memset_fits positive small, replays, intact, .inl trivial⟩, fun opened => ?_, counted,
    fun opened => ?_⟩
  · rw [closed]
    exact held
  · omega
  · omega

/-! ### What the clients see after a change -/

/-- Whatever the accesses and the kernel do from `s` on, an open access sees `c` with the modifications
made since. -/
def KeepsContent (fd : Int) (c : Content n) (s : State (Ashmem n)) : Prop :=
  ∀ actions t, (calls (virtuals n true fd) (Fresh true fd)).Along (Usage lawful fun _ _ => True) s actions →
    (calls (virtuals n true fd) (Fresh true fd)).run s actions = some t → t.obj.rebuilds < 2 ^ 32 → 0 < t.opens →
    t.obj.data.content = replayFrom (modifications
      ((calls (virtuals n true fd) (Fresh true fd)).events (plainEvent (virtuals n true fd)) s actions)) c

theorem keepsContent_of_replaying {fd : Int} {s : State (Ashmem n)} (first : Replaying (guard n true fd) s) :
    KeepsContent fd (replay s.obj.builder) s := by
  intro actions t along ran few opened
  have careful : (calls (virtuals n true fd) (Fresh true fd)).Along
      (Usage (guard n true fd).lawful (Careful (guard n true fd))) s actions :=
    along.imp (P := fun _ => True) (fun _ _ _ _ _ _ => trivial)
      (fun s a _ => Usage.imp fun E o _ _ => .inl trivial) trivial
  exact (first.plainRun careful ran few).content opened

/-- A purge before the next write access leaves the clients with the content of the builders. -/
theorem KeepsContent.eq_replay {fd : Int} {c : Content n} {s p : State (Ashmem n)} (kept : KeepsContent fd c s)
    (lost : step (virtuals n true fd) s (.kernel .purge) = some p) (replaying : Replaying (guard n true fd) p)
    (mapped : p.obj.dataPtr = true) (chain : p.obj.builder ≠ []) (few : p.obj.rebuilds + 1 < 2 ^ 32)
    (nonzero : p.obj.buildDataCount ≠ 0) : c = replay p.obj.builder := by
  have lawful : ({} : Env n AshmemStep).Lawful (guard n true fd).lawful := fun _ => undisturbed rfl
  obtain ⟨o, begun, grown⟩ := beginWrite_of_built lawful (fun _ _ => rfl) replaying.held mapped chain
    (replaying.sound nonzero)
  have content := replaying.shown lawful (fun _ => .inl trivial) (.inr begun)
  have same : o.builder = p.obj.builder := by
    have left := beginWrite_begun lawful (beginWrite_cases _ _ _) replaying.held replaying.sound fun _ => .inl trivial
    rw [begun] at left
    exact left.chain
  have opened : step (virtuals n true fd) p (.beginWrite {})
      = some { obj := o, reads := p.reads, writes := p.writes + 1 } := by
    simp only [step, begun, if_true]
  have seen := kept [.kernel .purge, .beginWrite {}] { obj := o, reads := p.reads, writes := p.writes + 1 }
    ⟨rfl, fun _ _ => ⟨⟨lawful, trivial⟩, fun _ _ => trivial⟩⟩
    ((System.run_cons_of_step lost _).trans (System.run_cons_of_step opened _)) (grown.trans_lt few)
    (Nat.lt_add_left _ (Nat.succ_pos _))
  have events : (calls (virtuals n true fd) (Fresh true fd)).events (plainEvent (virtuals n true fd)) s
      [.kernel .purge, .beginWrite {}] = [.access .openWrite] := by
    rw [System.events, show (calls (virtuals n true fd) (Fresh true fd)).step s (.kernel .purge) = some p from lost]
    simp [System.events, plainEvent, begun, calls, opened]
  rw [events] at seen
  exact seen.symm.trans (content.trans (congrArg replay same))

/-- After any history that left no access open, a purgeable file handed over keeps its content for the
clients exactly if it is what the builders would build. -/
theorem handed_content_kept_iff {x : Object files} (reach : fileCalls.Reach (fun _ _ => True) x)
    (closed : x.state.opens = 0) {size : Nat} {given : Handed size} {s : State (Ashmem size)}
    (changed : changeAshmemData size given x = (⟨⟨size, given.fd, true⟩, s⟩, true))
    (purgeable : given.purgeable = true) (opened : 0 < given.fd) (mapped : given.data = true)
    (chain : x.state.obj.builder ≠ [])
    (replays : Replays x.state.obj.builder (zeros : Content size)) (few : x.state.obj.rebuilds + 2 < 2 ^ 32) :
    KeepsContent given.fd given.content s ↔ given.content = replay x.state.obj.builder := by
  obtain ⟨positive, small, rfl⟩ := changeAshmemData_eq purgeable changed
  have counted : Counted (handOver given true x.state).obj := handOver_counted (reach_counted reach)
  have data : (handOver given true x.state).obj.data
      = { content := given.content, pinCount := 0, purged := given.purged } := by
    simp [handOver, Base.moved, unpin, opened]
  constructor
  · intro kept
    have lost : kernel (handOver given true x.state).obj.data .purge
        = { content := zeros, pinCount := 0, purged := true } := by
      rw [data]
      rfl
    refine kept.eq_replay rfl ?_ mapped chain few ?_
    · refine replaying_of_file closed counted positive small replays ?_ fun found => ?_
      · show Held true given.fd 0 (kernel (handOver given true x.state).obj.data .purge)
        rw [lost, Held, if_pos ⟨rfl, opened⟩]
        exact le_rfl
      · have unpurged : (kernel (handOver given true x.state).obj.data .purge).purged = false := found
        rw [lost] at unpurged
        cases unpurged
    · show (x.state.obj.buildDataCount + 1) % 2 ^ 32 ≠ 0
      rw [reach_counted reach]
      omega
  · intro same
    have first : Replaying (guard size true given.fd) (handOver given true x.state) := by
      refine replaying_of_file closed counted positive small replays ?_ fun _ => ?_
      · rw [data, Held, if_pos ⟨rfl, opened⟩]
        exact le_rfl
      · rw [data]
        exact same
    have kept := keepsContent_of_replaying first
    rw [same]
    exact kept

/-! ### A file of sevens, a file of zeros -/

def filledFile : Object files := ⟨⟨1, 3, true⟩, freshAsh⟩

def readOnce : List FileCall := [.call (.access fun _ => .beginRead {}), .call (.access fun _ => .endRead {})]

def twoBytes (v : UInt8) : Handed 2 where
  fd := 4
  content := fun _ => v

theorem sevens_kept_zeros_lost : ∃ x, fileCalls.run filledFile readOnce = some x ∧ x.state.obj.buildDataCount = 1 ∧
    KeepsContent 4 (fun _ => 7) (handOver (twoBytes 7) true x.state) ∧
    ¬ KeepsContent 4 (fun _ => 0) (handOver (twoBytes 0) true x.state) := by
  obtain ⟨x, ran, view⟩ : ∃ x, fileCalls.run filledFile readOnce = some x ∧
      (x.index.isSupport, x.state.opens, x.state.obj.buildDataCount, x.state.obj.rebuilds) = (true, 0, 1, 1) :=
    Option.map_eq_some_iff.mp (by decide)
  have builders : (fileCalls.run filledFile readOnce).map (fun x => x.state.obj.builder) = some [fill 7] := rfl
  rw [ran, Option.map_some, Option.some.injEq] at builders
  simp only [Prod.mk.injEq] at view
  obtain ⟨supported, closed, count, few⟩ := view
  have initial : fileCalls.init filledFile := freshAsh_init
  have reach : fileCalls.Reach (fun _ _ => True) x :=
    .of_run readOnce (.init initial) (System.along_of_forall (fun _ _ _ => trivial) _) ran
  have changed : ∀ v, changeAshmemData 2 (twoBytes v) x
      = (⟨⟨2, 4, true⟩, handOver (twoBytes v) true x.state⟩, true) := by
    intro v
    unfold changeAshmemData
    rw [if_pos (by decide), supported]
    rfl
  have kept : ∀ v, KeepsContent 4 (fun _ => v) (handOver (twoBytes v) true x.state) ↔
      (fun _ => v : Content 2) = replay x.state.obj.builder := fun v =>
    handed_content_kept_iff reach closed (changed v) rfl (by show (0 : Int) < 4; decide) rfl (by simp [builders])
      (by rw [builders]; exact ⟨rfl, trivial⟩) (by omega)
  refine ⟨x, ran, count, ?_, ?_⟩
  · rw [kept, builders]
    rfl
  · rw [kept, builders]
    intro same
    exact absurd (congrFun same 0) (by decide)

end PurgeableAshMem

end MemoryUtils.Cpp
