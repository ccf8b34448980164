import MemoryUtils.Cpp.PinBalance
import MemoryUtils.Cpp.Resize
import MemoryUtils.Common.UxPageTable

/-!
What the refcounts of a `PurgeableMem` promise. An access is pinned where its page table could be
set up, and `UxptePut` finds a pin to take back as long as no resize replaces the entries under an
open access.
-/

namespace MemoryUtils.Cpp
open Lib

namespace PurgeableMem

variable {S : Setup} {pageTable : PageTable}

/-! ### Granted accesses -/

/-- If the action opens an access, it raises the refcount of every page. -/
def GrantPins (S : Setup) (pageTable : PageTable) (s : State (Region S.len)) (a : Action S.len PageStep) : Prop :=
  ∀ t, step (virtuals S pageTable) s a = some t → t.opens = s.opens + 1 →
    ∀ p < S.pages, t.obj.data.refcnt p = s.obj.data.refcnt p + 1

/-- Every page has a pin for each open access, so the kernel leaves it alone. -/
def Protected (S : Setup) (s : State (Region S.len)) : Prop :=
  ∀ p < S.pages, (s.opens : Int) ≤ s.obj.data.refcnt p

theorem step_protected {s t : State (Region S.len)} {a : Action S.len PageStep} (pinned : Protected S s)
    (h : step (virtuals S .ready) s a = some t) : Protected S t := by
  intro p below
  have before := pinned p below
  rcases step_pins (pinLaws S below) h with ⟨-, change⟩ | ⟨-, closed, kept⟩ <;> omega

theorem grantPins_ready (s : State (Region S.len)) (a : Action S.len PageStep) : GrantPins S .ready s a := by
  intro t h opened p below
  rcases step_pins (pinLaws S below) h with ⟨-, change⟩ | ⟨-, closed, -⟩ <;> omega

/-- Without a builder or without data no access is opened and no entry changes. -/
def Closed (s : State (Region S.len)) : Prop :=
  (s.obj.builder = [] ∨ s.obj.dataPtr = false) ∧ s.opens = 0 ∧ ∀ p, s.obj.data.refcnt p = 0

theorem step_closed {s t : State (Region S.len)} {a : Action S.len PageStep} (closed : Closed s)
    (access : a.isAccess = true) (h : step (virtuals S pageTable) s a = some t) : Closed t := by
  obtain ⟨lacks, none_, unpinned⟩ := closed
  obtain ⟨builder, dataPtr, still, data⟩ := step_refused lacks none_ access h
  refine ⟨by rwa [builder, dataPtr], still, fun p => ?_⟩
  rcases data with same | ⟨k, same⟩
  · rw [same]
    exact unpinned p
  · rw [same]
    exact (kernel_refcnt s.obj.data k p).trans (unpinned p)

/-- The first `BeginWrite` builds the content and is granted although it pinned nothing. -/
theorem beginWrite_noStruct (small : S.len < maximumPurgeableMemory) {o : Base (Region S.len)}
    (mapped : o.dataPtr = true) (chain : o.builder = [fill 7]) (unbuilt : o.buildDataCount = 0) :
    (beginWrite (virtuals S .noStruct) {} o).2 = true ∧
      ∀ p, (beginWrite (virtuals S .noStruct) {} o).1.data.refcnt p = o.data.refcnt p := by
  have fits := memset_fits S.len_pos small
  have unpinned : Cpp.pin (virtuals S .noStruct) {} o = o := rfl
  have need : ifNeedRebuild (virtuals S .noStruct) {} 0 o = (o, true) := by simp [ifNeedRebuild, unbuilt]
  have calm : ∀ p d, Env.at_ (virtuals S .noStruct) {} p d = d := fun _ _ => rfl
  have built : ∀ d, build (virtuals S .noStruct) {} 0 0 (fill 7) d
      = ({ d.touch fun _ => false with content := fun _ => 7 }, true) := by
    intro d
    simp only [build, calm]
    simp [virtuals, UserCall.outcome, fill, Region.touch]
  simp [beginWrite, mapped, chain, unpinned, need, buildContent, fits, Cpp.buildAll, built, afterRebuildSucc, calm]
  exact fun p => rfl

/-- Runs of accesses on an object whose page table is there. -/
theorem accesses_pinned_of_ready {s : State (Region S.len)} {actions : List (Action S.len PageStep)}
    (pinned : Protected S s) (accesses : ∀ a ∈ actions, a.isAccess = true) :
    (calls (virtuals S .ready) (Fresh S)).Along (GrantPins S .ready) s actions ∧
      (calls (virtuals S .ready) (Fresh S)).Visits (Protected S) s actions := by
  have along := System.along_of_forall (S := calls (virtuals S .ready) (Fresh S))
    (fun a member _ => accesses a member) s
  have keep := fun (s : State (Region S.len)) (a : Action S.len PageStep) t pinned
    (_ : a.isAccess = true) h => @step_protected S s t a pinned h
  exact ⟨along.imp keep (fun s a _ _ => grantPins_ready s a) pinned, along.keeps keep pinned⟩

/-- Runs of accesses on an object that grants none. -/
theorem accesses_pinned_of_closed {s : State (Region S.len)} {actions : List (Action S.len PageStep)}
    (closed : Closed s) (accesses : ∀ a ∈ actions, a.isAccess = true) :
    (calls (virtuals S pageTable) (Fresh S)).Along (GrantPins S pageTable) s actions ∧
      (calls (virtuals S pageTable) (Fresh S)).Visits (Protected S) s actions := by
  have along := System.along_of_forall (S := calls (virtuals S pageTable) (Fresh S))
    (fun a member _ => accesses a member) s
  have keep := fun (s : State (Region S.len)) (a : Action S.len PageStep) t closed
    (access : a.isAccess = true) h => @step_closed S pageTable s t a closed access h
  refine ⟨along.imp keep (fun s a closed access t h opened => ?_) closed, (along.keeps keep closed).imp ?_⟩
  · have after := keep s a t closed access h
    rw [after.2.1] at opened
    omega
  · intro s closed p _
    rw [closed.2.1, closed.2.2 p]
    rfl

/-- Every run of accesses on every object that the constructor makes pins what it grants, exactly when
the structure of the page table, once there is a table, could be allocated and set up. -/
theorem granted_pinned_iff_table_set_up (supported : S.supportUxpt = true) (small : S.len < maximumPurgeableMemory)
    (c : Creation) :
    (∀ builder r (actions : List (Action S.len PageStep)), Fresh S r → (∀ a ∈ actions, a.isAccess = true) →
      (calls (virtuals S (c.pageTable S.supportUxpt)) (Fresh S)).Along (GrantPins S (c.pageTable S.supportUxpt))
        (construct S c builder r) actions ∧
      (calls (virtuals S (c.pageTable S.supportUxpt)) (Fresh S)).Visits (Protected S)
        (construct S c builder r) actions) ↔
    (c.mapped = true → c.made = true → c.malloced = true ∧ c.uxptMapped = true) := by
  constructor
  · intro all mapped made
    by_contra failed
    have table : c.pageTable S.supportUxpt = .noStruct := by
      simpa [Creation.pageTable, mapped, made, uxPageTable, supported] using failed
    rw [table] at all
    have fresh : Fresh S ⟨zeros, fun _ => {}⟩ := fun _ => rfl
    obtain ⟨⟨first, -⟩, -⟩ := all [fill 7] ⟨zeros, fun _ => {}⟩ [.beginWrite {}] fresh (by simp [Action.isAccess])
    obtain ⟨granted, kept⟩ := @beginWrite_noStruct S small (construct S c [fill 7] ⟨zeros, fun _ => {}⟩).obj
      mapped (by simp [construct, mapped, made]) rfl
    have raised := first _ rfl (by simp only [State.opens, granted, if_true, Nat.add_assoc]) 0
      (S.pages_pos supported)
    simp only [kept] at raised
    omega
  · intro setUp builder r actions fresh accesses
    cases created : c.mapped && c.made with
    | true =>
      obtain ⟨mapped, made⟩ := Bool.and_eq_true_iff.mp created
      obtain ⟨malloced, uxptMapped⟩ := setUp mapped made
      have table : c.pageTable S.supportUxpt = .ready := by
        simp [Creation.pageTable, mapped, made, uxPageTable, malloced, uxptMapped]
      rw [table]
      exact accesses_pinned_of_ready (fun p _ => (fresh p).ge) accesses
    | false =>
      exact accesses_pinned_of_closed ⟨.inl (by simp [construct, created]), rfl, fresh⟩ accesses

/-- A write while a read is open, on an object that got all it asked for. -/
theorem overlapping_write_pinned :
    (calls (virtuals oneByte .ready) (Fresh oneByte)).Visits (Protected oneByte)
      (construct oneByte {} [fill 7] ⟨zeros, fun _ => {}⟩) [.beginRead {}, .beginWrite {}, .endRead {}] :=
  ((granted_pinned_iff_table_set_up (S := oneByte) rfl (by decide) {}).mpr (fun _ _ => ⟨rfl, rfl⟩) [fill 7]
    ⟨zeros, fun _ => {}⟩ _ (fun _ => rfl) (by simp [Action.isAccess])).2

/-- `malloc` of the structure fails. The write is granted, its page has refcount 0, and the kernel takes
the content away from it. -/
theorem granted_write_reclaimed : ∃ t, (calls (virtuals oneByte (Creation.pageTable { malloced := false } true))
      (Fresh oneByte)).run (construct oneByte { malloced := false } [fill 7] ⟨zeros, fun _ => {}⟩)
        [.beginWrite {}, .kernel (.reclaim 0)] = some t ∧
    t.writes = 1 ∧ 0 < oneByte.pages ∧ t.obj.data.refcnt 0 = 0 ∧ t.obj.data.content ⟨0, by decide⟩ = 0 := by
  have seen : ((calls (virtuals oneByte (Creation.pageTable { malloced := false } true)) (Fresh oneByte)).run
      (construct oneByte { malloced := false } [fill 7] ⟨zeros, fun _ => {}⟩)
        [.beginWrite {}, .kernel (.reclaim 0)]).map
      (fun t => (t.writes, t.obj.data.refcnt 0, t.obj.data.content ⟨0, by decide⟩)) = some (1, 0, 0) := by decide
  obtain ⟨t, ran, view⟩ := Option.map_eq_some_iff.mp seen
  simp only [Prod.mk.injEq] at view
  exact ⟨t, ran, view.1, by decide, view.2⟩

/-! ### Unpinning after a resize -/

/-- The refcounts that the loop of `UxptePut` finds. -/
def putsFound {n : Nat} (between : Nat → Region n → Region n) : List Nat → Region n → List Int
  | [], _ => []
  | i :: rest, r => (between i r).refcnt i :: putsFound between rest ((between i r).putUxpteAt i)

def unpinFinds (S : Setup) (pageTable : PageTable) (between : Nat → Region S.len → Region S.len)
    (r : Region S.len) : List Int :=
  match pageTable with
  | .null | .noStruct => []
  | .ready => putsFound between (List.range S.pages) r

end PurgeableMem

/-- The object as `Unpin` finds it, in a call that unpins. -/
def unpinned {n : Nat} {D K : Type} (V : Virtuals n D K) (s : State D) : Action n K → Option (Env n K × Base D)
  | .beginRead E =>
    if !s.obj.isDataValid || !s.obj.dataPtr || s.obj.builder.isEmpty then none
    else
      match readLoop V E (maxBuildTrytimes + 1) 0 (pin V E s.obj) with
      | (_, true) => none
      | (o, false) => some (E, o)
  | .endRead E => if 0 < s.reads ∧ s.obj.isDataValid = true then some (E, s.obj) else none
  | .beginWrite E =>
    if !s.obj.dataPtr || s.obj.builder.isEmpty then none
    else
      match ifNeedRebuild V E 0 (pin V E s.obj) with
      | (_, false) => none
      | (o, true) =>
        match buildContent V E 0 o with
        | (_, true) => none
        | (o, false) => some (E, o)
  | .endWrite E => if 0 < s.writes then some (E, s.obj) else none
  | .modify _ _ | .setDataValid _ | .touch _ | .kernel _ => none

/-- A Begin that unpins has pinned first, and an End has its own access. -/
theorem unpinned_pins {n : Nat} {D K : Type} {V : Virtuals n D K} {pins : D → Int} (laws : PinLaws V pins)
    {s : State D} {a : Action n K} {E : Env n K} {o : Base D} (found : unpinned V s a = some (E, o)) :
    pins s.obj.data - s.opens + 1 ≤ pins o.data := by
  cases a with
  | beginRead F =>
    have pinned := pin_pins laws F s.obj
    have looped := readLoop_pins laws F (readLoop_cases V F (maxBuildTrytimes + 1) 0 (pin V F s.obj))
    simp only [unpinned] at found
    split at found
    · cases found
    · split at found
      · cases found
      · rename_i result
        cases found
        rw [result] at looped
        dsimp only at looped
        omega
  | beginWrite F =>
    have pinned := pin_pins laws F s.obj
    simp only [unpinned] at found
    split at found
    · cases found
    · split at found
      · cases found
      · rename_i need
        split at found
        · cases found
        · rename_i built
          have rebuilt := rebuild_pins laws F need built
          cases found
          omega
  | endRead F =>
    obtain ⟨⟨nonzero, -⟩, same⟩ := Option.ite_none_right_eq_some.mp found
    cases same
    unfold State.opens
    omega
  | endWrite F =>
    obtain ⟨nonzero, same⟩ := Option.ite_none_right_eq_some.mp found
    cases same
    unfold State.opens
    omega
  | modify | setDataValid | touch | kernel => cases found

namespace PurgeableMem

theorem putsFound_pos {n : Nat} {between : Nat → Region n → Region n} {pages : List Nat} {r : Region n}
    (same : ∀ p ∈ pages, ∀ i r, (between i r).refcnt p = r.refcnt p) (once : pages.Nodup)
    (pinned : ∀ p ∈ pages, 0 < r.refcnt p) : ∀ found ∈ putsFound between pages r, 0 < found := by
  induction pages generalizing r with
  | nil => simp [putsFound]
  | cons i rest ih =>
    obtain ⟨fresh, once⟩ := List.nodup_cons.mp once
    obtain ⟨first, later⟩ := List.forall_mem_cons.mp pinned
    obtain ⟨here, elsewhere⟩ := List.forall_mem_cons.mp same
    refine List.forall_mem_cons.mpr ⟨?_, ih elsewhere once fun p member => ?_⟩
    · rw [here]
      exact first
    · have other : p ≠ i := fun same => fresh (same ▸ member)
      have before := later p member
      rw [Region.putUxpteAt_refcnt, elsewhere p member, if_neg other]
      omega

/-- The refcounts of the entries that `UxpteSub` is applied to in a call. -/
def subsFound (x : Object resizable) : Call resizable → List Int
  | .access a =>
    match unpinned (resizable.virtuals x.index) x.state (a x.index) with
    | none => []
    | some (E, o) =>
      unpinFinds x.index.setup x.index.pageTable (fun i => E.at_ (resizable.virtuals x.index) (.unpin i)) o.data
  | .resizeData _ _ => []

/-- The calls are accesses and resizes. The page table of a new size is set up, and no size is changed
under an access. -/
def ClosedResize (x : Object resizable) : Call resizable → Prop
  | .access a => (a x.index).isAccess = true
  | .resizeData newSize c =>
    (c.made = true ∧ c.malloced = true ∧ c.uxptMapped = true) ∧
      (0 < newSize → newSize < maximumPurgeableMemory → x.state.opens = 0)

/-- The entries hold a pin for each open access, or no access can be opened. -/
def Covered (x : Object resizable) : Prop :=
  x.index.pageTable = .ready ∧ Protected x.index.setup x.state ∨ @Closed x.index.setup x.state

theorem Covered.protects {x : Object resizable} (covered : Covered x) : Protected x.index.setup x.state := by
  rcases covered with ⟨-, pinned⟩ | ⟨-, none_, unpinned⟩
  · exact pinned
  · intro p _
    rw [none_, unpinned p]
    rfl

theorem step_covered {x y : Object resizable} {a : Call resizable} (covered : Covered x)
    (closed : ClosedResize x a) (h : resizable.calls.step x a = some y) : Covered y := by
  cases a with
  | access a =>
    obtain ⟨t, stepped, rfl⟩ := Option.map_eq_some_iff.mp h
    rcases covered with ⟨ready, pinned⟩ | shut
    · refine .inl ⟨ready, ?_⟩
      obtain ⟨⟨S, pageTable⟩, s⟩ := x
      subst ready
      exact step_protected pinned stepped
    · exact .inr (step_closed shut closed stepped)
  | resizeData newSize c =>
    obtain ⟨⟨made, malloced, uxptMapped⟩, unopened⟩ := closed
    cases h
    rw [resizeData]
    split
    · rename_i accepted
      have none_ := unopened accepted.1 accepted.2
      cases mapped : c.mapped with
      | true =>
        refine .inl ⟨?_, fun p _ => ?_⟩
        · simp [resizable, createPurgeableData, Creation.pageTable, mapped, made, uxPageTable, malloced, uxptMapped]
        · exact (Int.ofNat_eq_zero.mpr none_).le
      | false => exact .inr ⟨.inr mapped, none_, fun _ => rfl⟩
    · exact covered

theorem Covered.subs_pos {x : Object resizable} (covered : Covered x) (a : Call resizable) :
    ∀ found ∈ subsFound x a, 0 < found := by
  cases a with
  | resizeData newSize c => simp [subsFound]
  | access a =>
    obtain ⟨⟨S, pageTable⟩, s⟩ := x
    simp only [subsFound]
    split
    · simp
    · rename_i E o found
      cases pageTable with
      | null | noStruct => simp [unpinFinds]
      | ready =>
        refine putsFound_pos (fun p member i r => ?_) List.nodup_range fun p member => ?_
        · exact at_pins (pinLaws S (List.mem_range.mp member)) E (.unpin i) r
        have below : p < S.pages := List.mem_range.mp member
        have enough := unpinned_pins (pinLaws S below) found
        have pinned := covered.protects p below
        dsimp only at pinned
        omega

/-- As long as sizes change between accesses only, `UxpteSub` finds a refcount to take from, and no entry
goes below zero, where the reclaim marker is. -/
theorem subs_find_pins {x : Object resizable} (initial : resizable.calls.init x) (ready : x.index.pageTable = .ready)
    {actions : List (Call resizable)} (closed : resizable.calls.Along ClosedResize x actions) :
    resizable.calls.Along (fun x a => ∀ found ∈ subsFound x a, 0 < found) x actions ∧
      resizable.calls.Visits (fun x => ∀ p < x.index.setup.pages, 0 ≤ Region.refcnt x.state.obj.data p) x actions := by
  have start : Covered x := by
    obtain ⟨fresh, -, -, -, -, reads, writes⟩ := initial
    refine .inl ⟨ready, fun p _ => ?_⟩
    have none_ : x.state.opens = 0 := by simp [State.opens, reads, writes]
    rw [none_]
    exact (fresh p).ge
  refine ⟨closed.imp (fun _ _ _ => step_covered) (fun x a covered _ => covered.subs_pos a) start, ?_⟩
  refine (closed.keeps (fun _ _ _ => step_covered) start).imp fun x covered p below => ?_
  have pinned := covered.protects p below
  omega

def freshObject : Object resizable := ⟨⟨oneByte, .ready⟩, freshMem⟩

def closedResize (x : Object resizable) : Call resizable → Bool
  | .access a => (a x.index).isAccess
  | .resizeData _ c => c.made && c.malloced && c.uxptMapped && x.state.opens == 0

theorem closedResize_sound (x : Object resizable) (a : Call resizable) (h : closedResize x a = true) :
    ClosedResize x a := by
  cases a with
  | access a => exact h
  | resizeData newSize c =>
    simp only [closedResize, Bool.and_eq_true, beq_iff_eq] at h
    exact ⟨⟨h.1.1.1, h.1.1.2, h.1.2⟩, fun _ _ => h.2⟩

theorem resize_between_accesses_finds_pins :
    resizable.calls.Along (fun x a => ∀ found ∈ subsFound x a, 0 < found) freshObject
      [.access fun _ => .beginRead {}, .access fun _ => .endRead {}, .resizeData 2 {},
        .access fun _ => .beginWrite {}, .access fun _ => .endWrite {}] :=
  (subs_find_pins (x := freshObject) freshMem_init rfl
    (System.along_of_checks closedResize_sound (by decide))).1

/-- A resize inside a read. `EndRead` takes a pin from an entry that has none: in its 64 bits that is the
reclaim marker. -/
theorem endRead_after_resize_forges_marker :
    resizable.calls.init freshObject ∧
    (∃ x, resizable.calls.run freshObject [.access fun _ => .beginRead {}, .resizeData 1 {}] = some x ∧
      subsFound x (.access fun _ => .endRead {}) = [0] ∧
      ∃ y, resizable.calls.step x (.access fun _ => .endRead {}) = some y ∧ y.state.obj.data.refcnt 0 = -1) ∧
    UxPageTable.uxpteSub 0 Uxpte.uxpteRefcntOne = Uxpte.uxpteUnderReclaim := by
  refine ⟨freshMem_init, ?_, rfl⟩
  have seen : (resizable.calls.run freshObject [.access fun _ => .beginRead {}, .resizeData 1 {}]).map
      (fun x => (subsFound x (.access fun _ => .endRead {}),
        (resizable.calls.step x (.access fun _ => .endRead {})).map fun y => Region.refcnt y.state.obj.data 0))
      = some ([0], some (-1)) := by decide
  obtain ⟨x, ran, view⟩ := Option.map_eq_some_iff.mp seen
  obtain ⟨found, after⟩ := Prod.mk.inj view
  obtain ⟨y, stepped, below⟩ := Option.map_eq_some_iff.mp after
  exact ⟨x, ran, found, y, stepped, below⟩

end PurgeableMem

end MemoryUtils.Cpp
