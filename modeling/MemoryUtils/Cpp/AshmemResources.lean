import MemoryUtils.Lib.Custody
import MemoryUtils.Cpp.Resize

/-!
Who closes the files and unmaps the memory of a `PurgeableAshMem`. `ResizeData` and
`ChangeAshmemData` release what the object holds before they replace it, and the destructor
releases the rest, unless `isChange_` says that the caller of `ChangeAshmemData` will.
-/

namespace MemoryUtils.Cpp.AshmemResources
open Lib

/-- The fields that say what the object holds. -/
structure Holder where
  dataPtr : Option Nat := none
  ashmemFd : Int := -1
  dataSizeInput : Nat := 0
  isChange : Bool := false

/-- System calls that succeeded, and `given` for what `ChangeAshmemData` was called with. -/
inductive Event where
  | ashmemCreate (fd : Int)
  | close (fd : Int)
  | mmap (data size : Nat)
  | munmap (data size : Nat)
  | given (fd : Int) (data : Option Nat)

/-- How the system answers while memory is created; `data` is the address `mmap` returns. -/
structure Answer extends AshmemCreation where
  data : Nat

def createPurgeableData (r : Answer) (o : Holder) : Holder × List Event :=
  if o.dataSizeInput = 0 then (o, [])
  else
    let size := roundUp o.dataSizeInput pageSize
    if r.fd < 0 then (o, [])
    else if r.protSet = false then (o, [.ashmemCreate r.fd, .close r.fd])
    else if r.mapped = false then
      ({ o with ashmemFd := r.fd, dataPtr := none }, [.ashmemCreate r.fd, .close r.fd])
    else
      ({ o with ashmemFd := r.fd, dataPtr := some r.data }, [.ashmemCreate r.fd, .mmap r.data size])

/-- What `ResizeData` and `ChangeAshmemData` begin with. -/
def unmapData (o : Holder) : Holder × List Event :=
  match o.dataPtr with
  | none => (o, [])
  | some data =>
    ({ o with dataPtr := none },
      .munmap data (roundUp o.dataSizeInput pageSize) :: if o.ashmemFd > 0 then [.close o.ashmemFd] else [])

def acceptsSize (size : Nat) : Bool := !decide (size = 0 ∨ size ≥ maximumPurgeableMemory)

def resizeData (newSize : Nat) (r : Answer) (o : Holder) : Holder × List Event :=
  if !acceptsSize newSize then (o, [])
  else
    let freed := unmapData o
    let created := createPurgeableData r { freed.1 with dataSizeInput := newSize }
    (created.1, freed.2 ++ created.2)

def changeAshmemData (size : Nat) (fd : Int) (data : Option Nat) (o : Holder) : Holder × List Event :=
  if !acceptsSize size then (o, [])
  else
    let freed := unmapData o
    ({ freed.1 with dataSizeInput := size, ashmemFd := fd, dataPtr := data, isChange := true },
      freed.2 ++ [.given fd data])

/-- The two constructors; `builder` says whether the second one is given a builder. -/
inductive Birth where
  | plain
  | sized (dataSize : Nat) (builder : Bool) (r : Answer)

def Birth.construct : Birth → Holder × List Event
  | .plain => ({}, [])
  | .sized dataSize builder r =>
    if dataSize = 0 then ({}, [])
    else if !builder then ({ dataSizeInput := dataSize }, [])
    else createPurgeableData r { dataSizeInput := dataSize }

def destroy (o : Holder) : List Event :=
  if !o.isChange then
    match o.dataPtr with
    | none => []
    | some data => [.munmap data (roundUp o.dataSizeInput pageSize), .close o.ashmemFd]
  else []

inductive Call where
  | resizeData (newSize : Nat) (r : Answer)
  | changeAshmemData (size : Nat) (fd : Int) (data : Option Nat)

def Call.perform : Call → Holder → Holder × List Event
  | .resizeData newSize r => AshmemResources.resizeData newSize r
  | .changeAshmemData size fd data => AshmemResources.changeAshmemData size fd data

/-- The object after some calls, and what happened so far. -/
def afterCalls (b : Birth) (calls : List Call) : Holder × List Event :=
  calls.foldl (fun s c => ((c.perform s.1).1, s.2 ++ (c.perform s.1).2)) b.construct

def life (b : Birth) (calls : List Call) : List Event :=
  (afterCalls b calls).2 ++ destroy (afterCalls b calls).1

/-! ### Files and mappings -/

def fdUse : Event → Option (Use Int Unit)
  | .ashmemCreate fd => some (.acquire fd ())
  | .close fd => some (.release fd ())
  | .given fd _ => some (.lend fd)
  | .mmap _ _ | .munmap _ _ => none

def mapUse : Event → Option (Use Nat Nat)
  | .mmap data size => some (.acquire data size)
  | .munmap data size => some (.release data size)
  | .given _ data => data.map .lend
  | .ashmemCreate _ | .close _ => none

/-- The custody of the file and of the mapping, as the fields tell it. -/
inductive Holds : Holder → Custody Int Unit → Custody Nat Nat → Prop where
  | absent {o : Holder} {fds : Custody Int Unit} (null : o.dataPtr = none) (unowned : fds.owns = false) :
      Holds o fds .free
  | own {o : Holder} {data : Nat} (mapped : o.dataPtr = some data) (positive : 0 < o.ashmemFd) :
      Holds o (.owned o.ashmemFd ()) (.owned data (roundUp o.dataSizeInput pageSize))
  | foreign {o : Holder} {data : Nat} (mapped : o.dataPtr = some data) (changed : o.isChange = true) :
      Holds o (.borrowed o.ashmemFd) (.borrowed data)

def Answer.succeeds (r : Answer) : Bool := decide (0 ≤ r.fd) && r.protSet && r.mapped

theorem unmapData_spec {o : Holder} {fds : Custody Int Unit} {maps : Custody Nat Nat} (holds : Holds o fds maps) :
    (unmapData o).1 = { o with dataPtr := none } ∧
      maps.run ((unmapData o).2.filterMap mapUse) = some .free ∧
      ∃ fds', fds'.owns = false ∧ fds.run ((unmapData o).2.filterMap fdUse) = some fds' := by
  cases holds with
  | absent null unowned =>
    have same : unmapData o = (o, []) := by simp [unmapData, null]
    rw [same]
    refine ⟨?_, rfl, fds, unowned, rfl⟩
    rw [← null]
  | own mapped positive =>
    simp only [unmapData, mapped, positive, if_true, List.filterMap_cons, List.filterMap_nil, fdUse, mapUse]
    exact ⟨trivial, by simp [Custody.run], .free, rfl, by simp [Custody.run]⟩
  | foreign mapped changed =>
    by_cases positive : o.ashmemFd > 0
    · simp only [unmapData, mapped, positive, if_true, List.filterMap_cons, List.filterMap_nil, fdUse, mapUse]
      exact ⟨trivial, by simp [Custody.run], .free, rfl, by simp [Custody.run]⟩
    · simp only [unmapData, mapped, positive, if_false, List.filterMap_cons, List.filterMap_nil, fdUse, mapUse]
      exact ⟨trivial, by simp [Custody.run], _, rfl, rfl⟩

theorem createPurgeableData_spec {o : Holder} {r : Answer} {fds : Custody Int Unit} (null : o.dataPtr = none)
    (sized : o.dataSizeInput ≠ 0) (positive : r.fd ≠ 0) (unowned : fds.owns = false) :
    (createPurgeableData r o).1.isChange = o.isChange ∧
      ∃ fds' maps', fds.run ((createPurgeableData r o).2.filterMap fdUse) = some fds' ∧
        (Custody.free : Custody Nat Nat).run ((createPurgeableData r o).2.filterMap mapUse) = some maps' ∧
        Holds (createPurgeableData r o).1 fds' maps' ∧ maps'.owns = r.succeeds := by
  have acquired := Custody.next_acquire unowned r.fd ()
  unfold createPurgeableData
  rw [if_neg sized]
  split
  · rename_i failed
    refine ⟨rfl, fds, .free, rfl, rfl, .absent null unowned, ?_⟩
    simp [Custody.owns, Answer.succeeds, failed]
  · rename_i created
    have opened : 0 < r.fd := by omega
    split
    · rename_i unset
      refine ⟨rfl, .free, .free, ?_, rfl, .absent null rfl, ?_⟩
      · simp [fdUse, Custody.run, acquired]
      · simp [Custody.owns, Answer.succeeds, unset]
    · rename_i protSet
      split
      · rename_i unmapped
        refine ⟨rfl, .free, .free, ?_, rfl, .absent rfl rfl, ?_⟩
        · simp [fdUse, Custody.run, acquired]
        · simp [Custody.owns, Answer.succeeds, unmapped]
      · rename_i mapped
        refine ⟨rfl, .owned r.fd (), .owned r.data (roundUp o.dataSizeInput pageSize), ?_, rfl, .own rfl opened, ?_⟩
        · simp [fdUse, Custody.run, acquired, List.filterMap_cons]
        · simp [Custody.owns, Answer.succeeds, opened.le, protSet, mapped]

/-- The memory that `PurgeableAshMem` works on is the one that is held here. -/
theorem createPurgeableData_agrees (isSupport : Bool) {i : PurgeableAshMem.Index} {o : Holder} {r : Answer}
    (null : o.dataPtr = none) (sized : o.dataSizeInput ≠ 0) (same : i.ashmemFd = o.ashmemFd) :
    let created := PurgeableAshMem.createPurgeableData isSupport i o.dataSizeInput r.toAshmemCreation
    created.2.2 = (createPurgeableData r o).1.dataPtr.isSome ∧
      created.1.ashmemFd = (createPurgeableData r o).1.ashmemFd := by
  unfold PurgeableAshMem.createPurgeableData createPurgeableData
  rw [if_neg sized]
  by_cases failed : r.fd < 0
  · rw [if_pos (.inl failed), if_pos failed, null]
    exact ⟨rfl, same⟩
  rw [if_neg failed]
  by_cases unset : r.protSet = false
  · rw [if_pos (.inr unset), if_pos unset, null]
    exact ⟨rfl, same⟩
  rw [if_neg (not_or.mpr ⟨failed, unset⟩), if_neg unset]
  by_cases unmapped : r.mapped = false
  · rw [if_pos unmapped, if_pos unmapped]
    exact ⟨rfl, rfl⟩
  · rw [if_neg unmapped, if_neg unmapped]
    exact ⟨rfl, rfl⟩

/-! ### Runs of calls -/

namespace Call

def accepted : Call → Bool
  | .resizeData size _ | .changeAshmemData size _ _ => acceptsSize size

def changes : Call → Bool
  | .resizeData _ _ => false
  | .changeAshmemData size _ _ => acceptsSize size

def creates : Call → Bool
  | .resizeData _ r => r.succeeds
  | .changeAshmemData _ _ _ => false

/-- No call is told that `AshmemCreate` returned 0. -/
def Positive : Call → Prop
  | .resizeData _ r => r.fd ≠ 0
  | .changeAshmemData _ _ _ => True

end Call

def Birth.Positive : Birth → Prop
  | .plain => True
  | .sized _ _ r => r.fd ≠ 0

theorem rejected {c : Call} (refused : c.accepted = false) (o : Holder) : c.perform o = (o, []) ∧ c.changes = false := by
  cases c with
  | resizeData newSize r =>
    have refused : acceptsSize newSize = false := refused
    exact ⟨by simp [Call.perform, resizeData, refused], rfl⟩
  | changeAshmemData size fd data =>
    have refused : acceptsSize size = false := refused
    exact ⟨by simp [Call.perform, changeAshmemData, refused], refused⟩

theorem perform_spec {c : Call} {o : Holder} {fds : Custody Int Unit} {maps : Custody Nat Nat}
    (accepted : c.accepted = true) (positive : c.Positive) (holds : Holds o fds maps) :
    (c.perform o).1.isChange = (o.isChange || c.changes) ∧
      ∃ fds' maps', fds.run ((c.perform o).2.filterMap fdUse) = some fds' ∧
        maps.run ((c.perform o).2.filterMap mapUse) = some maps' ∧
        Holds (c.perform o).1 fds' maps' ∧ maps'.owns = c.creates := by
  obtain ⟨freed, mapsFree, fds₁, unowned, fdsRan⟩ := unmapData_spec holds
  cases c with
  | resizeData newSize r =>
    have accepted : acceptsSize newSize = true := accepted
    have sized : newSize ≠ 0 := by
      simp only [acceptsSize, Bool.not_eq_true', decide_eq_false_iff_not, not_or] at accepted
      exact accepted.1
    obtain ⟨change, fds₂, maps₂, fdsLater, mapsLater, after, owner⟩ :=
      @createPurgeableData_spec { (unmapData o).1 with dataSizeInput := newSize } r fds₁ (by rw [freed]) sized
        positive unowned
    simp only [Call.perform, resizeData, accepted, Bool.not_true, Bool.false_eq_true, if_false]
    refine ⟨?_, fds₂, maps₂, ?_, ?_, after, owner⟩
    · rw [Call.changes, Bool.or_false]
      exact change.trans (by rw [freed])
    · rw [List.filterMap_append, Custody.run_append, fdsRan]
      exact fdsLater
    · rw [List.filterMap_append, Custody.run_append, mapsFree]
      exact mapsLater
  | changeAshmemData size fd data =>
    have accepted : acceptsSize size = true := accepted
    have lent := Custody.next_lend unowned fd
    simp only [Call.perform, changeAshmemData, accepted, Bool.not_true, Bool.false_eq_true, if_false]
    refine ⟨by simp [Call.changes, accepted], .borrowed fd,
      match data with | none => .free | some d => .borrowed d, ?_, ?_, ?_, ?_⟩
    · rw [List.filterMap_append, Custody.run_append, fdsRan]
      simp [fdUse, Custody.run, lent]
    · rw [List.filterMap_append, Custody.run_append, mapsFree]
      cases data <;> rfl
    · cases data with
      | none => exact .absent rfl rfl
      | some d => exact .foreign rfl rfl
    · cases data <;> rfl

/-- What the log so far and the fields say after some calls. -/
structure Tracked (calls : List Call) (s : Holder × List Event) (fds : Custody Int Unit)
    (maps : Custody Nat Nat) : Prop where
  fdsRan : (Custody.free : Custody Int Unit).run (s.2.filterMap fdUse) = some fds
  mapsRan : (Custody.free : Custody Nat Nat).run (s.2.filterMap mapUse) = some maps
  holds : Holds s.1 fds maps
  change : s.1.isChange = calls.any Call.changes
  owner : ∀ c, (calls.filter Call.accepted).getLast? = some c → maps.owns = c.creates

theorem construct_tracked {b : Birth} (positive : b.Positive) : ∃ fds maps, Tracked [] b.construct fds maps := by
  have none_ : ∀ (c : Call) (maps : Custody Nat Nat),
      (([] : List Call).filter Call.accepted).getLast? = some c → maps.owns = c.creates := by simp
  cases b with
  | plain => exact ⟨.free, .free, rfl, rfl, .absent rfl rfl, rfl, fun c => none_ c _⟩
  | sized dataSize builder r =>
    rw [Birth.construct]
    split
    · exact ⟨.free, .free, rfl, rfl, .absent rfl rfl, rfl, fun c => none_ c _⟩
    · rename_i sized
      split
      · exact ⟨.free, .free, rfl, rfl, .absent rfl rfl, rfl, fun c => none_ c _⟩
      · obtain ⟨change, fds, maps, fdsRan, mapsRan, holds, -⟩ :=
          @createPurgeableData_spec { dataSizeInput := dataSize } r .free rfl sized positive rfl
        exact ⟨fds, maps, fdsRan, mapsRan, holds, change, fun c => none_ c _⟩

theorem afterCalls_concat (b : Birth) (calls : List Call) (c : Call) : afterCalls b (calls ++ [c])
    = ((c.perform (afterCalls b calls).1).1, (afterCalls b calls).2 ++ (c.perform (afterCalls b calls).1).2) := by
  simp [afterCalls]

theorem afterCalls_tracked {b : Birth} {calls : List Call} (positive : b.Positive)
    (positives : ∀ c ∈ calls, c.Positive) : ∃ fds maps, Tracked calls (afterCalls b calls) fds maps := by
  induction calls using List.reverseRecOn with
  | nil => exact construct_tracked positive
  | append_singleton calls c ih =>
    obtain ⟨earlier, last⟩ := List.forall_mem_append.mp positives
    obtain ⟨fds, maps, tracked⟩ := ih earlier
    rw [afterCalls_concat]
    cases accepted : c.accepted with
    | false =>
      obtain ⟨same, unchanged⟩ := rejected accepted (afterCalls b calls).1
      rw [same, List.append_nil]
      refine ⟨fds, maps, tracked.fdsRan, tracked.mapsRan, tracked.holds, ?_, fun d final => tracked.owner d ?_⟩
      · simp [tracked.change, unchanged]
      · simpa [List.filter_append, accepted] using final
    | true =>
      obtain ⟨change, fds', maps', fdsLater, mapsLater, holds, owner⟩ :=
        perform_spec accepted (last c (by simp)) tracked.holds
      refine ⟨fds', maps', ?_, ?_, holds, ?_, fun d final => ?_⟩
      · rw [List.filterMap_append, Custody.run_append, tracked.fdsRan]
        exact fdsLater
      · rw [List.filterMap_append, Custody.run_append, tracked.mapsRan]
        exact mapsLater
      · simp [change, tracked.change]
      · have same : c = d := by simpa [List.filter_append, accepted] using final
        rw [owner, same]

/-- The destructor leaves to others what `isChange_` says is theirs. -/
theorem destroy_spec {o : Holder} {fds : Custody Int Unit} {maps : Custody Nat Nat} (holds : Holds o fds maps) :
    ∃ fds' maps', fds.run ((destroy o).filterMap fdUse) = some fds' ∧
      maps.run ((destroy o).filterMap mapUse) = some maps' ∧
      fds'.owns = (o.isChange && maps.owns) ∧ maps'.owns = (o.isChange && maps.owns) := by
  cases change : o.isChange with
  | true =>
    refine ⟨fds, maps, ?_, ?_, ?_, by simp⟩
    · simp [destroy, change, Custody.run]
    · simp [destroy, change, Custody.run]
    · cases holds with
      | absent null unowned => simpa [Custody.owns] using unowned
      | own mapped positive => rfl
      | foreign mapped changed => rfl
  | false =>
    cases holds with
    | absent null unowned =>
      refine ⟨fds, .free, ?_, ?_, by simpa using unowned, rfl⟩
      · simp [destroy, change, null, Custody.run]
      · simp [destroy, change, null, Custody.run]
    | own mapped positive =>
      refine ⟨.free, .free, ?_, ?_, rfl, rfl⟩
      · simp [destroy, change, mapped, fdUse, Custody.run, List.filterMap_cons]
      · simp [destroy, change, mapped, mapUse, Custody.run, List.filterMap_cons]
    | foreign mapped changed =>
      rw [changed] at change
      cases change

/-- The caller of `ChangeAshmemData` lent memory, but the last call that was let through replaced it by
memory of the object's own. -/
def ResizedAfterChange (calls : List Call) : Prop :=
  (∃ c ∈ calls, c.changes = true) ∧
    ∃ c, (calls.filter Call.accepted).getLast? = some c ∧ c.creates = true

theorem Tracked.leaks_iff {calls : List Call} {s : Holder × List Event} {fds : Custody Int Unit}
    {maps : Custody Nat Nat} (tracked : Tracked calls s fds maps) :
    (s.1.isChange && maps.owns) = true ↔ ResizedAfterChange calls := by
  rw [Bool.and_eq_true, tracked.change, List.any_eq_true]
  constructor
  · rintro ⟨⟨c, member, changes⟩, owns⟩
    refine ⟨⟨c, member, changes⟩, ?_⟩
    have accepted : c.accepted = true := by
      cases c with
      | resizeData => cases changes
      | changeAshmemData => exact changes
    have nonempty : calls.filter Call.accepted ≠ [] := List.ne_nil_of_mem (List.mem_filter.mpr ⟨member, accepted⟩)
    have last := List.getLast?_eq_some_getLast nonempty
    exact ⟨_, last, (tracked.owner _ last).symm.trans owns⟩
  · rintro ⟨change, c, last, creates⟩
    exact ⟨change, (tracked.owner c last).trans creates⟩

/-- Every file that `AshmemCreate` opened is closed once, and every mapping is unmapped once with its own
size, unless an object whose memory was changed ends its life with memory of its own. -/
theorem released_once_iff_not_resizedAfterChange {b : Birth} {calls : List Call} (positive : b.Positive)
    (positives : ∀ c ∈ calls, c.Positive) :
    ReleasedOnce ((life b calls).filterMap fdUse) ∧ ReleasedOnce ((life b calls).filterMap mapUse) ↔
      ¬ ResizedAfterChange calls := by
  obtain ⟨fds, maps, tracked⟩ := afterCalls_tracked positive positives
  obtain ⟨fds', maps', fdsLater, mapsLater, fdsOwned, mapsOwned⟩ := destroy_spec tracked.holds
  have fdsRan : (Custody.free : Custody Int Unit).run ((life b calls).filterMap fdUse) = some fds' := by
    rw [life, List.filterMap_append, Custody.run_append, tracked.fdsRan]
    exact fdsLater
  have mapsRan : (Custody.free : Custody Nat Nat).run ((life b calls).filterMap mapUse) = some maps' := by
    rw [life, List.filterMap_append, Custody.run_append, tracked.mapsRan]
    exact mapsLater
  rw [Custody.releasedOnce_iff fdsRan, Custody.releasedOnce_iff mapsRan, fdsOwned, mapsOwned, and_self,
    ← tracked.leaks_iff, Bool.not_eq_true]

/-- The memory of the constructor is replaced by lent memory, which a resize replaces by the object's own;
then memory is lent once more. -/
theorem lent_again_released_once :
    ReleasedOnce ((life (.sized 27 true { fd := 3, data := 4096 })
      [.changeAshmemData 123 5 (some 8192), .resizeData 1 { fd := 4, data := 4096 },
        .changeAshmemData 123 6 (some 8192)]).filterMap fdUse) ∧
    ReleasedOnce ((life (.sized 27 true { fd := 3, data := 4096 })
      [.changeAshmemData 123 5 (some 8192), .resizeData 1 { fd := 4, data := 4096 },
        .changeAshmemData 123 6 (some 8192)]).filterMap mapUse) := by
  refine (released_once_iff_not_resizedAfterChange ?_ ?_).mpr ?_
  · simp [Birth.Positive]
  · simp [Call.Positive]
  · rintro ⟨-, c, last, creates⟩
    have same : Call.changeAshmemData 123 6 (some 8192) = c := Option.some.inj last
    subst same
    cases creates

/-- The file and the mapping of a resize after a change outlive the object. -/
theorem resize_after_change_leaks :
    ¬ ReleasedOnce ((life .plain [.changeAshmemData 123 5 (some 8192),
        .resizeData 1 { fd := 4, data := 4096 }]).filterMap fdUse) ∧
    ¬ ReleasedOnce ((life .plain [.changeAshmemData 123 5 (some 8192),
        .resizeData 1 { fd := 4, data := 4096 }]).filterMap mapUse) := by
  constructor
  · intro once
    have released := once [.lend 5, .release 5 ()] 4 () [] (by decide)
    cases released
  · intro once
    have released := once [.lend 8192, .release 8192 4096] 4096 4096 [] (by decide +kernel)
    cases released

end MemoryUtils.Cpp.AshmemResources
