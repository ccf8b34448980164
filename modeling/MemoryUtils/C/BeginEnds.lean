import MemoryUtils.C.Locking
import MemoryUtils.C.Pins

/-!
A Begin of a single thread returns. The loop of `PurgMemBeginRead` has no counter of its own: it ends
because the pages it pinned stay present once a rebuild has touched them, so a second rebuild is
needed only where the count of the first one wrapped to 0.
-/

namespace MemoryUtils.C
open Lib

variable {T : Type} {S : Setup} {n : Nat}

def Check.mode : Check → Mode
  | .tryRead | .buildRead => .read
  | .write => .write

/-- The Begin that is in progress. -/
def beginMode : Pc n → Option Mode
  | .uxpteGet m _ | .wrlock m | .clear m | .buildAll m _ | .building m _ _ _ _ | .built m | .wrUnlock m _
  | .uxptePut (some m) _ => some m
  | .rdlock | .rdUnlock => some .read
  | .isPurged k | .isPresent k _ => some k.mode
  | _ => none

/-! ### How much is left to do -/

/-- The rebuilds that the present bits and the count ask for. -/
def need (S : Setup) (o : PurgMem T S.len) : Nat :=
  if ∀ p < S.pages, o.region.present p = true then (if o.buildDataCount = 0 then 1 else 0) else 2

/-- The rebuilds that a Begin at this point can still start. -/
def rebuildsLeft (S : Setup) (o : PurgMem T S.len) : Pc S.len → Nat
  | .uxpteGet _ _ => 2
  | .rdlock | .rdUnlock | .wrlock .read | .clear .read | .wrUnlock .read true => need S o
  | .isPurged .tryRead | .isPurged .buildRead | .isPresent .tryRead _ | .isPresent .buildRead _ => need S o
  | .wrlock .write | .isPurged .write | .isPresent .write _ | .clear .write => 1
  | .buildAll .read _ | .building .read _ _ _ _ | .built .read =>
    if (o.buildDataCount + 1) % 2 ^ 32 = 0 then 1 else 0
  | _ => 0

/-- The statements up to the next rebuild or to the return, at most. -/
def stage (S : Setup) : Pc S.len → Nat
  | .uxpteGet _ i => 3 * S.pages + 11 + (S.pages - i)
  | .building _ _ rest _ _ => 3 * S.pages + 14 + 2 * rest.length
  | .buildAll _ rest => 3 * S.pages + 13 + 2 * rest.length
  | .built _ => 3 * S.pages + 12
  | .wrUnlock .read true => 3 * S.pages + 11
  | .rdlock => 3 * S.pages + 10
  | .isPurged .tryRead => 3 * S.pages + 9
  | .isPresent .tryRead i => 2 * S.pages + 8 + (S.pages - i)
  | .rdUnlock => 2 * S.pages + 7
  | .wrlock _ => 2 * S.pages + 6
  | .isPurged _ => 2 * S.pages + 5
  | .isPresent _ i => S.pages + 4 + (S.pages - i)
  | .clear _ => S.pages + 3
  | .wrUnlock _ _ => S.pages + 2
  | .uxptePut _ i => S.pages - i + 1
  | _ => 0

/-- More than the statements from one `memset_s` to the next. -/
def lap (S : Setup) (o : PurgMem T S.len) : Nat := 3 * S.pages + 14 + 2 * o.builder.length

def rank (S : Setup) (o : PurgMem T S.len) (pc : Pc S.len) : Nat := rebuildsLeft S o pc * lap S o + stage S pc

/-- What the checks of a Begin have found still holds, and a rebuild keeps every page present. -/
def Steady (S : Setup) (o : PurgMem T S.len) : Pc S.len → Prop
  | .rdUnlock | .wrlock .read | .isPurged .buildRead | .clear .read =>
    ¬ ((∀ p < S.pages, o.region.present p = true) ∧ o.buildDataCount ≠ 0)
  | .buildAll .read _ | .building .read _ _ _ _ | .built .read => o.region.AllPresent S.pages
  | _ => True

def clearing : Pc n → Bool
  | .clear _ => true
  | _ => false

theorem need_le (o : PurgMem T S.len) : need S o ≤ 2 := by
  unfold need
  split_ifs <;> omega

theorem need_of_allPresent {o : PurgMem T S.len} (all : o.region.AllPresent S.pages) :
    need S o = if o.buildDataCount = 0 then 1 else 0 :=
  if_pos all

/-- A rebuild that is asked for uses one up, and where its count wraps one more is left. -/
theorem need_of_purged {o : PurgMem T S.len}
    (purged : ¬ ((∀ p < S.pages, o.region.present p = true) ∧ o.buildDataCount ≠ 0)) :
    (if (o.buildDataCount + 1) % 2 ^ 32 = 0 then 1 else 0) + 1 ≤ need S o := by
  unfold need
  by_cases all : ∀ p < S.pages, o.region.present p = true
  · have zero : o.buildDataCount = 0 := by
      by_contra nonzero
      exact purged ⟨all, nonzero⟩
    rw [if_pos all, zero]
    decide
  · rw [if_neg all]
    split_ifs <;> omega

/-! ### What a step of a Begin uses up -/

variable [DecidableEq T]

section Next

variable {t : T} {o o' : PurgMem T S.len} {pc pc' : Pc S.len} {c : Choice S.len}

theorem next_steady (here : Steady S o pc) (h : Next S t o pc c o' pc') : Steady S o' pc' := by
  cases h with
  | beginIdle m | beginFailed m' m =>
    unfold enter
    split <;> trivial
  | getDone m => cases m <;> trivial
  | neverBuilt k zero =>
    have purged : ¬ ((∀ p < S.pages, o.region.present p = true) ∧ o.buildDataCount ≠ 0) :=
      fun both => both.2 zero
    cases k with
    | tryRead | buildRead => exact purged
    | write => trivial
  | absent k i below gone =>
    have purged : ¬ ((∀ p < S.pages, o.region.present p = true) ∧ o.buildDataCount ≠ 0) :=
      fun both => Bool.false_ne_true (gone.symm.trans (both.1 i below))
    cases k with
    | tryRead | buildRead => exact purged
    | write => trivial
  | allPresent k => cases k <;> trivial
  | rdUnlock => exact here
  | wrlock m =>
    cases m with
    | read => exact here
    | write => trivial
  | clear m =>
    cases m with
    | read => exact o.region.clear_allPresent S.pages
    | write => trivial
  | call m b rest mid touched =>
    cases m with
    | read => exact Region.AllPresent.touch here touched
    | write => trivial
  | builderReturned m b rest old mid content ok =>
    unfold afterBuilder
    cases m with
    | read => split_ifs <;> first | exact here | trivial
    | write => split_ifs <;> trivial
  | built m => cases m <;> trivial
  | wrUnlock m ret =>
    unfold afterUnlock
    split <;> trivial
  | putDone r => cases r <;> trivial
  | endAccess m =>
    unfold leave
    split <;> trivial
  | modifierReturned b old mid content ok => cases ok <;> trivial
  | _ => trivial

theorem next_beginMode {m : Mode} (within : beginMode pc = some m) (h : Next S t o pc c o' pc') :
    beginMode pc' = some m ∨ pc' = .inside m ∨ pc' = .failed m := by
  cases h with
  | getDone m' => cases m' <;> exact .inl within
  | neverBuilt k | absent k => cases k <;> exact .inl within
  | allPresent k =>
    cases k with
    | tryRead | write =>
      cases within
      exact .inr (.inl rfl)
    | buildRead => exact .inl within
  | wrlock m' => cases m' <;> exact .inl within
  | builderReturned m' b rest old mid content ok =>
    cases within
    unfold afterBuilder
    split_ifs <;> exact .inl rfl
  | built m' =>
    cases within
    cases m with
    | read => exact .inl rfl
    | write => exact .inr (.inl rfl)
  | wrUnlock m' ret =>
    cases within
    unfold afterUnlock
    split
    · rename_i again
      exact .inl (congrArg some again.1.symm)
    · exact .inl rfl
  | putDone r =>
    cases r with
    | none => cases within
    | some m' =>
      cases within
      exact .inr (.inr rfl)
  | put r =>
    cases r with
    | none => cases within
    | some m' => exact .inl within
  | _ => first | exact .inl within | cases within

theorem begin_builder (within : beginMode pc ≠ none) (h : Next S t o pc c o' pc') :
    o'.builder = o.builder := by
  cases h with
  | logged b => exact absurd rfl within
  | _ => rfl

theorem next_stage (within : beginMode pc ≠ none) (succeeds : c ≠ .lockFail)
    (h : Next S t o pc c o' pc') : stage S pc' < if clearing pc then lap S o else stage S pc := by
  cases h with
  | rdlockFail | rdUnlockFail | wrlockFail | wrUnlockFail | endUnlockFail => exact absurd rfl succeeds
  | beginIdle | beginFailed | endAccess | touch | append | modifierReturned | logged | logFail | endUnlock =>
    exact absurd rfl within
  | getDone m => cases m <;> simp [clearing, firstLock, stage] <;> omega
  | neverBuilt k | absent k | allPresent k | builtBefore k | present k =>
    cases k <;> simp [clearing, purged, notPurged, stage] <;> omega
  | wrlock m => cases m <;> simp [clearing, checkAfter, stage]
  | builderReturned m b rest old mid content ok =>
    cases ok <;> cases rest <;> simp [clearing, afterBuilder, stage] <;> omega
  | built m => cases m <;> simp [clearing, afterBuild, stage]
  | wrUnlock m ret => cases m <;> cases ret <;> simp [clearing, afterUnlock, stage]
  | putDone r => cases r <;> simp [clearing, afterPut, stage]
  | _ => simp [clearing, stage, lap] <;> omega

theorem next_rebuildsLeft (within : beginMode pc ≠ none) (succeeds : c ≠ .lockFail) (here : Steady S o pc)
    (h : Next S t o pc c o' pc') :
    rebuildsLeft S o' pc' + (if clearing pc then 1 else 0) ≤ rebuildsLeft S o pc := by
  cases h with
  | rdlockFail | rdUnlockFail | wrlockFail | wrUnlockFail | endUnlockFail => exact absurd rfl succeeds
  | beginIdle | beginFailed | endAccess | touch | append | modifierReturned | logged | logFail | endUnlock =>
    exact absurd rfl within
  | getDone m =>
    cases m with
    | read => exact need_le o
    | write => exact Nat.le_succ 1
  | neverBuilt k | absent k | builtBefore k | present k => cases k <;> exact Nat.le_refl _
  | allPresent k => cases k <;> exact Nat.zero_le _
  | wrlock m => cases m <;> exact Nat.le_refl _
  | clear m =>
    cases m with
    | read => exact need_of_purged here
    | write => exact Nat.le_refl _
  | clearFail m =>
    cases m with
    | read =>
      have one := need_of_purged here
      show 0 + 1 ≤ need S o
      omega
    | write => exact Nat.le_refl _
  | noBuilder m => cases m <;> exact Nat.zero_le _
  | call m => cases m <;> exact Nat.le_refl _
  | builderReturned m b rest old mid content ok =>
    cases ok with
    | false => cases m <;> exact Nat.zero_le _
    | true => cases m <;> cases rest <;> exact Nat.le_refl _
  | built m =>
    cases m with
    | read =>
      have same := need_of_allPresent
        (o := { o with buildDataCount := (o.buildDataCount + 1) % 2 ^ 32, rebuildFailed := false }) here
      exact le_of_eq same
    | write => exact Nat.zero_le _
  | wrUnlock m ret => cases m <;> cases ret <;> exact Nat.le_refl _
  | putDone r => cases r <;> exact Nat.zero_le _
  | _ => exact Nat.le_refl _

theorem next_rank (within : beginMode pc ≠ none) (succeeds : c ≠ .lockFail) (here : Steady S o pc)
    (h : Next S t o pc c o' pc') : rank S o' pc' < rank S o pc := by
  have stages := next_stage within succeeds h
  have rebuilds := next_rebuildsLeft within succeeds here h
  have laps : lap S o' = lap S o := by rw [lap, begin_builder within h, lap]
  unfold rank
  rw [laps]
  cases starting : clearing pc with
  | false =>
    simp only [starting, Bool.false_eq_true, if_false, Nat.add_zero] at stages rebuilds
    exact Nat.add_lt_add_of_le_of_lt (Nat.mul_le_mul_right _ rebuilds) stages
  | true =>
    simp only [starting, if_true] at stages rebuilds
    calc rebuildsLeft S o' pc' * lap S o + stage S pc'
        < rebuildsLeft S o' pc' * lap S o + lap S o := Nat.add_lt_add_left stages _
      _ = (rebuildsLeft S o' pc' + 1) * lap S o := (Nat.succ_mul _ _).symm
      _ ≤ rebuildsLeft S o pc * lap S o := Nat.mul_le_mul_right _ rebuilds
      _ ≤ rebuildsLeft S o pc * lap S o + stage S pc := Nat.le_add_right _ _

end Next

omit [DecidableEq T] in
theorem steady_of_unpinned {o : PurgMem T S.len} {pc : Pc S.len} {p : Nat} (loose : pinned pc p = false) :
    Steady S o pc := by
  cases pc with
  | uxpteGet | uxptePut | idle | failed => trivial
  | _ => exact absurd loose (by simp [pinned])

omit [DecidableEq T] in
theorem rebuildsLeft_of_unpinned {o o' : PurgMem T S.len} {pc : Pc S.len} {p : Nat}
    (loose : pinned pc p = false) : rebuildsLeft S o' pc = rebuildsLeft S o pc := by
  cases pc with
  | uxpteGet | uxptePut | idle | failed => rfl
  | _ => exact absurd loose (by simp [pinned])

/-! ### One thread -/

theorem lone_step_cases {s s' : State Unit S.len} {a : Action Unit S.len} (h : step S s a = some s') :
    (∃ c, a = .thread () c ∧ Next S () s.obj (s.pc ()) c s'.obj (s'.pc ())) ∨
    (∃ p, a = .reclaim p ∧ p < S.pages ∧ s.obj.region.refcnt p = 0 ∧
      s' = { s with obj := { s.obj with region := s.obj.region.reclaim p } }) := by
  obtain ⟨t, c, o, pc, rfl, moved, rfl⟩ | reclaimed := step_cases h
  · refine .inl ⟨c, rfl, ?_⟩
    simpa using moved
  · exact .inr reclaimed

/-- What holds in every state of a run of one thread whose lock calls succeed. -/
structure Orderly (S : Setup) (s : State Unit S.len) : Prop where
  valid : s.obj.builder ≠ []
  balanced : PinsBalanced S s
  agrees : LockAgrees s
  steady : Steady S s.obj (s.pc ())

theorem created_orderly {s : State Unit S.len} (created : Created S s) : Orderly S s where
  valid := by
    obtain ⟨⟨b, chain⟩, -⟩ := created
    simp [chain]
  balanced := created_pinsBalanced created
  agrees := created_lockAgrees created
  steady := by
    rw [created.2.2.2.2.2 ()]
    trivial

/-- The kernel reclaims only pages that the thread has not pinned. -/
theorem PinsBalanced.unpinned {s : State Unit S.len} (balanced : PinsBalanced S s) {p : Nat}
    (below : p < S.pages) (zero : s.obj.region.refcnt p = 0) : pinned (s.pc ()) p = false := by
  cases got : pinned (s.pc ()) p with
  | false => rfl
  | true => exact absurd (balanced.pos below got) (by omega)

theorem step_orderly {s s' : State Unit S.len} {a : Action Unit S.len} (orderly : Orderly S s)
    (succeeds : LocksSucceed s a) (h : step S s a = some s') : Orderly S s' where
  valid := step_valid orderly.valid h
  balanced := step_pinsBalanced orderly.valid orderly.balanced h
  agrees := step_lockAgrees orderly.valid succeeds orderly.agrees h
  steady := by
    obtain ⟨c, -, moved⟩ | ⟨p, -, below, zero, rfl⟩ := lone_step_cases h
    · exact next_steady orderly.steady moved
    · exact steady_of_unpinned (orderly.balanced.unpinned below zero)

theorem reach_orderly {s : State Unit S.len} (reach : (accesses S).Reach LocksSucceed s) : Orderly S s :=
  reach.invariant (fun _ => created_orderly) fun _ _ _ orderly succeeds => step_orderly orderly succeeds

/-- The value of the count does not matter at the start of a Begin. -/
theorem Orderly.withCount {s : State Unit S.len} (orderly : Orderly S s) {m : Mode} {i : Nat}
    (entered : s.pc () = .uxpteGet m i) (k : Nat) :
    Orderly S { s with obj := { s.obj with buildDataCount := k } } where
  valid := orderly.valid
  balanced := orderly.balanced
  agrees := orderly.agrees
  steady := by
    rw [entered]
    trivial

/-- A statement of the calling thread. -/
def ofThread (_ : State T n) : Action T n → Bool
  | .thread _ _ => true
  | .reclaim _ => false

/-- The thread enters `PurgMemBuildData`. -/
def startsRebuild (s : State T n) : Action T n → Bool
  | .thread t _ => clearing (s.pc t)
  | .reclaim _ => false

/-- A step of a Begin, or of the kernel meanwhile. -/
def WithinBegin (s : State Unit n) (a : Action Unit n) : Prop :=
  LocksSucceed s a ∧ beginMode (s.pc ()) ≠ none

theorem step_rank {s s' : State Unit S.len} {a : Action Unit S.len} (orderly : Orderly S s)
    (within : WithinBegin s a) (h : step S s a = some s') :
    rank S s'.obj (s'.pc ()) + (if ofThread s a then 1 else 0) ≤ rank S s.obj (s.pc ()) := by
  obtain ⟨c, rfl, moved⟩ | ⟨p, rfl, below, zero, rfl⟩ := lone_step_cases h
  · have choice : c ≠ .lockFail := fun same => within.1 () (by rw [same])
    exact next_rank within.2 choice orderly.steady moved
  · have loose := orderly.balanced.unpinned below zero
    show rebuildsLeft S _ (s.pc ()) * lap S s.obj + stage S (s.pc ()) ≤ rank S s.obj (s.pc ())
    rw [rebuildsLeft_of_unpinned loose]
    rfl

theorem step_rebuildsLeft {s s' : State Unit S.len} {a : Action Unit S.len} (orderly : Orderly S s)
    (within : WithinBegin s a) (h : step S s a = some s') :
    rebuildsLeft S s'.obj (s'.pc ()) + (if startsRebuild s a then 1 else 0) ≤
      rebuildsLeft S s.obj (s.pc ()) := by
  obtain ⟨c, rfl, moved⟩ | ⟨p, rfl, below, zero, rfl⟩ := lone_step_cases h
  · have choice : c ≠ .lockFail := fun same => within.1 () (by rw [same])
    exact next_rebuildsLeft within.2 choice orderly.steady moved
  · exact le_of_eq (rebuildsLeft_of_unpinned (orderly.balanced.unpinned below zero))

/-- The next statement of a Begin, with a builder that succeeds where one is called. -/
def attempt : Pc n → Choice n
  | .buildAll _ (_ :: _) => .call zeros fun _ => false
  | .building _ _ _ _ _ => .ret zeros true
  | _ => .step

theorem Orderly.unlocked {s : State Unit S.len} (orderly : Orderly S s) (outside : lockMode (s.pc ()) = none) :
    s.obj.rwlock.writer = none ∧ s.obj.rwlock.readers = [] :=
  orderly.agrees.free fun _ => outside

theorem attempt_enabled {s : State Unit S.len} (orderly : Orderly S s) (within : beginMode (s.pc ()) ≠ none) :
    ∃ s', step S s (.thread () (attempt (s.pc ()))) = some s' := by
  have moves : (threadStep S () s.obj (s.pc ()) (attempt (s.pc ()))).isSome := by
    have free := orderly.unlocked
    cases at_pc : s.pc () with
    | rdlock | wrlock =>
      have released := free (by rw [at_pc]; rfl)
      simp [attempt, threadStep, RwLock.rdlock, RwLock.wrlock, released]
    | buildAll m rest => cases rest <;> rfl
    | uxpteGet | isPresent | clear | uxptePut =>
      simp only [attempt, threadStep]
      split <;> rfl
    | isPurged | rdUnlock | building | built | wrUnlock => rfl
    | idle | failed | inside | modifying | logging | endUnlock => exact absurd (by rw [at_pc]; rfl) within
  obtain ⟨r, moved⟩ := Option.isSome_iff_exists.mp moves
  obtain ⟨s', stepped, -⟩ := step_of_threadStep rfl moved
  exact ⟨s', stepped⟩

/-! ### Whole runs of a Begin -/

/-- A Begin in mode `m`, from its first statement to its return. -/
def Underway (m : Mode) (pc : Pc n) : Prop := beginMode pc = some m ∨ pc = .inside m ∨ pc = .failed m

theorem Underway.mode {m : Mode} {pc : Pc n} (underway : Underway m pc) (within : beginMode pc ≠ none) :
    beginMode pc = some m := by
  obtain running | rfl | rfl := underway
  · exact running
  · exact absurd rfl within
  · exact absurd rfl within

theorem step_underway {s s' : State Unit S.len} {a : Action Unit S.len} {m : Mode}
    (underway : Orderly S s ∧ Underway m (s.pc ())) (within : WithinBegin s a) (h : step S s a = some s') :
    Orderly S s' ∧ Underway m (s'.pc ()) := by
  refine ⟨step_orderly underway.1 within.1 h, ?_⟩
  obtain ⟨c, -, moved⟩ | ⟨p, -, -, -, rfl⟩ := lone_step_cases h
  · exact next_beginMode (underway.2.mode within.2) moved
  · exact underway.2

/-- The Begin that is in progress in `s` executes at most `bound` statements, whatever its builders
and the kernel do, and it can go on until it returns. -/
def ReturnsWithin (S : Setup) (m : Mode) (s : State Unit S.len) (bound : Nat) : Prop :=
  ∀ actions s', (accesses S).Along WithinBegin s actions → (accesses S).run s actions = some s' →
    (accesses S).tally ofThread s actions ≤ bound ∧
    (s'.pc () = .inside m ∨ s'.pc () = .failed m ∨
      beginMode (s'.pc ()) = some m ∧ ∃ c s'', c ≠ .lockFail ∧ step S s' (.thread () c) = some s'')

def RebuildsAtMost (S : Setup) (s : State Unit S.len) (bound : Nat) : Prop :=
  ∀ actions s', (accesses S).Along WithinBegin s actions → (accesses S).run s actions = some s' →
    (accesses S).tally startsRebuild s actions ≤ bound

theorem attempt_ne_lockFail (pc : Pc n) : attempt pc ≠ .lockFail := by
  unfold attempt
  split <;> simp

theorem Orderly.returnsWithin {s : State Unit S.len} {m : Mode} (orderly : Orderly S s)
    (started : beginMode (s.pc ()) = some m) : ReturnsWithin S m s (rank S s.obj (s.pc ())) := by
  intro actions s' within ran
  have start : Orderly S s ∧ Underway m (s.pc ()) := ⟨orderly, .inl started⟩
  have keep : ∀ s a s', Orderly S s ∧ Underway m (s.pc ()) → WithinBegin s a → (accesses S).step s a = some s' →
      Orderly S s' ∧ Underway m (s'.pc ()) := fun _ _ _ => step_underway
  constructor
  · have spent := System.tally_add_rank_le ofThread (fun s => rank S s.obj (s.pc ())) keep
      (fun _ _ _ underway => step_rank underway.1) start within ran
    omega
  · obtain ⟨orderly', running | entered | failed⟩ := within.invariant keep start ran
    · obtain ⟨s'', moved⟩ := attempt_enabled orderly' (by simp [running])
      exact .inr (.inr ⟨running, _, s'', attempt_ne_lockFail _, moved⟩)
    · exact .inl entered
    · exact .inr (.inl failed)

theorem Orderly.rebuildsAtMost {s : State Unit S.len} (orderly : Orderly S s) :
    RebuildsAtMost S s (rebuildsLeft S s.obj (s.pc ())) := by
  intro actions s' within ran
  have keep : ∀ s a s', Orderly S s → WithinBegin s a → (accesses S).step s a = some s' → Orderly S s' :=
    fun _ _ _ orderly within => step_orderly orderly within.1
  have spent := System.tally_add_rank_le startsRebuild (fun s => rebuildsLeft S s.obj (s.pc ())) keep
    (fun _ _ _ => step_rebuildsLeft) orderly within ran
  omega

/-- For a single thread whose lock calls succeed, the loop of `PurgMemBeginRead` starts at most two
rebuilds and returns, from every reachable state and every value of the count, whatever the builders
and the kernel do. -/
theorem beginRead_returns (S : Setup) (s : State Unit S.len) (reach : (accesses S).Reach LocksSucceed s)
    (entered : s.pc () = .uxpteGet .read 0) (k : Nat) :
    RebuildsAtMost S { s with obj := { s.obj with buildDataCount := k } } 2 ∧
    ReturnsWithin S .read { s with obj := { s.obj with buildDataCount := k } }
      (2 * (3 * S.pages + 14 + 2 * s.obj.builder.length) + 4 * S.pages + 11) := by
  have orderly := (reach_orderly reach).withCount entered k
  constructor
  · have rebuilds := orderly.rebuildsAtMost
    rwa [show rebuildsLeft S _ (s.pc ()) = 2 by rw [entered]; rfl] at rebuilds
  · have returns := orderly.returnsWithin (m := .read) (by rw [entered]; rfl)
    have size : rank S { s.obj with buildDataCount := k } (s.pc ()) =
        2 * (3 * S.pages + 14 + 2 * s.obj.builder.length) + 4 * S.pages + 11 := by
      rw [entered]
      simp only [rank, rebuildsLeft, lap, stage]
      omega
    exact size ▸ returns

def steps (count : Nat) : List (Action Unit oneByte.len) := List.replicate count (.thread () .step)

def builderCall : List (Action Unit oneByte.len) :=
  [.thread () (.call zeros fun _ => false), .thread () (.ret zeros true)]

/-- A read that finds its page gone after 2^32 - 1 rebuilds: the count wraps to 0 and asks for one more. -/
def wrappingRead : List (Action Unit oneByte.len) :=
  steps 10 ++ builderCall ++ steps 8 ++ builderCall ++ steps 6

def entering : State Unit oneByte.len := { fresh Unit with pc := fun _ => .uxpteGet .read 0 }

def wrapping : State Unit oneByte.len :=
  { entering with obj := { entering.obj with buildDataCount := 2 ^ 32 - 1 } }

def withinBegin (s : State Unit n) (a : Action Unit n) : Bool := locksSucceed s a && (beginMode (s.pc ())).isSome

theorem withinBegin_sound (s : State Unit n) (a : Action Unit n) (h : withinBegin s a = true) : WithinBegin s a := by
  simp only [withinBegin, Bool.and_eq_true, Option.isSome_iff_ne_none] at h
  exact ⟨locksSucceed_sound s a h.1, h.2⟩

theorem entering_reached : (accesses oneByte).Reach LocksSucceed entering := by
  refine .step (a := .thread () (.beginAccess .read)) (.init (fresh_created Unit)) ?_ ?_
  · exact locksSucceed_sound _ _ rfl
  · rfl

theorem wrapped_count_rebuilds_twice :
    ∃ s', (accesses oneByte).run wrapping wrappingRead = some s' ∧ s'.pc () = .inside .read ∧
      (accesses oneByte).tally startsRebuild wrapping wrappingRead = 2 ∧
      (accesses oneByte).tally ofThread wrapping wrappingRead ≤ 53 := by
  have within : (accesses oneByte).Along WithinBegin wrapping wrappingRead :=
    System.along_of_checks withinBegin_sound (by decide)
  have ends : ((accesses oneByte).run wrapping wrappingRead).map (fun s => s.pc ()) = some (.inside .read) := by rfl
  obtain ⟨s', ran, entered⟩ := Option.map_eq_some_iff.mp ends
  obtain ⟨rebuilds, returns⟩ := beginRead_returns oneByte entering entering_reached rfl (2 ^ 32 - 1)
  have twice : 2 ≤ (accesses oneByte).tally startsRebuild wrapping wrappingRead := by decide
  exact ⟨s', ran, entered, Nat.le_antisymm (rebuilds _ s' within ran) twice, (returns _ s' within ran).1⟩

end MemoryUtils.C
