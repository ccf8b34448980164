import MemoryUtils.C.Locking
import MemoryUtils.C.Pins

/-!
What the content is worth at each program point. An object that was built and whose pages are
all present holds the replay of its builder chain over zeros; a thread that holds the lock keeps
it so, since its pins stop the kernel and its lock stops the other writers. The invariant takes a
parameter `det`: under it builders return what they return as functions, without it a builder may
fail at any time but only while `buildDataCount` is zero.
-/

namespace MemoryUtils.C
open Lib

variable {T : Type} {S : Setup} {n : Nat} {det : Prop}

/-- Between the clear and the last builder, or between a modifier and its log entry. -/
def dirty : Pc n → Bool
  | .buildAll _ _ | .building _ _ _ _ _ | .built _ | .modifying _ _ _ | .logging _ => true
  | _ => false

def Restored (det : Prop) (S : Setup) (o : PurgMem T S.len) : Prop :=
  o.region.AllPresent S.pages ∧ o.region.content = replay o.builder ∧ o.rebuildFailed = false ∧
  (det → Replays (n := S.len) o.builder zeros)

/-- What a thread at `pc` knows of the object. -/
def Point (det : Prop) (S : Setup) (o : PurgMem T S.len) : Pc S.len → Prop
  | .isPresent _ i => o.buildDataCount ≠ 0 ∧ ∀ p < i, p < S.pages → o.region.present p = true
  | .buildAll _ rest => rest ≠ [] ∧ o.region.AllPresent S.pages ∧
      ∃ pre, o.builder = pre ++ rest ∧ o.region.content = replay pre ∧
        (det → Replays (n := S.len) pre zeros)
  | .building _ b rest old mid => o.region.AllPresent S.pages ∧ o.region.content = mid ∧
      ∃ pre, o.builder = pre ++ b :: rest ∧ old = replay pre ∧
        (det → Replays (n := S.len) pre zeros)
  | .built _ => o.region.AllPresent S.pages ∧ o.region.content = replay o.builder ∧
      (det → Replays (n := S.len) o.builder zeros)
  | .inside _ | .endUnlock _ => Restored det S o
  | .modifying _ old mid => o.region.AllPresent S.pages ∧ o.region.content = mid ∧
      old = replay o.builder ∧ o.rebuildFailed = false ∧
      (det → Replays (n := S.len) o.builder zeros)
  | .logging b => o.region.AllPresent S.pages ∧ o.region.content = replay (o.builder ++ [b]) ∧
      o.rebuildFailed = false ∧ (det → Replays (n := S.len) (o.builder ++ [b]) zeros)
  | _ => True

/-- An object that was built holds its replay on every page that is still there. -/
def Matched (S : Setup) (o : PurgMem T S.len) : Prop :=
  o.buildDataCount ≠ 0 → o.region.Matches S.pages (replay o.builder) ∧ o.rebuildFailed = false

structure Intact (det : Prop) (S : Setup) (s : State T S.len) : Prop where
  point : ∀ t, Point det S s.obj (s.pc t)
  matched : (∀ t, dirty (s.pc t) = false) → Matched S s.obj
  chain : det → s.obj.buildDataCount ≠ 0 → Replays (n := S.len) s.obj.builder zeros

def Returned (det : Prop) (o : PurgMem T n) : Pc n → Content n → Bool → Prop
  | .building _ b _ old mid, c, ok => o.region.content = mid →
      (ok = true → c = (b n old).1) ∧ (det → ok = (b n old).2) ∧
      (ok = false → det ∨ o.buildDataCount = 0)
  | .modifying b old mid, c, ok => o.region.content = mid →
      (ok = true → c = (b n old).1) ∧ (ok = false → c = old) ∧ (det → ok = (b n old).2)
  | _, _, _ => True

theorem lockMode_of_dirty {pc : Pc n} (h : dirty pc = true) : lockMode pc = some .write := by
  cases pc <;> simp_all [dirty, lockMode]

theorem pinned_of_lockMode {pc : Pc n} (h : lockMode pc ≠ none) (p : Nat) : pinned pc p = true := by
  cases pc <;> simp_all [lockMode, pinned]

theorem point_of_unlocked {o : PurgMem T S.len} {pc : Pc S.len} (h : lockMode pc = none) :
    Point det S o pc := by
  cases pc with
  | isPresent k i => cases k <;> simp [lockMode] at h
  | buildAll | building | built | inside | endUnlock | modifying | logging => simp [lockMode] at h
  | _ => trivial

theorem point_purged (o : PurgMem T S.len) (k : Check) : Point det S o (purged k) := by
  cases k <;> trivial

theorem Restored.matched {o : PurgMem T S.len} (h : Restored det S o) : Matched S o :=
  fun _ => ⟨Region.matches_of_eq h.2.1, h.2.2.1⟩

theorem point_notPurged {o : PurgMem T S.len} {k : Check} {i : Nat} (past : ¬ i < S.pages)
    (checked : Point det S o (.isPresent k i)) (matched : Matched S o)
    (chain : det → o.buildDataCount ≠ 0 → Replays (n := S.len) o.builder zeros) :
    Point det S o (notPurged k) := by
  obtain ⟨nonzero, present⟩ := checked
  have all : o.region.AllPresent S.pages := fun p below => present p (by omega) below
  obtain ⟨same, finished⟩ := matched nonzero
  have restored : Restored det S o :=
    ⟨all, same.content_eq all, finished, fun d => chain d nonzero⟩
  cases k with
  | buildRead => trivial
  | tryRead | write => exact restored

theorem Point.mono {o o' : PurgMem T S.len} {pc : Pc S.len} (h : Point det S o pc)
    (content : o'.region.content = o.region.content)
    (present : ∀ p, o.region.present p = true → o'.region.present p = true)
    (builder : o'.builder = o.builder) (count : o'.buildDataCount = o.buildDataCount)
    (failed : o'.rebuildFailed = o.rebuildFailed) : Point det S o' pc := by
  have whole : o.region.AllPresent S.pages → o'.region.AllPresent S.pages :=
    fun all p below => present p (all p below)
  cases pc with
  | isPresent k i =>
    obtain ⟨nonzero, before⟩ := h
    exact ⟨by rwa [count], fun p small below => present p (before p small below)⟩
  | buildAll m rest =>
    obtain ⟨nonempty, all, known⟩ := h
    exact ⟨nonempty, whole all, by rwa [builder, content]⟩
  | building m b rest old mid =>
    obtain ⟨all, known⟩ := h
    exact ⟨whole all, by rwa [builder, content]⟩
  | built m =>
    obtain ⟨all, known⟩ := h
    exact ⟨whole all, by rwa [builder, content]⟩
  | inside m | endUnlock m | modifying b old mid | logging b =>
    obtain ⟨all, known⟩ := h
    exact ⟨whole all, by rwa [builder, content, failed]⟩
  | _ => trivial

theorem replay_append (chain : List Builder) (b : Builder) :
    replay (n := n) (chain ++ [b]) = (b n (replay chain)).1 := replayFrom_append ..

theorem replays_extend {chain : List Builder} {b : Builder} {ok : Bool}
    (good : det → Replays (n := n) chain zeros) (result : det → ok = (b n (replay chain)).2)
    (succeeded : ok = true) : det → Replays (n := n) (chain ++ [b]) zeros := by
  intro d
  exact replays_append.mpr ⟨good d, (result d).symm.trans succeeded⟩

/-- A builder that fails where it has to repeat its result belongs to a chain that was never
built. -/
theorem count_zero_of_failure {o : PurgMem T S.len} {pre rest : List Builder} {b : Builder}
    (chain : det → o.buildDataCount ≠ 0 → Replays (n := S.len) o.builder zeros)
    (shape : o.builder = pre ++ b :: rest) (result : det → false = (b S.len (replay pre)).2)
    (allowed : det ∨ o.buildDataCount = 0) : o.buildDataCount = 0 := by
  rcases allowed with d | zero
  · by_contra nonzero
    have good := chain d nonzero
    rw [shape] at good
    exact Bool.false_ne_true ((result d).trans good.middle)
  · exact zero

variable [DecidableEq T]

theorem next_point {t : T} {o o' : PurgMem T S.len} {pc pc' : Pc S.len} {c : Choice S.len}
    (valid : o.builder ≠ []) (alloc : c ≠ .allocFail)
    (returned : ∀ content ok, c = .ret content ok → Returned det o pc content ok)
    (matched : dirty pc = false → lockMode pc ≠ none → Matched S o)
    (chain : det → o.buildDataCount ≠ 0 → Replays (n := S.len) o.builder zeros)
    (here : Point det S o pc) (h : Next S t o pc c o' pc') : Point det S o' pc' := by
  cases h with
  | neverBuilt k => exact point_purged o k
  | absent k => exact point_purged o k
  | builtBefore k nonzero => exact ⟨nonzero, fun p small => absurd small (Nat.not_lt_zero p)⟩
  | present k i below present =>
    obtain ⟨nonzero, before⟩ := here
    refine ⟨nonzero, fun p small inside => ?_⟩
    rcases Nat.lt_succ_iff_lt_or_eq.mp small with earlier | same
    · exact before p earlier inside
    · exact same ▸ present
  | allPresent k i past =>
    have held : lockMode (.isPresent (n := S.len) k i) ≠ none := by cases k <;> simp [lockMode]
    exact point_notPurged past here (matched rfl held) chain
  | clear m =>
    exact ⟨valid, o.region.clear_allPresent S.pages, [], rfl, rfl, fun _ => trivial⟩
  | noBuilder m => exact absurd rfl here.1
  | call m b rest mid touched =>
    obtain ⟨-, all, pre, shape, content, good⟩ := here
    exact ⟨all.touch touched, rfl, pre, shape, content, good⟩
  | builderReturned m b rest old mid c ok =>
    obtain ⟨all, undisturbed, pre, shape, rfl, good⟩ := here
    obtain ⟨effect, result, -⟩ := returned c ok rfl undisturbed
    cases ok with
    | false => trivial
    | true =>
      have content : c = replay (pre ++ [b]) := (effect rfl).trans (replay_append pre b).symm
      have extended := replays_extend good result rfl
      by_cases last : rest = []
      · subst last
        refine ⟨all, ?_, ?_⟩
        · exact content.trans (by rw [← shape]; rfl)
        · intro d
          exact shape ▸ extended d
      · have goes : afterBuilder (n := S.len) m rest true = .buildAll m rest := by
          simp [afterBuilder, last]
        rw [goes]
        exact ⟨last, all, pre ++ [b], by simpa [setContent] using shape, content, extended⟩
  | built m =>
    obtain ⟨all, content, good⟩ := here
    cases m with
    | read => trivial
    | write => exact ⟨all, content, rfl, good⟩
  | endAccess m =>
    rw [leave_valid valid]
    exact here
  | touch m p =>
    obtain ⟨all, known⟩ := here
    exact ⟨all.touch _, known⟩
  | append b mid touched =>
    obtain ⟨all, content, finished, good⟩ := here
    exact ⟨all.touch touched, rfl, content, finished, good⟩
  | modifierReturned b old mid c ok =>
    obtain ⟨all, undisturbed, rfl, finished, good⟩ := here
    obtain ⟨effect, kept, result⟩ := returned c ok rfl undisturbed
    cases ok with
    | false => exact ⟨all, kept rfl, finished, good⟩
    | true =>
      exact ⟨all, (effect rfl).trans (replay_append _ b).symm, finished,
        replays_extend good result rfl⟩
  | logged b => exact here
  | logFail => exact absurd rfl alloc
  | clearFail | rdlock | wrlock => trivial
  | beginIdle m => exact point_of_unlocked (lockMode_enter o m)
  | beginFailed m' m => exact point_of_unlocked (lockMode_enter o m)
  | getDone m => exact point_of_unlocked (lockMode_firstLock m)
  | wrUnlock m ret => exact point_of_unlocked (lockMode_afterUnlock m ret)
  | putDone r => exact point_of_unlocked (lockMode_afterPut r)
  | _ => exact point_of_unlocked rfl

theorem next_matched {t : T} {o o' : PurgMem T S.len} {pc pc' : Pc S.len} {c : Choice S.len}
    (alloc : c ≠ .allocFail)
    (returned : ∀ content ok, c = .ret content ok → Returned det o pc content ok)
    (matched : dirty pc = false → Matched S o)
    (chain : det → o.buildDataCount ≠ 0 → Replays (n := S.len) o.builder zeros)
    (here : Point det S o pc) (h : Next S t o pc c o' pc') (clean : dirty pc' = false) :
    Matched S o' := by
  have getPut : ∀ (r : Region S.len), r.content = o.region.content →
      (∀ p, r.present p = o.region.present p) → dirty pc = false →
      Matched S { o with region := r } := by
    intro r content present cleanBefore nonzero
    obtain ⟨same, finished⟩ := matched cleanBefore nonzero
    refine ⟨fun i kept => ?_, finished⟩
    simp only [present] at kept
    exact (congrFun content i).trans (same i kept)
  cases h with
  | get m i => exact getPut _ rfl (Region.getUxpteAt_present _ i) rfl
  | put r i => exact getPut _ rfl (Region.putUxpteAt_present _ i) rfl
  | touch m p =>
    obtain ⟨-, content, finished, -⟩ := here
    exact fun _ => ⟨Region.matches_of_eq content, finished⟩
  | builderReturned m b rest old mid c ok =>
    obtain ⟨-, undisturbed, pre, shape, rfl, -⟩ := here
    obtain ⟨-, result, failure⟩ := returned c ok rfl undisturbed
    cases ok with
    | true =>
      by_cases last : rest = [] <;> simp [afterBuilder, last, dirty] at clean
    | false =>
      intro nonzero
      exact absurd (count_zero_of_failure chain shape result (failure rfl)) nonzero
  | built m =>
    obtain ⟨-, content, -⟩ := here
    exact fun _ => ⟨Region.matches_of_eq content, rfl⟩
  | modifierReturned b old mid c ok =>
    obtain ⟨-, undisturbed, rfl, finished, -⟩ := here
    obtain ⟨-, kept, -⟩ := returned c ok rfl undisturbed
    cases ok with
    | true => simp [afterModifier, dirty] at clean
    | false => exact fun _ => ⟨Region.matches_of_eq (kept rfl), finished⟩
  | logged b =>
    obtain ⟨-, content, finished, -⟩ := here
    exact fun _ => ⟨Region.matches_of_eq content, finished⟩
  | noBuilder m => exact absurd rfl here.1
  | logFail => exact absurd rfl alloc
  | clear | call | append => simp [dirty] at clean
  | _ => exact matched rfl

theorem next_chain {t : T} {o o' : PurgMem T S.len} {pc pc' : Pc S.len} {c : Choice S.len}
    (chain : det → o.buildDataCount ≠ 0 → Replays (n := S.len) o.builder zeros)
    (here : Point det S o pc) (h : Next S t o pc c o' pc') :
    det → o'.buildDataCount ≠ 0 → Replays (n := S.len) o'.builder zeros := by
  cases h with
  | built m => exact fun d _ => here.2.2 d
  | logged b => exact fun d _ => here.2.2.2 d
  | _ => exact chain

theorem next_frame {t : T} {o o' : PurgMem T S.len} {pc pc' : Pc S.len} {c : Choice S.len}
    (notWriting : lockMode pc ≠ some .write) (h : Next S t o pc c o' pc') :
    o'.region.content = o.region.content ∧
    (∀ p, o.region.present p = true → o'.region.present p = true) ∧
    o'.builder = o.builder ∧ o'.buildDataCount = o.buildDataCount ∧
    o'.rebuildFailed = o.rebuildFailed := by
  cases h with
  | get m i => exact ⟨rfl, fun p held => by simpa using held, rfl, rfl, rfl⟩
  | put r i => exact ⟨rfl, fun p held => by simpa using held, rfl, rfl, rfl⟩
  | touch m p => exact ⟨rfl, fun q held => by simp [held], rfl, rfl, rfl⟩
  | clear | call | builderReturned | built | append | modifierReturned | logged =>
    exact absurd rfl notWriting
  | _ => exact ⟨rfl, fun _ held => held, rfl, rfl, rfl⟩

def Exclusive (s : State T n) : Prop :=
  ∀ t u, u ≠ t → lockMode (s.pc t) = some .write → lockMode (s.pc u) = none

theorem exclusive_of_agrees {s : State T n} (agrees : LockAgrees s) : Exclusive s := by
  intro t u other writing
  have excluded : lockMode (s.pc u) = none := agrees.exclusive writing other
  exact excluded

theorem all_clean {s : State T n} (exclusive : Exclusive s) {t : T} (clean : dirty (s.pc t) = false)
    (held : lockMode (s.pc t) ≠ none) (u : T) : dirty (s.pc u) = false := by
  by_cases same : u = t
  · rw [same, clean]
  · cases changing : dirty (s.pc u) with
    | false => rfl
    | true =>
      have writing : lockMode (s.pc u) = some .write := lockMode_of_dirty changing
      exact absurd (exclusive u t (Ne.symm same) writing) held

/-- The conditions under which the content can be relied on. -/
def Reliable (det : Prop) (s : State T n) (a : Action T n) : Prop :=
  (∀ t, a ≠ .thread t .allocFail) ∧
  ∀ t c ok, a = .thread t (.ret c ok) → Returned det s.obj (s.pc t) c ok

omit [DecidableEq T] in
theorem created_intact {s : State T S.len} (h : Created S s) : Intact det S s := by
  obtain ⟨-, zero, -, -, -, idle⟩ := h
  refine ⟨fun t => ?_, fun _ nonzero => absurd zero nonzero, fun _ nonzero => absurd zero nonzero⟩
  rw [idle t]
  trivial

theorem thread_intact {s : State T S.len} {t : T} {c : Choice S.len} {o : PurgMem T S.len}
    {pc : Pc S.len} (valid : s.obj.builder ≠ []) (exclusive : Exclusive s)
    (reliable : Reliable det s (.thread t c)) (intact : Intact det S s)
    (moved : Next S t s.obj (s.pc t) c o pc) :
    Intact det S { obj := o, pc := Function.update s.pc t pc } := by
  have alloc : c ≠ .allocFail := fun same => reliable.1 t (by rw [same])
  have returned : ∀ content ok, c = .ret content ok → Returned det s.obj (s.pc t) content ok :=
    fun content ok same => reliable.2 t content ok (by rw [same])
  constructor
  · -- The thread itself moved by the transition; the others are shut out or undisturbed.
    apply forall_update
    · refine next_point valid alloc returned ?_ intact.chain (intact.point t) moved
      intro clean held
      exact intact.matched (all_clean exclusive clean held)
    · intro u other
      by_cases writing : lockMode (s.pc t) = some .write
      · exact point_of_unlocked (exclusive t u other writing)
      · obtain ⟨content, present, builder, count, failed⟩ := next_frame writing moved
        exact (intact.point u).mono content present builder count failed
  · intro clean
    have own : dirty pc = false := by simpa using clean t
    refine next_matched alloc returned ?_ intact.chain (intact.point t) moved own
    intro cleanBefore
    apply intact.matched
    intro u
    by_cases same : u = t
    · rw [same, cleanBefore]
    · simpa [same] using clean u
  · exact next_chain intact.chain (intact.point t) moved

variable [Fintype T]

omit [DecidableEq T] in
theorem unlocked_of_reclaim {s : State T S.len} (balanced : PinsBalanced S s) {p : Nat}
    (below : p < S.pages) (zero : s.obj.region.refcnt p = 0) (t : T) : lockMode (s.pc t) = none := by
  by_contra held
  have pos := balanced.pos below (pinned_of_lockMode held p)
  omega

theorem step_intact {s s' : State T S.len} {a : Action T S.len} (valid : s.obj.builder ≠ [])
    (exclusive : Exclusive s) (balanced : PinsBalanced S s) (reliable : Reliable det s a)
    (intact : Intact det S s) (h : step S s a = some s') : Intact det S s' := by
  obtain ⟨t, c, o, pc, rfl, moved, rfl⟩ | ⟨p, rfl, below, zero, rfl⟩ := step_cases h
  · exact thread_intact valid exclusive reliable intact moved
  · refine ⟨fun t => point_of_unlocked (unlocked_of_reclaim balanced below zero t), ?_, intact.chain⟩
    intro clean nonzero
    obtain ⟨same, finished⟩ := intact.matched clean nonzero
    exact ⟨same.reclaim below, finished⟩

theorem reach_intact {ok : State T S.len → Action T S.len → Prop}
    (exclusive : ∀ s, (accesses S).Reach ok s → Exclusive s)
    (reliable : ∀ s a, ok s a → Reliable det s a) {s : State T S.len}
    (reach : (accesses S).Reach ok s) : Intact det S s := by
  induction reach with
  | init created => exact created_intact created
  | step before permitted stepped ih =>
    exact step_intact (reach_valid before) (exclusive _ before) (reach_pinsBalanced before)
      (reliable _ _ permitted) ih stepped

/-! ### The replay contract -/

/-- Every pthread and allocation call succeeds, a user function that was not disturbed is the
function it stands for, and one that fails leaves the content unchanged. -/
def Contract (s : State T n) (a : Action T n) : Prop :=
  (∀ t, a ≠ .thread t .lockFail) ∧ (∀ t, a ≠ .thread t .allocFail) ∧
  ∀ t c ok, a = .thread t (.ret c ok) →
    match s.pc t with
    | .building _ b _ old mid | .modifying b old mid =>
        s.obj.region.content = mid → (c, ok) = b n old ∧ (ok = false → c = old)
    | _ => True

def inUserCall : Pc n → Bool
  | .building _ _ _ _ _ | .modifying _ _ _ => true
  | _ => false

/-- The modifier that has returned true and is about to be logged. -/
def pending : Pc n → List Builder
  | .logging b => [b]
  | _ => []

omit [DecidableEq T] [Fintype T] in
theorem contract_reliable {s : State T n} {a : Action T n} (h : Contract s a) : Reliable True s a := by
  obtain ⟨-, alloc, calls⟩ := h
  refine ⟨alloc, fun t c ok returns => ?_⟩
  have call := calls t c ok returns
  cases at_pc : s.pc t with
  | building m b rest old mid =>
    rw [at_pc] at call
    intro undisturbed
    obtain ⟨result, -⟩ := call undisturbed
    exact ⟨fun _ => congrArg Prod.fst result, fun _ => congrArg Prod.snd result, fun _ => .inl trivial⟩
  | modifying b old mid =>
    rw [at_pc] at call
    intro undisturbed
    obtain ⟨result, kept⟩ := call undisturbed
    exact ⟨fun _ => congrArg Prod.fst result, kept, fun _ => congrArg Prod.snd result⟩
  | _ => trivial

/-- While some access is open and no user function runs, no page can be reclaimed and the content
is the replay over zeros of the modifiers that returned true, in order. -/
theorem open_access_content (S : Setup) (s : State T S.len) (reach : (accesses S).Reach Contract s)
    (t : T) (m : Mode) (opened : openAccess (s.pc t) = some m)
    (quiet : ∀ u, inUserCall (s.pc u) = false) :
    (∀ p, step S s (.reclaim p) = none) ∧
    s.obj.region.content = replay (s.obj.builder ++ pending (s.pc t)) := by
  have held : lockMode (s.pc t) ≠ none := by simp [lockMode_of_openAccess opened]
  constructor
  · intro p
    simp only [step]
    rw [if_neg]
    rintro ⟨below, zero⟩
    exact held (unlocked_of_reclaim (reach_pinsBalanced reach) below zero t)
  · have exclusive : ∀ s : State T S.len, (accesses S).Reach Contract s → Exclusive s :=
      fun _ before => exclusive_of_agrees (reach_lockAgrees (fun _ _ contract => contract.1) before)
    have here := (reach_intact exclusive (fun _ _ => contract_reliable) reach).point t
    have still := quiet t
    cases at_pc : s.pc t <;> rw [at_pc] at opened here still <;>
      simp only [openAccess, inUserCall, reduceCtorEq, Bool.true_eq_false] at opened still
    case inside | endUnlock => simpa [pending] using here.2.1
    case logging => exact here.2.1

def contractHolds (s : State T n) : Action T n → Bool
  | .thread _ .lockFail | .thread _ .allocFail => false
  | .thread t (.ret c ok) =>
    match s.pc t with
    | .building _ b _ old _ | .modifying b old _ => decide ((c, ok) = b n old ∧ (ok = false → c = old))
    | _ => true
  | _ => true

omit [DecidableEq T] [Fintype T] in
theorem contractHolds_sound (s : State T n) (a : Action T n) (h : contractHolds s a = true) :
    Contract s a := by
  refine ⟨?_, ?_, ?_⟩
  · rintro t rfl
    simp [contractHolds] at h
  · rintro t rfl
    simp [contractHolds] at h
  · rintro t c ok rfl
    cases at_pc : s.pc t with
    | building m b rest old mid | modifying b old mid =>
      simp only [contractHolds, at_pc, decide_eq_true_eq] at h
      exact fun _ => h
    | _ => trivial

/-- A write section with one modification, the loss of the page, and a read that rebuilds it. -/
def modifiedThenRead : List (Action Bool oneByte.len) := List.flatten
  [[.thread true (.beginAccess .write)], List.replicate 5 (.thread true .step),
    [.thread true (.call zeros fun _ => false), .thread true (.ret (fun _ => 7) true), .thread true .step,
      .thread true (.append (fill 9) zeros fun _ => false), .thread true (.ret (fun _ => 9) true),
      .thread true .step, .thread true .endAccess],
    List.replicate 3 (.thread true .step), [.reclaim 0, .thread false (.beginAccess .read)],
    List.replicate 10 (.thread false .step),
    [.thread false (.call zeros fun _ => false), .thread false (.ret (fun _ => 7) true),
      .thread false (.call zeros fun _ => false), .thread false (.ret (fun _ => 9) true)],
    List.replicate 6 (.thread false .step)]

theorem modification_survives_reclaim :
    ∃ s : State Bool oneByte.len, (accesses oneByte).run (fresh Bool) modifiedThenRead = some s ∧
      (accesses oneByte).Reach Contract s ∧ openAccess (s.pc false) = some .read ∧
      step oneByte s (.reclaim 0) = none ∧
      s.obj.region.content = replay (s.obj.builder ++ pending (s.pc false)) ∧ s.obj.builder.length = 2 ∧
      s.obj.region.content ⟨0, oneByte.len_pos⟩ = 9 := by
  have along : (accesses oneByte).Along Contract (fresh Bool) modifiedThenRead :=
    System.along_of_checks contractHolds_sound (by decide)
  have ends : ((accesses oneByte).run (fresh Bool) modifiedThenRead).map (fun s =>
      (openAccess (s.pc false), (fun t => inUserCall (s.pc t)), s.obj.builder.length,
        s.obj.region.content ⟨0, oneByte.len_pos⟩)) = some (some .read, (fun _ => false), 2, 9) := by decide
  obtain ⟨s, ran, seen⟩ := Option.map_eq_some_iff.mp ends
  simp only [Prod.mk.injEq] at seen
  obtain ⟨opened, quiet, two, byte⟩ := seen
  have reach : (accesses oneByte).Reach Contract s := .of_run _ (.init (fresh_created Bool)) along ran
  obtain ⟨safe, content⟩ := open_access_content oneByte s reach false .read opened (congrFun quiet)
  exact ⟨s, ran, reach, opened, safe 0, content, two, byte⟩

end MemoryUtils.C
