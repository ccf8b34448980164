import MemoryUtils.Cpp.PinBalance
import MemoryUtils.Cpp.Replay

/-!
The replay contracts of the two classes. The refcounts guard the pages of a `PurgeableMem`; the pin
count of the ashmem file guards a `PurgeableAshMem`, whose purged flag also outlives a rebuild that
failed.
-/

namespace MemoryUtils.Cpp
open Lib

theorem undisturbed {K : Type} {lawful : K → Prop} {steps : List K} (none_ : steps = []) :
    ∀ k ∈ steps, lawful k := by
  simp [none_]

def failing {n : Nat} {K : Type} : Env n K := { call := fun _ _ => { fault := some fun _ => zeros } }

/-! ### Pages behind refcounts -/

namespace PurgeableMem

variable {S : Setup}

def Held (S : Setup) (m : Nat) (r : Region S.len) : Prop := ∀ p < S.pages, (m : Int) ≤ r.refcnt p

def lawful (k : PageStep) : Prop := ∃ p, k = .reclaim p

abbrev Waits (S : Setup) (between : Nat → Region S.len → Region S.len) : Prop :=
  Yields (virtuals S .ready) lawful between

theorem kernel_still {m : Nat} {r : Region S.len} {k : PageStep} (allowed : lawful k)
    (held : Held S (m + 1) r) : kernel S r k = r := by
  obtain ⟨p, rfl⟩ := allowed
  have pinned : ¬ (p < S.pages ∧ r.refcnt p = 0) := by
    rintro ⟨below, zero⟩
    have count := held p below
    omega
  simp [kernel, pinned]

theorem kernel_matches {r : Region S.len} {k : PageStep} {c : Content S.len} (allowed : lawful k)
    (matched : r.Matches S.pages c) : (kernel S r k).Matches S.pages c := by
  obtain ⟨p, rfl⟩ := allowed
  rw [kernel]
  split
  · rename_i enabled
    exact matched.reclaim enabled.1
  · exact matched

section Loops

variable {between : Nat → Region S.len → Region S.len} (waits : Waits S between)

include waits

theorem between_refcnt (p i : Nat) (r : Region S.len) : (between i r).refcnt p = r.refcnt p :=
  waits.keep (P := fun r' => r'.refcnt p = r.refcnt p)
    (fun r' k _ same => (kernel_refcnt r' k p).trans same) i rfl

theorem between_still {m : Nat} {r : Region S.len} (held : Held S (m + 1) r) (i : Nat) :
    between i r = r :=
  waits.keep (P := fun r' => r' = r)
    (fun _ _ allowed same => by rw [same]; exact kernel_still allowed held) i rfl

theorem uxpteOps_matches {op : Region S.len → Nat → Region S.len} {c : Content S.len}
    (keep : ∀ r i, r.Matches S.pages c → (op r i).Matches S.pages c) (pages : List Nat)
    {r : Region S.len} (matched : r.Matches S.pages c) :
    (uxpteOps op between pages r).Matches S.pages c := by
  unfold uxpteOps
  induction pages generalizing r with
  | nil => exact matched
  | cons i rest ih =>
    refine ih (keep _ i ?_)
    exact waits.keep (P := fun r => r.Matches S.pages c) (fun _ _ allowed => kernel_matches allowed) i matched

/-- As long as every page keeps a pin, getting and putting lose no page. An operation takes at most
`loss` pins from its page. -/
theorem uxpteOps_present {op : Region S.len → Nat → Region S.len} (loss : Nat)
    (one : ∀ r i p, r.refcnt p - (if p = i then (loss : Int) else 0) ≤ (op r i).refcnt p)
    (keep : ∀ r i p, (op r i).present p = r.present p) (pages : List Nat) {r : Region S.len}
    (enough : ∀ p < S.pages, ((1 + loss * pages.count p : Nat) : Int) ≤ r.refcnt p)
    (all : r.AllPresent S.pages) : (uxpteOps op between pages r).AllPresent S.pages := by
  unfold uxpteOps
  induction pages generalizing r with
  | nil => exact all
  | cons i rest ih =>
    have held : Held S (0 + 1) r := by
      intro p below
      have count := enough p below
      omega
    rw [List.foldl_cons, between_still waits held i]
    refine ih (fun p below => ?_) fun p below => ?_
    · have count := enough p below
      have change := one r i p
      by_cases here : p = i
      · subst here
        rw [List.count_cons_self, Nat.mul_succ] at count
        simp only [if_true] at change
        omega
      · rw [List.count_cons_of_ne (Ne.symm here)] at count
        simp only [here, if_false] at change
        omega
    · rw [keep]
      exact all p below

theorem uxpteIsPresent_still {m : Nat} {r : Region S.len} (held : Held S (m + 1) r) (pages : List Nat) :
    uxpteIsPresent between pages r = (r, pages.all fun i => r.present i) := by
  induction pages with
  | nil => rfl
  | cons i rest ih =>
    rw [uxpteIsPresent, between_still waits held i, ih]
    cases here : r.present i <;> simp [here]

theorem pin_refcnt {p : Nat} (below : p < S.pages) (r : Region S.len) :
    (pin S .ready between r).refcnt p = r.refcnt p + 1 :=
  (pinLaws S below).pin between r fun i r => between_refcnt waits p i r

theorem unpin_refcnt {p : Nat} (below : p < S.pages) (r : Region S.len) :
    (unpin S .ready between r).refcnt p = r.refcnt p - 1 :=
  (pinLaws S below).unpin between r fun i r => between_refcnt waits p i r

theorem pin_held {m : Nat} {r : Region S.len} (held : Held S m r) :
    Held S (m + 1) (pin S .ready between r) := by
  intro p below
  have count := held p below
  rw [pin_refcnt waits below]
  omega

theorem unpin_held {m : Nat} {r : Region S.len} (held : Held S (m + 1) r) :
    Held S m (unpin S .ready between r) := by
  intro p below
  have count := held p below
  rw [unpin_refcnt waits below]
  omega

end Loops

def guard (S : Setup) : Guard (virtuals S .ready) where
  lawful := lawful
  Held := Held S
  Intact c r := r.Matches S.pages c
  Whole r := r.AllPresent S.pages
  Cleared r := r.AllPresent S.pages
  tolerant := False
  held_pred held p below := by
    have count := held p below
    omega
  intact_of_content same := Region.matches_of_eq same
  content_of_whole matched all := matched.content_eq all
  intact_of_lost impossible := impossible.elim
  kernel_held _ held p below := by
    refine (held p below).trans_eq ?_
    exact (kernel_refcnt _ _ p).symm
  kernel_still allowed held := kernel_still allowed held
  kernel_intact allowed matched := kernel_matches allowed matched
  store_held held := held
  store_content := rfl
  store_whole all := all.touch _
  store_lost impossible := impossible.elim
  store_cleared all := all.touch _
  clear_held held := held
  clear_content := rfl
  clear_lost impossible := impossible.elim
  clear_cleared := Region.clear_allPresent _ _
  rebuilt_held held := held
  rebuilt_content := rfl
  rebuilt_whole all := all
  pin_held waits held := pin_held waits held
  pin_intact waits matched := by
    refine uxpteOps_matches waits (fun r i matched j kept => ?_) _ matched
    exact matched j fun below => by simpa using kept below
  pin_whole waits held all := by
    refine uxpteOps_present waits 0 (fun r i p => ?_) (fun r i p => r.getUxpteAt_present i p) _
      (fun p below => ?_) all
    · rw [r.getUxpteAt_refcnt i p]
      split <;> omega
    · have count := held p below
      omega
  unpin_held waits held := unpin_held waits held
  unpin_intact waits matched := by
    refine uxpteOps_matches waits (fun r i matched j kept => ?_) _ matched
    exact matched j fun below => by simpa using kept below
  unpin_whole waits held all := by
    refine uxpteOps_present waits 1 (fun r i p => ?_) (fun r i p => r.putUxpteAt_present i p) _
      (fun p below => ?_) all
    · rw [r.putUxpteAt_refcnt i p]
      split <;> omega
    · have count := held p below
      rw [count_range_of_lt below]
      omega
  isPurged_still waits held := by
    have still := uxpteIsPresent_still waits held (List.range S.pages)
    simp only [virtuals, isPurged, still, true_and]
    simp [Region.AllPresent]

/-- Without uxpt nothing is pinned and nothing is lost, whatever became of the page table. -/
theorem virtuals_eq_ready {pageTable : PageTable}
    (usable : pageTable = .ready ∨ S.supportUxpt = false) :
    virtuals S pageTable = virtuals S .ready := by
  rcases usable with rfl | without
  · rfl
  · have none_ : S.pages = 0 := by simp [Setup.pages, without]
    have pinSame : pin S pageTable = pin S .ready := by
      funext between r
      cases pageTable <;> simp [pin, uxpteOps, none_]
    have unpinSame : unpin S pageTable = unpin S .ready := by
      funext between r
      cases pageTable <;> simp [unpin, uxpteOps, none_]
    have purgedSame : isPurged S pageTable = isPurged S .ready := by
      funext between r
      cases pageTable <;> simp [isPurged, uxpteIsPresent, none_, without]
    rw [virtuals, pinSame, unpinSame, purgedSame]
    rfl

def Faultless {n : Nat} {D K : Type} (E : Env n K) (_ : Base D) : Prop := ∀ t j, (E.call t j).fault = none

theorem faultless_careful (E : Env S.len PageStep) (o : Base (Region S.len)) (faultless : Faultless E o) :
    Careful (guard S) E o := fun _ => .inr faultless

theorem replaying_of_reach {pageTable : PageTable} (usable : pageTable = .ready ∨ S.supportUxpt = false)
    {s : State (Region S.len)}
    (reach : (calls (virtuals S pageTable) (Fresh S)).Reach (Usage lawful Faultless) s) : Replaying (guard S) s := by
  rw [virtuals_eq_ready usable] at reach
  refine reach_replaying (fun r fresh p _ => ?_) (reach.mono fun s a => Usage.imp faultless_careful)
  exact (fresh p).ge

theorem shows_of_replaying {s : State (Region S.len)} (replaying : Replaying (guard S) s) (few : s.obj.rebuilds < 2 ^ 32)
    (opened : 0 < s.opens) :
    (∀ p < S.pages, 0 < s.obj.data.refcnt p ∧ s.obj.data.present p = true) ∧
      s.obj.data.content = replay s.obj.builder := by
  have nonzero := replaying.count_ne_zero opened few
  refine ⟨fun p below => ⟨?_, replaying.ready opened nonzero p below⟩, replaying.content opened nonzero⟩
  have count := replaying.held p below
  omega

/-- With deterministic builders, whatever overlaps: an open access has every page pinned and present
and sees the replay of the chain, and no call clears the content under it. -/
theorem open_access_shows_replay {pageTable : PageTable} (usable : pageTable = .ready ∨ S.supportUxpt = false)
    {s : State (Region S.len)}
    (reach : (calls (virtuals S pageTable) (Fresh S)).Reach (Usage lawful Faultless) s)
    (few : s.obj.rebuilds < 2 ^ 32) (opened : 0 < s.opens) :
    (∀ p < S.pages, 0 < s.obj.data.refcnt p ∧ s.obj.data.present p = true) ∧
      s.obj.data.content = replay s.obj.builder ∧
      ∀ a t, Usage lawful Faultless s a → (calls (virtuals S pageTable) (Fresh S)).step s a = some t →
        t.obj.clears = s.obj.clears := by
  have replaying := replaying_of_reach usable reach
  obtain ⟨pages, content⟩ := shows_of_replaying replaying few opened
  rw [virtuals_eq_ready usable]
  refine ⟨pages, content, fun a t usage stepped => ?_⟩
  exact step_clears replaying (usage.imp faultless_careful) opened (replaying.count_ne_zero opened few) stepped

def overlapping : List (Action oneByte.len PageStep) := [.beginWrite {}, .kernel (.reclaim 0), .beginRead {}]

theorem overlapping_usage : ∀ a ∈ overlapping, ∀ s : State (Region oneByte.len), Usage lawful Faultless s a := by
  intro a member s
  simp only [overlapping, List.mem_cons, List.not_mem_nil, or_false] at member
  obtain rfl | rfl | rfl := member
  · exact ⟨fun _ => undisturbed rfl, fun _ _ => rfl⟩
  · exact ⟨0, rfl⟩
  · exact ⟨fun _ => undisturbed rfl, fun _ _ => rfl⟩

theorem overlapping_accesses_show_replay :
    ∃ s, (calls (virtuals oneByte .ready) (Fresh oneByte)).Reach (Usage lawful Faultless) s ∧ s.opens = 2 ∧
      s.obj.data.present 0 = true ∧ s.obj.data.content = replay s.obj.builder := by
  obtain ⟨s, reach, seen⟩ := System.exists_reach_of_forall
    (S := calls (virtuals oneByte .ready) (Fresh oneByte)) freshMem_init overlapping overlapping_usage
    (fun s => (s.opens, s.obj.rebuilds)) (v := (2, 1)) (by decide)
  obtain ⟨opened, few⟩ := Prod.mk.inj seen
  obtain ⟨pages, content, -⟩ := open_access_shows_replay (.inl rfl) reach (by omega) (by omega)
  exact ⟨s, reach, opened, (pages 0 (by decide)).2, content⟩

end PurgeableMem

/-! ### An ashmem file behind its pin count -/

namespace PurgeableAshMem

variable {n : Nat} {isSupport : Bool} {ashmemFd : Int}

def lawful (k : AshmemStep) : Prop := k = .purge

/-- A file that the library does not pin keeps the pin of its creation. -/
def Held (isSupport : Bool) (ashmemFd : Int) (m : Nat) (d : Ashmem n) : Prop :=
  if isSupport = true ∧ ashmemFd > 0 then (m : Int) ≤ d.pinCount else 1 ≤ d.pinCount ∧ d.purged = false

theorem kernel_still {m : Nat} {d : Ashmem n} {k : AshmemStep} (allowed : lawful k)
    (held : Held isSupport ashmemFd (m + 1) d) : kernel d k = d := by
  subst allowed
  have pinned : d.pinCount ≠ 0 := by
    unfold Held at held
    split at held <;> omega
  simp [kernel, pinned]

theorem kernel_pinCount (d : Ashmem n) (k : AshmemStep) : (kernel d k).pinCount = d.pinCount := by
  cases k with
  | purge =>
    rw [kernel]
    split <;> rfl
  | setPurged purged => rfl

theorem kernel_held {m : Nat} {d : Ashmem n} {k : AshmemStep} (allowed : lawful k)
    (held : Held isSupport ashmemFd m d) : Held isSupport ashmemFd m (kernel d k) := by
  have count := kernel_pinCount d k
  unfold Held at held ⊢
  split at held
  · rename_i active
    rw [if_pos active, count]
    exact held
  · rename_i inactive
    subst allowed
    have pinned : d.pinCount ≠ 0 := by omega
    simpa [kernel, pinned, inactive] using held

theorem kernel_intact {c : Content n} {d : Ashmem n} {k : AshmemStep} (allowed : lawful k)
    (intact : d.purged = false → d.content = c) :
    (kernel d k).purged = false → (kernel d k).content = c := by
  subst allowed
  rw [kernel]
  split
  · simp
  · exact intact

theorem pin_of_inactive {between : Nat → Ashmem n → Ashmem n} {d : Ashmem n}
    (inactive : ¬ (isSupport = true ∧ ashmemFd > 0)) : pin isSupport ashmemFd between d = d := by
  unfold pin
  split
  · rfl
  · rename_i supported
    exact if_neg fun opened => inactive ⟨by simpa using supported, opened⟩

theorem unpin_of_inactive {between : Nat → Ashmem n → Ashmem n} {d : Ashmem n}
    (inactive : ¬ (isSupport = true ∧ ashmemFd > 0)) : unpin isSupport ashmemFd between d = d := by
  unfold unpin
  split
  · rfl
  · rename_i supported
    exact if_neg fun opened => inactive ⟨by simpa using supported, opened⟩

section Between

variable {between : Nat → Ashmem n → Ashmem n}
  (waits : Yields (virtuals n isSupport ashmemFd) lawful between)

include waits

theorem between_pinCount (i : Nat) (d : Ashmem n) : (between i d).pinCount = d.pinCount :=
  waits.keep (P := fun d' => d'.pinCount = d.pinCount)
    (fun d' k _ same => (kernel_pinCount d' k).trans same) i rfl

theorem between_intact {c : Content n} {d : Ashmem n} (i : Nat) (intact : d.purged = false → d.content = c) :
    (between i d).purged = false → (between i d).content = c :=
  waits.keep (P := fun d' => d'.purged = false → d'.content = c)
    (fun _ _ allowed before => kernel_intact allowed before) i intact

theorem between_still {m : Nat} {d : Ashmem n} (held : Held isSupport ashmemFd (m + 1) d) (i : Nat) :
    between i d = d :=
  waits.keep (P := fun d' => d' = d)
    (fun _ _ allowed same => by rw [same]; exact kernel_still allowed held) i rfl

theorem pin_held {m : Nat} {d : Ashmem n} (held : Held isSupport ashmemFd m d) :
    Held isSupport ashmemFd (m + 1) (pin isSupport ashmemFd between d) := by
  have count := between_pinCount waits 0 d
  unfold Held at held ⊢
  split at held
  · rename_i active
    simp only [pin, active, Bool.not_true, Bool.false_eq_true, if_false, if_true, and_self, count]
    omega
  · rename_i inactive
    rw [pin_of_inactive inactive, if_neg inactive]
    exact held

theorem unpin_held {m : Nat} {d : Ashmem n} (held : Held isSupport ashmemFd (m + 1) d) :
    Held isSupport ashmemFd m (unpin isSupport ashmemFd between d) := by
  have count := between_pinCount waits 0 d
  unfold Held at held ⊢
  split at held
  · rename_i active
    simp only [unpin, active, Bool.not_true, Bool.false_eq_true, if_false, if_true, and_self, count]
    omega
  · rename_i inactive
    rw [unpin_of_inactive inactive, if_neg inactive]
    exact held

end Between

def guard (n : Nat) (isSupport : Bool) (ashmemFd : Int) : Guard (virtuals n isSupport ashmemFd) where
  lawful := lawful
  Held := Held isSupport ashmemFd
  Intact c d := d.purged = false → d.content = c
  Whole d := d.purged = false
  Cleared _ := True
  tolerant := True
  held_pred held := by
    unfold Held at held ⊢
    split at held <;> simp_all
    omega
  intact_of_content same _ := same
  content_of_whole intact whole := intact whole
  intact_of_lost _ lost whole := absurd whole lost
  kernel_held allowed held := kernel_held allowed held
  kernel_still allowed held := kernel_still allowed held
  kernel_intact allowed intact := kernel_intact allowed intact
  store_held held := held
  store_content := rfl
  store_whole whole := whole
  store_lost _ lost := lost
  store_cleared _ := trivial
  clear_held held := held
  clear_content := rfl
  clear_lost _ lost := lost
  clear_cleared := trivial
  rebuilt_held held := by
    unfold Held at held ⊢
    split at held
    · rename_i active
      simpa [virtuals, active] using held
    · rename_i inactive
      simpa [virtuals, inactive] using held.1
  rebuilt_content := rfl
  rebuilt_whole _ := rfl
  pin_held waits held := pin_held waits held
  pin_intact waits intact := by
    simp only [virtuals, pin]
    repeat' split
    all_goals first | exact intact | exact between_intact waits 0 intact
  pin_whole waits held whole := by
    simp only [virtuals, pin, between_still waits held]
    repeat' split
    all_goals exact whole
  unpin_held waits held := unpin_held waits held
  unpin_intact waits intact := by
    simp only [virtuals, unpin]
    repeat' split
    all_goals first | exact intact | exact between_intact waits 0 intact
  unpin_whole waits held whole := by
    simp only [virtuals, unpin, between_still waits held]
    repeat' split
    all_goals exact whole
  isPurged_still waits held := by
    simp only [virtuals, isPurged, between_still waits held]
    split
    · rename_i unsupported
      have inactive : ¬ (isSupport = true ∧ ashmemFd > 0) := by simp_all
      rw [Held, if_neg inactive] at held
      exact ⟨rfl, by simp [held.2]⟩
    · exact ⟨rfl, Iff.rfl⟩

theorem held_of_fresh {d : Ashmem n} (fresh : Fresh isSupport ashmemFd d) : Held isSupport ashmemFd 0 d := by
  obtain ⟨mapped, one, unpurged, rfl⟩ := fresh
  unfold Held
  split
  · rename_i active
    simp [unpin, active, one]
  · rename_i inactive
    rw [unpin_of_inactive inactive]
    exact ⟨one.ge, unpurged⟩

/-- Builders may fail in a rebuild: an open access still keeps the file from being purged and sees the
replay of the chain. -/
theorem open_access_unpurged_replay {s : State (Ashmem n)}
    (reach : (calls (virtuals n isSupport ashmemFd) (Fresh isSupport ashmemFd)).Reach
      (Usage lawful fun _ _ => True) s)
    (few : s.obj.rebuilds < 2 ^ 32) (opened : 0 < s.opens) :
    s.obj.data.pinCount ≠ 0 ∧ s.obj.data.content = replay s.obj.builder := by
  have replaying : Replaying (guard n isSupport ashmemFd) s := by
    exact reach_replaying (fun d fresh => held_of_fresh fresh)
      (reach.mono fun s a => Usage.imp fun E o _ _ => .inl trivial)
  have nonzero := replaying.count_ne_zero opened few
  refine ⟨?_, replaying.content opened nonzero⟩
  have held := replaying.held
  simp only [guard, Held] at held
  split at held <;> omega

def freshAsh : State (Ashmem 1) :=
  { obj := { data := { content := zeros, pinCount := 0, purged := false }, dataPtr := true, builder := [fill 7] } }

theorem freshAsh_init : (calls (virtuals 1 true 3) (Fresh true 3)).init freshAsh :=
  ⟨⟨{ content := zeros, pinCount := 1, purged := false }, rfl, rfl, rfl⟩, rfl, rfl, rfl, rfl, rfl, rfl⟩

/-- A read, a purge, a read whose rebuild fails, and one more read. -/
def retriedRead : List (Action 1 AshmemStep) :=
  [.beginRead {}, .endRead {}, .kernel .purge, .beginRead failing, .beginRead {}]

theorem retriedRead_usage : ∀ a ∈ retriedRead, ∀ s : State (Ashmem 1), Usage lawful (fun _ _ => True) s a := by
  intro a member s
  simp only [retriedRead, List.mem_cons, List.not_mem_nil, or_false] at member
  obtain rfl | rfl | rfl | rfl | rfl := member
  · exact ⟨fun _ => undisturbed rfl, trivial⟩
  · exact fun _ => undisturbed rfl
  · exact rfl
  · exact ⟨fun _ => undisturbed rfl, trivial⟩
  · exact ⟨fun _ => undisturbed rfl, trivial⟩

theorem retried_read_shows_replay :
    ∃ s, (calls (virtuals 1 true 3) (Fresh true 3)).Reach (Usage lawful fun _ _ => True) s ∧
      s.opens = 1 ∧ s.obj.clears = 3 ∧ s.obj.data.pinCount ≠ 0 ∧
      s.obj.data.content = replay s.obj.builder := by
  obtain ⟨s, reach, seen⟩ := System.exists_reach_of_forall (S := calls (virtuals 1 true 3) (Fresh true 3))
    freshAsh_init retriedRead retriedRead_usage (fun s => (s.opens, s.obj.clears, s.obj.rebuilds))
    (v := (1, 3, 2)) (by decide)
  simp only [Prod.mk.injEq] at seen
  obtain ⟨opened, clears, few⟩ := seen
  obtain ⟨pinned, content⟩ := open_access_unpurged_replay reach (by omega) (by omega)
  exact ⟨s, reach, opened, clears, pinned, content⟩

end PurgeableAshMem

end MemoryUtils.Cpp
