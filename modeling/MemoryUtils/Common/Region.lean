import Mathlib.Logic.Function.Basic
import Mathlib.Algebra.Group.Nat.Defs
import Mathlib.Data.Int.Basic

/-!
The memory of one purgeable object: its bytes, one user extended page table entry for each
page, and what the kernel and the library may do to them. A page whose entry has refcount 0
may be reclaimed at any time: its bytes become zero and its present bit is cleared. Touching a
page sets its present bit. The content is recovered by running a chain of builders over zeros.
-/

namespace MemoryUtils

def pageShift : Nat := 12
def pageSize : Nat := 1 <<< pageShift

theorem pageSize_eq : pageSize = 4096 := rfl

/-- `RoundUp` on a 64-bit `size_t`. -/
def roundUp (val align : Nat) : Nat :=
  if (val + align) % 2 ^ 64 < val ∨ (val + align) % 2 ^ 64 < align then val
  else if align = 0 then val
  else (val + align - 1) % 2 ^ 64 / align * align

theorem roundUp_page {val : Nat} (fits : val + pageSize < 2 ^ 64) :
    roundUp val pageSize = (val + (pageSize - 1)) / pageSize * pageSize := by
  have size := pageSize_eq
  rw [roundUp, if_neg (by omega), if_neg (by omega)]
  simp only [pageSize_eq] at fits ⊢
  omega

/-- The limit of the bounds-checked library on the destination size. -/
def securecMemMaxLen : Nat := 0x7fffffff

/-- `memset_s` returns `EOK`; in every other case it reports an error. -/
def memsetSucceeds (destMax count : Nat) : Bool :=
  decide (0 < destMax ∧ destMax ≤ securecMemMaxLen ∧ count ≤ destMax)

abbrev Content (n : Nat) := Fin n → UInt8

def zeros {n : Nat} : Content n := fun _ => 0

/-! ### Builders -/

/-- A build function with its own parameter applied: from the size and the content it leaves a
content and a result. -/
abbrev Builder := (size : Nat) → Content size → Content size × Bool

variable {n : Nat}

/-- `PurgMemBuilderBuildAll` and `PurgeableMemBuilder::BuildAll`; the empty chain is the null
builder. -/
def buildAll : List Builder → Content n → Content n × Bool
  | [], c => (c, false)
  | b :: rest, c =>
    match b n c with
    | (c', false) => (c', false)
    | (c', true) => if rest.isEmpty then (c', true) else buildAll rest c'

/-- The content that the builders leave, each one taken to succeed. -/
def replayFrom (chain : List Builder) (c : Content n) : Content n :=
  chain.foldl (fun c b => (b n c).1) c

def replay (chain : List Builder) : Content n := replayFrom chain zeros

def Replays : List Builder → Content n → Prop
  | [], _ => True
  | b :: rest, c => (b n c).2 = true ∧ Replays rest (b n c).1

theorem replayFrom_append (chain : List Builder) (b : Builder) (c : Content n) :
    replayFrom (chain ++ [b]) c = (b n (replayFrom chain c)).1 := by
  simp [replayFrom]

theorem replays_append {chain : List Builder} {b : Builder} {c : Content n} :
    Replays (chain ++ [b]) c ↔ Replays chain c ∧ (b n (replayFrom chain c)).2 = true := by
  induction chain generalizing c with
  | nil => simp [Replays, replayFrom]
  | cons first rest ih =>
    simp only [List.cons_append, Replays, ih, and_assoc]
    rfl

theorem buildAll_of_replays {chain : List Builder} {c : Content n} (nonempty : chain ≠ [])
    (good : Replays chain c) : buildAll chain c = (replayFrom chain c, true) := by
  induction chain generalizing c with
  | nil => exact absurd rfl nonempty
  | cons b rest ih =>
    obtain ⟨first, later⟩ := good
    have call : b n c = ((b n c).1, true) := Prod.ext rfl first
    rw [buildAll, call]
    cases rest with
    | nil => rfl
    | cons next rest => exact ih (by simp) later

/-- The builders run in the order of the chain and stop at the first that fails, with the content as
it left it. -/
def BuiltInOrder (chain : List Builder) (c : Content n) (result : Content n × Bool) : Prop :=
  (Replays chain c ∧ result = (replayFrom chain c, true)) ∨
  ∃ before b after, chain = before ++ b :: after ∧ Replays before c ∧
    (b n (replayFrom before c)).2 = false ∧ result = ((b n (replayFrom before c)).1, false)

theorem buildAll_cons (b : Builder) {rest : List Builder} (more : rest ≠ []) (c : Content n) :
    buildAll (b :: rest) c = if (b n c).2 then buildAll rest (b n c).1 else ((b n c).1, false) := by
  have last : rest.isEmpty = false := by simpa using more
  rw [buildAll]
  rcases b n c with ⟨c', _ | _⟩ <;> simp [last]

theorem buildAll_builtInOrder {chain : List Builder} (nonempty : chain ≠ []) (c : Content n) :
    BuiltInOrder chain c (buildAll chain c) := by
  induction chain generalizing c with
  | nil => exact absurd rfl nonempty
  | cons b rest ih =>
    rcases call : b n c with ⟨c', _ | _⟩
    · refine .inr ⟨[], b, rest, rfl, trivial, ?_, ?_⟩
      · simp [replayFrom, call]
      · simp [replayFrom, buildAll, call]
    · by_cases last : rest = []
      · subst last
        exact .inl ⟨⟨by rw [call], trivial⟩, by simp [buildAll, replayFrom, call]⟩
      · rw [buildAll_cons b last, call]
        obtain ⟨good, result⟩ | ⟨before, bad, after, rfl, good, fails, result⟩ := ih last c'
        · exact .inl ⟨⟨by rw [call], by rw [call]; exact good⟩, by simp [result, replayFrom, call]⟩
        · refine .inr ⟨b :: before, bad, after, rfl, ⟨by rw [call], by rw [call]; exact good⟩, ?_, ?_⟩
          · simpa [replayFrom, call] using fails
          · simpa [replayFrom, call] using result

theorem Replays.middle {before after : List Builder} {b : Builder} {c : Content n}
    (good : Replays (before ++ b :: after) c) : (b n (replayFrom before c)).2 = true := by
  induction before generalizing c with
  | nil => exact good.1
  | cons first before ih => exact ih good.2

theorem BuiltInOrder.succeeds_iff {chain : List Builder} {c : Content n} {result : Content n × Bool}
    (built : BuiltInOrder chain c result) : result.2 = true ↔ Replays chain c := by
  obtain ⟨good, rfl⟩ | ⟨before, b, after, rfl, good, fails, rfl⟩ := built
  · exact iff_of_true rfl good
  · refine iff_of_false Bool.false_ne_true fun all => ?_
    exact Bool.false_ne_true (fails.symm.trans all.middle)

/-! ### Pages -/

/-- The fields of one `uxpte_t`. The refcount is an integer; the 64-bit encoding, in which -1 is
the reclaim marker, is in `Common.Uxpte`. -/
structure Entry where
  refcnt : Int := 0
  present : Bool := false

structure Region (n : Nat) where
  content : Content n
  entries : Nat → Entry

def pageOf (i : Fin n) : Nat := i.val / pageSize

namespace Region

variable (r : Region n)

def refcnt (p : Nat) : Int := (r.entries p).refcnt

def present (p : Nat) : Bool := (r.entries p).present

def getUxpteAt (p : Nat) : Region n :=
  { r with entries := Function.update r.entries p { r.entries p with refcnt := r.refcnt p + 1 } }

def putUxpteAt (p : Nat) : Region n :=
  { r with entries := Function.update r.entries p { r.entries p with refcnt := r.refcnt p - 1 } }

def reclaim (p : Nat) : Region n where
  content i := if pageOf i = p then 0 else r.content i
  entries := Function.update r.entries p { r.entries p with present := false }

def setPresent (p : Nat) (b : Bool) : Region n :=
  { r with entries := Function.update r.entries p { r.entries p with present := b } }

def touch (touched : Nat → Bool) : Region n :=
  { r with entries := fun p => { r.entries p with present := (r.entries p).present || touched p } }

/-- `memset_s` of the whole content touches every page below `pages`. -/
def clear (pages : Nat) : Region n :=
  { (r.touch fun p => decide (p < pages)) with content := zeros }

def AllPresent (pages : Nat) : Prop := ∀ p < pages, r.present p = true

/-- The bytes of every page that is still present are those of `c`. -/
def Matches (pages : Nat) (c : Content n) : Prop :=
  ∀ i, (pageOf i < pages → r.present (pageOf i) = true) → r.content i = c i

@[simp] theorem getUxpteAt_content (p : Nat) : (r.getUxpteAt p).content = r.content := rfl

@[simp] theorem putUxpteAt_content (p : Nat) : (r.putUxpteAt p).content = r.content := rfl

@[simp] theorem getUxpteAt_present (p q : Nat) : (r.getUxpteAt p).present q = r.present q := by
  by_cases same : q = p <;> simp [getUxpteAt, present, Function.update, same]

@[simp] theorem putUxpteAt_present (p q : Nat) : (r.putUxpteAt p).present q = r.present q := by
  by_cases same : q = p <;> simp [putUxpteAt, present, Function.update, same]

theorem getUxpteAt_refcnt (p q : Nat) :
    (r.getUxpteAt p).refcnt q = r.refcnt q + if q = p then 1 else 0 := by
  by_cases same : q = p <;> simp [getUxpteAt, refcnt, Function.update, same]

theorem putUxpteAt_refcnt (p q : Nat) :
    (r.putUxpteAt p).refcnt q = r.refcnt q - if q = p then 1 else 0 := by
  by_cases same : q = p <;> simp [putUxpteAt, refcnt, Function.update, same]

@[simp] theorem reclaim_refcnt (p q : Nat) : (r.reclaim p).refcnt q = r.refcnt q := by
  by_cases same : q = p <;> simp [reclaim, refcnt, Function.update, same]

theorem reclaim_present (p q : Nat) :
    (r.reclaim p).present q = (r.present q && decide (q ≠ p)) := by
  by_cases same : q = p <;> simp [reclaim, present, Function.update, same]

@[simp] theorem setPresent_refcnt (p q : Nat) (b : Bool) :
    (r.setPresent p b).refcnt q = r.refcnt q := by
  by_cases same : q = p <;> simp [setPresent, refcnt, Function.update, same]

@[simp] theorem touch_refcnt (touched : Nat → Bool) (q : Nat) :
    (r.touch touched).refcnt q = r.refcnt q := rfl

@[simp] theorem touch_present (touched : Nat → Bool) (q : Nat) :
    (r.touch touched).present q = (r.present q || touched q) := rfl

@[simp] theorem clear_refcnt (pages q : Nat) : (r.clear pages).refcnt q = r.refcnt q := rfl

@[simp] theorem clear_content (pages : Nat) : (r.clear pages).content = zeros := rfl

theorem clear_allPresent (pages : Nat) : (r.clear pages).AllPresent pages := by
  intro p below
  simp [clear, touch, present, below]

variable {r}

theorem AllPresent.touch {pages : Nat} (all : r.AllPresent pages) (touched : Nat → Bool) :
    (r.touch touched).AllPresent pages := by
  intro p below
  simp [all p below]

theorem Matches.content_eq {pages : Nat} {c : Content n} (matched : r.Matches pages c)
    (all : r.AllPresent pages) : r.content = c := by
  funext i
  exact matched i fun below => all _ below

theorem matches_of_eq {pages : Nat} {c : Content n} (same : r.content = c) : r.Matches pages c :=
  fun i _ => congrFun same i

theorem Matches.reclaim {pages p : Nat} {c : Content n} (matched : r.Matches pages c)
    (below : p < pages) : (r.reclaim p).Matches pages c := by
  intro i kept
  have other : pageOf i ≠ p := by
    intro same
    have gone := kept (same ▸ below)
    simp [reclaim_present, same] at gone
  have old := matched i fun inside => by
    have now := kept inside
    simp only [reclaim_present, Bool.and_eq_true] at now
    exact now.1
  simpa [Region.reclaim, other] using old

end Region

/-! ### The object a creation call returns -/

/-- What stays fixed in an object that was created: its size, which is positive and was mapped,
and whether the system has a user extended page table. -/
structure Setup where
  len : Nat
  supportUxpt : Bool
  len_pos : 0 < len
  len_fits : len + pageSize < 2 ^ 64

namespace Setup

variable (S : Setup)

def pageCount : Nat := roundUp S.len pageSize / pageSize

/-- The pages that have an entry. Without uxpt the page table functions touch nothing. -/
def pages : Nat := if S.supportUxpt then S.pageCount else 0

theorem pages_pos (supported : S.supportUxpt = true) : 0 < S.pages := by
  have positive := S.len_pos
  rw [pages, supported, if_pos rfl, pageCount, roundUp_page S.len_fits]
  simp only [pageSize_eq]
  omega

theorem roundUp_len_le_iff : roundUp S.len pageSize ≤ securecMemMaxLen ↔ S.len ≤ 0x7ffff000 := by
  rw [roundUp_page S.len_fits, pageSize_eq, securecMemMaxLen]
  omega

theorem memsetSucceeds_iff :
    memsetSucceeds (roundUp S.len pageSize) S.len = true ↔ roundUp S.len pageSize ≤ securecMemMaxLen := by
  have upper := roundUp_page S.len_fits
  have positive := S.len_pos
  rw [pageSize_eq] at upper ⊢
  rw [memsetSucceeds, decide_eq_true_eq]
  constructor
  · intro fits
    exact fits.2.1
  · intro small
    exact ⟨by omega, small, by omega⟩

end Setup

def oneByte : Setup where
  len := 1
  supportUxpt := true
  len_pos := by decide
  len_fits := by decide

def fill (v : UInt8) : Builder := fun _ _ => (fun _ => v, true)

end MemoryUtils
