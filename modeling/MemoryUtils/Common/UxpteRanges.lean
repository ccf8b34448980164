import MemoryUtils.Common.UxPageTable

/-!
Operations on address ranges of a table that was set up: the entries they touch, the answer of
`UxpteIsPresent`, and what sequences of `UxpteGet` and `UxptePut` leave in the table.
-/

namespace MemoryUtils.UxPageTable
open Uxpte

/-- The uxptes behind the indices that an operation used. -/
def UxPageTableStruct.entriesOf (upt : UxPageTableStruct) (r : Outcome) : List Nat :=
  r.touched.map (upt.uxpte.getD 0 + ·)

/-! ### Touched entries -/

section Touched

variable {upt : UxPageTableStruct} {op : UxpteOp} {addr len : UInt64} {e : Entries}

theorem touched_sub_pages {pages : List Nat} {p : Nat} (touched : p ∈ (overPages op pages e).touched) :
    p ∈ pages := by
  rw [overPages_touched] at touched
  split at touched
  · exact List.mem_of_mem_take touched
  · exact touched

theorem untouched {pages : List Nat} {p : Nat} (outside : p ∉ (overPages op pages e).touched) :
    (overPages op pages e).entries p = e p := by
  induction pages generalizing e with
  | nil => rfl
  | cons q rest ih =>
    rw [overPages] at outside ⊢
    split at outside
    · rename_i stops
      rw [if_pos stops]
    · rename_i goes
      obtain ⟨other, later⟩ := not_or.mp (List.mem_cons.not.mp outside)
      rw [if_neg goes]
      exact (ih later).trans (Function.update_of_ne other ..)

/-- Only a presence check stops, and it leaves the entries as they are. -/
theorem touched_applied {pages : List Nat} {p : Nat} (once : pages.Nodup)
    (touched : p ∈ (overPages op pages e).touched) : (overPages op pages e).entries p = op.apply (e p) := by
  induction pages generalizing e with
  | nil => cases touched
  | cons q rest ih =>
    obtain ⟨fresh, once⟩ := List.nodup_cons.mp once
    rw [overPages] at touched ⊢
    split at touched
    · rename_i stops
      rw [if_pos stops]
      cases op with
      | isPresent => rfl
      | _ => simp [UxpteOp.stops] at stops
    · rename_i goes
      rw [if_neg goes]
      rcases List.mem_cons.mp touched with rfl | later
      · exact (overPages_entries_of_notMem fresh).trans (Function.update_self ..)
      · have other : p ≠ q := fun same => fresh (same ▸ touched_sub_pages later)
        exact (ih once later).trans (congrArg op.apply (Function.update_of_ne other ..))

variable (ready : Ready upt)

include ready

theorem first_le_of_touched (ok : accepts upt addr len = true) {p : Nat}
    (touched : p ∈ (overPages op (pagesOf addr len) e).touched) : upt.first ≤ p := by
  have inData := pagesOf_in_data ready ok (touched_sub_pages touched)
  exact first_le.trans inData.1

/-- Counting from the first mapped entry undoes the indexing. -/
theorem entriesOf_indexed (ok : accepts upt addr len = true) :
    upt.entriesOf ((overPages op (pagesOf addr len) e).indexed upt.first)
      = (overPages op (pagesOf addr len) e).touched := by
  simp only [UxPageTableStruct.entriesOf, Outcome.indexed, ready.mapped, Option.getD_some, List.map_map]
  rw [List.map_congr_left, List.map_id]
  intro p touched
  have above := first_le_of_touched ready ok touched
  simp only [Function.comp_apply, id]
  omega

theorem index_in_mapping (ok : accepts upt addr len = true) {i : Nat}
    (used : i ∈ ((overPages op (pagesOf addr len) e).indexed upt.first).touched) :
    i < (getUxPageSize upt.dataAddr upt.dataSize).toNat / 8 := by
  obtain ⟨p, touched, rfl⟩ := List.mem_map.mp used
  have inData := pagesOf_in_data ready ok (touched_sub_pages touched)
  exact page_lt_uxPageSize ready inData.1 inData.2

theorem mem_pagesOf_iff_meets (ok : accepts upt addr len = true) (positive : 0 < len.toNat)
    (noWrap : addr.toNat + len.toNat < 2 ^ 64) {p : Nat} : p ∈ pagesOf addr len ↔ Meets p addr len := by
  rw [mem_pagesOf ready ok, UInt64.toNat_add, Nat.mod_eq_of_lt noWrap]
  constructor
  · rintro ⟨above, below⟩
    refine ⟨max addr.toNat (p * 4096), Nat.le_max_left .., ?_, ?_⟩
    · omega
    · rw [pageSize_eq]
      omega
  · rintro ⟨x, above, below, page⟩
    rw [pageSize_eq] at page
    omega

theorem meets_data (ok : accepts upt addr len = true) {p : Nat} (covered : p ∈ pagesOf addr len) :
    Meets p upt.dataAddr upt.dataSize := by
  have aligned := ready.aligned
  have inData := pagesOf_in_data ready ok covered
  exact ⟨p * 4096, by omega, inData.2, Nat.mul_div_cancel p (by decide)⟩

/-- Only pages of the table's own data. -/
theorem entriesOf_in_data {fuel : Nat} (enough : 2 ^ 52 < fuel) {r : Outcome}
    (done : uxpteOps fuel (some upt) addr len op e = some r) {p : Nat} (member : p ∈ upt.entriesOf r) :
    Meets p upt.dataAddr upt.dataSize := by
  rw [uxpteOps_eq ready op enough, Option.some.injEq] at done
  subst done
  split at member
  · rename_i ok
    rw [entriesOf_indexed ready ok] at member
    exact meets_data ready ok (touched_sub_pages member)
  · cases member

end Touched

/-- After a successful `DeinitUxPageTable` only ranges that end at address 0 are accepted. -/
theorem deinit_touches_nothing {unmapped : Bool} {upt : UxPageTableStruct} {after : Option UxPageTableStruct}
    (freed : deinitUxPageTable true unmapped (some upt) = (.ok, after)) (addr len : UInt64) (op : UxpteOp)
    (e : Entries) :
    ∃ state, ∀ fuel > 0, uxpteOps fuel after addr len op e = some ⟨state, e, [], []⟩ := by
  have empty : after = some ⟨0, 0, none⟩ := by
    simp only [deinitUxPageTable, Bool.not_true, Bool.false_eq_true, if_false] at freed
    split at freed <;> simp_all
  subst empty
  by_cases ok : accepts ⟨0, 0, none⟩ addr len = true
  · refine ⟨.ok, fun fuel positive => ?_⟩
    have zero : (0 : UInt64) + 0 = 0 := rfl
    have stop : ¬ roundUp (addr + len) pageBytes > 0 := by
      simp only [accepts, zero, Bool.not_eq_true', decide_eq_false_iff_not, not_or] at ok
      exact ok.2
    have done : ¬ roundDown addr pageBytes < roundUp (addr + len) pageBytes := by
      rw [gt_iff_lt, UInt64.lt_iff_toNat_lt] at stop
      rw [UInt64.lt_iff_toNat_lt]
      change ¬ 0 < (roundUp (addr + len) pageBytes).toNat at stop
      omega
    obtain ⟨fuel, rfl⟩ := Nat.exists_eq_succ_of_ne_zero positive.ne'
    simp only [uxpteOps, ok, Bool.not_true, Bool.false_eq_true, if_false]
    rw [uxpteLoop, if_neg done]
  · exact ⟨.uxptOutRange, fun fuel positive => by simp [uxpteOps, ok]⟩

theorem overPages_state_ne (op : UxpteOp) (pages : List Nat) (e : Entries) :
    (overPages op pages e).state ≠ .uxptOutRange := by
  induction pages generalizing e with
  | nil => simp [overPages]
  | cons q rest ih =>
    rw [overPages]
    split
    · simp
    · exact ih _

/-- An operation uses indices inside the mapping only, and touches the entries of the pages that meet
its range, in order, each once and no other; tables over different pages have no entry in common. -/
theorem uxpteOps_touches_pages_of_range {upt : UxPageTableStruct} {addr len : UInt64}
    (set : SetUp upt addr len) :
    (∀ a l op e, ∃ r, (∀ fuel > 2 ^ 52, uxpteOps fuel (some upt) a l op e = some r) ∧
      (∀ i ∈ r.touched, i < (getUxPageSize addr len).toNat / 8) ∧
      (∀ p ∉ upt.entriesOf r, r.entries p = e p) ∧
      (∀ p ∈ upt.entriesOf r, r.entries p = op.apply (e p)) ∧
      (r.state = .uxptOutRange → r.touched = []) ∧
      (0 < l.toNat → a.toNat + l.toNat < 2 ^ 64 → r.state ≠ .uxptOutRange →
        ∃ pages : List Nat, pages.Pairwise (· < ·) ∧ (∀ p, p ∈ pages ↔ Meets p a l) ∧
          upt.entriesOf r =
            if op = .isPresent then pages.take (pages.findIdx (fun p => !isUxptePresent (e p)) + 1)
            else pages)) ∧
    (∀ other addr' len', SetUp other addr' len' → (∀ p, Meets p addr len → ¬ Meets p addr' len') →
      ∀ fuel > 2 ^ 52, ∀ a l op e r a' l' op' e' r', uxpteOps fuel (some upt) a l op e = some r →
        uxpteOps fuel (some other) a' l' op' e' = some r' →
        ∀ p ∈ upt.entriesOf r, p ∉ other.entriesOf r') ∧
    ∀ unmapped after, deinitUxPageTable true unmapped (some upt) = (.ok, after) →
      ∀ a l op e, ∃ state, ∀ fuel > 0, uxpteOps fuel after a l op e = some ⟨state, e, [], []⟩ := by
  obtain ⟨ready, rfl, rfl⟩ := set.ready
  refine ⟨fun a l op e => ?_, ?_, ?_⟩
  · refine ⟨_, fun fuel enough => uxpteOps_eq ready op enough e, ?_⟩
    by_cases ok : accepts upt a l = true
    · rw [if_pos ok, entriesOf_indexed ready ok]
      have once : (pagesOf a l).Nodup := (pagesOf_increasing a l).imp Nat.ne_of_lt
      refine ⟨fun i => index_in_mapping ready ok, fun p => untouched, fun p => touched_applied once, ?_, ?_⟩
      · exact fun rejected => absurd rejected (overPages_state_ne op _ e)
      · intro positive noWrap accepted
        exact ⟨pagesOf a l, pagesOf_increasing a l,
          fun p => mem_pagesOf_iff_meets ready ok positive noWrap, overPages_touched⟩
    · rw [if_neg ok]
      refine ⟨fun i used => ?_, fun p outside => rfl, fun p used => ?_, fun rejected => rfl, ?_⟩
      · cases used
      · cases used
      · exact fun positive noWrap accepted => absurd rfl accepted
  · rintro other addr' len' otherSet apart fuel enough a l op e r a' l' op' e' r' done done' p mine theirs
    obtain ⟨otherReady, rfl, rfl⟩ := otherSet.ready
    exact apart p (entriesOf_in_data ready enough done mine) (entriesOf_in_data otherReady enough done' theirs)
  · exact fun unmapped after freed a l op e => deinit_touches_nothing freed a l op e

/-- Two pages on either side of a boundary between uxpte pages. -/
def straddling : UxPageTableStruct := ⟨0x1ff000, 0x2000, some 0⟩

theorem straddling_setUp : SetUp straddling 0x1ff000 0x2000 :=
  setUp_of_mapped (by decide) (by decide) (by decide)

theorem straddling_get_touches_both : ∃ r,
    (∀ fuel > 2 ^ 52, uxpteOps fuel (some straddling) 0x1ff800 0x1000 .get (fun _ => 1) = some r) ∧
      ∃ pages : List Nat, pages.Pairwise (· < ·) ∧
        (∀ p, p ∈ pages ↔ Meets p 0x1ff800 0x1000) ∧ straddling.entriesOf r = pages := by
  obtain ⟨r, done, -, -, -, -, pages⟩ :=
    (uxpteOps_touches_pages_of_range straddling_setUp).1 0x1ff800 0x1000 .get fun _ => 1
  have accepted : r.state ≠ .uxptOutRange := by
    have ready := straddling_setUp.ready.1
    have value := done (2 ^ 52 + 1) (Nat.lt_succ_self _)
    rw [uxpteOps_eq ready .get (Nat.lt_succ_self _), if_pos (by decide), Option.some.injEq] at value
    rw [← value]
    exact overPages_state_ne .get _ _
  exact ⟨r, done, by simpa using pages (by decide) (by decide) accepted⟩

/-! ### Presence -/

/-- The range ends beyond the last address. The sum of its start and length, which wrapped, is not
past the end of the table; and where it reaches into the page of `a`, that page is present. -/
def WrapsInto (addr len a l : UInt64) (e : Entries) : Prop :=
  2 ^ 64 ≤ a.toNat + l.toNat ∧ addr.toNat ≤ a.toNat ∧
    a.toNat + l.toNat - 2 ^ 64 ≤ addr.toNat + len.toNat ∧
    (a.toNat / pageSize * pageSize < a.toNat + l.toNat - 2 ^ 64 →
      isUxptePresent (e (a.toNat / pageSize)) = true)

def AllPresentIn (addr len a l : UInt64) (e : Entries) : Prop :=
  addr.toNat ≤ a.toNat ∧ a.toNat + l.toNat ≤ addr.toNat + len.toNat ∧
    ∀ p, Meets p a l → isUxptePresent (e p) = true

section Present

variable {upt : UxPageTableStruct} (ready : Ready upt) {a l : UInt64} {e : Entries}

include ready

theorem uxpteIsPresent_eq {fuel : Nat} (enough : 2 ^ 52 < fuel) :
    uxpteIsPresent true fuel (some upt) a l e
      = some (accepts upt a l && (pagesOf a l).all fun p => isUxptePresent (e p)) := by
  have answer := @overPages_isPresent_ok (pagesOf a l) e
  simp only [uxpteIsPresent, Bool.not_true, Bool.false_eq_true, if_false,
    uxpteOps_eq ready .isPresent enough, Option.map_some, Option.some.injEq]
  cases ok : accepts upt a l with
  | false => rfl
  | true =>
    rw [Bool.eq_iff_iff, if_pos rfl, Bool.true_and, List.all_eq_true]
    exact beq_iff_eq.trans answer

/-- Without a wrap `UxpteOps` checks the mathematical interval. -/
theorem accepts_all_iff (positive : 0 < l.toNat) (noWrap : a.toNat + l.toNat < 2 ^ 64) :
    (accepts upt a l && (pagesOf a l).all fun p => isUxptePresent (e p)) = true
      ↔ AllPresentIn upt.dataAddr upt.dataSize a l e := by
  have sum : (a + l).toNat = a.toNat + l.toNat := by rw [UInt64.toNat_add, Nat.mod_eq_of_lt noWrap]
  rw [Bool.and_eq_true, List.all_eq_true]
  constructor
  · rintro ⟨ok, all⟩
    obtain ⟨above, below⟩ := (accepts_iff ready).mp ok
    refine ⟨above, by omega, fun p meets => ?_⟩
    exact all p ((mem_pagesOf_iff_meets ready ok positive noWrap).mpr meets)
  · rintro ⟨above, below, all⟩
    have ok : accepts upt a l = true := (accepts_iff ready).mpr ⟨above, by omega⟩
    refine ⟨ok, fun p covered => ?_⟩
    exact all p ((mem_pagesOf_iff_meets ready ok positive noWrap).mp covered)

/-- The wrapped end lies before `a`, so the rounded range has at most the page of `a`. -/
theorem accepts_all_wrapped (wraps : 2 ^ 64 ≤ a.toNat + l.toNat) :
    (accepts upt a l && (pagesOf a l).all fun p => isUxptePresent (e p)) = true
      ↔ WrapsInto upt.dataAddr upt.dataSize a l e := by
  have boundA := a.toNat_lt
  have boundL := l.toNat_lt
  have sum : (a + l).toNat = a.toNat + l.toNat - 2 ^ 64 := by
    rw [UInt64.toNat_add]
    omega
  rw [Bool.and_eq_true, List.all_eq_true]
  constructor
  · rintro ⟨ok, all⟩
    obtain ⟨above, below⟩ := (accepts_iff ready).mp ok
    refine ⟨wraps, above, by omega, fun reaches => ?_⟩
    rw [pageSize_eq] at reaches ⊢
    exact all _ ((mem_pagesOf ready ok).mpr ⟨by omega, by omega⟩)
  · rintro ⟨-, above, below, present⟩
    have ok : accepts upt a l = true := (accepts_iff ready).mpr ⟨above, by omega⟩
    refine ⟨ok, fun p covered => ?_⟩
    have between := (mem_pagesOf ready ok).mp covered
    have page : p = a.toNat / pageSize := by
      rw [pageSize_eq]
      omega
    rw [page]
    apply present
    rw [pageSize_eq]
    omega

end Present

/-- The answer is right exactly where the range does not wrap into an acceptable one. -/
theorem uxpteIsPresent_right_iff_not_wrapsInto {upt : UxPageTableStruct} {addr len : UInt64}
    (set : SetUp upt addr len) {a l : UInt64} (positive : 0 < l.toNat) (e : Entries) :
    ∃ answer, (∀ fuel > 2 ^ 52, uxpteIsPresent true fuel (some upt) a l e = some answer) ∧
      ((answer = true ↔ AllPresentIn addr len a l e) ↔ ¬ WrapsInto addr len a l e) := by
  obtain ⟨ready, rfl, rfl⟩ := set.ready
  refine ⟨_, fun fuel enough => uxpteIsPresent_eq ready enough, ?_⟩
  by_cases wraps : 2 ^ 64 ≤ a.toNat + l.toNat
  · have fits := ready.fits
    have outside : ¬ AllPresentIn upt.dataAddr upt.dataSize a l e := fun ⟨_, below, _⟩ => by omega
    rw [accepts_all_wrapped ready wraps]
    tauto
  · have right := @accepts_all_iff _ ready a l e positive (Nat.lt_of_not_le wraps)
    have fine : ¬ WrapsInto upt.dataAddr upt.dataSize a l e := fun into => wraps into.1
    tauto

theorem straddling_presence_right : ∃ answer,
    (∀ fuel > 2 ^ 52, uxpteIsPresent true fuel (some straddling) 0x1ff800 0x1000 (fun _ => 1) = some answer) ∧
      ((answer = true ↔ AllPresentIn 0x1ff000 0x2000 0x1ff800 0x1000 fun _ => 1) ↔
        ¬ WrapsInto 0x1ff000 0x2000 0x1ff800 0x1000 fun _ => 1) :=
  uxpteIsPresent_right_iff_not_wrapsInto straddling_setUp (by decide) _

/-- From the start of the table to the last address, with every page absent. -/
theorem wrapped_range_answered_present : SetUp straddling 0x1ff000 0x2000 ∧
    ¬ AllPresentIn 0x1ff000 0x2000 0x1ff000 (0 - 0x1ff000) (fun _ => 0) ∧
    ∀ fuel > 2 ^ 52,
      uxpteIsPresent true fuel (some straddling) 0x1ff000 (0 - 0x1ff000) (fun _ => 0) = some true := by
  refine ⟨straddling_setUp, fun inside => absurd inside.2.1 (by decide), fun fuel enough => ?_⟩
  rw [uxpteIsPresent_eq straddling_setUp.ready.1 enough]
  decide

end MemoryUtils.UxPageTable
