import MemoryUtils.Common.UxPageTable
import MemoryUtils.Common.UxpteRanges
import MemoryUtils.Cpp.Classes

/-!
`PurgeableMem` works on page numbers and entry fields; the page table it calls works on addresses and
words. On the address and size that `PurgeableMem` passes, the calls of the page table have the
effect and the answer that `pin`, `unpin` and `isPurged` say.
-/

namespace MemoryUtils.Cpp.PurgeableMem
open UxPageTable Uxpte

/-- The table over the memory of an object that `CreatePurgeableData` mapped. -/
structure Backs (upt : UxPageTableStruct) (S : Setup) : Prop where
  ready : UxPageTable.Ready upt
  size : upt.dataSize.toNat = MemoryUtils.roundUp S.len pageSize

def entryOf (upt : UxPageTableStruct) (p : Nat) : Nat := upt.dataAddr.toNat / 4096 + p

/-- A loop over the pages has come to page `i`. -/
def AtPage (start off : UInt64) (i : Nat) : Prop := off.toNat = start.toNat + 4096 * i

/-- The words of the table are the fields of the region. -/
def Represents (upt : UxPageTableStruct) (S : Setup) (e : Entries) (r : Region S.len) : Prop :=
  ∀ p < S.pageCount, Encodes (e (entryOf upt p)) (r.entries p)

section Pages

variable {n : Nat} {op : Region n → Nat → Region n}

theorem uxpteOps_entries_of_notMem (others : ∀ r p q, q ≠ p → (op r p).entries q = r.entries q)
    {pages : List Nat} {p : Nat} (outside : p ∉ pages) (r : Region n) :
    (uxpteOps op (fun _ r => r) pages r).entries p = r.entries p := by
  induction pages generalizing r with
  | nil => rfl
  | cons q rest ih =>
    obtain ⟨other, later⟩ := not_or.mp (List.mem_cons.not.mp outside)
    exact (ih later (op r q)).trans (others r q p other)

/-- Each page is met once, so its entry changes as if it were the only one. -/
theorem uxpteOps_entries_of_mem (others : ∀ r p q, q ≠ p → (op r p).entries q = r.entries q)
    (alone : ∀ r r' p, r.entries p = r'.entries p → (op r p).entries p = (op r' p).entries p)
    {pages : List Nat} (once : pages.Nodup) {p : Nat} (member : p ∈ pages) (r : Region n) :
    (uxpteOps op (fun _ r => r) pages r).entries p = (op r p).entries p := by
  induction pages generalizing r with
  | nil => cases member
  | cons q rest ih =>
    obtain ⟨fresh, once⟩ := List.nodup_cons.mp once
    rcases List.mem_cons.mp member with rfl | later
    · exact uxpteOps_entries_of_notMem others fresh (op r p)
    · have other : p ≠ q := fun same => fresh (same ▸ later)
      exact (ih once later (op r q)).trans (alone _ _ p (others r q p other))

theorem uxpteIsPresent_eq_all (pages : List Nat) (r : Region n) :
    uxpteIsPresent (fun _ r => r) pages r = (r, pages.all r.present) := by
  induction pages with
  | nil => rfl
  | cons q rest ih =>
    rw [uxpteIsPresent]
    cases present : r.present q with
    | false => simp [present]
    | true => simp [present, ih]

end Pages

/-- The words from `first` on are the entries of the first `pages` pages. -/
def Encoded {n : Nat} (first pages : Nat) (e : Entries) (r : Region n) : Prop :=
  ∀ p < pages, Encodes (e (first + p)) (r.entries p)

section Encoded

variable {n first pages : Nat} {e : Entries} {r : Region n} (encoded : Encoded first pages e r)

include encoded

theorem Encoded.touch (touched : Nat → Bool) :
    Encoded first pages
      (fun i => if first ≤ i ∧ touched (i - first) = true then e i ||| uxptePresentMask else e i)
      (r.touch touched) := by
  intro p below
  have before := encoded p below
  dsimp only
  rw [Nat.add_sub_cancel_left]
  cases hit : touched p with
  | true =>
    rw [if_pos ⟨Nat.le_add_right _ _, rfl⟩]
    have after := encodes_touch before
    simpa [Region.touch, hit] using after
  | false =>
    rw [if_neg (by simp)]
    simpa [Region.touch, hit] using before

/-- One entry changes, in both pictures. -/
theorem Encoded.update {i : Nat} {pte : UInt64} {r' : Region n} (here : Encodes pte (r'.entries i))
    (others : ∀ p, p ≠ i → r'.entries p = r.entries p) :
    Encoded first pages (Function.update e (first + i) pte) r' := by
  intro p below
  by_cases same : p = i
  · subst same
    rw [Function.update_self]
    exact here
  · rw [Function.update_of_ne (by omega), others p same]
    exact encoded p below

theorem Encoded.reclaim {p : Nat} (below : p < pages) (unpinned : refcnt (e (first + p)) = 0) :
    Encoded first pages (Function.update e (first + p) 0) (r.reclaim p) := by
  refine encoded.update ?_ fun q other => Function.update_of_ne other ..
  have entry : (r.reclaim p).entries p = { r.entries p with present := false } := Function.update_self ..
  rw [entry]
  exact encodes_reclaim (encoded p below) unpinned

variable {upt : UxPageTableStruct} {off : UInt64} {i : Nat} (entry : upt.entry off = first + i) (below : i < pages)

include entry below

theorem Encoded.getUxpteAt (room : (e (first + i)).toNat + 4 < 2 ^ 64) :
    Encoded first pages (upt.getUxpteAt off e) (r.getUxpteAt i) := by
  rw [UxPageTableStruct.getUxpteAt, entry, uxpteAdd, addBody_of_room 0 room]
  exact encoded.update ((encoded i below).getUxpteAt room) fun p other => Function.update_of_ne other ..

theorem Encoded.putUxpteAt (room : (e (first + i)).toNat + 4 < 2 ^ 64) (pinned : 0 < r.refcnt i) :
    Encoded first pages (upt.putUxpteAt off e) (r.putUxpteAt i) := by
  rw [UxPageTableStruct.putUxpteAt, entry, uxpteSub]
  exact encoded.update ((encoded i below).putUxpteAt room pinned) fun p other => Function.update_of_ne other ..

theorem Encoded.isPresentAt : upt.isPresentAt off e = r.present i := by
  rw [UxPageTableStruct.isPresentAt, entry]
  exact (encoded i below).present

end Encoded

theorem len_toNat (S : Setup) : (UInt64.ofNat S.len).toNat = S.len := by
  have fits := S.len_fits
  rw [UInt64.toNat_ofNat', Nat.mod_eq_of_lt (by omega)]

theorem roundUp_len (S : Setup) :
    (UxPageTable.roundUp (UInt64.ofNat S.len) pageBytes).toNat = MemoryUtils.roundUp S.len pageSize := by
  have fits := S.len_fits
  rw [roundUp_toNat, len_toNat, roundUp_page fits]
  rw [pageSize_eq] at fits ⊢
  rw [if_pos (by omega)]

section Table

variable {upt : UxPageTableStruct} {S : Setup} (backs : Backs upt S)

include backs

theorem accepts_data : accepts upt upt.dataAddr (UInt64.ofNat S.len) = true ∧
    pagesOf upt.dataAddr (UInt64.ofNat S.len) = (List.range S.pageCount).map (entryOf upt) := by
  have aligned := backs.ready.aligned
  have fits := backs.ready.fits
  have size := backs.size
  have room := S.len_fits
  have positive := S.len_pos
  rw [roundUp_page room] at size
  simp only [pageSize_eq] at size room
  have len : (UInt64.ofNat S.len).toNat = S.len := by
    rw [UInt64.toNat_ofNat']
    omega
  have sum : (upt.dataAddr + UInt64.ofNat S.len).toNat = upt.dataAddr.toNat + S.len := by
    rw [UInt64.toNat_add, len]
    omega
  have ok : accepts upt upt.dataAddr (UInt64.ofNat S.len) = true := by
    rw [accepts_iff backs.ready, sum]
    omega
  have count : (UxPageTable.roundUp (upt.dataAddr + UInt64.ofNat S.len) pageBytes).toNat / 4096
      - (roundDown upt.dataAddr pageBytes).toNat / 4096 = S.pageCount := by
    rw [end_toNat backs.ready ok, roundDown_toNat, sum, Setup.pageCount, roundUp_page S.len_fits]
    simp only [pageSize_eq]
    omega
  have start : (roundDown upt.dataAddr pageBytes).toNat / 4096 = upt.dataAddr.toNat / 4096 := by
    rw [roundDown_toNat]
    omega
  refine ⟨ok, ?_⟩
  rw [pagesOf, pagesBetween, count, start, List.range'_eq_map_range]
  rfl

theorem end_data : (UxPageTable.roundUp (upt.dataAddr + UInt64.ofNat S.len) pageBytes).toNat
    = upt.dataAddr.toNat + 4096 * S.pageCount := by
  have ok := (accepts_data backs).1
  have room := backs.ready.fits
  have sized := backs.size
  have fits := S.len_fits
  have aligned := backs.ready.aligned
  have sum : (upt.dataAddr + UInt64.ofNat S.len).toNat = upt.dataAddr.toNat + S.len := by
    rw [UInt64.toNat_add, len_toNat]
    rw [roundUp_page fits] at sized
    simp only [pageSize_eq] at sized
    omega
  rw [end_toNat backs.ready ok, sum, Setup.pageCount, roundUp_page fits]
  simp only [pageSize_eq] at fits ⊢
  omega

theorem start_data : roundDown upt.dataAddr pageBytes = upt.dataAddr := by
  have aligned := backs.ready.aligned
  rw [← UInt64.toNat_inj, roundDown_toNat]
  omega

variable {off : UInt64} {i : Nat} (here : AtPage upt.dataAddr off i)

include here

theorem lt_end_data : off < UxPageTable.roundUp (upt.dataAddr + UInt64.ofNat S.len) pageBytes ↔ i < S.pageCount := by
  rw [UInt64.lt_iff_toNat_lt, end_data backs, here]
  omega

theorem next_page (below : i < S.pageCount) : AtPage upt.dataAddr (off + pageBytes) (i + 1) := by
  have bound := (UxPageTable.roundUp (upt.dataAddr + UInt64.ofNat S.len) pageBytes).toNat_lt
  rw [end_data backs] at bound
  unfold AtPage at here ⊢
  rw [UInt64.toNat_add, pageBytes_toNat, here]
  omega

theorem entry_page : upt.entry off = upt.dataAddr.toNat / 4096 + i := by
  have aligned := backs.ready.aligned
  unfold AtPage at here
  rw [UxPageTable.entry_eq backs.ready (by omega), here]
  omega

omit here

variable {e : Entries} {r : Region S.len} {fuel : Nat}

/-- The pass over the words of the data and the pass over the pages of the region keep step if one entry does. -/
theorem represents_uxpteOps {op : UxpteOp} {pageOp : Region S.len → Nat → Region S.len}
    (never : ∀ pte, op.stops pte = false)
    (others : ∀ r p q, q ≠ p → (pageOp r p).entries q = r.entries q)
    (alone : ∀ r r' p, r.entries p = r'.entries p → (pageOp r p).entries p = (pageOp r' p).entries p)
    (one : ∀ p < S.pageCount, Encodes (op.apply (e (entryOf upt p))) ((pageOp r p).entries p))
    (enough : 2 ^ 52 < fuel) :
    ∃ out, UxPageTable.uxpteOps fuel (some upt) upt.dataAddr (UInt64.ofNat S.len) op e = some out ∧
      Represents upt S out.entries (uxpteOps pageOp (fun _ r => r) (List.range S.pageCount) r) := by
  obtain ⟨ok, pages⟩ := accepts_data backs
  rw [uxpteOps_eq backs.ready op enough, if_pos ok]
  refine ⟨_, rfl, fun p below => ?_⟩
  have once : (pagesOf upt.dataAddr (UInt64.ofNat S.len)).Nodup :=
    (pagesOf_increasing _ _).imp Nat.ne_of_lt
  have member : entryOf upt p ∈ pagesOf upt.dataAddr (UInt64.ofNat S.len) := by
    rw [pages]
    exact List.mem_map_of_mem (List.mem_range.mpr below)
  show Encodes ((overPages op (pagesOf upt.dataAddr (UInt64.ofNat S.len)) e).entries (entryOf upt p)) _
  rw [overPages_entries_of_mem never once member,
    uxpteOps_entries_of_mem others alone List.nodup_range (List.mem_range.mpr below)]
  exact one p below

variable (represents : Represents upt S e r)

include represents

/-- `Pin`, as long as no refcount overflows. -/
theorem represents_pin (room : ∀ p < S.pageCount, (e (entryOf upt p)).toNat + 4 < 2 ^ 64)
    (enough : 2 ^ 52 < fuel) :
    ∃ out, uxpteGet S.supportUxpt fuel (some upt) upt.dataAddr (UInt64.ofNat S.len) e = some out ∧
      Represents upt S out.entries (pin S .ready (fun _ r => r) r) := by
  unfold uxpteGet pin Setup.pages
  cases S.supportUxpt with
  | false => exact ⟨_, rfl, represents⟩
  | true =>
    refine represents_uxpteOps backs (fun _ => rfl) ?_ ?_ (fun p below => ?_) enough
    · intro r p q other
      exact Function.update_of_ne other ..
    · intro r r' p same
      simp [Region.getUxpteAt, Region.refcnt, same]
    · rw [UxpteOp.apply, uxpteAdd, addBody_of_room 0 (room p below)]
      exact (represents p below).getUxpteAt (room p below)

/-- `Unpin` of pages that are pinned. -/
theorem represents_unpin (room : ∀ p < S.pageCount, (e (entryOf upt p)).toNat + 4 < 2 ^ 64)
    (pinned : ∀ p < S.pageCount, 0 < r.refcnt p) (enough : 2 ^ 52 < fuel) :
    ∃ out, uxptePut S.supportUxpt fuel (some upt) upt.dataAddr (UInt64.ofNat S.len) e = some out ∧
      Represents upt S out.entries (unpin S .ready (fun _ r => r) r) := by
  unfold uxptePut unpin Setup.pages
  cases S.supportUxpt with
  | false => exact ⟨_, rfl, represents⟩
  | true =>
    refine represents_uxpteOps backs (fun _ => rfl) ?_ ?_ (fun p below => ?_) enough
    · intro r p q other
      exact Function.update_of_ne other ..
    · intro r r' p same
      simp [Region.putUxpteAt, Region.refcnt, same]
    · exact (represents p below).putUxpteAt (room p below) (pinned p below)

theorem isPurged_eq_not_present (enough : 2 ^ 52 < fuel) :
    UxPageTable.uxpteIsPresent S.supportUxpt fuel (some upt) upt.dataAddr (UInt64.ofNat S.len) e =
      some (!(isPurged S .ready (fun _ r => r) r).2) := by
  obtain ⟨ok, pages⟩ := accepts_data backs
  unfold isPurged Setup.pages
  simp only [uxpteIsPresent_eq_all, Bool.not_not]
  cases S.supportUxpt with
  | false => rfl
  | true =>
    rw [UxPageTable.uxpteIsPresent_eq backs.ready enough, ok, pages, Bool.true_and, if_pos rfl,
      List.all_map, Option.some_inj, Bool.eq_iff_iff, List.all_eq_true, List.all_eq_true]
    apply forall₂_congr
    intro p member
    have present := (represents p (List.mem_range.mp member)).present
    exact Bool.eq_iff_iff.mp present

end Table

end MemoryUtils.Cpp.PurgeableMem
