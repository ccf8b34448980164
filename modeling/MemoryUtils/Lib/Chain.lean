import Mathlib.Data.List.Nodup
import Mathlib.Logic.Function.Basic

/-!
Singly linked cells in a heap. A null-terminated chain visits no cell twice; its last cell can be
linked to another chain, and its cells can be freed one after the other.
-/

namespace MemoryUtils.Lib

structure Cell (A β : Type) where
  next : Option A
  value : β

/-- An address without a cell is free. -/
abbrev Heap (A β : Type) := A → Option (Cell A β)

def addrs {A β : Type} (nodes : List (A × β)) : List A := nodes.map Prod.fst

/-- The cells from `p` on, up to the null pointer. -/
inductive Chain {A β : Type} (h : Heap A β) : Option A → List (A × β) → Prop where
  | nil : Chain h none []
  | cons {a : A} {next : Option A} {value : β} {rest : List (A × β)} :
      h a = some ⟨next, value⟩ → Chain h next rest → Chain h (some a) ((a, value) :: rest)

namespace Chain

variable {A β : Type} {h h' : Heap A β} {p q : Option A} {nodes more : List (A × β)}

theorem unique (chain : Chain h p nodes) (chain' : Chain h p more) : nodes = more := by
  induction chain generalizing more with
  | nil =>
    cases chain'
    rfl
  | cons cell _ ih =>
    cases chain' with
    | cons cell' later =>
      obtain ⟨rfl, rfl⟩ : _ ∧ _ := by simpa using cell.symm.trans cell'
      rw [ih later]

theorem drop {a : A} (chain : Chain h p nodes) (visited : a ∈ addrs nodes) :
    ∃ before rest, nodes = before ++ rest ∧ Chain h (some a) rest := by
  induction chain with
  | nil => simp [addrs] at visited
  | @cons b next value rest cell later ih =>
    rcases List.mem_cons.mp visited with rfl | visited
    · exact ⟨[], (a, value) :: rest, rfl, .cons cell later⟩
    · obtain ⟨before, rest, rfl, chain⟩ := ih visited
      exact ⟨(b, value) :: before, rest, rfl, chain⟩

/-- A chain that came back to one of its cells would go on from there as it did before, and never
end. -/
theorem nodup (chain : Chain h p nodes) : (addrs nodes).Nodup := by
  induction chain with
  | nil => exact List.nodup_nil
  | @cons a next value rest cell later ih =>
    refine List.nodup_cons.mpr ⟨fun again => ?_, ih⟩
    obtain ⟨before, tail, rfl, chain⟩ := later.drop again
    have same := congrArg List.length (chain.unique (.cons cell later))
    simp only [List.length_cons, List.length_append] at same
    omega

theorem congr (chain : Chain h p nodes) (same : ∀ a ∈ addrs nodes, h' a = h a) : Chain h' p nodes := by
  induction chain with
  | nil => exact .nil
  | cons cell _ ih =>
    refine .cons ((same _ List.mem_cons_self).trans cell) (ih fun a member => ?_)
    exact same a (List.mem_cons_of_mem _ member)

theorem ne_nil {a : A} (chain : Chain h (some a) nodes) : nodes ≠ [] := by
  cases chain
  simp

theorem head_mem {a : A} (chain : Chain h (some a) nodes) : a ∈ addrs nodes := by
  cases chain
  exact List.mem_cons_self

theorem allocated (chain : Chain h p nodes) {a : A} (member : a ∈ addrs nodes) : (h a).isSome := by
  induction chain with
  | nil => simp [addrs] at member
  | cons cell _ ih =>
    rcases List.mem_cons.mp member with rfl | member
    · simp [cell]
    · exact ih member

theorem not_mem_of_free {a : A} (chain : Chain h p nodes) (unused : h a = none) : a ∉ addrs nodes := by
  intro member
  have allocated := chain.allocated member
  simp [unused] at allocated

end Chain

section Updates

variable {A β : Type} [DecidableEq A] {h : Heap A β} {p q : Option A} {nodes more : List (A × β)}

/-- The last of the nodes is made to point to `next`. -/
def link (h : Heap A β) (nodes : List (A × β)) (next : Option A) : Heap A β :=
  match nodes.getLast? with
  | none => h
  | some (a, value) => Function.update h a (some ⟨next, value⟩)

theorem link_of_getLast? {a : A} {value : β} (last : nodes.getLast? = some (a, value)) (next : Option A) :
    link h nodes next = Function.update h a (some ⟨next, value⟩) := by
  rw [link, last]

omit [DecidableEq A] in
theorem mem_addrs_of_getLast? {a : A} {value : β} (last : nodes.getLast? = some (a, value)) : a ∈ addrs nodes :=
  List.mem_map.mpr ⟨(a, value), List.mem_of_getLast? last, rfl⟩

theorem link_of_not_mem {a : A} (other : a ∉ addrs nodes) (next : Option A) : link h nodes next a = h a := by
  cases last : nodes.getLast? with
  | none => rw [link, last]
  | some node =>
    have ne : a ≠ node.1 := fun same => other (same ▸ mem_addrs_of_getLast? last)
    rw [link_of_getLast? last, Function.update_of_ne ne]

theorem link_cons {node : A × β} (nonempty : nodes ≠ []) (next : Option A) :
    link h (node :: nodes) next = link h nodes next := by
  rw [link, link, List.getLast?_cons_of_ne_nil nonempty]

theorem Chain.link {nodes more : List (A × β)} (chain : Chain h p nodes) (nonempty : nodes ≠ [])
    (tail : Chain h q more) (disjoint : (addrs nodes).Disjoint (addrs more)) :
    Chain (link h nodes q) p (nodes ++ more) := by
  induction chain with
  | nil => exact absurd rfl nonempty
  | @cons a next value rest cell later ih =>
    rw [addrs, List.map_cons, List.disjoint_cons_left] at disjoint
    have once := (Chain.cons cell later).nodup
    rw [addrs, List.map_cons, List.nodup_cons] at once
    cases rest with
    | nil =>
      refine .cons (Function.update_self ..) (tail.congr fun b member => ?_)
      refine link_of_not_mem (fun equal => ?_) q
      obtain rfl : b = a := by simpa [addrs] using equal
      exact disjoint.1 member
    | cons next' rest =>
      rw [link_cons (by simp)]
      exact .cons ((link_of_not_mem once.1 q).trans cell) (ih (by simp) disjoint.2)

/-- Two chains can be linked to what follows them in either order. -/
theorem link_link (nonempty : more ≠ []) (disjoint : (addrs nodes).Disjoint (addrs more)) :
    Lib.link (Lib.link h nodes p) (nodes ++ more) q = Lib.link (Lib.link h more q) nodes p := by
  obtain ⟨⟨b, w⟩, lastMore⟩ := Option.ne_none_iff_exists'.mp (mt List.getLast?_eq_none_iff.mp nonempty)
  have lastBoth : (nodes ++ more).getLast? = some (b, w) := by
    rw [List.getLast?_append, lastMore, Option.some_or]
  rw [link_of_getLast? lastBoth, link_of_getLast? lastMore]
  cases last : nodes.getLast? with
  | none => rw [Lib.link, Lib.link, last]
  | some node =>
    have ne : node.1 ≠ b := by
      intro same
      exact disjoint (mem_addrs_of_getLast? last) (same ▸ mem_addrs_of_getLast? lastMore)
    rw [link_of_getLast? last, link_of_getLast? last, Function.update_comm ne]

def free (h : Heap A β) (nodes : List (A × β)) : Heap A β := fun a => if a ∈ addrs nodes then none else h a

theorem free_nil : free h ([] : List (A × β)) = h := rfl

theorem free_cons (node : A × β) : free h (node :: nodes) = free (Function.update h node.1 none) nodes := by
  funext a
  have either : a ∈ addrs (node :: nodes) ↔ a = node.1 ∨ a ∈ addrs nodes := List.mem_cons
  by_cases first : a = node.1
  · rw [free, free, if_pos (either.mpr (.inl first)), first, Function.update_self, ite_self]
  · simp [free, either, first]

theorem free_of_not_mem {a : A} (other : a ∉ addrs nodes) : free h nodes a = h a := if_neg other

/-- Freeing a cell outside a chain leaves the chain. -/
theorem Chain.freed {a : A} (chain : Chain h p nodes) (outside : a ∉ addrs nodes) :
    Chain (Function.update h a none) p nodes := by
  refine chain.congr fun b member => Function.update_of_ne ?_ ..
  rintro rfl
  exact outside member

end Updates

end MemoryUtils.Lib
