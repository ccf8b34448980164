import MemoryUtils.Common.Region
import MemoryUtils.Lib.Chain

/-!
The builder chains of the C interface as linked nodes in a heap. A node that is read or freed must be
allocated: a function that meets another address, or that runs out of `fuel`, has no result.
-/

namespace MemoryUtils.C
open Lib

/-- `struct PurgMemBuilder` without its link and its name, which is only logged. -/
structure PurgMemBuilder (P : Type) where
  build : Option (P → Builder)
  param : P

def PurgMemBuilder.function {P : Type} (b : PurgMemBuilder P) : Option Builder :=
  b.build.map fun build => build b.param

abbrev BuilderHeap (A P : Type) := Heap A (PurgMemBuilder P)

section Functions

variable {A P : Type} [DecidableEq A]

/-- `malloc` returns a free address or null. -/
def purgMemBuilderCreate (h : BuilderHeap A P) (func : Option (P → Builder)) (param : P) (malloc : Option A) :
    BuilderHeap A P × Option A :=
  match func, malloc with
  | none, _ => (h, none)
  | some _, none => (h, none)
  | some func, some builder =>
    (Function.update h builder (some { next := none, value := ⟨some func, param⟩ }), some builder)

/-- The static `AppendBuilder`. -/
def appendBuilder : Nat → BuilderHeap A P → Option A → Option A → Option (BuilderHeap A P)
  | 0, _, _, _ => none
  | _ + 1, h, none, _ => some h
  | fuel + 1, h, some head, newcomer =>
    (h head).bind fun node =>
      match node.next with
      | none => some (Function.update h head (some { node with next := newcomer }))
      | some next => appendBuilder fuel h (some next) newcomer

def purgMemBuilderAppendBuilder (fuel : Nat) (h : BuilderHeap A P) (builder newcomer : Option A) :
    Option (BuilderHeap A P × Bool) :=
  match builder, newcomer with
  | none, _ => some (h, false)
  | some _, none => some (h, false)
  | some builder, some newcomer => (appendBuilder fuel h (some builder) (some newcomer)).map (·, true)

def purgMemBuilderAppendFunc (fuel : Nat) (h : BuilderHeap A P) (builder : Option A)
    (func : Option (P → Builder)) (param : P) (malloc : Option A) : Option (BuilderHeap A P × Bool) :=
  match builder, func with
  | none, _ => some (h, false)
  | some _, none => some (h, false)
  | some builder, some func =>
    match purgMemBuilderCreate h (some func) param malloc with
    | (h, none) => some (h, false)
    | (h, some newcomer) => (appendBuilder fuel h (some builder) (some newcomer)).map (·, true)

omit [DecidableEq A] in
def purgMemBuilderBuildAll {n : Nat} :
    Nat → BuilderHeap A P → Option A → Content n → Option (Content n × Bool)
  | 0, _, _, _ => none
  | _ + 1, _, none, data => some (data, false)
  | fuel + 1, h, some builder, data =>
    (h builder).bind fun node =>
      match node.value.function with
      | none => some (data, true)
      | some build =>
        match build n data with
        | (data, false) => some (data, false)
        | (data, true) =>
          match node.next with
          | none => some (data, true)
          | some next => purgMemBuilderBuildAll fuel h (some next) data

/-- The loop of `PurgMemBuilderDestroy`, with the nodes it frees in their order. -/
def destroyNodes : Nat → BuilderHeap A P → Option A → Option (BuilderHeap A P × List A)
  | 0, _, _ => none
  | _ + 1, h, none => some (h, [])
  | fuel + 1, h, some curr =>
    (h curr).bind fun node =>
      (destroyNodes fuel (Function.update h curr none) node.next).map fun (h, freed) => (h, curr :: freed)

/-- The result is the constant `true`. -/
def purgMemBuilderDestroy (fuel : Nat) (h : BuilderHeap A P) (builder : Option A) :
    Option (BuilderHeap A P × List A × Bool) :=
  match builder with
  | none => some (h, [], true)
  | some builder => (destroyNodes fuel h (some builder)).map fun (h, freed) => (h, freed, true)

end Functions

/-- The chain from `head` on has the given nodes, and each of them a build function. -/
structure BuilderLog {A P : Type} (h : BuilderHeap A P) (head : A) (nodes : List (A × PurgMemBuilder P))
    (functions : List Builder) : Prop where
  chain : Chain h (some head) nodes
  builds : nodes.map (fun node => node.2.function) = functions.map some

section Chains

variable {A P : Type} {h h' : BuilderHeap A P} {p : Option A} {head newcomer : A}
variable {nodes more : List (A × PurgMemBuilder P)} {functions functions' : List Builder} {fuel n : Nat}

theorem BuilderLog.nonempty (log : BuilderLog h head nodes functions) : functions ≠ [] := by
  rintro rfl
  exact log.chain.ne_nil (by simpa using log.builds)

theorem buildAll_of_chain (chain : Chain h p nodes)
    (builds : nodes.map (fun node => node.2.function) = functions.map some) (enough : nodes.length < fuel)
    (data : Content n) : purgMemBuilderBuildAll fuel h p data = some (buildAll functions data) := by
  induction chain generalizing fuel functions data with
  | nil =>
    obtain rfl : functions = [] := by simpa using builds.symm
    obtain ⟨fuel, rfl⟩ := Nat.exists_eq_add_one.mpr enough
    rfl
  | @cons a next value rest cell later ih =>
    obtain ⟨fuel, rfl⟩ : ∃ k, fuel = k + 1 := Nat.exists_eq_add_one.mpr (by omega)
    obtain ⟨b, functions, rfl⟩ : ∃ b fs, functions = b :: fs := by
      cases functions with
      | nil => simp at builds
      | cons b fs => exact ⟨b, fs, rfl⟩
    rw [List.map_cons, List.map_cons, List.cons.injEq] at builds
    obtain ⟨first, others⟩ := builds
    rw [purgMemBuilderBuildAll, cell, Option.bind_some]
    simp only [first]
    rcases call : b n data with ⟨data', _ | _⟩
    · simp [buildAll, call]
    · cases later with
      | nil =>
        obtain rfl : functions = [] := by simpa using others.symm
        simp [buildAll, call]
      | cons cell' later' =>
        have more : functions ≠ [] := by
          rintro rfl
          simp at others
        rw [buildAll_cons b more, call]
        simp only [List.length_cons] at enough ih
        exact ih others (by omega) data'

/-- `AppendBuilder` walks to the last node and links it. -/
theorem appendBuilder_of_chain [DecidableEq A] (chain : Chain h p nodes) (nonempty : nodes ≠ [])
    (fuel : Nat) (newcomer : Option A) :
    appendBuilder fuel h p newcomer =
      if nodes.length ≤ fuel then some (link h nodes newcomer) else none := by
  induction chain generalizing fuel with
  | nil => exact absurd rfl nonempty
  | @cons a next value rest cell later ih =>
    cases fuel with
    | zero => rfl
    | succ fuel =>
      rw [appendBuilder, cell, Option.bind_some]
      cases later with
      | nil => simp [link]
      | @cons b _ value' rest' cell' later' =>
        have rest := ih (by simp) fuel
        rw [link_cons (by simp), List.length_cons]
        simpa only [Nat.add_le_add_iff_right] using rest

theorem destroyNodes_of_chain [DecidableEq A] (chain : Chain h p nodes) (fuel : Nat) :
    destroyNodes fuel h p = if nodes.length < fuel then some (free h nodes, addrs nodes) else none := by
  induction nodes generalizing fuel h p with
  | nil =>
    cases chain
    cases fuel <;> rfl
  | cons node rest ih =>
    have once := chain.nodup
    rw [addrs, List.map_cons, List.nodup_cons] at once
    cases chain with
    | @cons a next value _ cell later =>
      cases fuel with
      | zero => rfl
      | succ fuel =>
        rw [destroyNodes, cell, Option.bind_some, ih (later.freed once.1) fuel, free_cons, List.length_cons]
        by_cases enough : rest.length < fuel <;> simp [enough, addrs]

namespace BuilderLog

theorem buildAll (log : BuilderLog h head nodes functions) (enough : nodes.length < fuel)
    (data : Content n) :
    purgMemBuilderBuildAll fuel h (some head) data = some (MemoryUtils.buildAll functions data) :=
  buildAll_of_chain log.chain log.builds enough data

theorem congr (log : BuilderLog h head nodes functions) (same : ∀ a ∈ addrs nodes, h' a = h a) :
    BuilderLog h' head nodes functions :=
  ⟨log.chain.congr same, log.builds⟩

variable [DecidableEq A]

theorem append (log : BuilderLog h head nodes functions) (log' : BuilderLog h newcomer more functions')
    (disjoint : (addrs nodes).Disjoint (addrs more)) :
    BuilderLog (link h nodes (some newcomer)) head (nodes ++ more) (functions ++ functions') where
  chain := log.chain.link log.chain.ne_nil log'.chain disjoint
  builds := by rw [List.map_append, List.map_append, log.builds, log'.builds]

theorem appendBuilder (log : BuilderLog h head nodes functions) (enough : nodes.length ≤ fuel) (newcomer : A) :
    purgMemBuilderAppendBuilder fuel h (some head) (some newcomer) =
      some (link h nodes (some newcomer), true) := by
  rw [purgMemBuilderAppendBuilder, appendBuilder_of_chain log.chain log.chain.ne_nil, if_pos enough]
  rfl

theorem destroy (log : BuilderLog h head nodes functions) (enough : nodes.length < fuel) :
    purgMemBuilderDestroy fuel h (some head) = some (free h nodes, addrs nodes, true) := by
  rw [purgMemBuilderDestroy, destroyNodes_of_chain log.chain, if_pos enough]
  rfl

theorem eq_of_appendBuilder (log : BuilderLog h head nodes functions)
    (appended : purgMemBuilderAppendBuilder fuel h (some head) (some newcomer) = some (h', true)) :
    h' = link h nodes (some newcomer) := by
  rw [purgMemBuilderAppendBuilder, appendBuilder_of_chain log.chain log.chain.ne_nil] at appended
  split at appended
  · simpa using appended.symm
  · simp at appended

theorem eq_of_destroy {freed : List A} (log : BuilderLog h head nodes functions)
    (destroyed : purgMemBuilderDestroy fuel h (some head) = some (h', freed, true)) : h' = free h nodes := by
  rw [purgMemBuilderDestroy, destroyNodes_of_chain log.chain] at destroyed
  split at destroyed
  · simpa using (Prod.ext_iff.mp (Option.some.inj destroyed)).1.symm
  · simp at destroyed

theorem create (h : BuilderHeap A P) (newcomer : A) (func : P → Builder) (param : P) :
    (purgMemBuilderCreate h (some func) param (some newcomer)).2 = some newcomer ∧
    BuilderLog (purgMemBuilderCreate h (some func) param (some newcomer)).1 newcomer
      [(newcomer, ⟨some func, param⟩)] [func param] :=
  ⟨rfl, .cons (Function.update_self ..) .nil, rfl⟩

/-- The new node is in no chain that was there before. -/
theorem of_create (log : BuilderLog h head nodes functions) (unused : h newcomer = none) (func : P → Builder)
    (param : P) :
    BuilderLog (purgMemBuilderCreate h (some func) param (some newcomer)).1 head nodes functions := by
  refine log.congr fun a member => Function.update_of_ne ?_ ..
  rintro rfl
  exact log.chain.not_mem_of_free unused member

end BuilderLog

end Chains

/-! ### What a user of the builder functions holds -/

section Made

variable {A P : Type} [DecidableEq A] {h h' : BuilderHeap A P} {heads : List A}

/-- The heaps that calls of the builder functions make, with the chains that are still the user's: a
chain that was appended to another or destroyed is not used again. -/
inductive Made : BuilderHeap A P → List A → Prop where
  | empty : Made (fun _ => none) []
  | create {h : BuilderHeap A P} {heads : List A} {x : A} (func : P → Builder) (param : P) :
      Made h heads → h x = none → Made (purgMemBuilderCreate h (some func) param (some x)).1 (x :: heads)
  | appendFunc {h h' : BuilderHeap A P} {heads : List A} {a x : A} {func : P → Builder} {param : P} {fuel : Nat} :
      Made h heads → a ∈ heads → h x = none →
      purgMemBuilderAppendFunc fuel h (some a) (some func) param (some x) = some (h', true) → Made h' heads
  | appendBuilder {h h' : BuilderHeap A P} {heads : List A} {a b : A} {fuel : Nat} :
      Made h heads → a ∈ heads → b ∈ heads → a ≠ b →
      purgMemBuilderAppendBuilder fuel h (some a) (some b) = some (h', true) → Made h' (heads.erase b)
  | destroy {h h' : BuilderHeap A P} {heads freed : List A} {a : A} {fuel : Nat} :
      Made h heads → a ∈ heads →
      purgMemBuilderDestroy fuel h (some a) = some (h', freed, true) → Made h' (heads.erase a)

/-- Disjoint logs, one for each chain the user holds. -/
structure HoldsLogs (h : BuilderHeap A P) (heads : List A) (nodes : A → List (A × PurgMemBuilder P))
    (functions : A → List Builder) : Prop where
  once : heads.Nodup
  log : ∀ a ∈ heads, BuilderLog h a (nodes a) (functions a)
  apart : ∀ a ∈ heads, ∀ b ∈ heads, a ≠ b → (addrs (nodes a)).Disjoint (addrs (nodes b))

namespace HoldsLogs

variable {nodes : A → List (A × PurgMemBuilder P)} {functions : A → List Builder} {a b x : A}

theorem create (holds : HoldsLogs h heads nodes functions) (unused : h x = none) (func : P → Builder)
    (param : P) :
    HoldsLogs (purgMemBuilderCreate h (some func) param (some x)).1 (x :: heads)
      (Function.update nodes x [(x, ⟨some func, param⟩)]) (Function.update functions x [func param]) := by
  have outside : ∀ a ∈ heads, x ∉ addrs (nodes a) := by
    intro a held
    exact (holds.log a held).chain.not_mem_of_free unused
  have other : ∀ a ∈ heads, a ≠ x := by
    rintro a held rfl
    exact outside a held (holds.log a held).chain.head_mem
  refine ⟨List.nodup_cons.mpr ⟨fun held => other x held rfl, holds.once⟩, ?_, ?_⟩
  · intro a held
    rcases List.mem_cons.mp held with rfl | older
    · rw [Function.update_self, Function.update_self]
      exact (BuilderLog.create h a func param).2
    · rw [Function.update_of_ne (other a older), Function.update_of_ne (other a older)]
      exact (holds.log a older).of_create unused func param
  · intro a heldA b heldB distinct
    rcases List.mem_cons.mp heldA with rfl | olderA <;> rcases List.mem_cons.mp heldB with rfl | olderB
    · exact absurd rfl distinct
    · rw [Function.update_self, Function.update_of_ne distinct.symm]
      simpa [addrs] using outside b olderB
    · rw [Function.update_self, Function.update_of_ne distinct]
      simpa [addrs] using outside a olderA
    · rw [Function.update_of_ne (other a olderA), Function.update_of_ne (other b olderB)]
      exact holds.apart a olderA b olderB distinct

theorem append (holds : HoldsLogs h heads nodes functions) (heldA : a ∈ heads) (heldB : b ∈ heads)
    (distinct : a ≠ b) :
    HoldsLogs (link h (nodes a) (some b)) (heads.erase b) (Function.update nodes a (nodes a ++ nodes b))
      (Function.update functions a (functions a ++ functions b)) := by
  have kept : ∀ c ∈ heads.erase b, c ∈ heads ∧ c ≠ b := by
    intro c held
    have ne := (holds.once.mem_erase_iff.mp held).1
    exact ⟨List.mem_of_mem_erase held, ne⟩
  have merged : ∀ d ∈ heads, d ≠ a → d ≠ b → (addrs (nodes a ++ nodes b)).Disjoint (addrs (nodes d)) := by
    intro d heldD neA neB
    rw [addrs, List.map_append, List.disjoint_append_left]
    exact ⟨holds.apart a heldA d heldD neA.symm, holds.apart b heldB d heldD neB.symm⟩
  refine ⟨holds.once.erase b, ?_, ?_⟩
  · intro c held
    obtain ⟨held, ne⟩ := kept c held
    by_cases same : c = a
    · subst same
      rw [Function.update_self, Function.update_self]
      exact (holds.log c heldA).append (holds.log b heldB) (holds.apart c heldA b heldB distinct)
    · rw [Function.update_of_ne same, Function.update_of_ne same]
      exact (holds.log c held).congr fun y member =>
        link_of_not_mem (fun inA => holds.apart a heldA c held (Ne.symm same) inA member) _
  · intro c heldC d heldD distinct'
    obtain ⟨heldC, neC⟩ := kept c heldC
    obtain ⟨heldD, neD⟩ := kept d heldD
    by_cases sameC : c = a
    · subst sameC
      rw [Function.update_self, Function.update_of_ne distinct'.symm]
      exact merged d heldD distinct'.symm neD
    · by_cases sameD : d = a
      · subst sameD
        rw [Function.update_self, Function.update_of_ne distinct']
        exact fun x inC inBoth => merged c heldC distinct' neC inBoth inC
      · rw [Function.update_of_ne sameC, Function.update_of_ne sameD]
        exact holds.apart c heldC d heldD distinct'

theorem destroy (holds : HoldsLogs h heads nodes functions) (held : a ∈ heads) :
    HoldsLogs (free h (nodes a)) (heads.erase a) nodes functions where
  once := holds.once.erase a
  log := by
    intro c kept
    obtain ⟨ne, heldC⟩ := holds.once.mem_erase_iff.mp kept
    exact (holds.log c heldC).congr fun y member =>
      free_of_not_mem fun freed => holds.apart a held c heldC ne.symm freed member
  apart := by
    intro c keptC d keptD distinct
    exact holds.apart c (List.mem_of_mem_erase keptC) d (List.mem_of_mem_erase keptD) distinct

end HoldsLogs

theorem Made.holdsLogs (made : Made h heads) : ∃ nodes functions, HoldsLogs h heads nodes functions := by
  induction made with
  | empty => exact ⟨fun _ => [], fun _ => [], List.nodup_nil, by simp, by simp⟩
  | create func param _ unused ih =>
    obtain ⟨nodes, functions, holds⟩ := ih
    exact ⟨_, _, holds.create unused func param⟩
  | @appendFunc _ _ heads a x func param _ _ held unused appended ih =>
    obtain ⟨nodes, functions, holds⟩ := ih
    -- The node is created as a chain of its own and appended as one.
    have created := holds.create unused func param
    have ne : a ≠ x := fun same => (List.nodup_cons.mp created.once).1 (same ▸ held)
    have result := created.append (List.mem_cons_of_mem x held) List.mem_cons_self ne
    rw [List.erase_cons_head] at result
    rw [(created.log a (List.mem_cons_of_mem x held)).eq_of_appendBuilder appended]
    exact ⟨_, _, result⟩
  | appendBuilder _ heldA heldB distinct appended ih =>
    obtain ⟨nodes, functions, holds⟩ := ih
    rw [(holds.log _ heldA).eq_of_appendBuilder appended]
    exact ⟨_, _, holds.append heldA heldB distinct⟩
  | destroy _ held destroyed ih =>
    obtain ⟨nodes, functions, holds⟩ := ih
    rw [(holds.log _ held).eq_of_destroy destroyed]
    exact ⟨_, _, holds.destroy held⟩

end Made

end MemoryUtils.C
