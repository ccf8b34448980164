import MemoryUtils.C.Builder
import MemoryUtils.Cpp.Builder

/-!
The linked nodes of the C interface and the owned builders of the C++ interface are the same log: a
list of functions that grows at its end and is run from its start.
-/

namespace MemoryUtils
open Lib C

section

variable {A P : Type} [DecidableEq A] {h : BuilderHeap A P} {a b c : A}
variable {nodesA nodesB nodesC : List (A × PurgMemBuilder P)} {funcsA funcsB funcsC : List Builder} {fuel : Nat}

/-- Both ways to append three chains link the same two nodes. -/
theorem appendBuilder_assoc (logA : BuilderLog h a nodesA funcsA) (logB : BuilderLog h b nodesB funcsB)
    (logC : BuilderLog h c nodesC funcsC) (apartAB : (addrs nodesA).Disjoint (addrs nodesB))
    (apartAC : (addrs nodesA).Disjoint (addrs nodesC)) (apartBC : (addrs nodesB).Disjoint (addrs nodesC))
    (enough : nodesA.length + nodesB.length ≤ fuel) :
    ∃ heapBC heapABC,
      purgMemBuilderAppendBuilder fuel (link h nodesA (some b)) (some a) (some c) = some (heapABC, true) ∧
      purgMemBuilderAppendBuilder fuel h (some b) (some c) = some (heapBC, true) ∧
      purgMemBuilderAppendBuilder fuel heapBC (some a) (some b) = some (heapABC, true) ∧
      BuilderLog heapABC a (nodesA ++ nodesB ++ nodesC) (funcsA ++ funcsB ++ funcsC) := by
  have logAB := logA.append logB apartAB
  have keptC : BuilderLog (link h nodesA (some b)) c nodesC funcsC :=
    logC.congr fun x member => link_of_not_mem (fun inA => apartAC inA member) _
  have keptA : BuilderLog (link h nodesB (some c)) a nodesA funcsA :=
    logA.congr fun x member => link_of_not_mem (fun inB => apartAB member inB) _
  have apart : (addrs (nodesA ++ nodesB)).Disjoint (addrs nodesC) := by
    rw [addrs, List.map_append, List.disjoint_append_left]
    exact ⟨apartAC, apartBC⟩
  refine ⟨_, _, logAB.appendBuilder (by simpa using enough) c, logB.appendBuilder (by omega) c, ?_,
    logAB.append keptC apart⟩
  rw [keptA.appendBuilder (by omega) b, link_link logB.chain.ne_nil apartAB]

theorem buildAll_appended (logA : BuilderLog h a nodesA funcsA) (logB : BuilderLog h b nodesB funcsB)
    (apartAB : (addrs nodesA).Disjoint (addrs nodesB)) (enough : nodesA.length + nodesB.length < fuel)
    {n : Nat} (data : Content n) :
    ∃ result, purgMemBuilderBuildAll fuel (link h nodesA (some b)) (some a) data = some result ∧
      BuiltInOrder (funcsA ++ funcsB) data result ∧
      (result.2 = true ↔ Replays (funcsA ++ funcsB) data) ∧
      ∀ p q : Cpp.PurgeableMemBuilder, p.functions = funcsA → q.functions = funcsB →
        (p.appendBuilder (some q)).buildAll data = result := by
  have logAB := logA.append logB apartAB
  have inOrder := buildAll_builtInOrder logAB.nonempty data
  refine ⟨_, logAB.buildAll (by simpa using enough) data, inOrder, inOrder.succeeds_iff, ?_⟩
  rintro p q rfl rfl
  rw [Cpp.PurgeableMemBuilder.buildAll_eq, Cpp.PurgeableMemBuilder.functions_appendBuilder]

theorem destroy_appended (logA : BuilderLog h a nodesA funcsA) (logB : BuilderLog h b nodesB funcsB)
    (apartAB : (addrs nodesA).Disjoint (addrs nodesB)) (enough : nodesA.length + nodesB.length < fuel) :
    ∃ freed rest,
      purgMemBuilderDestroy fuel (link h nodesA (some b)) (some a) = some (rest, freed, true) ∧
      freed = addrs nodesA ++ addrs nodesB ∧ freed.Nodup ∧ (∀ x ∈ freed, rest x = none) ∧
      ∀ x ∉ freed, rest x = h x := by
  have logAB := logA.append logB apartAB
  have both : addrs (nodesA ++ nodesB) = addrs nodesA ++ addrs nodesB := List.map_append
  refine ⟨_, _, logAB.destroy (by simpa using enough), both, logAB.chain.nodup, ?_, ?_⟩
  · intro x member
    exact if_pos member
  · intro x other
    rw [free_of_not_mem other]
    rw [both, List.mem_append, not_or] at other
    exact link_of_not_mem other.1 _

/-- Appending chains, building from them and destroying them treats them as lists of functions, in C
as in C++. -/
theorem builder_chains_are_ordered_logs (logA : BuilderLog h a nodesA funcsA)
    (logB : BuilderLog h b nodesB funcsB) (logC : BuilderLog h c nodesC funcsC)
    (apartAB : (addrs nodesA).Disjoint (addrs nodesB)) (apartAC : (addrs nodesA).Disjoint (addrs nodesC))
    (apartBC : (addrs nodesB).Disjoint (addrs nodesC))
    (enough : nodesA.length + nodesB.length < fuel) :
    ∃ heapAB, purgMemBuilderAppendBuilder fuel h (some a) (some b) = some (heapAB, true) ∧
      (BuilderLog heapAB a (nodesA ++ nodesB) (funcsA ++ funcsB) ∧ (addrs (nodesA ++ nodesB)).Nodup) ∧
      (∀ (n : Nat) (data : Content n), ∃ result,
        purgMemBuilderBuildAll fuel heapAB (some a) data = some result ∧
        BuiltInOrder (funcsA ++ funcsB) data result ∧
        (result.2 = true ↔ Replays (funcsA ++ funcsB) data) ∧
        ∀ p q : Cpp.PurgeableMemBuilder, p.functions = funcsA → q.functions = funcsB →
          (p.appendBuilder (some q)).buildAll data = result) ∧
      (∃ heapBC heapABC,
        purgMemBuilderAppendBuilder fuel heapAB (some a) (some c) = some (heapABC, true) ∧
        purgMemBuilderAppendBuilder fuel h (some b) (some c) = some (heapBC, true) ∧
        purgMemBuilderAppendBuilder fuel heapBC (some a) (some b) = some (heapABC, true) ∧
        BuilderLog heapABC a (nodesA ++ nodesB ++ nodesC) (funcsA ++ funcsB ++ funcsC)) ∧
      (∀ p q r : Cpp.PurgeableMemBuilder,
        (p.appendBuilder (some q)).functions = p.functions ++ q.functions ∧
        (p.appendBuilder (some q)).appendBuilder (some r) =
          p.appendBuilder (some (q.appendBuilder (some r)))) ∧
      ∃ freed rest, purgMemBuilderDestroy fuel heapAB (some a) = some (rest, freed, true) ∧
        freed = addrs nodesA ++ addrs nodesB ∧ freed.Nodup ∧ (∀ x ∈ freed, rest x = none) ∧
        ∀ x ∉ freed, rest x = h x := by
  have logAB := logA.append logB apartAB
  refine ⟨_, logA.appendBuilder (by omega) b, ⟨logAB, logAB.chain.nodup⟩, ?_, ?_, ?_, ?_⟩
  · intro n data
    exact buildAll_appended logA logB apartAB enough data
  · exact appendBuilder_assoc logA logB logC apartAB apartAC apartBC (by omega)
  · intro p q r
    exact ⟨p.functions_appendBuilder q, p.appendBuilder_assoc q r⟩
  · exact destroy_appended logA logB apartAB enough

end

/-- A builder that spoils the content and fails. -/
def spoil : Builder := fun _ _ => (fun _ => 9, false)

/-- Chains at 0, 2 and 3. The first has two nodes, and the second one's builder fails. -/
def threeChains : BuilderHeap Nat Unit
  | 0 => some { next := some 1, value := ⟨some fun _ => fill 1, ()⟩ }
  | 1 => some { next := none, value := ⟨some fun _ => fill 2, ()⟩ }
  | 2 => some { next := none, value := ⟨some fun _ => spoil, ()⟩ }
  | 3 => some { next := none, value := ⟨some fun _ => fill 3, ()⟩ }
  | _ => none

theorem threeChains_stop_at_failure :
    ∃ heap, purgMemBuilderAppendBuilder 4 threeChains (some 0) (some 2) = some (heap, true) ∧
      ∃ result, purgMemBuilderBuildAll 4 heap (some 0) (zeros : Content 1) = some result ∧
        result.2 = false := by
  have log0 : BuilderLog threeChains 0 [(0, ⟨some fun _ => fill 1, ()⟩), (1, ⟨some fun _ => fill 2, ()⟩)]
      [fill 1, fill 2] := ⟨.cons rfl (.cons rfl .nil), rfl⟩
  have log2 : BuilderLog threeChains 2 [(2, ⟨some fun _ => spoil, ()⟩)] [spoil] := ⟨.cons rfl .nil, rfl⟩
  have log3 : BuilderLog threeChains 3 [(3, ⟨some fun _ => fill 3, ()⟩)] [fill 3] := ⟨.cons rfl .nil, rfl⟩
  obtain ⟨heap, appended, -, built, -⟩ := builder_chains_are_ordered_logs log0 log2 log3
    (by simp [addrs]) (by simp [addrs]) (by simp [addrs]) (show 2 + 1 < 4 by decide)
  obtain ⟨result, ran, -, succeeds, -⟩ := built 1 zeros
  refine ⟨heap, appended, result, ran, ?_⟩
  rw [← Bool.not_eq_true, succeeds]
  simp [Replays, spoil]

end MemoryUtils
