import MemoryUtils.Common.Region

/-!
`PurgeableMemBuilder` as a tree: a builder owns the next one through a `unique_ptr`, so a chain is a
value and cannot come back to itself.
-/

namespace MemoryUtils.Cpp

/-- A builder of a class that overrides `Build`. The rebuild callback plays no part here. -/
inductive PurgeableMemBuilder where
  | mk (build : Builder) (nextBuilder : Option PurgeableMemBuilder)

namespace PurgeableMemBuilder

/-- `AppendBuilder`, which takes over the builder it is given. -/
def appendBuilder : PurgeableMemBuilder → Option PurgeableMemBuilder → PurgeableMemBuilder
  | mk build nextBuilder, none => mk build nextBuilder
  | mk build (some nextBuilder), some builder => mk build (some (nextBuilder.appendBuilder (some builder)))
  | mk build none, some builder => mk build (some builder)

def buildAll {n : Nat} : PurgeableMemBuilder → Content n → Content n × Bool
  | mk build nextBuilder, data =>
    match build n data with
    | (data, false) => (data, false)
    | (data, true) =>
      match nextBuilder with
      | none => (data, true)
      | some nextBuilder => nextBuilder.buildAll data

def functions : PurgeableMemBuilder → List Builder
  | mk build none => [build]
  | mk build (some nextBuilder) => build :: nextBuilder.functions

theorem functions_ne_nil (b : PurgeableMemBuilder) : b.functions ≠ [] := by
  rcases b with ⟨build, _ | next⟩ <;> simp [functions]

theorem functions_appendBuilder (b builder : PurgeableMemBuilder) :
    (b.appendBuilder (some builder)).functions = b.functions ++ builder.functions := by
  fun_induction functions b with
  | case1 build => simp [appendBuilder, functions]
  | case2 build next ih => simp [appendBuilder, functions, ih]

theorem buildAll_eq {n : Nat} (b : PurgeableMemBuilder) (data : Content n) :
    b.buildAll data = MemoryUtils.buildAll b.functions data := by
  fun_induction functions b generalizing data with
  | case1 build =>
    rcases call : build n data with ⟨data', _ | _⟩ <;> simp [buildAll, MemoryUtils.buildAll, call]
  | case2 build next ih =>
    rw [buildAll_cons build next.functions_ne_nil]
    rcases call : build n data with ⟨data', _ | _⟩
    · simp [buildAll, call]
    · simpa [buildAll, call] using ih data'

theorem appendBuilder_assoc (b c d : PurgeableMemBuilder) :
    (b.appendBuilder (some c)).appendBuilder (some d) = b.appendBuilder (some (c.appendBuilder (some d))) := by
  fun_induction functions b with
  | case1 build => simp [appendBuilder]
  | case2 build next ih => simp [appendBuilder, ih]

end PurgeableMemBuilder

end MemoryUtils.Cpp
