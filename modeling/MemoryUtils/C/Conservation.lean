import MemoryUtils.C.Lifecycle

/-!
What creation and destruction hold at each point: a creation that fails holds nothing in the end, and
an object that was created can be destroyed, in one call of `PurgMemDestroy` or in as many as it takes.
-/

namespace MemoryUtils.C.Lifecycle
open Lib UxPageTable

/-! ### Creation -/

section Create

variable {A P : Type} {n : Nat} {supportUxpt : Bool} {fuel : Nat} {w : World A P n} {o : PurgMem A}
variable {upt : UxPageTableStruct} {size : UInt64}

/-- A size that leaves room above a mapping was rounded up to whole pages. -/
theorem roundUp_multiple {len : UInt64} (mapping : Mapping)
    (fits : mapping.addr.toNat + (UxPageTable.roundUp len pageBytes).toNat < 2 ^ 64) :
    (UxPageTable.roundUp len pageBytes).toNat % 4096 = 0 := by
  have aligned := mapping.aligned
  have nonnull := mapping.nonnull
  rw [pageSize_eq] at aligned
  rw [roundUp_toNat] at fits ⊢
  by_cases roomy : len.toNat + 4096 < 2 ^ 64
  · rw [if_pos roomy]
    omega
  · rw [if_neg roomy] at fits
    omega

theorem initTable_of_held (held : w.table = some upt) (unmapped : w.uxpt = none) (mapping : Mapping)
    (len : UInt64) (enough : 2 ^ 52 < fuel) (mapped : Bool) (entries : Entries) :
    ∃ upt' err, initTable supportUxpt fuel mapped entries mapping.addr (UxPageTable.roundUp len pageBytes) w =
        some ({ w with
          table := some upt'
          uxpt := if supportUxpt && err == .ok then some (getUxPageSize upt'.dataAddr upt'.dataSize) else none },
          err) ∧
      (supportUxpt = true → err = .ok → UxPageTable.Ready upt') := by
  generalize sized : UxPageTable.roundUp len pageBytes = size
  unfold initTable
  rw [held, Option.bind_eq_bind, Option.bind_some]
  cases supportUxpt with
  | false => exact ⟨upt, .ok, by simp [initUxPageTable, unmapped], by simp⟩
  | true =>
    cases pages : mapUxptePages mapped mapping.addr size with
    | none =>
      exact ⟨⟨mapping.addr, size, none⟩, .mmapUxptFail, by simp [initUxPageTable, pages, unmapped], by simp⟩
    | some first =>
      obtain ⟨granted, same⟩ := Option.ite_none_left_eq_some.mp pages
      have fits := sum_fits fun zero => granted (.inl zero)
      have ready : UxPageTable.Ready ⟨mapping.addr, size, some first⟩ := by
        refine ⟨mapping.aligned, ?_, fits, same.symm⟩
        rw [← sized] at fits ⊢
        exact roundUp_multiple mapping fits
      have cleared := @uxpteOps_eq _ ready mapping.addr size .clear fuel enough entries
      exact ⟨_, .ok, by simp [initUxPageTable, pages, uxpteClear, cleared], fun _ _ => ready⟩

theorem freeUxpt_of_held (obj : w.obj = some o) (held : w.table = some upt) (data : w.data = some size)
    (munmap : Unmaps) :
    freeUxpt size munmap w =
      some { w with obj := none, table := none, data := if munmap.data then none else w.data } := by
  cases succeeds : munmap.data <;>
    simp [freeUxpt, freeTable, unmapData, munmapData, freePugObj, freeObj, setObj, obj, held, data, succeeds]

theorem deinitUpt_of_held (obj : w.obj = some o) (held : w.table = some upt) (data : w.data = some size)
    (uxpt : w.uxpt = if supportUxpt then some (getUxPageSize upt.dataAddr upt.dataSize) else none)
    (ready : supportUxpt = true → UxPageTable.Ready upt) (munmap : Unmaps) :
    deinitUpt supportUxpt size munmap w =
      some { w with
        obj := none
        table := none
        data := if munmap.data then none else w.data
        uxpt := if !supportUxpt || munmap.uxpt then none else w.uxpt } := by
  obtain ⟨upt', deinit⟩ := deinitTable_of_held held uxpt
    (fun supported => by rw [(ready supported).mapped]; rfl) munmap.uxpt
  unfold deinitUpt
  rw [deinit]
  cases gone : (!supportUxpt || munmap.uxpt) with
  | false => exact freeUxpt_of_held obj held data munmap
  | true => exact freeUxpt_of_held (w := { w with table := some upt', uxpt := none }) obj rfl data munmap

/-- `PurgMemCreate_` leaves an object without a builder or, if every `munmap` it makes succeeds,
nothing. -/
theorem createObject_of_nothing (nothing : w.HoldsNothing) (enough : 2 ^ 52 < fuel) (len : UInt64)
    (out : CreateOutcomes A) :
    ∃ w' ret, purgMemCreate_ supportUxpt fuel len none out w = some (w', ret) ∧ w'.nodes = w.nodes ∧
      (ret = false → out.munmap.data = true → out.munmap.uxpt = true → w'.HoldsNothing) ∧
      (ret = true → ∃ o, Resumable supportUxpt w' o [] ∧ o.dataPtr.isSome = true) := by
  obtain ⟨obj, table, data, uxpt, heap, content⟩ := w
  obtain ⟨rfl, rfl, rfl, rfl⟩ : obj = none ∧ table = none ∧ data = none ∧ uxpt = none :=
    ⟨nothing.obj, nothing.table, nothing.data, nothing.uxpt⟩
  unfold purgMemCreate_
  cases out.mallocObj with
  | none => exact ⟨_, false, rfl, rfl, fun _ _ _ => nothing, by simp⟩
  | some obj =>
    cases out.mmapData with
    | none => exact ⟨_, false, rfl, rfl, fun _ _ _ => ⟨rfl, rfl, rfl, rfl⟩, by simp⟩
    | some mapping =>
      cases out.mallocTable with
      | none =>
        refine ⟨⟨none, none, if out.munmap.data then none else some (UxPageTable.roundUp len pageBytes), none, heap,
          content⟩, false, ?_, rfl, fun _ succeeds _ => ⟨rfl, rfl, if_pos succeeds, rfl⟩, by simp⟩
        cases succeeds : out.munmap.data <;>
          simp [unmapData, munmapData, freePugObj, freeObj, setObj, succeeds]
      | some upt =>
        obtain ⟨upt', err, inited, ready⟩ := @initTable_of_held A P n supportUxpt fuel
          ⟨some { obj with dataPtr := some mapping.addr, uxPageTable := true }, some upt,
            some (UxPageTable.roundUp len pageBytes), none, heap, content⟩
          upt rfl rfl mapping len enough out.mmapUxpt out.entries
        simp only [setObj, Option.map_some, inited, Option.bind_eq_bind, Option.bind_some]
        by_cases good : err = .ok
        · subst good
          have mapped : ∀ b, (b && (PMState.ok == PMState.ok)) = b := by decide
          rw [mapped, if_neg (by simp)]
          cases out.rwlockInit with
          | false =>
            have unwound := @deinitUpt_of_held A P n supportUxpt
              ⟨some { obj with dataPtr := some mapping.addr, uxPageTable := true }, some upt',
                some (UxPageTable.roundUp len pageBytes),
                if supportUxpt then some (getUxPageSize upt'.dataAddr upt'.dataSize) else none, heap, content⟩
              _ upt' _ rfl rfl rfl rfl (fun supported => ready supported rfl) out.munmap
            refine ⟨_, false, congrArg (Option.map (·, false)) unwound, rfl, ?_, by simp⟩
            intro _ succeeds succeeds'
            exact ⟨rfl, rfl, if_pos succeeds, if_pos (by simp [succeeds'])⟩
          | true =>
            refine ⟨_, true, rfl, rfl, by simp, fun _ => ⟨_, ⟨rfl, .nil, rfl, rfl, rfl, ?_⟩, rfl⟩⟩
            rintro supported _ ⟨⟩
            exact ready supported rfl
        · have unmapped : (supportUxpt && err == .ok) = false := by simp [good]
          have unwound := @freeUxpt_of_held A P n
            ⟨some { obj with dataPtr := some mapping.addr, uxPageTable := true }, some upt',
              some (UxPageTable.roundUp len pageBytes), none, heap, content⟩
            _ upt' _ rfl rfl rfl out.munmap
          rw [if_pos good, unmapped]
          exact ⟨_, false, congrArg (Option.map (·, false)) unwound, rfl,
            fun _ succeeds _ => ⟨rfl, rfl, if_pos succeeds, rfl⟩, by simp⟩

/-- The chain is as before or has one more node, and what else is held does not change. -/
theorem appendModify_of_resumable [DecidableEq A] {nodes : List (A × PurgMemBuilder P)} {functions : List Builder}
    (resumable : Resumable supportUxpt w o nodes)
    (builds : nodes.map (fun node => node.2.function) = functions.map some) (mapped : o.dataPtr.isSome = true)
    (func : P → Builder) (funcPara : P) {malloc : Option A} (unused : ∀ x, malloc = some x → w.nodes x = none)
    (enough : nodes.length ≤ fuel) :
    ∃ w' ret o', appendModify fuel func funcPara malloc w = some (w', ret) ∧
      o'.dataPtr = o.dataPtr ∧ (ret = false → Resumable supportUxpt w' o' nodes ∧ w'.nodes = w.nodes) ∧
      (ret = true → ∃ x, Resumable supportUxpt w' o' (nodes ++ [(x, ⟨some func, funcPara⟩)])) := by
  have log : ObjLog w.nodes ⟨w.content, o.builder⟩ nodes functions := ⟨resumable.chain, builds⟩
  obtain ⟨addr, pointer⟩ := Option.isSome_iff_exists.mp mapped
  have data := resumable.data
  rw [pointer, Option.map_some] at data
  unfold appendModify
  simp only [resumable.obj, Option.bind_eq_bind, Option.bind_some, pointer, data, Option.isNone_some, Bool.or_self,
    Bool.false_eq_true, if_false]
  by_cases fails : (func funcPara n w.content).2 = false ∨ malloc = none
  · rw [appendModify_fails w.nodes ⟨w.content, o.builder⟩ fuel func fails]
    refine ⟨_, false, o, rfl, pointer, fun _ => ⟨⟨?_, resumable.chain, resumable.data, resumable.table, resumable.uxpt,
      resumable.ready⟩, rfl⟩, by simp⟩
    simp [setObj, resumable.obj]
  · rw [not_or] at fails
    obtain ⟨x, rfl⟩ := Option.ne_none_iff_exists'.mp fails.2
    obtain ⟨h', o', returned, -, log'⟩ :=
      appendModify_logs log func (unused x rfl) (by simpa using fails.1) enough
    rw [returned]
    refine ⟨_, true, { o with builder := o'.builder }, rfl, pointer, by simp, fun _ => ⟨x, ?_, log'.chain, resumable.data,
      resumable.table, resumable.uxpt, resumable.ready⟩⟩
    simp [setObj, resumable.obj]

theorem purgMemCreate_of_nothing [DecidableEq A] (nothing : w.HoldsNothing) (enough : 2 ^ 52 < fuel) (len : UInt64)
    (func : Option (P → Builder)) (funcPara : P) (out : CreateOutcomes A)
    (unused : ∀ x, out.mallocNode = some x → w.nodes x = none) :
    ∃ w' ret, purgMemCreate supportUxpt fuel len func funcPara out w = some (w', ret) ∧
      (ret = false → out.munmap.data = true → out.munmap.uxpt = true →
        w'.HoldsNothing ∧ w'.nodes = w.nodes) ∧
      (ret = true → ∃ o x f, Resumable supportUxpt w' o [(x, ⟨some f, funcPara⟩)] ∧ o.dataPtr.isSome = true) := by
  unfold purgMemCreate
  by_cases empty : len = 0
  · exact ⟨w, false, by simp [empty], fun _ _ _ => ⟨nothing, rfl⟩, by simp⟩
  · rw [if_neg empty]
    cases func with
    | none => exact ⟨w, false, rfl, fun _ _ _ => ⟨nothing, rfl⟩, by simp⟩
    | some func =>
      obtain ⟨w₁, created, returned₁, same₁, failed₁, resumable₁⟩ :=
        @createObject_of_nothing A P n supportUxpt fuel w nothing enough len out
      simp only [returned₁, Option.bind_eq_bind, Option.bind_some]
      cases created with
      | false =>
        exact ⟨w₁, false, rfl, fun _ succeeds succeeds' => ⟨failed₁ rfl succeeds succeeds', same₁⟩, by simp⟩
      | true =>
        obtain ⟨o, resumable₁, mapped⟩ := resumable₁ rfl
        have builds : ([] : List (A × PurgMemBuilder P)).map (fun node => node.2.function) =
            ([] : List Builder).map some := rfl
        rw [← same₁] at unused
        obtain ⟨w₂, appended, o₂, returned₂, pointer₂, failed₂, resumable₂⟩ :=
          appendModify_of_resumable resumable₁ builds mapped func funcPara unused (Nat.zero_le fuel)
        simp only [returned₂, Bool.not_true, Bool.false_eq_true, if_false, Option.bind_some]
        cases appended with
        | true =>
          obtain ⟨x, resumable₂⟩ := resumable₂ rfl
          exact ⟨w₂, true, rfl, by simp, fun _ => ⟨o₂, x, func, resumable₂, pointer₂ ▸ mapped⟩⟩
        | false =>
          -- The second failure layer: the object is there and is destroyed again.
          obtain ⟨resumable₂, same₂⟩ := failed₂ rfl
          obtain ⟨w₃, ret, returned₃, certain, done, -⟩ := purgMemDestroy_of_resumable resumable₂ enough
            (by simp; omega) ⟨true, out.munmap, out.entries⟩
          refine ⟨w₃, false, by simp [returned₃], fun _ succeeds succeeds' => ?_, by simp⟩
          obtain rfl := certain rfl succeeds succeeds'
          obtain ⟨nothing₃, freed⟩ := done rfl
          exact ⟨nothing₃, by rw [freed, free_nil, same₂, same₁]⟩

end Create

/-! ### From creation to destruction -/

section Conservation

variable {A P : Type} [DecidableEq A]

/-- An object that was created, with any chain that later calls of `PurgMemAppendModify` gave it and
whatever accesses left in its content and its count. The fuel of a call is enough for its loops. -/
inductive Live (supportUxpt : Bool) (len : UInt64) : World A P len.toNat → Prop where
  | created {w w' : World A P len.toNat} {func : Option (P → Builder)} {funcPara : P} {out : CreateOutcomes A}
      {fuel : Nat} :
      w.HoldsNothing → (∀ x, out.mallocNode = some x → w.nodes x = none) → 2 ^ 52 < fuel →
      purgMemCreate supportUxpt fuel len func funcPara out w = some (w', true) → Live supportUxpt len w'
  | modified {w w' : World A P len.toNat} {o : PurgMem A} {nodes : List (A × PurgMemBuilder P)} {func : P → Builder}
      {funcPara : P} {malloc : Option A} {fuel : Nat} {ret : Bool} :
      Live supportUxpt len w → w.obj = some o → Chain w.nodes o.builder nodes → nodes.length ≤ fuel →
      (∀ x, malloc = some x → w.nodes x = none) →
      appendModify fuel func funcPara malloc w = some (w', ret) → Live supportUxpt len w'
  | accessed {w : World A P len.toNat} (content : Content len.toNat) (count : UInt32) :
      Live supportUxpt len w →
      Live supportUxpt len { setObj (fun o => { o with buildDataCount := count }) w with content := content }

variable {supportUxpt : Bool} {len : UInt64} {w : World A P len.toNat}

theorem Live.resumable (live : Live supportUxpt len w) :
    ∃ o nodes functions, Resumable supportUxpt w o nodes ∧ o.dataPtr.isSome = true ∧
      nodes.map (fun node => node.2.function) = List.map some functions := by
  induction live with
  | @created _ _ func funcPara out _ nothing unused enough returned =>
    obtain ⟨w', ret, result, -, resumable⟩ := purgMemCreate_of_nothing nothing enough len func funcPara out unused
    obtain ⟨rfl, rfl⟩ := Prod.mk.inj (Option.some.inj (result.symm.trans returned))
    obtain ⟨o, x, f, resumable, mapped⟩ := resumable rfl
    exact ⟨o, _, [f funcPara], resumable, mapped, rfl⟩
  | @modified _ _ _ _ func funcPara _ _ ret _ obj chain enough unused returned ih =>
    obtain ⟨o, nodes, functions, resumable, mapped, builds⟩ := ih
    obtain rfl := Option.some.inj (resumable.obj.symm.trans obj)
    obtain rfl := resumable.chain.unique chain
    obtain ⟨w', ret', o', result, pointer, failed, logged⟩ :=
      appendModify_of_resumable resumable builds mapped func funcPara unused enough
    obtain ⟨rfl, rfl⟩ := Prod.mk.inj (Option.some.inj (result.symm.trans returned))
    cases ret' with
    | false => exact ⟨o', nodes, functions, (failed rfl).1, pointer ▸ mapped, builds⟩
    | true =>
      obtain ⟨x, resumable'⟩ := logged rfl
      refine ⟨o', _, functions ++ [func funcPara], resumable', pointer ▸ mapped, ?_⟩
      rw [List.map_append, List.map_append, builds]
      rfl
  | accessed content count _ ih =>
    obtain ⟨o, nodes, functions, resumable, mapped, builds⟩ := ih
    refine ⟨{ o with buildDataCount := count }, nodes, functions, ⟨?_, resumable.chain, resumable.data,
      resumable.table, resumable.uxpt, resumable.ready⟩, mapped, builds⟩
    simp [setObj, resumable.obj]

/-- Nothing is lost when creation fails, and nothing is released twice, with another size or used after
its release when an object is destroyed, whichever of the calls of `munmap` fail. -/
theorem create_and_destroy_conserve (supportUxpt : Bool) (len : UInt64) :
    (∀ fuel, 2 ^ 52 < fuel → ∀ (w : World A P len.toNat) (func : Option (P → Builder)) (funcPara : P)
      (out : CreateOutcomes A), w.HoldsNothing → (∀ x, out.mallocNode = some x → w.nodes x = none) →
      ∃ w' ret, purgMemCreate supportUxpt fuel len func funcPara out w = some (w', ret) ∧
        (ret = false → out.munmap.data = true → out.munmap.uxpt = true →
          w'.HoldsNothing ∧ w'.nodes = w.nodes)) ∧
    (∀ w : World A P len.toNat, Live supportUxpt len w → ∃ o nodes, w.obj = some o ∧ Chain w.nodes o.builder nodes ∧
      ∀ fuel, 2 ^ 52 + nodes.length < fuel → ∀ outs,
        ∃ w' ret, destroyUntilDone supportUxpt fuel outs w = some (w', ret) ∧
          (ret = true → w'.HoldsNothing ∧ w'.nodes = free w.nodes nodes) ∧
          (ret = false → ∃ o', w'.obj = some o' ∧
            (∀ out, out.wrlock = true → out.munmap.data = true → out.munmap.uxpt = true →
              ∃ w'', purgMemDestroy supportUxpt fuel out w' = some (w'', true) ∧ w''.HoldsNothing) ∧
            (o'.builder = none ∨ w'.data = none ∨ supportUxpt = true ∧ w'.uxpt = none →
              ∀ rest, purgMemBegin rest w' = some false))) := by
  constructor
  · intro fuel enough w func funcPara out nothing unused
    obtain ⟨w', ret, returned, failed, -⟩ := purgMemCreate_of_nothing nothing enough len func funcPara out unused
    exact ⟨w', ret, returned, failed⟩
  · intro w live
    obtain ⟨o, nodes, -, resumable, -, -⟩ := live.resumable
    refine ⟨o, nodes, resumable.obj, resumable.chain, fun fuel enough outs => ?_⟩
    have checks : 2 ^ 52 < fuel := by omega
    have walks : nodes.length < fuel := by omega
    obtain ⟨w', ret, returned, done, again⟩ := destroyUntilDone_of_resumable resumable checks walks outs
    refine ⟨w', ret, returned, done, fun failed => ?_⟩
    obtain ⟨o', nodes', resumable', shorter⟩ := again failed
    refine ⟨o', resumable'.obj, fun out locked unmapsData unmapsUxpt => ?_, fun gone rest => ?_⟩
    · obtain ⟨w'', ret', retried, certain, done', -⟩ :=
        purgMemDestroy_of_resumable resumable' checks (shorter.trans_lt walks) out
      obtain rfl := certain locked unmapsData unmapsUxpt
      exact ⟨w'', retried, (done' rfl).1⟩
    · exact purgMemBegin_of_gone resumable' gone rest

end Conservation

def emptyWorld : World Nat Unit (1 : UInt64).toNat := ⟨none, none, none, none, fun _ => none, zeros⟩

def allSucceed : CreateOutcomes Nat where
  mallocObj := some ⟨none, 0, none, false, 0⟩
  mmapData := some ⟨4096, by decide, by decide⟩
  mallocTable := some ⟨0, 0, none⟩
  mmapUxpt := true
  entries _ := 0
  rwlockInit := true
  mallocNode := some 0
  munmap := ⟨true, true⟩

/-- What `PurgMemCreate` leaves when all succeeds. -/
def createdWorld : World Nat Unit (1 : UInt64).toNat where
  obj := some ⟨some 4096, 1, some 0, true, 0⟩
  table := some ⟨4096, 4096, some 0⟩
  data := some 4096
  uxpt := some 4096
  nodes := Function.update (fun _ => none) 0 (some ⟨none, ⟨some fun _ => fill 7, ()⟩⟩)
  content _ := 7

/-- The first call cannot unmap the data, the second one can. -/
def failThenSucceed : List DestroyOutcomes :=
  [⟨true, ⟨false, true⟩, fun _ => 0⟩, ⟨true, ⟨true, true⟩, fun _ => 0⟩]

theorem destroyed_in_two_calls :
    purgMemCreate true (2 ^ 52 + 1) 1 (some fun _ => fill 7) () allSucceed emptyWorld = some (createdWorld, true) ∧
    (∃ w', destroyUntilDone true (2 ^ 52 + 2) (failThenSucceed.take 1) createdWorld = some (w', false)) ∧
    ∃ w', destroyUntilDone true (2 ^ 52 + 2) failThenSucceed createdWorld = some (w', true) ∧ w'.HoldsNothing := by
  have nothing : emptyWorld.HoldsNothing := ⟨rfl, rfl, rfl, rfl⟩
  have returned : purgMemCreate true (2 ^ 52 + 1) 1 (some fun _ => fill 7) () allSucceed emptyWorld =
      some (createdWorld, true) := rfl
  obtain ⟨-, destroys⟩ := create_and_destroy_conserve (A := Nat) (P := Unit) true 1
  obtain ⟨o, nodes, obj, chain, each⟩ := destroys createdWorld (.created nothing (fun _ _ => rfl) (by decide) returned)
  obtain rfl := Option.some.inj obj
  obtain rfl : nodes = [(0, ⟨some fun _ => fill 7, ()⟩)] := chain.unique (.cons rfl .nil)
  have enough : 2 ^ 52 + [((0 : Nat), (⟨some fun _ => fill 7, ()⟩ : PurgMemBuilder Unit))].length < 2 ^ 52 + 2 := by
    decide
  have first : (destroyUntilDone true (2 ^ 52 + 2) (failThenSucceed.take 1) createdWorld).map Prod.snd = some false := by
    decide +kernel
  have second : (destroyUntilDone true (2 ^ 52 + 2) failThenSucceed createdWorld).map Prod.snd = some true := by
    decide +kernel
  obtain ⟨w', ret, destroyed, done, -⟩ := each (2 ^ 52 + 2) enough failThenSucceed
  rw [destroyed] at second
  obtain rfl : ret = true := Option.some.inj second
  obtain ⟨⟨w'', _⟩, refused, rfl⟩ := Option.map_eq_some_iff.mp first
  exact ⟨returned, ⟨w'', refused⟩, w', destroyed, (done rfl).1⟩

end MemoryUtils.C.Lifecycle
