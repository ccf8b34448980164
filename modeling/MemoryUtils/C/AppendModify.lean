import MemoryUtils.C.Access
import MemoryUtils.C.Builder

/-!
`PurgMemAppendModify` modifies the content first and then logs the modifier as a new builder. When the
new node cannot be allocated it returns false with the content already modified, so a rebuild undoes a
change that every access saw until then.
-/

namespace MemoryUtils.C
open Lib

/-- The members of `struct PurgMem` that `PurgMemAppendModify` uses, with the bytes at `dataPtr`. -/
structure ModifiedObj (A : Type) (n : Nat) where
  content : Content n
  builder : Option A

section

variable {A P : Type} [DecidableEq A] {n : Nat}

def purgMemAppendModify (fuel : Nat) (h : BuilderHeap A P) (purgObj : Option (ModifiedObj A n))
    (func : Option (P → Builder)) (funcPara : P) (malloc : Option A) :
    Option (BuilderHeap A P × Option (ModifiedObj A n) × Bool) :=
  match func, purgObj with
  | none, purgObj => some (h, purgObj, true)
  | some _, none => some (h, none, false)
  | some func, some purgObj =>
    let (content, succ) := func funcPara n purgObj.content
    let purgObj := { purgObj with content := content }
    if !succ then
      some (h, some purgObj, false)
    else
      match purgMemBuilderCreate h (some func) funcPara malloc with
      | (h, none) => some (h, some purgObj, false)
      | (h, some builder) =>
        match purgObj.builder with
        | none => some (h, some { purgObj with builder := some builder }, true)
        | some head =>
          (purgMemBuilderAppendBuilder fuel h (some head) (some builder)).map fun (h, ret) =>
            (h, some purgObj, ret)

/-- The object's chain, which may be null, with its nodes and their functions. -/
structure ObjLog (h : BuilderHeap A P) (o : ModifiedObj A n) (nodes : List (A × PurgMemBuilder P))
    (functions : List Builder) : Prop where
  chain : Chain h o.builder nodes
  builds : nodes.map (fun node => node.2.function) = functions.map some

variable {h h' : BuilderHeap A P} {o o' : ModifiedObj A n} {nodes : List (A × PurgMemBuilder P)}
variable {functions : List Builder} {funcPara : P} {malloc : Option A} {fuel : Nat}

theorem appendModify_of_node (func : P → Builder) (x : A) (succ : (func funcPara n o.content).2 = true) :
    purgMemAppendModify fuel h (some o) (some func) funcPara (some x) =
      match o.builder with
      | none => some ((purgMemBuilderCreate h (some func) funcPara (some x)).1,
          some ⟨(func funcPara n o.content).1, some x⟩, true)
      | some head =>
        (purgMemBuilderAppendBuilder fuel (purgMemBuilderCreate h (some func) funcPara (some x)).1 (some head)
          (some x)).map fun (h, ret) => (h, some ⟨(func funcPara n o.content).1, some head⟩, ret) := by
  obtain ⟨content, _ | head⟩ := o <;> simp [purgMemAppendModify, purgMemBuilderCreate, succ]

/-- A new node becomes the whole chain of an object without one, and the last node of any other. -/
theorem appendModify_logs (log : ObjLog h o nodes functions) (func : P → Builder) {x : A}
    (unused : h x = none) (succ : (func funcPara n o.content).2 = true) (enough : nodes.length ≤ fuel) :
    ∃ h' o', purgMemAppendModify fuel h (some o) (some func) funcPara (some x) = some (h', some o', true) ∧
      o'.content = (func funcPara n o.content).1 ∧
      ObjLog h' o' (nodes ++ [(x, ⟨some func, funcPara⟩)]) (functions ++ [func funcPara]) := by
  obtain ⟨content, builder⟩ := o
  obtain ⟨chain, builds⟩ := log
  obtain ⟨-, created⟩ := BuilderLog.create h x func funcPara
  rw [appendModify_of_node func x succ]
  cases builder with
  | none =>
    cases chain
    obtain rfl : functions = [] := by simpa using builds.symm
    exact ⟨_, ⟨_, some x⟩, rfl, rfl, created.chain, created.builds⟩
  | some head =>
    have log : BuilderLog h head nodes functions := ⟨chain, builds⟩
    have kept := log.of_create unused func funcPara
    have appended := kept.append created (by simpa [addrs] using chain.not_mem_of_free unused)
    refine ⟨_, ⟨_, some head⟩, ?_, rfl, appended.chain, appended.builds⟩
    exact congrArg (Option.map _) (kept.appendBuilder enough x)

/-- A modifier that fails and a node that cannot be allocated leave the log, but not the content. -/
theorem appendModify_fails (h : BuilderHeap A P) (o : ModifiedObj A n) (fuel : Nat) (func : P → Builder)
    (fails : (func funcPara n o.content).2 = false ∨ malloc = none) :
    purgMemAppendModify fuel h (some o) (some func) funcPara malloc =
      some (h, some { o with content := (func funcPara n o.content).1 }, false) := by
  rcases call : func funcPara n o.content with ⟨content, _ | _⟩
  · simp [purgMemAppendModify, call]
  · rcases fails with failed | rfl
    · simp [call] at failed
    · simp [purgMemAppendModify, call, purgMemBuilderCreate]

/-- A call that fails changes nothing, and one that succeeds changes the content and the log alike, so
that a rebuild after the call leaves the content that the call left. -/
structure AllOrNothing (func : Option (P → Builder)) (funcPara : P) (functions : List Builder)
    (h : BuilderHeap A P) (o : ModifiedObj A n) (h' : BuilderHeap A P) (o' : ModifiedObj A n) (ret : Bool) :
    Prop where
  failed : ret = false → h' = h ∧ o' = o
  succeeded : ret = true → ∀ f, func = some f →
    o'.content = (f funcPara n o.content).1 ∧ ∃ nodes, ObjLog h' o' nodes (functions ++ [f funcPara])
  rebuilds : o.content = replay functions →
    ∃ nodes functions', ObjLog h' o' nodes functions' ∧ o'.content = replay functions'

/-- The modifier succeeds and changes the content, and its node cannot be allocated. -/
def ChangedNotLogged (func : Option (P → Builder)) (funcPara : P) (o : ModifiedObj A n) (malloc : Option A) :
    Prop :=
  ∃ f, func = some f ∧ (f funcPara n o.content).2 = true ∧ (f funcPara n o.content).1 ≠ o.content ∧
    malloc = none

omit [DecidableEq A] in
theorem AllOrNothing.unchanged (log : ObjLog h o nodes functions) (func : Option (P → Builder)) {ret : Bool}
    (reported : ret = true → func = none) : AllOrNothing func funcPara functions h o h o ret where
  failed _ := ⟨rfl, rfl⟩
  succeeded := by
    rintro succ f rfl
    cases reported succ
  rebuilds same := ⟨nodes, functions, log, same⟩

omit [DecidableEq A] in
theorem AllOrNothing.logged {f : P → Builder} {h' : BuilderHeap A P} {o' : ModifiedObj A n}
    {nodes' : List (A × PurgMemBuilder P)} (content : o'.content = (f funcPara n o.content).1)
    (log' : ObjLog h' o' nodes' (functions ++ [f funcPara])) :
    AllOrNothing (some f) funcPara functions h o h' o' true where
  failed := by
    intro failed
    cases failed
  succeeded := by
    rintro - g same
    obtain rfl : f = g := Option.some.inj same
    exact ⟨content, _, log'⟩
  rebuilds := by
    intro same
    refine ⟨_, _, log', ?_⟩
    rw [replay, replayFrom_append, content, same, replay]

omit [DecidableEq A] in
theorem content_of_fails {f : P → Builder}
    (keeps : (f funcPara n o.content).2 = false → (f funcPara n o.content).1 = o.content)
    (fails : (f funcPara n o.content).2 = false ∨ malloc = none)
    (logged : ¬ ChangedNotLogged (some f) funcPara o malloc) : (f funcPara n o.content).1 = o.content := by
  by_contra changed
  have succ : (f funcPara n o.content).2 = true := by
    by_contra failed
    exact changed (keeps (by simpa using failed))
  rcases fails with failed | noNode
  · exact changed (keeps failed)
  · exact logged ⟨f, rfl, succ, changed, noNode⟩

theorem appendModify_all_or_nothing_iff (log : ObjLog h o nodes functions) (func : Option (P → Builder))
    (funcPara : P) (malloc : Option A) (unused : ∀ x, malloc = some x → h x = none)
    (keeps : ∀ f, func = some f → (f funcPara n o.content).2 = false → (f funcPara n o.content).1 = o.content)
    (enough : nodes.length ≤ fuel) :
    ∃ h' o' ret, purgMemAppendModify fuel h (some o) func funcPara malloc = some (h', some o', ret) ∧
      (AllOrNothing func funcPara functions h o h' o' ret ↔ ¬ ChangedNotLogged func funcPara o malloc) := by
  cases func with
  | none =>
    refine ⟨h, o, true, rfl, iff_of_true (.unchanged log none fun _ => rfl) ?_⟩
    rintro ⟨f, absent, -⟩
    cases absent
  | some f =>
    by_cases fails : (f funcPara n o.content).2 = false ∨ malloc = none
    · refine ⟨h, _, false, appendModify_fails h o fuel f fails, ?_⟩
      constructor
      · rintro whole ⟨g, same, -, changed, -⟩
        obtain rfl : f = g := Option.some.inj same
        exact changed (congrArg ModifiedObj.content (whole.failed rfl).2)
      · intro logged
        rw [content_of_fails (keeps f rfl) fails logged]
        exact .unchanged log _ Bool.false_ne_true.elim
    · rw [not_or] at fails
      obtain ⟨x, rfl⟩ := Option.ne_none_iff_exists'.mp fails.2
      have succ : (f funcPara n o.content).2 = true := by simpa using fails.1
      obtain ⟨h', o', returned, content, log'⟩ :=
        appendModify_logs log f (unused x rfl) succ enough
      refine ⟨h', o', true, returned, iff_of_true (.logged content log') ?_⟩
      rintro ⟨g, -, -, -, noNode⟩
      cases noNode

/-! ### The same call as steps of a thread -/

/-- The statements of a call of `PurgMemAppendModify` inside a write section: the modifier is entered
and returns, and the new node is allocated or not. -/
def modifyActions {T : Type} (t : T) (b : Builder) (content mid : Content n) (touched : Nat → Bool)
    (allocated : Bool) : List (Action T n) :=
  [.thread t (.append b mid touched), .thread t (.ret (b n content).1 (b n content).2)] ++
  if (b n content).2 then [.thread t (if allocated then .step else .allocFail)] else []

omit [DecidableEq A] in
theorem run_logging {T : Type} [DecidableEq T] {S : Setup} {s : State T S.len} {t : T} {b : Builder}
    (here : s.pc t = .logging b) (allocated : Bool) :
    ∃ s', (accesses S).run s [.thread t (if allocated then .step else .allocFail)] = some s' ∧
      s'.pc t = .inside .write ∧ s'.obj.region = s.obj.region ∧
      s'.obj.builder = if allocated then s.obj.builder ++ [b] else s.obj.builder := by
  cases allocated with
  | false =>
    obtain ⟨s', stepped, still, unchanged⟩ := step_of_threadStep (c := .allocFail) here rfl
    exact ⟨s', System.run_cons_of_step stepped [], still, by rw [unchanged], by rw [unchanged]; rfl⟩
  | true =>
    obtain ⟨s', stepped, still, logged⟩ := step_of_threadStep (c := .step) here rfl
    exact ⟨s', System.run_cons_of_step stepped [], still, by rw [logged], by rw [logged]; rfl⟩

omit [DecidableEq A] in
theorem run_modifyActions {T : Type} [DecidableEq T] {S : Setup} {s : State T S.len} {t : T}
    (inside : s.pc t = .inside .write) (b : Builder) (mid : Content S.len) (touched : Nat → Bool)
    (allocated : Bool) :
    ∃ s', (accesses S).run s (modifyActions t b s.obj.region.content mid touched allocated) = some s' ∧
      s'.pc t = .inside .write ∧ s'.obj.region.content = (b S.len s.obj.region.content).1 ∧
      s'.obj.builder = if (b S.len s.obj.region.content).2 ∧ allocated then s.obj.builder ++ [b] else s.obj.builder := by
  unfold modifyActions
  rcases call : b S.len s.obj.region.content with ⟨content, ok⟩
  obtain ⟨s₁, entered, modifying, obj₁⟩ := step_of_threadStep (c := .append b mid touched) inside rfl
  obtain ⟨s₂, returned, after, obj₂⟩ := step_of_threadStep (c := .ret content ok) modifying rfl
  rw [List.cons_append, System.run_cons_of_step entered, List.cons_append, System.run_cons_of_step returned]
  cases ok with
  | false =>
    refine ⟨s₂, rfl, after, ?_, ?_⟩
    · rw [obj₂]
      rfl
    · rw [obj₂, obj₁]
      rfl
  | true =>
    obtain ⟨s', ran, still, region, builder⟩ := run_logging after allocated
    refine ⟨s', ran, still, ?_, ?_⟩
    · rw [region, obj₂]
      rfl
    · rw [builder, obj₂, obj₁]
      simp [setContent, startCall]

/-- The steps of the access protocol do to the content and to the list of builders what the call does to
the content and to the linked chain. -/
theorem appendModify_simulated {T : Type} [DecidableEq T] {S : Setup} {s : State T S.len} {t : T}
    {o : ModifiedObj A S.len} (inside : s.pc t = .inside .write) (same : o.content = s.obj.region.content)
    (log : ObjLog h o nodes s.obj.builder) (func : P → Builder) (unused : ∀ x, malloc = some x → h x = none)
    (enough : nodes.length ≤ fuel) (mid : Content S.len) (touched : Nat → Bool) :
    ∃ h' o' ret s', purgMemAppendModify fuel h (some o) (some func) funcPara malloc = some (h', some o', ret) ∧
      (accesses S).run s (modifyActions t (func funcPara) s.obj.region.content mid touched malloc.isSome) =
        some s' ∧
      s'.pc t = .inside .write ∧ s'.obj.region.content = o'.content ∧
      ∃ nodes', ObjLog h' o' nodes' s'.obj.builder := by
  obtain ⟨s', ran, still, content, builder⟩ :=
    run_modifyActions inside (func funcPara) mid touched malloc.isSome
  rw [← same] at content builder
  by_cases fails : (func funcPara S.len o.content).2 = false ∨ malloc = none
  · refine ⟨h, _, false, s', appendModify_fails h o fuel func fails, ran, still, content, nodes, ?_⟩
    have unlogged : ¬((func funcPara S.len o.content).2 = true ∧ malloc.isSome = true) := by
      rcases fails with failed | rfl
      · simp [failed]
      · simp
    rw [builder, if_neg unlogged]
    exact ⟨log.chain, log.builds⟩
  · rw [not_or] at fails
    obtain ⟨x, rfl⟩ := Option.ne_none_iff_exists'.mp fails.2
    have succ : (func funcPara S.len o.content).2 = true := by simpa using fails.1
    obtain ⟨h', o', returned, modified, log'⟩ := appendModify_logs log func (unused x rfl) succ enough
    rw [if_pos ⟨succ, rfl⟩] at builder
    exact ⟨h', o', true, s', returned, ran, still, content.trans modified.symm, _, builder ▸ log'⟩

end

/-- A chain of one node, which writes sevens. -/
def oneNode : BuilderHeap Nat Unit
  | 0 => some { next := none, value := ⟨some fun _ => fill 7, ()⟩ }
  | _ => none

def sevens : ModifiedObj Nat 1 := { content := fun _ => 7, builder := some 0 }

theorem oneNode_log : ObjLog oneNode sevens [(0, ⟨some fun _ => fill 7, ()⟩)] [fill 7] :=
  ⟨.cons rfl .nil, rfl⟩

theorem modified_with_node :
    ∃ h' o', purgMemAppendModify 1 oneNode (some sevens) (some fun _ => fill 9) () (some 1) = some (h', some o', true) ∧
      AllOrNothing (some fun _ => fill 9) () [fill 7] oneNode sevens h' o' true := by
  have unused : ∀ x, some 1 = some x → oneNode x = none := by
    intro x same
    obtain rfl : 1 = x := Option.some.inj same
    rfl
  have keeps : ∀ f, some (fun _ : Unit => fill 9) = some f → (f () 1 sevens.content).2 = false →
      (f () 1 sevens.content).1 = sevens.content := by
    intro f same failed
    obtain rfl : (fun _ => fill 9) = f := Option.some.inj same
    cases failed
  obtain ⟨h', o', ret, returned, whole⟩ :=
    appendModify_all_or_nothing_iff oneNode_log (some fun _ => fill 9) () (some 1) unused keeps
      (show 1 ≤ 1 by decide)
  have logged : ¬ ChangedNotLogged (some fun _ => fill 9) () sevens (some 1) := by
    rintro ⟨f, -, -, -, noNode⟩
    cases noNode
  obtain rfl : true = ret := congrArg (fun result => (result.map fun r => r.2.2).getD false) returned
  exact ⟨h', o', returned, whole.mpr logged⟩

/-- The content is left modified while the chain still writes sevens. -/
theorem modified_without_node :
    ∃ o', purgMemAppendModify 1 oneNode (some sevens) (some fun _ => fill 9) () none = some (oneNode, some o', false) ∧
      sevens.content 0 = 7 ∧ o'.content 0 = 9 ∧ (replay [fill 7] : Content 1) 0 = 7 ∧
      ¬ AllOrNothing (some fun _ => fill 9) () [fill 7] oneNode sevens oneNode o' false := by
  refine ⟨⟨fun _ => 9, some 0⟩, rfl, rfl, rfl, rfl, fun whole => ?_⟩
  have same := congrArg (fun o => o.content 0) (whole.failed rfl).2
  exact absurd same (by decide)

end MemoryUtils.C
