import MemoryUtils.C.CodeRefinement
import MemoryUtils.C.Refinement

/-!
What an open access shows, said of the linked nodes and the words themselves. The calls that the access
functions make are under a contract; then the bytes behind `dataPtr` are those that
`PurgMemBuilderBuildAll` on the nodes would build from zeros, and no page of them can be taken.
-/

namespace MemoryUtils.C.Code
open Lib UxPageTable Uxpte

variable {T A P : Type} {S : Setup} {n : Nat}

/-- A user function that was not disturbed is the function that its node or its caller names, and one that
fails leaves the content unchanged. -/
def ReturnsAs (mem : Memory T A P n) : Pc A P n → Content n → Bool → Prop
  | .building _ builder old mid, c, ok => ∀ node b, mem.nodes builder = some node →
      node.value.function = some b → mem.content = mid → (c, ok) = b n old ∧ (ok = false → c = old)
  | .modifying func funcPara old mid, c, ok =>
      mem.content = mid → (c, ok) = func funcPara n old ∧ (ok = false → c = old)
  | _, _, _ => True

/-- Every pthread and allocation call succeeds, and the user functions do what they are. -/
structure Contract (s : State T A P n) (a : Action T A P n) : Prop where
  allocates : Allocates s a
  locks : ∀ t, a ≠ .thread t .lockFail
  alloc : ∀ t fuel, a ≠ .thread t (.malloc fuel none)
  calls : ∀ t c ok, a = .thread t (.ret c ok) → ReturnsAs s.mem (s.pc t) c ok

def returnsAs (mem : Memory T A P n) : Pc A P n → Content n → Bool → Bool
  | .building _ builder old _, c, ok =>
    (mem.nodes builder).all fun node => node.value.function.all fun b =>
      decide ((c, ok) = b n old ∧ (ok = false → c = old))
  | .modifying func funcPara old _, c, ok => decide ((c, ok) = func funcPara n old ∧ (ok = false → c = old))
  | _, _, _ => true

theorem returnsAs_sound {mem : Memory T A P n} {pc : Pc A P n} {c : Content n} {ok : Bool}
    (passed : returnsAs mem pc c ok = true) : ReturnsAs mem pc c ok := by
  cases pc with
  | building m builder old mid =>
    intro node b cell builds undisturbed
    rw [returnsAs, cell, Option.all_some, builds, Option.all_some] at passed
    exact of_decide_eq_true passed
  | modifying func funcPara old mid => exact fun _ => of_decide_eq_true passed
  | _ => trivial

def contractHolds (s : State T A P n) : Action T A P n → Bool
  | .thread _ .lockFail | .thread _ (.malloc _ none) => false
  | .thread t (.ret c ok) => allocates s (.thread t (.ret c ok)) && returnsAs s.mem (s.pc t) c ok
  | a => allocates s a

theorem contractHolds_sound (s : State T A P n) (a : Action T A P n) (passed : contractHolds s a = true) :
    Contract s a := by
  cases a with
  | reclaim p => exact ⟨trivial, fun _ => nofun, fun _ _ => nofun, fun _ _ _ => nofun⟩
  | thread t c =>
    cases c with
    | lockFail => cases passed
    | malloc fuel node =>
      cases node with
      | none => cases passed
      | some x => exact ⟨allocates_sound s _ passed, fun _ => nofun, fun _ _ => nofun, fun _ _ _ => nofun⟩
    | ret c ok =>
      obtain ⟨allocated, returns⟩ := Bool.and_eq_true_iff.mp passed
      refine ⟨allocates_sound s _ allocated, fun _ => nofun, fun _ _ => nofun, ?_⟩
      rintro u c' ok' same
      cases same
      exact returnsAs_sound returns
    | _ => exact ⟨allocates_sound s _ passed, fun _ => nofun, fun _ _ => nofun, fun _ _ _ => nofun⟩

/-- The contract of the code is the contract of the protocol. -/
theorem contract_plain {s : State T A P S.len} {s' : C.State T S.len} {a : Action T A P S.len}
    (realizes : StateRealizes S s s') (contract : Contract s a) : C.Contract s' a.plain := by
  cases a with
  | reclaim p => exact ⟨fun _ => nofun, fun _ => nofun, fun _ _ _ => nofun⟩
  | thread t choice =>
    have points := realizes.points t
    have content := realizes.object.content
    cases choice with
    | lockFail => exact absurd rfl (contract.locks t)
    | malloc fuel node =>
      cases node with
      | none => exact absurd rfl (contract.alloc t fuel)
      | some x => exact ⟨fun _ => nofun, fun _ => nofun, fun _ _ _ => nofun⟩
    | ret c ok =>
      refine ⟨fun _ => nofun, fun _ => nofun, fun u c' ok' same => ?_⟩
      obtain ⟨rfl, rfl, rfl⟩ : t = u ∧ c = c' ∧ ok = ok' := by simpa [Action.plain, Choice.plain] using same
      have returns := contract.calls t c ok rfl
      generalize s.pc t = pc at points returns
      generalize s'.pc t = pc' at points
      rw [← content]
      cases points with
      | building m old mid cell builds walk => exact returns _ _ cell builds
      | modifying func funcPara old mid => exact returns
      | _ => trivial
    | _ => exact ⟨fun _ => nofun, fun _ => nofun, fun _ _ _ => nofun⟩

/-- The nodes build what the list says, so a rebuild along the links is the replay of the list. -/
theorem Walk.buildAll {h : BuilderHeap A P} {p : Option A} {functions : List Builder} (walk : Walk h p functions)
    (nonempty : functions ≠ []) (good : Replays (n := n) functions zeros) :
    ∃ nodes, Chain h p nodes ∧ ∀ fuel, nodes.length < fuel →
      purgMemBuilderBuildAll fuel h p (zeros : Content n) = some (replay functions, true) := by
  obtain ⟨nodes, chain, builds⟩ := walk
  refine ⟨nodes, chain, fun fuel enough => ?_⟩
  rw [buildAll_of_chain chain builds enough, buildAll_of_replays nonempty good]
  rfl

variable [DecidableEq T] [DecidableEq A] [Fintype T]

/-- A run under the contract ends in a picture of a state that the protocol reaches under its contract. -/
theorem run_contract (few : Fintype.card T < 2 ^ 62) {s t : State T A P S.len} (returned : (accesses S).init s)
    {actions : List (Action T A P S.len)} (along : (accesses S).Along Contract s actions)
    (ran : (accesses S).run s actions = some t) :
    ∃ t', (C.accesses S).Reach C.Contract t' ∧ StateRealizes S t t' := by
  obtain ⟨s', created, realizes⟩ := returned_realizes returned
  have related : (C.accesses S).Reach (fun _ _ => True) s' ∧ StateRealizes S s s' := ⟨.init created, realizes⟩
  have contract : (C.accesses S).Along C.Contract s' (actions.map Action.plain) :=
    System.along_rel (fun _ _ _ related kept => step_related few related kept.allocates)
      (fun _ _ _ related kept => contract_plain related.2 kept) related along
  have alike := System.run_rel (fun _ _ _ related kept => step_related few related kept.allocates) related along
  rw [ran] at alike
  generalize protocol : (C.accesses S).run s' (actions.map Action.plain) = next at alike
  cases alike with
  | @some _ t' both => exact ⟨t', .of_run _ (.init created) contract protocol, both.2⟩

/-- In a run of any number of threads from an object that `PurgMemCreate` returned on, whatever pages the
kernel took on the way: while an access is open no page can be taken, and the content is what a rebuild
along the linked nodes would build. -/
theorem open_access_is_rebuild (few : Fintype.card T < 2 ^ 62) {s s' : State T A P S.len}
    (returned : (accesses S).init s) {actions : List (Action T A P S.len)}
    (along : (accesses S).Along Contract s actions) (ran : (accesses S).run s actions = some s') {t : T} {m : Mode}
    (opened : s'.pc t = .inside m ∨ s'.pc t = .endUnlock m) :
    (∀ p, reclaim S.supportUxpt s'.mem p = none) ∧
    ∃ nodes, Chain s'.mem.nodes s'.mem.obj.builder nodes ∧ ∀ fuel, nodes.length < fuel →
      purgMemBuilderBuildAll fuel s'.mem.nodes s'.mem.obj.builder zeros = some (s'.mem.content, true) := by
  obtain ⟨t', reach, realizes⟩ := run_contract few returned along ran
  have object := realizes.object
  have point := (contract_intact reach).point t
  have points := realizes.points t
  have held : C.lockMode (t'.pc t) ≠ none ∧ Restored True S t'.obj := by
    rcases opened with here | here
    all_goals
      rw [here] at points
      generalize t'.pc t = pc' at point points
      cases points
      exact ⟨nofun, point⟩
  obtain ⟨locked, -, content, -, good⟩ := held
  constructor
  · intro p
    have enabled_iff := object.reclaim_iff p
    refine if_neg fun enabled => locked ?_
    obtain ⟨below, zero⟩ := enabled_iff.mp enabled
    exact unlocked_of_reclaim (reach_pinsBalanced reach) below zero t
  · rw [object.content, content]
    exact object.builders.buildAll (reach_valid reach) (good trivial)

/-- A write access with one modification, the loss of the page, and a read that rebuilds it node by node. -/
def modifiedThenLost : List (Action Bool Nat Unit oneByte.len) := List.flatten
  [[.thread true (.beginAccess .write)], List.replicate 5 (.thread true .step),
    [.thread true (.call zeros fun _ => true), .thread true (.ret (fun _ => 7) true), .thread true .step,
      .thread true (.append (fun _ => fill 9) () zeros fun _ => false), .thread true (.ret (fun _ => 9) true),
      .thread true (.malloc 1 (some 1)), .thread true .endAccess],
    List.replicate 3 (.thread true .step), [.reclaim 0, .thread false (.beginAccess .read)],
    List.replicate 10 (.thread false .step),
    [.thread false (.call zeros fun _ => false), .thread false (.ret (fun _ => 7) true),
      .thread false (.call zeros fun _ => false), .thread false (.ret (fun _ => 9) true)],
    List.replicate 6 (.thread false .step)]

def isReading : Pc A P n → Bool
  | .inside .read => true
  | _ => false

theorem lost_page_rebuilt_from_nodes :
    ∃ s, (accesses oneByte).run freshByte modifiedThenLost = some s ∧ reclaim true s.mem 0 = none ∧
      s.mem.content ⟨0, by decide⟩ = 9 ∧
      ∃ nodes, Chain s.mem.nodes s.mem.obj.builder nodes ∧ ∀ fuel, nodes.length < fuel →
        purgMemBuilderBuildAll fuel s.mem.nodes s.mem.obj.builder zeros = some (s.mem.content, true) := by
  have along : (accesses oneByte).Along Contract freshByte modifiedThenLost :=
    System.along_of_checks contractHolds_sound (by decide)
  have last : ((accesses oneByte).run freshByte modifiedThenLost).map
      (fun s => (isReading (s.pc false), s.mem.content ⟨0, by decide⟩)) = some (true, 9) := by decide
  obtain ⟨s, ran, seen⟩ := Option.map_eq_some_iff.mp last
  obtain ⟨reading, nine⟩ := Prod.mk.inj seen
  have inside : s.pc false = .inside .read := by
    generalize s.pc false = pc at reading
    cases pc with
    | inside m =>
      cases m with
      | read => rfl
      | write => cases reading
    | _ => cases reading
  obtain ⟨kept, rebuild⟩ := open_access_is_rebuild (by decide) freshByte_returned along ran (.inl inside)
  exact ⟨s, ran, kept 0, nine, rebuild⟩

end MemoryUtils.C.Code
