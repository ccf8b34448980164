import MemoryUtils.Common.Region
import MemoryUtils.Lib.System

/-!
`PurgeableMemBase`: the access functions that `PurgeableMem` and `PurgeableAshMem` share, over
their virtual functions. Each function runs under `dataLock_`, so a call is one step of a run; the
kernel may act before every statement of it.
-/

namespace MemoryUtils.Cpp
open Lib

/-- Where inside a call the kernel may act. `t` is the value of `tryTimes`, and the loops over the
pages and the builder chain give their position. -/
inductive Point where
  | pin (i : Nat)
  | check (t i : Nat)
  | clear (t : Nat)
  | build (t j : Nat)
  | within (t j : Nat)
  | rebuilt (t : Nat)
  | unpin (i : Nat)
  deriving DecidableEq

/-- What a user function does besides computing its result: the content it shows meanwhile, the
pages it touches, a transient failure, and its result should the kernel change the content. -/
structure UserCall (n : Nat) where
  mid : Content n := zeros
  touched : Nat → Bool := fun _ => false
  fault : Option (Content n → Content n) := none
  disturbed : Content n → Content n × Bool := fun c => (c, false)

structure Env (n : Nat) (K : Type) where
  kernel : Point → List K := fun _ => []
  call : Nat → Nat → UserCall n := fun _ _ => {}

/-- The memory `D` that `dataPtr_` points to and the virtual functions of a class on it. A function
that takes several statements is given what the kernel does before each one. -/
structure Virtuals (n : Nat) (D K : Type) where
  kernel : D → K → D
  content : D → Content n
  store : D → (Nat → Bool) → Content n → D
  clear : D → D
  pin : (Nat → D → D) → D → D
  unpin : (Nat → D → D) → D → D
  isPurged : (Nat → D → D) → D → D × Bool
  afterRebuildSucc : D → D

/-- The fields of the class; an empty chain is a null `builder_`. The last three are ghosts: how often
the content was cleared and rebuilt, and whether the last rebuild stopped at a builder. -/
structure Base (D : Type) where
  data : D
  dataPtr : Bool
  isDataValid : Bool := true
  builder : List Builder
  buildDataCount : Nat := 0
  clears : Nat := 0
  rebuilds : Nat := 0
  rebuildFailed : Bool := false

def maxBuildTrytimes : Nat := 3

section Functions

variable {n : Nat} {D K : Type} (V : Virtuals n D K) (E : Env n K)

def Env.at_ (p : Point) (d : D) : D := (E.kernel p).foldl V.kernel d

def UserCall.outcome (u : UserCall n) (b : Builder) (c : Content n) : Content n × Bool :=
  match u.fault with
  | none => b n c
  | some left => (left c, false)

def build (t j : Nat) (b : Builder) (d : D) : D × Bool :=
  let u := E.call t j
  let d := E.at_ V (.build t j) d
  let old := V.content d
  let d := E.at_ V (.within t j) (V.store d u.touched u.mid)
  let r := if V.content d = u.mid then u.outcome b old else u.disturbed (V.content d)
  (V.store d (fun _ => false) r.1, r.2)

def buildAll (t : Nat) : Nat → List Builder → D → D × Bool
  | _, [], d => (d, false)
  | j, b :: rest, d =>
    match build V E t j b d with
    | (d, false) => (d, false)
    | (d, true) => if rest.isEmpty then (d, true) else buildAll t (j + 1) rest d

def pin (o : Base D) : Base D := { o with data := V.pin (fun i => E.at_ V (.pin i)) o.data }

def unpin (o : Base D) : Base D := { o with data := V.unpin (fun i => E.at_ V (.unpin i)) o.data }

def ifNeedRebuild (t : Nat) (o : Base D) : Base D × Bool :=
  if o.buildDataCount = 0 then (o, true)
  else
    let r := V.isPurged (fun i => E.at_ V (.check t i)) o.data
    ({ o with data := r.1 }, r.2)

def buildContent (t : Nat) (o : Base D) : Base D × Bool :=
  let d := E.at_ V (.clear t) o.data
  if memsetSucceeds (roundUp n pageSize) n then
    match buildAll V E t 0 o.builder (V.clear d) with
    | (d, true) =>
      ({ o with data := d, buildDataCount := (o.buildDataCount + 1) % 2 ^ 32,
                clears := o.clears + 1, rebuilds := o.rebuilds + 1, rebuildFailed := false }, true)
    | (d, false) => ({ o with data := d, clears := o.clears + 1, rebuildFailed := true }, false)
  else ({ o with data := d }, false)

def afterRebuildSucc (t : Nat) (o : Base D) : Base D :=
  { o with data := V.afterRebuildSucc (E.at_ V (.rebuilt t) o.data) }

/-- The loop of `BeginRead`. Its own test ends it before `left` does. -/
def readLoop : (left tryTimes : Nat) → Base D → Base D × Bool
  | 0, _, o => (o, false)
  | left + 1, tryTimes, o =>
    match ifNeedRebuild V E tryTimes o with
    | (o, false) => (o, true)
    | (o, true) =>
      match buildContent V E tryTimes o with
      | (o, false) => (o, false)
      | (o, true) =>
        if tryTimes + 1 > maxBuildTrytimes then (afterRebuildSucc V E tryTimes o, false)
        else readLoop left (tryTimes + 1) (afterRebuildSucc V E tryTimes o)

def beginRead (o : Base D) : Base D × Bool :=
  if !o.isDataValid then (o, false)
  else if !o.dataPtr then (o, false)
  else if o.builder.isEmpty then (o, false)
  else
    match readLoop V E (maxBuildTrytimes + 1) 0 (pin V E o) with
    | (o, true) => (o, true)
    | (o, false) => (unpin V E o, false)

def endRead (o : Base D) : Base D := if o.isDataValid then unpin V E o else o

def beginWrite (o : Base D) : Base D × Bool :=
  if !o.dataPtr then (o, false)
  else if o.builder.isEmpty then (o, false)
  else
    match ifNeedRebuild V E 0 (pin V E o) with
    | (o, false) => (o, true)
    | (o, true) =>
      match buildContent V E 0 o with
      | (o, true) => (afterRebuildSucc V E 0 o, true)
      | (o, false) => (unpin V E o, false)

def endWrite (o : Base D) : Base D := unpin V E o

def modifyContentByBuilder (modifier : Option Builder) (o : Base D) : Base D × Bool :=
  match modifier with
  | none => (o, false)
  | some b =>
    match build V E 0 0 b o.data with
    | (d, false) => ({ o with data := d }, false)
    | (d, true) => ({ o with data := d, builder := o.builder ++ [b] }, true)

def setDataValid (target : Bool) (o : Base D) : Base D := { o with isDataValid := target }

/-! ### What the access functions can do -/

inductive ReadLoop : (left tryTimes : Nat) → Base D → Base D × Bool → Prop where
  | exhausted (t : Nat) (o : Base D) : ReadLoop 0 t o (o, false)
  | present {left t : Nat} {o o₁ : Base D} (need : ifNeedRebuild V E t o = (o₁, false)) :
      ReadLoop (left + 1) t o (o₁, true)
  | failed {left t : Nat} {o o₁ o₂ : Base D} (need : ifNeedRebuild V E t o = (o₁, true))
      (built : buildContent V E t o₁ = (o₂, false)) : ReadLoop (left + 1) t o (o₂, false)
  | gaveUp {left t : Nat} {o o₁ o₂ : Base D} (need : ifNeedRebuild V E t o = (o₁, true))
      (built : buildContent V E t o₁ = (o₂, true)) (last : t + 1 > maxBuildTrytimes) :
      ReadLoop (left + 1) t o (afterRebuildSucc V E t o₂, false)
  | again {left t : Nat} {o o₁ o₂ : Base D} {r : Base D × Bool}
      (need : ifNeedRebuild V E t o = (o₁, true)) (built : buildContent V E t o₁ = (o₂, true))
      (rest : ReadLoop left (t + 1) (afterRebuildSucc V E t o₂) r) : ReadLoop (left + 1) t o r

inductive BeginRead (o : Base D) : Base D × Bool → Prop where
  | refused : BeginRead o (o, false)
  | granted {o₁ : Base D} (valid : o.isDataValid = true) (chain : o.builder ≠ [])
      (loop : ReadLoop V E (maxBuildTrytimes + 1) 0 (pin V E o) (o₁, true)) : BeginRead o (o₁, true)
  | denied {o₁ : Base D} (chain : o.builder ≠ [])
      (loop : ReadLoop V E (maxBuildTrytimes + 1) 0 (pin V E o) (o₁, false)) :
      BeginRead o (unpin V E o₁, false)

inductive BeginWrite (o : Base D) : Base D × Bool → Prop where
  | refused : BeginWrite o (o, false)
  | present {o₁ : Base D} (chain : o.builder ≠ [])
      (need : ifNeedRebuild V E 0 (pin V E o) = (o₁, false)) : BeginWrite o (o₁, true)
  | rebuilt {o₁ o₂ : Base D} (chain : o.builder ≠ [])
      (need : ifNeedRebuild V E 0 (pin V E o) = (o₁, true))
      (built : buildContent V E 0 o₁ = (o₂, true)) : BeginWrite o (afterRebuildSucc V E 0 o₂, true)
  | failed {o₁ o₂ : Base D} (chain : o.builder ≠ [])
      (need : ifNeedRebuild V E 0 (pin V E o) = (o₁, true))
      (built : buildContent V E 0 o₁ = (o₂, false)) : BeginWrite o (unpin V E o₂, false)

theorem readLoop_cases (left t : Nat) (o : Base D) : ReadLoop V E left t o (readLoop V E left t o) := by
  induction left generalizing t o with
  | zero => exact .exhausted t o
  | succ left ih =>
    rw [readLoop]
    split
    · rename_i need
      exact .present need
    · rename_i need
      split
      · rename_i built
        exact .failed need built
      · rename_i built
        split
        · rename_i last
          exact .gaveUp need built last
        · exact .again need built (ih _ _)

theorem beginRead_cases (o : Base D) : BeginRead V E o (beginRead V E o) := by
  have loop := readLoop_cases V E (maxBuildTrytimes + 1) 0 (pin V E o)
  unfold beginRead
  split
  · exact .refused
  · rename_i valid
    split
    · exact .refused
    · split
      · exact .refused
      · rename_i chain
        have nonempty : o.builder ≠ [] := by simpa using chain
        split
        · rename_i result
          rw [result] at loop
          exact .granted (by simpa using valid) nonempty loop
        · rename_i result
          rw [result] at loop
          exact .denied nonempty loop

theorem beginWrite_cases (o : Base D) : BeginWrite V E o (beginWrite V E o) := by
  unfold beginWrite
  split
  · exact .refused
  · split
    · exact .refused
    · rename_i chain
      have nonempty : o.builder ≠ [] := by simpa using chain
      split
      · rename_i need
        exact .present nonempty need
      · rename_i need
        split
        · rename_i built
          exact .rebuilt nonempty need built
        · rename_i built
          exact .failed nonempty need built

end Functions

/-! ### Runs -/

structure State (D : Type) where
  obj : Base D
  reads : Nat := 0
  writes : Nat := 0

def State.opens {D : Type} (s : State D) : Nat := s.reads + s.writes

inductive Action (n : Nat) (K : Type) where
  | beginRead (E : Env n K)
  | endRead (E : Env n K)
  | beginWrite (E : Env n K)
  | endWrite (E : Env n K)
  | modify (modifier : Option Builder) (E : Env n K)
  | setDataValid (target : Bool)
  | touch (touched : Nat → Bool)
  | kernel (k : K)

variable {n : Nat} {D K : Type}

/-- Every End follows its own true Begin, and clients touch the content inside an access. -/
def step (V : Virtuals n D K) (s : State D) : Action n K → Option (State D)
  | .beginRead E =>
    let r := beginRead V E s.obj
    some { s with obj := r.1, reads := if r.2 then s.reads + 1 else s.reads }
  | .endRead E =>
    if 0 < s.reads then some { s with obj := endRead V E s.obj, reads := s.reads - 1 } else none
  | .beginWrite E =>
    let r := beginWrite V E s.obj
    some { s with obj := r.1, writes := if r.2 then s.writes + 1 else s.writes }
  | .endWrite E =>
    if 0 < s.writes then some { s with obj := endWrite V E s.obj, writes := s.writes - 1 } else none
  | .modify modifier E => some { s with obj := (modifyContentByBuilder V E modifier s.obj).1 }
  | .setDataValid target => some { s with obj := setDataValid target s.obj }
  | .touch touched =>
    if 0 < s.opens then
      some { s with obj := { s.obj with data := V.store s.obj.data touched (V.content s.obj.data) } }
    else none
  | .kernel k => some { s with obj := { s.obj with data := V.kernel s.obj.data k } }

/-- Runs on an object whose memory is as `fresh` says: a builder, nothing built, no access. -/
def calls (V : Virtuals n D K) (fresh : D → Prop) : System (State D) (Action n K) where
  init s := fresh s.obj.data ∧ s.obj.isDataValid = true ∧ s.obj.buildDataCount = 0 ∧
    s.obj.clears = 0 ∧ s.obj.rebuilds = 0 ∧ s.reads = 0 ∧ s.writes = 0
  step := step V

end MemoryUtils.Cpp
