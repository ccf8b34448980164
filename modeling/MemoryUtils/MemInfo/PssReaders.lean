import MemoryUtils.MemInfo.TotalMemory
import Mathlib.Algebra.BigOperators.Group.List.Lemmas

/-!
`GetPssByPid` and `GetSwapPssByPid` stop at the first line of their type, where
`GetPssAndSwapPssByPid` reads on and adds up. While each of the two types has one line at most, what
the two read adds up to what the third reads.
-/

namespace MemoryUtils.MemInfo

/-- The loop that a line of type `wanted` breaks out of. -/
def valueOfType (wanted : List Char) : List (List Char) → UInt64
  | [] => 0
  | content :: contents =>
    match splitType content with
    | none => valueOfType wanted contents
    | some (type, valueStr) =>
      if type = wanted then strtoull valueStr else valueOfType wanted contents

namespace Device

def getValueByPid (wanted : List Char) (D : Device) (pid : Int32) : UInt64 :=
  match D.smapsRollup pid with
  | none => 0
  | some text => valueOfType wanted (getlines text)

def getPssByPid : Device → Int32 → UInt64 := getValueByPid pssType

def getSwapPssByPid : Device → Int32 → UInt64 := getValueByPid swapPssType

end Device

/-- The line has exactly `wanted` before its first colon. -/
def hasType (wanted content : List Char) : Bool :=
  (splitType content).map Prod.fst = some wanted

/-- What a line counts for a reader of `wanted`. -/
def sizeOfType (wanted content : List Char) : UInt64 :=
  valueOfType wanted [content]

theorem valueOfType_cons (wanted content : List Char) (contents : List (List Char)) :
    valueOfType wanted (content :: contents) =
      if hasType wanted content then sizeOfType wanted content else valueOfType wanted contents := by
  unfold sizeOfType hasType
  rw [valueOfType, valueOfType]
  rcases splitType content with _ | ⟨type, valueStr⟩
  · simp
  · by_cases same : type = wanted <;> simp [same]

theorem sizeOfType_of_not_hasType {wanted content : List Char} (other : ¬ hasType wanted content) :
    sizeOfType wanted content = 0 := by
  rw [sizeOfType, valueOfType_cons, if_neg other, valueOfType]

theorem sum_sizeOfType_of_absent {wanted : List Char} {contents : List (List Char)}
    (absent : contents.countP (hasType wanted) = 0) :
    (contents.map (sizeOfType wanted)).sum = 0 := by
  apply List.sum_eq_zero
  intro size counted
  obtain ⟨content, member, rfl⟩ := List.mem_map.mp counted
  exact sizeOfType_of_not_hasType (List.countP_eq_zero.mp absent content member)

/-- Stopping at the first line of a type misses nothing while the type has one line at most. -/
theorem valueOfType_eq_sum {wanted : List Char} {contents : List (List Char)}
    (atMostOne : contents.countP (hasType wanted) ≤ 1) :
    valueOfType wanted contents = (contents.map (sizeOfType wanted)).sum := by
  induction contents with
  | nil => rfl
  | cons content contents ih =>
    rw [valueOfType_cons, List.map_cons, List.sum_cons]
    by_cases found : hasType wanted content
    · rw [List.countP_cons_of_pos found] at atMostOne
      rw [if_pos found, sum_sizeOfType_of_absent (by omega), add_zero]
    · rw [List.countP_cons_of_neg found] at atMostOne
      rw [if_neg found, sizeOfType_of_not_hasType found, zero_add, ih atMostOne]

theorem lineSize_eq (content : List Char) :
    lineSize content = sizeOfType pssType content + sizeOfType swapPssType content := by
  have distinct : pssType ≠ swapPssType := by decide
  unfold lineSize addPssOrSwapPss sizeOfType
  simp only [valueOfType]
  rcases splitType content with _ | ⟨type, valueStr⟩
  · rfl
  · by_cases pss : type = pssType
    · subst pss
      simp [distinct]
    · by_cases swapPss : type = swapPssType <;> simp [pss, swapPss, distinct.symm]

/-- The text has no second line of either type. -/
structure SingleLines (text : List Char) : Prop where
  pss : (getlines text).countP (hasType pssType) ≤ 1
  swapPss : (getlines text).countP (hasType swapPssType) ≤ 1

theorem valueOfType_of_perm {wanted : List Char} {contents contents' : List (List Char)}
    (atMostOne : contents.countP (hasType wanted) ≤ 1) (same : contents.Perm contents') :
    valueOfType wanted contents' = valueOfType wanted contents := by
  have atMostOne' : contents'.countP (hasType wanted) ≤ 1 := same.countP_eq (hasType wanted) ▸ atMostOne
  rw [valueOfType_eq_sum atMostOne, valueOfType_eq_sum atMostOne']
  exact (same.symm.map (sizeOfType wanted)).sum_eq

theorem pssAndSwapPss_eq_add {text : List Char} (single : SingleLines text) :
    pssAndSwapPss text =
      valueOfType pssType (getlines text) + valueOfType swapPssType (getlines text) := by
  have split : lineSize = fun content => sizeOfType pssType content + sizeOfType swapPssType content :=
    funext lineSize_eq
  rw [pssAndSwapPss_eq_sum, valueOfType_eq_sum single.pss, valueOfType_eq_sum single.swapPss, split,
    List.sum_map_add]

namespace Device

theorem readers_of_opened {D : Device} {pid : Int32} {text : List Char}
    (opened : D.smapsRollup pid = some text) :
    D.getPssByPid pid = valueOfType pssType (getlines text) ∧
    D.getSwapPssByPid pid = valueOfType swapPssType (getlines text) ∧
    D.getPssAndSwapPssByPid pid = pssAndSwapPss text := by
  simp [getPssByPid, getSwapPssByPid, getValueByPid, getPssAndSwapPssByPid, opened]

/-- The reader of both types agrees with the two readers of one, and none of the three depends on the
order of the lines. -/
theorem pss_readers_agree {D : Device} {pid : Int32} {text : List Char}
    (opened : D.smapsRollup pid = some text) (single : SingleLines text) :
    (D.getPssAndSwapPssByPid pid).toNat =
        ((D.getPssByPid pid).toNat + (D.getSwapPssByPid pid).toNat) % 2 ^ 64 ∧
    ∀ (D' : Device) (pid' : Int32) (text' : List Char), D'.smapsRollup pid' = some text' →
      (getlines text).Perm (getlines text') →
        D'.getPssByPid pid' = D.getPssByPid pid ∧
        D'.getSwapPssByPid pid' = D.getSwapPssByPid pid ∧
        D'.getPssAndSwapPssByPid pid' = D.getPssAndSwapPssByPid pid := by
  obtain ⟨pss, swapPss, both⟩ := readers_of_opened opened
  rw [pss, swapPss, both]
  constructor
  · rw [pssAndSwapPss_eq_add single, UInt64.toNat_add]
  · intro D' pid' text' opened' same
    obtain ⟨pss', swapPss', both'⟩ := readers_of_opened opened'
    rw [pss', swapPss', both']
    refine ⟨valueOfType_of_perm single.pss same, valueOfType_of_perm single.swapPss same, ?_⟩
    exact (pssAndSwapPss_of_perm same).symm

def rollupText : List Char := "Pss: 5 kB\nPss_Anon: 3 kB\nno colon\nSwapPss:-2".toList

def reorderedText : List Char := "SwapPss:-2\nno colon\nPss: 5 kB\nPss_Anon: 3 kB\n".toList

/-- Processes 1 and 2 have the same lines in another order. -/
def reordered : Device :=
  { twoProcesses with smapsRollup := fun pid => if pid = 1 then some rollupText else some reorderedText }

theorem reordered_readers_agree :
    (reordered.getPssByPid 1).toNat = 5 ∧ (reordered.getSwapPssByPid 1).toNat = 2 ^ 64 - 2 ∧
    (reordered.getPssAndSwapPssByPid 1).toNat = 3 ∧ (reordered.getPssAndSwapPssByPid 2).toNat = 3 := by
  have single : SingleLines rollupText := ⟨by decide +kernel, by decide +kernel⟩
  have opened : reordered.smapsRollup 1 = some rollupText := rfl
  obtain ⟨agree, order⟩ := pss_readers_agree opened single
  have same := (order reordered 2 reorderedText rfl (by decide +kernel)).2.2
  have pss : (reordered.getPssByPid 1).toNat = 5 := by decide +kernel
  have swapPss : (reordered.getSwapPssByPid 1).toNat = 2 ^ 64 - 2 := by decide +kernel
  have total : (reordered.getPssAndSwapPssByPid 1).toNat = 3 := by
    rw [agree, pss, swapPss]
    decide
  exact ⟨pss, swapPss, total, by rw [same, total]⟩

end Device

end MemoryUtils.MemInfo
