import Mathlib.Data.UInt
import Mathlib.Algebra.BigOperators.Group.List.Basic

/-!
Reading `/proc/<pid>/smaps_rollup`. A line is `type:value`, with the type before its first colon; the
values of all `Pss` and `SwapPss` lines are added up.
-/

namespace MemoryUtils.MemInfo

/-- The lines that `while (in.good() && getline(in, content))` sees. A newline ends a line, and a
last line without one is still read. -/
def getlines : List Char → List (List Char)
  | [] => []
  | c :: rest =>
    if c = '\n' then
      [] :: getlines rest
    else
      match getlines rest with
      | [] => [[c]]
      | content :: more => (c :: content) :: more

/-- `content.find(":")` with the two `substr` calls. -/
def splitType : List Char → Option (List Char × List Char)
  | [] => none
  | c :: rest =>
    if c = ':' then
      some ([], rest)
    else
      (splitType rest).map fun (type, valueStr) => (c :: type, valueStr)

def isspace (c : Char) : Bool :=
  c = ' ' ∨ c = '\t' ∨ c = '\n' ∨ c = '\x0b' ∨ c = '\x0c' ∨ c = '\r'

def decimalValue (digits : List Char) : Nat :=
  digits.foldl (fun n c => 10 * n + (c.toNat - '0'.toNat)) 0

/-- `strtoull(s, nullptr, 10)`: leading white space, a sign, digits. A minus sign negates in
`unsigned long long`, and a value out of its range gives `ULLONG_MAX` whatever the sign. -/
def strtoull (s : List Char) : UInt64 :=
  let subject := s.dropWhile isspace
  let (negative, numeral) :=
    match subject with
    | '-' :: rest => (true, rest)
    | '+' :: rest => (false, rest)
    | _ => (false, subject)
  let value := decimalValue (numeral.takeWhile Char.isDigit)
  if 2 ^ 64 ≤ value then
    UInt64.ofNat (2 ^ 64 - 1)
  else if negative then
    -UInt64.ofNat value
  else
    UInt64.ofNat value

def pssType : List Char := ['P', 's', 's']

def swapPssType : List Char := ['S', 'w', 'a', 'p', 'P', 's', 's']

def addPssOrSwapPss (size : UInt64) (content : List Char) : UInt64 :=
  match splitType content with
  | none => size
  | some (type, valueStr) =>
    if type = pssType ∨ type = swapPssType then size + strtoull valueStr else size

/-- The loop of `GetPssAndSwapPssByPid` over an opened file. -/
def pssAndSwapPss (text : List Char) : UInt64 :=
  (getlines text).foldl addPssOrSwapPss 0

/-- What one line adds to the size. -/
def lineSize (content : List Char) : UInt64 := addPssOrSwapPss 0 content

theorem addPssOrSwapPss_eq (size : UInt64) (content : List Char) :
    addPssOrSwapPss size content = size + lineSize content := by
  unfold lineSize addPssOrSwapPss
  split
  · simp
  · split <;> simp

theorem foldl_addPssOrSwapPss (size : UInt64) (contents : List (List Char)) :
    contents.foldl addPssOrSwapPss size = size + (contents.map lineSize).sum := by
  induction contents generalizing size with
  | nil => simp
  | cons content contents ih =>
    rw [List.foldl_cons, ih, addPssOrSwapPss_eq, List.map_cons, List.sum_cons, add_assoc]

theorem pssAndSwapPss_eq_sum (text : List Char) :
    pssAndSwapPss text = ((getlines text).map lineSize).sum := by
  rw [pssAndSwapPss, foldl_addPssOrSwapPss, zero_add]

/-- The order of the lines does not matter. -/
theorem pssAndSwapPss_of_perm {text text' : List Char} (same : (getlines text).Perm (getlines text')) :
    pssAndSwapPss text = pssAndSwapPss text' := by
  rw [pssAndSwapPss_eq_sum, pssAndSwapPss_eq_sum]
  exact (same.map lineSize).sum_eq

end MemoryUtils.MemInfo
