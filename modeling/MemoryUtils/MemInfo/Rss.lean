import MemoryUtils.MemInfo.Rollup
import Mathlib.Data.List.TakeWhile

/-!
`GetRssByPid` takes the second field of `/proc/<pid>/statm`, a number of pages, to kilobytes. The
product is an `int`, and only the product is converted to `uint64_t`.
-/

namespace MemoryUtils.MemInfo

def pageToKB : Int32 := 4

/-- `stream >> word` on what is left of the stream: white space is skipped, and a word ends before
the next white space. At the end of the stream `word` stays empty. -/
def extract (stream : List Char) : List Char × List Char :=
  (stream.dropWhile isspace).span (!isspace ·)

/-- `atoi`: leading white space, a sign, digits. C leaves a value out of the range of `int`
undefined. -/
def atoi (s : List Char) : Int32 :=
  let subject := s.dropWhile isspace
  let (negative, numeral) :=
    match subject with
    | '-' :: rest => (true, rest)
    | '+' :: rest => (false, rest)
    | _ => (false, subject)
  let value := Int32.ofNat (decimalValue (numeral.takeWhile Char.isDigit))
  if negative then -value else value

/-- `statm` is what `LoadStringFromFile` reads of `/proc/<pid>/statm`, if it can. -/
def getRssByPid (statm : Int32 → Option (List Char)) (pid : Int32) : UInt64 :=
  match statm pid with
  | none => 0
  | some text =>
    let (_vss, rest) := extract text
    let (rss, _) := extract rest
    (atoi rss * pageToKB).toInt64.toUInt64

/-- The fields of a text: what stands between white space. -/
def fields (text : List Char) : List (List Char) :=
  (text.splitOnP isspace).filter (· ≠ [])

theorem fields_dropWhile (text : List Char) : fields (text.dropWhile isspace) = fields text := by
  induction text with
  | nil => rfl
  | cons c text ih =>
    by_cases space : isspace c
    · rw [List.dropWhile_cons_of_pos space, ih]
      simp [fields, List.splitOnP_cons_eq_if_modifyHead, space]
    · rw [List.dropWhile_cons_of_neg space]

theorem fields_word_append {word rest : List Char} (nonempty : word ≠ [])
    (noSpace : ∀ c ∈ word, isspace c = false) (ends : ∀ c ∈ rest.head?, isspace c) :
    fields (word ++ rest) = word :: fields rest := by
  unfold fields
  cases rest with
  | nil => simp [List.splitOnP_eq_singleton noSpace, nonempty]
  | cons c rest =>
    have space : isspace c := ends c rfl
    rw [List.splitOnP_append_cons_of_forall_mem noSpace c space, List.splitOnP_cons_eq_if_modifyHead, if_pos space]
    simp [nonempty]

theorem head_dropWhile {p : Char → Bool} {text : List Char} {c : Char}
    (head : c ∈ (text.dropWhile p).head?) : p c = false := by
  have stopped := List.head?_dropWhile_not p text
  rw [Option.mem_def.mp head] at stopped
  exact stopped

/-- The first field is what `>>` extracts, and the fields after it are left in the stream. -/
theorem extract_of_fields {stream field : List Char} {more : List (List Char)}
    (first : fields stream = field :: more) :
    (extract stream).1 = field ∧ fields (extract stream).2 = more := by
  rw [extract, List.span_eq_takeWhile_dropWhile]
  generalize skipped : stream.dropWhile isspace = text
  show text.takeWhile (!isspace ·) = field ∧ fields (text.dropWhile (!isspace ·)) = more
  have noSpace : ∀ c ∈ text.takeWhile (!isspace ·), isspace c = false := by
    intro c member
    simpa using List.mem_takeWhile_imp member
  have ends : ∀ c ∈ (text.dropWhile (!isspace ·)).head?, isspace c := by
    intro c head
    simpa using head_dropWhile head
  have nonempty : text.takeWhile (!isspace ·) ≠ [] := by
    intro empty
    cases text with
    | nil =>
      rw [← fields_dropWhile, skipped] at first
      cases first
    | cons c text =>
      have head : c ∈ (stream.dropWhile isspace).head? := by
        rw [skipped]
        rfl
      have start : isspace c = false := head_dropWhile head
      rw [List.takeWhile_cons_of_pos (by simp [start])] at empty
      cases empty
  rw [← fields_dropWhile, skipped, ← List.takeWhile_append_dropWhile (p := (!isspace ·)) (l := text),
    fields_word_append nonempty noSpace ends, List.cons.injEq] at first
  exact first

theorem isspace_of_isDigit {c : Char} (digit : c.isDigit) : isspace c = false := by
  rw [Char.isDigit, Bool.and_eq_true] at digit
  by_contra space
  simp only [isspace, Bool.not_eq_false, decide_eq_true_eq] at space
  rcases space with rfl | rfl | rfl | rfl | rfl | rfl <;> revert digit <;> decide

/-- Nothing is skipped or left over of a numeral. -/
theorem atoi_of_digits {numeral : List Char} (digits : ∀ c ∈ numeral, c.isDigit) :
    atoi numeral = Int32.ofNat (decimalValue numeral) := by
  cases numeral with
  | nil => rfl
  | cons c numeral =>
    have digit : c.isDigit := digits c List.mem_cons_self
    have noMinus : c ≠ '-' := by
      rintro rfl
      cases digit
    have noPlus : c ≠ '+' := by
      rintro rfl
      cases digit
    have all : (c :: numeral).takeWhile Char.isDigit = c :: numeral :=
      List.takeWhile_eq_self_iff.mpr digits
    unfold atoi
    rw [List.dropWhile_cons_of_neg (by simp [isspace_of_isDigit digit])]
    simp [noMinus, noPlus, all]

theorem getRssByPid_of_second_field {statm : Int32 → Option (List Char)} {pid : Int32}
    {text numeral : List Char} (loaded : statm pid = some text)
    (second : (fields text)[1]? = some numeral) (digits : ∀ c ∈ numeral, c.isDigit) :
    getRssByPid statm pid =
      (Int32.ofNat (decimalValue numeral) * pageToKB).toInt64.toUInt64 := by
  have rssField : (extract (extract text).2).1 = numeral := by
    rcases split : fields text with _ | ⟨vss, _ | ⟨rss, more⟩⟩
    · simp [split] at second
    · simp [split] at second
    · obtain rfl : rss = numeral := by simpa [split] using second
      exact (extract_of_fields (extract_of_fields split).2).1
  unfold getRssByPid
  rw [loaded]
  show (atoi (extract (extract text).2).1 * pageToKB).toInt64.toUInt64 = _
  rw [rssField, atoi_of_digits digits]

theorem toNat_product {n : Nat} (inRange : n ≤ 2 ^ 31 - 1) :
    ((Int32.ofNat n * pageToKB).toInt64.toUInt64).toNat = 4 * n ↔ n < 2 ^ 29 := by
  have factor : (Int32.ofNat n).toInt = n := Int32.toInt_ofNat_of_lt (by omega)
  have product : (Int32.ofNat n * pageToKB).toInt64.toInt = (n * 4 : Int).bmod (2 ^ 32) := by
    rw [Int32.toInt_toInt64, Int32.toInt_mul, factor]
    rfl
  have converted := BitVec.toInt_eq_toNat_cond (Int32.ofNat n * pageToKB).toInt64.toBitVec
  rw [Int64.toInt_toBitVec, product, Int64.toNat_toBitVec] at converted
  have bound := (Int32.ofNat n * pageToKB).toInt64.toUInt64.toNat_lt
  rw [Int.bmod_def] at converted
  omega

/-- The kilobytes are four times the pages exactly while the product fits an `int`. -/
theorem rss_is_four_times_pages_iff {statm : Int32 → Option (List Char)} {pid : Int32}
    {text numeral : List Char} (loaded : statm pid = some text)
    (second : (fields text)[1]? = some numeral) (digits : ∀ c ∈ numeral, c.isDigit)
    (inRange : decimalValue numeral ≤ 2 ^ 31 - 1) :
    (getRssByPid statm pid).toNat = 4 * decimalValue numeral ↔ decimalValue numeral < 2 ^ 29 := by
  rw [getRssByPid_of_second_field loaded second digits]
  exact toNat_product inRange

/-- The text in the comment of `GetRssByPid`. -/
def statmText : List Char := "640 472 369 38 0 115 0".toList

theorem statmText_is_four_times_pages : (getRssByPid (fun _ => some statmText) 1).toNat = 4 * 472 := by
  have second : (fields statmText)[1]? = some ['4', '7', '2'] := by decide +kernel
  have digits : ∀ c ∈ ['4', '7', '2'], c.isDigit := List.all_eq_true.mp (by decide)
  have loaded : (fun _ => some statmText) (1 : Int32) = some statmText := rfl
  exact (rss_is_four_times_pages_iff loaded second digits (by decide)).mpr (by decide)

/-- Two tebibytes resident: `536870912` pages. -/
def largeStatmText : List Char := "640000000 536870912".toList

theorem large_rss_wraps :
    (fields largeStatmText)[1]? = some "536870912".toList ∧
    "536870912".toList.all Char.isDigit ∧ decimalValue "536870912".toList = 536870912 ∧
    536870912 ≤ 2 ^ 31 - 1 ∧
    (getRssByPid (fun _ => some largeStatmText) 1).toNat = 2 ^ 64 - 2 ^ 31 ∧
    (getRssByPid (fun _ => some largeStatmText) 1).toNat ≠ 4 * decimalValue "536870912".toList := by
  refine ⟨?_, ?_, ?_, ?_, ?_, ?_⟩
  all_goals decide +kernel

end MemoryUtils.MemInfo
