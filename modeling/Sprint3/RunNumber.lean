/-
# The number of a run

`getRunNum`, `parseForRunNum` and `updateRunNum` of `main.cpp`: the number is
one more than that in `run_num.txt`, or, if none can be read there, one more
than the highest in the names of the raw files (`parseForRunNum_spec`).
-/
import Sprint3.StorageManager
import Mathlib.Data.List.TakeWhile

namespace Sprint3

open Text

/-! ### Numbers as text -/

/-- `std::isspace`. -/
def isSpace (c : Char) : Bool := c = ' ' || (9 ≤ c.toNat && c.toNat ≤ 13)

/-- `std::stoi`, `none` if there is no number to convert. -/
def stoi (t : Text) : Option ℤ :=
  match t.dropWhile isSpace with
  | '-' :: u => (readDecimal (u.takeWhile Char.isDigit)).map fun n : ℕ => -(n : ℤ)
  | '+' :: u => (readDecimal (u.takeWhile Char.isDigit)).map fun n : ℕ => (n : ℤ)
  | u => (readDecimal (u.takeWhile Char.isDigit)).map fun n : ℕ => (n : ℤ)

/-- `std::to_string`. -/
def toText (i : ℤ) : Text := if i < 0 then '-' :: decimal i.natAbs else decimal i.natAbs

@[simp] theorem toText_natCast (n : ℕ) : toText n = decimal n := by
  rw [toText, if_neg (by omega), Int.natAbs_natCast]

theorem isSpace_of_isDigit {c : Char} (hc : c.isDigit = true) : isSpace c = false := by
  simp only [Char.isDigit, Bool.and_eq_true, decide_eq_true_eq] at hc
  have hrange : 48 ≤ c.toNat := hc.1
  have hblank : c ≠ ' ' := by
    rintro rfl
    exact absurd hrange (by decide)
  simp only [isSpace, hblank, decide_false, Bool.false_or, Bool.and_eq_false_iff,
    decide_eq_false_iff_not]
  right
  omega

/-- The digits of a number, read off the front of a text that goes on without one. -/
theorem span_decimal (n : ℕ) (c : Char) (hc : c.isDigit = false) (t : Text) :
    (decimal n ++ c :: t).takeWhile Char.isDigit = decimal n ∧
      (decimal n ++ c :: t).dropWhile Char.isDigit = c :: t := by
  have hdigits : ∀ d ∈ decimal n, d.isDigit = true := fun d => isDigit_of_mem_decimal
  rw [List.takeWhile_append_of_pos hdigits, List.dropWhile_append_of_pos hdigits]
  simp [hc]

theorem takeWhile_decimal (n : ℕ) : (decimal n).takeWhile Char.isDigit = decimal n :=
  List.takeWhile_eq_self_iff.mpr fun _ => isDigit_of_mem_decimal

theorem decimal_ne_nil (n : ℕ) : decimal n ≠ [] := Nat.toDigits_ne_nil

theorem stoi_decimal (n : ℕ) : stoi (decimal n) = some (n : ℤ) := by
  obtain ⟨c, t, heq⟩ := List.exists_cons_of_ne_nil (decimal_ne_nil n)
  have hc : c.isDigit = true := isDigit_of_mem_decimal (n := n) (by simp [heq])
  have hspace : (decimal n).dropWhile isSpace = decimal n := by
    rw [heq, List.dropWhile_cons_of_neg]
    simp [isSpace_of_isDigit hc]
  unfold stoi
  rw [hspace]
  split
  case h_1 u hu =>
    obtain ⟨rfl, -⟩ := List.cons.inj (heq.symm.trans hu)
    cases hc
  case h_2 u hu =>
    obtain ⟨rfl, -⟩ := List.cons.inj (heq.symm.trans hu)
    cases hc
  case h_3 => rw [takeWhile_decimal, readDecimal_decimal, Option.map_some]

/-! ### The names of the output files -/

/-- The log of a run. -/
def logFileName (runNum : Text) : Text := "log_run".toList ++ runNum ++ ".txt".toList

/-- `outFileName`, for a run. -/
def outFileText (filename runNum : Text) (fileNo : ℕ) : Text :=
  filename ++ "_RN-".toList ++ runNum ++ "_FN-".toList ++ decimal fileNo ++ ".txt".toList

theorem outFileName_toList {E : Type*} (sm : StorageManager E) (filename : String) (fileNo : ℕ) :
    (sm.outFileName filename fileNo).toList =
      outFileText filename.toList sm.runNum.toList fileNo := by
  simp [StorageManager.outFileName, outFileText, decimal]

/-- A literal of the expression, taken off the front. -/
def literal (lit t : Text) : Option Text :=
  if lit.isPrefixOf t then some (t.drop lit.length) else none

/-- `(\d+)`, taken off the front. -/
def digits (t : Text) : Option (Text × Text) :=
  if t.takeWhile Char.isDigit = [] then none
  else some (t.takeWhile Char.isDigit, t.dropWhile Char.isDigit)

/-- `std::regex_match` with `file_regex`: the first group. -/
def regexMatch (filename : Text) : Option Text :=
  (literal "rawHits_RN-".toList filename).bind fun t => (digits t).bind fun (group, t) =>
    (literal "_FN-".toList t).bind fun t => (digits t).bind fun (_, t) =>
      if t = ".txt".toList then some group else none

theorem literal_append (lit t : Text) : literal lit (lit ++ t) = some t := by
  simp [literal]

theorem digits_decimal (n : ℕ) (c : Char) (hc : c.isDigit = false) (t : Text) :
    digits (decimal n ++ c :: t) = some (decimal n, c :: t) := by
  obtain ⟨htake, hdrop⟩ := span_decimal n c hc t
  rw [digits, htake, hdrop, if_neg (decimal_ne_nil n)]

/-- The number in the name of a raw file. -/
theorem regexMatch_rawHits (n fileNo : ℕ) :
    regexMatch (outFileText "rawHits".toList (decimal n) fileNo) = some (decimal n) := by
  have hname : outFileText "rawHits".toList (decimal n) fileNo =
      "rawHits_RN-".toList ++ (decimal n ++ '_' :: ("FN-".toList ++
        (decimal fileNo ++ '.' :: "txt".toList))) := by
    simp [outFileText]
  have hlit : '_' :: ("FN-".toList ++ (decimal fileNo ++ '.' :: "txt".toList)) =
      "_FN-".toList ++ (decimal fileNo ++ '.' :: "txt".toList) := rfl
  rw [regexMatch, hname, literal_append, Option.bind_some, digits_decimal n '_' (by decide),
    Option.bind_some]
  simp only
  rw [hlit, literal_append, Option.bind_some, digits_decimal fileNo '.' (by decide),
    Option.bind_some]
  rfl

/-! ### Choosing the number -/

/-- `getRunNum`, given what is in `run_num.txt` if it exists. -/
def getRunNum (runNumFile : Option Text) : ℤ :=
  match runNumFile with
  | none => -1
  | some t => (stoi (t.takeWhile (· ≠ '\n'))).getD (-1)

/-- The loop of `parseForRunNum`. -/
def updateMax (maxNum : ℤ) (filename : Text) : ℤ :=
  match regexMatch filename with
  | some group =>
    let curNum := (stoi group).getD 0
    if curNum > maxNum then curNum else maxNum
  | none => maxNum

/-- `parseForRunNum`, given the names in the directory of the raw files. -/
def parseForRunNum (filenames : List Text) : Text :=
  let maxNum := filenames.foldl updateMax 0
  if maxNum = 0 then "1".toList else toText (maxNum + 1)

/-- The number `updateRunNum` writes and returns. -/
def chooseRunNum (runInt : ℤ) (filenames : List Text) : Text :=
  if runInt < 0 then parseForRunNum filenames else toText (runInt + 1)

theorem getRunNum_decimal (n : ℕ) : getRunNum (some (decimal n)) = n := by
  have hline : (decimal n).takeWhile (· ≠ '\n') = decimal n :=
    List.takeWhile_eq_self_iff.mpr fun c hc => by
      have hne : c ≠ '\n' := fun heq => newline_not_mem_decimal n (heq ▸ hc)
      simpa using hne
  rw [getRunNum, hline, stoi_decimal, Option.getD_some]

theorem getRunNum_empty : getRunNum (some []) = -1 := rfl

theorem getRunNum_missing : getRunNum none = -1 := rfl

/-- A number is one more than that in `run_num.txt`. -/
theorem chooseRunNum_read {runInt : ℤ} (hread : 0 ≤ runInt) (filenames : List Text) :
    chooseRunNum runInt filenames = decimal (runInt.toNat + 1) := by
  rw [chooseRunNum, if_neg (by omega), ← toText_natCast, Nat.cast_add, Int.toNat_of_nonneg hread,
    Nat.cast_one]

theorem updateMax_rawHits (max n fileNo : ℕ) :
    updateMax max (outFileText "rawHits".toList (decimal n) fileNo) =
      if max < n then (n : ℤ) else max := by
  rw [updateMax, regexMatch_rawHits]
  simp only [stoi_decimal, Option.getD_some, gt_iff_lt, Nat.cast_lt]

/-- The loop finds the highest number. -/
theorem foldl_updateMax (files : List (ℕ × ℕ)) (max : ℕ) : ∃ max' : ℕ,
    (files.map fun f => outFileText "rawHits".toList (decimal f.1) f.2).foldl updateMax max =
        max' ∧ max ≤ max' ∧ (∀ f ∈ files, f.1 ≤ max') ∧ (max' = max ∨ ∃ f ∈ files, f.1 = max') := by
  induction files generalizing max with
  | nil => exact ⟨max, rfl, le_rfl, nofun, .inl rfl⟩
  | cons f files ih =>
    rw [List.map_cons, List.foldl_cons, updateMax_rawHits]
    by_cases hlt : max < f.1
    · rw [if_pos hlt]
      obtain ⟨max', heq, hle, hall, hmax⟩ := ih f.1
      refine ⟨max', heq, hlt.le.trans hle, List.forall_mem_cons.mpr ⟨hle, hall⟩, .inr ?_⟩
      rcases hmax with rfl | ⟨f', hf', rfl⟩
      · exact ⟨f, List.mem_cons_self, rfl⟩
      · exact ⟨f', List.mem_cons_of_mem f hf', rfl⟩
    · rw [if_neg hlt]
      obtain ⟨max', heq, hle, hall, hmax⟩ := ih max
      refine ⟨max', heq, hle, List.forall_mem_cons.mpr ⟨(Nat.not_lt.mp hlt).trans hle, hall⟩,
        hmax.imp_right ?_⟩
      rintro ⟨f', hf', rfl⟩
      exact ⟨f', List.mem_cons_of_mem f hf', rfl⟩

/-- Without one there, it is one more than the highest of the raw files. -/
theorem parseForRunNum_spec (files : List (ℕ × ℕ)) : ∃ max,
    parseForRunNum (files.map fun f => outFileText "rawHits".toList (decimal f.1) f.2) =
        decimal (max + 1) ∧ (∀ f ∈ files, f.1 ≤ max) ∧ (max = 0 ∨ ∃ f ∈ files, f.1 = max) := by
  obtain ⟨max, heq, -, hall, hmax⟩ := foldl_updateMax files 0
  refine ⟨max, ?_, hall, hmax⟩
  rw [parseForRunNum, ← Nat.cast_zero, heq]
  simp only [Nat.cast_inj]
  by_cases hzero : max = 0
  · rw [if_pos hzero, hzero]
    rfl
  · rw [if_neg hzero, ← Nat.cast_one, ← Nat.cast_add, toText_natCast]

end Sprint3
