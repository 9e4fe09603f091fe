/-
# The storage manager

`StorageManager.cpp`: the output files, and the two threads that write to
them, `handleSpeciesHits` and `handleRawHits`, as consumers of `speciesHitsQ`
and `rawHitsToWriteBuff`.

The files of a thread are numbered in the order in which they are opened, and
what is written reads back line by line, wherever `checkUpdateOutFile` goes
over to the next file (`dataLines_write`, `dataLines_check`).
-/
import Sprint3.Intake
import Sprint3.Lib.Monitor
import Sprint3.Lib.Text

namespace Sprint3

open Monitor Text

/-! ### The output files -/

/-- A file: the header it begins with, and what was inserted after it. -/
structure OutFile where
  path : String
  fileNo : ℕ
  header : Text
  header_ended : Ended header
  body : Text
  body_ended : Ended body

namespace OutFile

def text (f : OutFile) : Text := f.header ++ f.body

/-- The lines after the header. -/
def dataLines (f : OutFile) : List Text := (lines f.text).drop (lines f.header).length

/-- Lines inserted into the stream, each with its `std::endl`. -/
def write (f : OutFile) (ls : List Text) : OutFile :=
  { f with
    body := f.body ++ ls.flatMap line
    body_ended := f.body_ended.append (ended_flatMap ended_line ls) }

theorem dataLines_eq (f : OutFile) : f.dataLines = lines f.body := by
  rw [dataLines, text, lines_append f.header_ended, List.drop_left]

@[simp] theorem write_fileNo (f : OutFile) (ls : List Text) : (f.write ls).fileNo = f.fileNo := rfl

theorem dataLines_write (f : OutFile) (ls : List Text) :
    (f.write ls).dataLines = f.dataLines ++ lines (ls.flatMap line) := by
  rw [dataLines_eq, dataLines_eq, write, lines_append f.body_ended]

end OutFile

/-- The output of a thread: the files closed so far, `outFile` if it is open,
and the two counters. The files are in the order of their numbers. -/
structure OutFiles where
  closed : List OutFile
  outFile : Option OutFile
  count : ℕ
  fileNo : ℕ
  ordered : ((closed ++ outFile.toList).map OutFile.fileNo).Pairwise (· < ·)
  below : ∀ n ∈ (closed ++ outFile.toList).map OutFile.fileNo, n < fileNo

namespace OutFiles

/-- Before the first check: no file is open, and one is due. -/
def fresh (softMaxLines : ℕ) : OutFiles where
  closed := []
  outFile := none
  count := softMaxLines + 1
  fileNo := 0
  ordered := .nil
  below := nofun

def files (o : OutFiles) : List OutFile := o.closed ++ o.outFile.toList

/-- The data lines of all files, in file-number order. -/
def dataLines (o : OutFiles) : List Text := o.files.flatMap OutFile.dataLines

def isOpen (o : OutFiles) : Bool := o.outFile.isSome

/-- Lines inserted into `outFile`. -/
def write (o : OutFiles) (ls : List Text) : OutFiles :=
  { o with
    outFile := o.outFile.map (·.write ls)
    ordered := by
      have h := o.ordered
      cases hf : o.outFile <;> simpa [hf] using h
    below := by
      have h := o.below
      cases hf : o.outFile <;> simpa [hf] using h }

def close (o : OutFiles) : OutFiles :=
  { o with
    closed := o.closed ++ o.outFile.toList
    outFile := none
    ordered := by simpa using o.ordered
    below := by simpa using o.below }

@[simp] theorem isOpen_write (o : OutFiles) (ls : List Text) : (o.write ls).isOpen = o.isOpen := by
  simp [isOpen, write]

@[simp] theorem dataLines_close (o : OutFiles) : o.close.dataLines = o.dataLines := by
  simp [dataLines, files, close]

theorem dataLines_write (o : OutFiles) (ho : o.isOpen = true) (ls : List Text) :
    (o.write ls).dataLines = o.dataLines ++ lines (ls.flatMap line) := by
  obtain ⟨f, hf⟩ := Option.isSome_iff_exists.mp ho
  simp [dataLines, files, write, hf, OutFile.dataLines_write]

end OutFiles

/-- What the class holds, and what its streams do: which files open, and how a
`double` is inserted. -/
structure StorageManager (E : Type*) where
  runNum : String
  /-- The text `genHeader` makes, every line of it with its `std::endl`. -/
  header : Text
  header_ended : Ended header
  opens : String → Bool
  showE : E → Text
  showE_line : ∀ e, '\n' ∉ showE e

namespace StorageManager

/-- All files open, and energies are in whole keV. -/
def plain : StorageManager ℕ where
  runNum := "1"
  header := line ['#']
  header_ended := ended_line _
  opens _ := true
  showE := decimal
  showE_line := newline_not_mem_decimal

variable {E : Type*} (sm : StorageManager E)

def outFileName (filename : String) (fileNo : ℕ) : String :=
  filename ++ "_RN-" ++ sm.runNum ++ "_FN-" ++ toString fileNo ++ ".txt"

/-- The file that is due, opened if it can be. -/
def nextOutFile (filename storagePath : String) (fileNo : ℕ) : Option OutFile :=
  let path := storagePath ++ "/" ++ sm.outFileName filename fileNo
  if sm.opens path then some ⟨path, fileNo, sm.header, sm.header_ended, [], ended_nil⟩ else none

theorem nextOutFile_fileNo {filename storagePath : String} {fileNo : ℕ} {f : OutFile}
    (hf : f ∈ (sm.nextOutFile filename storagePath fileNo).toList) : f.fileNo = fileNo := by
  unfold nextOutFile at hf
  simp only at hf
  split at hf
  · rw [Option.toList_some, List.mem_singleton] at hf
    rw [hf]
  · cases hf

/-- `checkUpdateOutFile`: the output, and whether a file is open. -/
def checkUpdateOutFile (filename storagePath : String) (softMaxLines : ℕ) (o : OutFiles) :
    OutFiles × Bool :=
  let o' : OutFiles :=
    if o.count > softMaxLines then
      { closed := o.closed ++ o.outFile.toList
        outFile := sm.nextOutFile filename storagePath o.fileNo
        count := 0
        fileNo := o.fileNo + 1
        ordered := by
          rw [List.map_append, List.pairwise_append]
          refine ⟨o.ordered, ?_, fun a ha b hb => ?_⟩
          · cases sm.nextOutFile filename storagePath o.fileNo <;> simp
          · obtain ⟨f, hf, rfl⟩ := List.mem_map.mp hb
            rw [sm.nextOutFile_fileNo hf]
            exact o.below a ha
        below := by
          intro n hn
          rw [List.map_append, List.mem_append] at hn
          rcases hn with hn | hn
          · exact Nat.lt_succ_of_lt (o.below n hn)
          · obtain ⟨f, hf, rfl⟩ := List.mem_map.mp hn
            rw [sm.nextOutFile_fileNo hf]
            exact Nat.lt_succ_self _ }
    else o
  (o', o'.isOpen)

section Check

variable (filename storagePath : String) (softMaxLines : ℕ) (o : OutFiles)

/-- A file more or not, the data lines are the same. -/
@[simp] theorem dataLines_check :
    (sm.checkUpdateOutFile filename storagePath softMaxLines o).1.dataLines = o.dataLines := by
  unfold checkUpdateOutFile
  simp only
  split
  · have hnew : (sm.nextOutFile filename storagePath o.fileNo).toList.flatMap
        OutFile.dataLines = [] := by
      unfold nextOutFile
      simp only
      split
      · simp [OutFile.dataLines_eq]
      · rfl
    simp only [OutFiles.dataLines, OutFiles.files, List.flatMap_append, hnew, List.append_nil]
  · rfl

end Check

/-- After a check that could open its file, or did not have to, a file is open. -/
theorem check_isOpen {filename storagePath : String} {softMaxLines : ℕ} {o : OutFiles}
    (hopens : ∀ path, sm.opens path = true) (ho : o.isOpen = true ∨ softMaxLines < o.count) :
    (sm.checkUpdateOutFile filename storagePath softMaxLines o).1.isOpen = true := by
  unfold checkUpdateOutFile
  by_cases hfull : o.count > softMaxLines
  · simp only [if_pos hfull, OutFiles.isOpen, nextOutFile, if_pos (hopens _)]
    rfl
  · simp only [if_neg hfull]
    exact ho.resolve_right hfull

/-! ### The lines -/

/-- A line of a species file, its first field given. -/
def speciesLine (grade : Text) (h : SpeciesHit E) : Text :=
  grade ++ ' ' :: (decimal h.startTOA.toNat ++ ' ' :: sm.showE h.totalE)

/-- As the loop inserts it: `(int) grade_`. -/
def loopLine (h : SpeciesHit E) : Text := sm.speciesLine (decimal h.grade.toNat) h

/-- As the drain after the loop inserts it: `grade_`, which is a character. -/
def drainLine (h : SpeciesHit E) : Text := sm.speciesLine [Char.ofUInt8 h.grade] h

def rawLine (p : Px) : Text :=
  decimal p.coord.x.toNat ++ ' ' :: (decimal p.coord.y.toNat ++ ' ' ::
    (decimal p.toa.toNat ++ ' ' :: decimal p.tot.toNat))

theorem newline_not_mem_speciesLine {grade : Text} (hgrade : '\n' ∉ grade) (h : SpeciesHit E) :
    '\n' ∉ sm.speciesLine grade h := by
  simp [speciesLine, hgrade, newline_not_mem_decimal, sm.showE_line]

theorem newline_not_mem_loopLine (h : SpeciesHit E) : '\n' ∉ sm.loopLine h :=
  sm.newline_not_mem_speciesLine (newline_not_mem_decimal _) h

theorem newline_not_mem_rawLine (p : Px) : '\n' ∉ rawLine p := by
  simp [rawLine, newline_not_mem_decimal]

/-! ### The threads -/

/-- `speciesHitsQ`, and the output of `speciesThread`. -/
structure SpeciesData (E : Type*) where
  q : List (SpeciesHit E)
  out : OutFiles

def SpeciesData.fresh (E : Type*) : SpeciesData E := ⟨[], .fresh maxSpeciesFileLines⟩

def SpeciesData.enqueue (hits : List (SpeciesHit E)) (d : SpeciesData E) : SpeciesData E :=
  { d with q := d.q ++ hits }

/-- The check `handleSpeciesHits` makes, in its loop and after it. -/
def checkSpecies (d : SpeciesData E) : SpeciesData E × Bool :=
  let r := sm.checkUpdateOutFile "speciesHits" "output/data/species" maxSpeciesFileLines d.out
  ({ d with out := r.1 }, r.2)

/-- `handleSpeciesHits`. It writes while it holds the mutex. -/
def handleSpeciesHits : Consumer (SpeciesData E) where
  usesPred := true
  ready d := decide (0 < d.q.length)
  prepare := sm.checkSpecies
  take d :=
    { q := []
      out := { d.out.write (d.q.map sm.loopLine) with count := d.out.count + d.q.length } }
  goesOn _ := false
  work d := d
  lastPrepare := sm.checkSpecies
  lastTake d := { q := [], out := d.out.write (d.q.map sm.drainLine) }
  lastWork d := { d with out := d.out.close }

/-- `rawHitsToWriteBuff` with the variables of `handleRawHits`, and its output. -/
structure RawData where
  rawHitsToWrite : Intake
  out : OutFiles

def RawData.fresh (mem mem' : ℕ → Px) : RawData := ⟨.fresh mem mem', .fresh maxRawFileLines⟩

def RawData.receive (a : PxArray) (d : RawData) : RawData :=
  { d with rawHitsToWrite := d.rawHitsToWrite.receive a }

def checkRaw (d : RawData) : RawData × Bool :=
  let r := sm.checkUpdateOutFile "rawHits" "output/data/raw" maxRawFileLines d.out
  ({ d with out := r.1 }, r.2)

/-- The loop over `workBuf`. -/
def RawData.write (d : RawData) : RawData :=
  { d with out := d.out.write (d.rawHitsToWrite.hits.map rawLine) }

/-- `handleRawHits`. It writes after it has released the mutex, and checks
after the last take. -/
def handleRawHits : Consumer RawData where
  usesPred := true
  ready d := decide (0 < d.rawHitsToWrite.buff.numElements)
  prepare := sm.checkRaw
  take d := { d with rawHitsToWrite := d.rawHitsToWrite.copyClear }
  goesOn _ := true
  work d :=
    let d' := d.write
    { d' with out := { d'.out with count := d'.out.count + d'.rawHitsToWrite.workBufElements } }
  lastPrepare d := (d, true)
  lastTake d := { d with rawHitsToWrite := d.rawHitsToWrite.copyClear }
  lastWork d :=
    let r := sm.checkRaw d
    if r.2 then
      let d' := r.1.write
      { d' with out := d'.out.close }
    else r.1

end StorageManager

end Sprint3
