/-
# How the output files rotate

`checkUpdateOutFile` in the loops of `handleSpeciesHits` and `handleRawHits`,
with any soft limit on the lines of a file. What the two threads share is that
`count` is the number of data lines of the open file, and that a file is
closed only when this is over the limit (`Rotating`); a batch is written
behind a check, to a file within the limit.
-/
import Sprint3.Lib.Outline
import Sprint3.StorageManager

namespace Sprint3

open Memory Monitor Run Text

/-- The output of a thread: the files are numbered from 0 without a gap, each
begins with the header, and each but the last holds more than the limit. -/
structure Rotated (header : Text) (softMaxLines : ℕ) (o : OutFiles) : Prop where
  numbered : o.files.map OutFile.fileNo = List.range o.files.length
  headed : ∀ f ∈ o.files, header <+: f.text
  full : ∀ f ∈ o.files.dropLast, softMaxLines < f.dataLines.length

/-- A file is open, and within the limit. -/
def OutFiles.HasRoom (softMaxLines : ℕ) (o : OutFiles) : Prop :=
  ∃ f, o.outFile = some f ∧ f.dataLines.length ≤ softMaxLines

/-- `count` is the number of data lines of the file that is open, if one is. -/
def OutFiles.Counted (o : OutFiles) : Prop :=
  o.files ≠ [] → ∃ f, o.outFile = some f ∧ o.count = f.dataLines.length

/-- The output while its thread is in the loop. -/
structure Rotating (header : Text) (softMaxLines : ℕ) (o : OutFiles) : Prop where
  numbered : o.files.map OutFile.fileNo = List.range o.fileNo
  headed : ∀ f ∈ o.files, f.header = header
  full : ∀ f ∈ o.closed, softMaxLines < f.dataLines.length
  counted : ∀ f, o.outFile = some f → o.count = f.dataLines.length
  due : o.outFile = none → o.closed = [] ∧ softMaxLines < o.count

section Output

variable {header : Text} {softMaxLines : ℕ} {o : OutFiles}

theorem OutFiles.files_open {f : OutFile} (hf : o.outFile = some f) : o.files = o.closed ++ [f] := by
  simp [OutFiles.files, hf]

theorem OutFiles.files_write_open {f : OutFile} (hf : o.outFile = some f) (ls : List Text) :
    (o.write ls).files = o.closed ++ [f.write ls] := by
  simp [OutFiles.files, OutFiles.write, hf]

/-- More lines in the open file, which is the last. -/
theorem Rotated.write (h : Rotated header softMaxLines o) (ls : List Text) :
    Rotated header softMaxLines (o.write ls) := by
  obtain ⟨hnumbered, hheaded, hfull⟩ := h
  cases hf : o.outFile with
  | none =>
    have hwrite : (o.write ls).files = o.files := by simp [OutFiles.files, OutFiles.write, hf]
    exact ⟨hwrite ▸ hnumbered, hwrite ▸ hheaded, hwrite ▸ hfull⟩
  | some f =>
    have hwrite := OutFiles.files_write_open hf ls
    rw [OutFiles.files_open hf] at hnumbered hheaded hfull
    refine ⟨?_, ?_, ?_⟩
    · rw [hwrite]
      simpa using hnumbered
    · intro f' hf'
      rw [hwrite, List.mem_append, List.mem_singleton] at hf'
      rcases hf' with hf' | rfl
      · exact hheaded f' (List.mem_append_left _ hf')
      · obtain ⟨rest, hrest⟩ := hheaded f (by simp)
        exact ⟨rest ++ ls.flatMap line, by
          rw [← List.append_assoc, hrest, OutFile.text, OutFile.text, OutFile.write,
            List.append_assoc]⟩
    · rw [hwrite]
      simpa using hfull

theorem OutFiles.files_close : o.close.files = o.files := by
  simp [OutFiles.files, OutFiles.close]

theorem Rotated.close (h : Rotated header softMaxLines o) :
    Rotated header softMaxLines o.close := by
  obtain ⟨hnumbered, hheaded, hfull⟩ := h
  rw [← OutFiles.files_close] at hnumbered hheaded hfull
  exact ⟨hnumbered, hheaded, hfull⟩

theorem OutFiles.HasRoom.isOpen (h : o.HasRoom softMaxLines) : o.isOpen = true := by
  obtain ⟨f, hf, -⟩ := h
  simp [OutFiles.isOpen, hf]

/-- A batch written to the open file, and counted. -/
theorem Rotating.write (h : Rotating header softMaxLines o) (hroom : o.HasRoom softMaxLines)
    {ls : List Text} (hls : ∀ l ∈ ls, '\n' ∉ l) {n : ℕ} (hn : n = ls.length) :
    Rotating header softMaxLines { o.write ls with count := o.count + n } := by
  obtain ⟨f, hf, -⟩ := hroom
  obtain ⟨hnumbered, hheaded, hfull, hcounted, -⟩ := h
  have hwrite := OutFiles.files_write_open hf ls
  have hopen : (o.write ls).outFile = some (f.write ls) := by simp [OutFiles.write, hf]
  rw [OutFiles.files_open hf] at hnumbered hheaded
  refine ⟨?_, ?_, hfull, ?_, ?_⟩
  · show (o.write ls).files.map OutFile.fileNo = List.range o.fileNo
    rw [hwrite]
    simpa using hnumbered
  · show ∀ f ∈ (o.write ls).files, f.header = header
    intro f' hf'
    rw [hwrite, List.mem_append, List.mem_singleton] at hf'
    rcases hf' with hf' | rfl
    · exact hheaded f' (List.mem_append_left _ hf')
    · exact hheaded f (by simp)
  · intro f' hf'
    obtain rfl := Option.some.inj (hopen.symm.trans hf')
    rw [OutFile.dataLines_write, lines_flatMap_line hls, List.length_append, ← hcounted f hf, hn]
  · intro hnone
    cases hopen.symm.trans hnone

end Output

namespace StorageManager

variable {E : Type*} (sm : StorageManager E)

/-! ### The check -/

section Check

theorem nextOutFile_opens (hopens : ∀ path, sm.opens path = true) (filename storagePath : String)
    (fileNo : ℕ) :
    ∃ f, sm.nextOutFile filename storagePath fileNo = some f ∧ f.fileNo = fileNo ∧
      f.header = sm.header ∧ f.dataLines = [] := by
  refine ⟨⟨storagePath ++ "/" ++ sm.outFileName filename fileNo, fileNo, sm.header,
    sm.header_ended, [], ended_nil⟩, if_pos (hopens _), rfl, rfl, ?_⟩
  rw [OutFile.dataLines_eq, lines_nil]

variable {sm} {filename storagePath : String} {softMaxLines : ℕ} {o o' : OutFiles}
  (hopens : ∀ path, sm.opens path = true)
  (ho' : (sm.checkUpdateOutFile filename storagePath softMaxLines o).1 = o')
include hopens ho'

/-- A check does nothing within the limit; over it, it closes the file and
opens the next. -/
theorem check_cases : o.count ≤ softMaxLines ∧ o' = o ∨
    softMaxLines < o.count ∧ ∃ f : OutFile, f.fileNo = o.fileNo ∧ f.header = sm.header ∧
      f.dataLines = [] ∧ o'.files = o.files ++ [f] ∧ o'.closed = o.files ∧ o'.outFile = some f ∧
      o'.count = 0 ∧ o'.fileNo = o.fileNo + 1 := by
  unfold checkUpdateOutFile at ho'
  rcases Nat.lt_or_ge softMaxLines o.count with hdue | hwithin
  · obtain ⟨f, hf, hfileNo, hheader, hempty⟩ :=
      sm.nextOutFile_opens hopens filename storagePath o.fileNo
    simp only [if_pos hdue, hf] at ho'
    refine .inr ⟨hdue, f, hfileNo, hheader, hempty, ?_⟩
    rw [← ho']
    exact ⟨rfl, rfl, rfl, rfl, rfl⟩
  · simp only [if_neg (Nat.not_lt.mpr hwithin)] at ho'
    exact .inl ⟨hwithin, ho'.symm⟩

/-- After a check, the open file has room. -/
theorem Rotating.check (h : Rotating sm.header softMaxLines o) :
    Rotating sm.header softMaxLines o' ∧ o'.HasRoom softMaxLines := by
  rcases check_cases hopens ho' with ⟨hwithin, rfl⟩ |
    ⟨hdue, f, hfileNo, hheader, hempty, hfiles, hclosed, hopen, hcount, hnext⟩
  · refine ⟨h, ?_⟩
    cases hf : o'.outFile with
    | none => exact absurd (h.due hf).2 (Nat.not_lt.mpr hwithin)
    | some f => exact ⟨f, hf, h.counted f hf ▸ hwithin⟩
  · refine ⟨⟨?_, ?_, ?_, ?_, ?_⟩, f, hopen, by simp [hempty]⟩
    · rw [hfiles, hnext, List.range_succ, List.map_append, h.numbered, List.map_singleton, hfileNo]
    · intro f' hf'
      rw [hfiles, List.mem_append, List.mem_singleton] at hf'
      rcases hf' with hf' | rfl
      · exact h.headed f' hf'
      · exact hheader
    · intro f' hf'
      rw [hclosed, OutFiles.files, List.mem_append, Option.mem_toList] at hf'
      rcases hf' with hf' | hf'
      · exact h.full f' hf'
      · rw [← h.counted f' hf']
        exact hdue
    · intro f' hf'
      obtain rfl := Option.some.inj (hopen.symm.trans hf')
      rw [hcount, hempty]
      rfl
    · intro hnone
      cases hopen.symm.trans hnone

end Check

/-! ### The two threads -/

section Threads

variable (softMaxLines : ℕ)

/-- `checkSpecies`, with any limit. -/
def checkSpeciesUpTo (d : SpeciesData E) : SpeciesData E × Bool :=
  let r := sm.checkUpdateOutFile "speciesHits" "output/data/species" softMaxLines d.out
  ({ d with out := r.1 }, r.2)

/-- `handleSpeciesHits`, with any limit. -/
def speciesHitsUpTo : Consumer (SpeciesData E) :=
  { sm.handleSpeciesHits with
    prepare := sm.checkSpeciesUpTo softMaxLines
    lastPrepare := sm.checkSpeciesUpTo softMaxLines }

def checkRawUpTo (d : RawData) : RawData × Bool :=
  let r := sm.checkUpdateOutFile "rawHits" "output/data/raw" softMaxLines d.out
  ({ d with out := r.1 }, r.2)

/-- `handleRawHits`, with any limit. -/
def rawHitsUpTo : Consumer RawData :=
  { sm.handleRawHits with
    prepare := sm.checkRawUpTo softMaxLines
    lastWork := fun d =>
      let r := sm.checkRawUpTo softMaxLines d
      if r.2 then
        let d' := r.1.write
        { d' with out := d'.out.close }
      else r.1 }

theorem speciesHitsUpTo_max : sm.speciesHitsUpTo maxSpeciesFileLines = sm.handleSpeciesHits := rfl

theorem rawHitsUpTo_max : sm.rawHitsUpTo maxRawFileLines = sm.handleRawHits := rfl

/-- The raw files are within the limit and one batch. -/
def RawData.Bounded (d : RawData) : Prop :=
  d.rawHitsToWrite.buff.Ok ∧ d.rawHitsToWrite.workBufElements ≤ maxBuffEl ∧
    ∀ f ∈ d.out.files, f.dataLines.length ≤ softMaxLines + maxBuffEl

variable {softMaxLines} {sm} (hopens : ∀ path, sm.opens path = true)
include hopens

omit hopens

include hopens

omit hopens

end Threads

end StorageManager

end Sprint3
