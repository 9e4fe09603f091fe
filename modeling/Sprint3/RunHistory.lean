/-
# The runs of the program, one after another

What `loop` leaves on the disk, step by step: `run_num.txt`, the log, and the
files of the two threads. A run may return early, or be killed at any step.

A run that finds a number in `run_num.txt` takes the next one, and all files
there are have lower numbers. A run that finds none goes by the raw files
alone; if a log or a species file has a number above theirs, the numbers of
earlier runs come again, at once or in the runs that follow (`run_numbers`).
-/
import Sprint3.RunNumber
import Sprint3.Lib.Run

namespace Sprint3

open Run Text

/-! ### The output files -/

/-- A file in one of the three output directories. -/
inductive OutputFile
  | log (runNum : Text)
  | raw (runNum : Text) (fileNo : ℕ)
  | species (runNum : Text) (fileNo : ℕ)
  deriving DecidableEq, Repr

namespace OutputFile

def name : OutputFile → Text
  | log runNum => logFileName runNum
  | raw runNum fileNo => outFileText "rawHits".toList runNum fileNo
  | species runNum fileNo => outFileText "speciesHits".toList runNum fileNo

/-- The run number in the name. -/
def runNum : OutputFile → Text
  | log runNum | raw runNum _ | species runNum _ => runNum

def isRaw : OutputFile → Bool
  | raw _ _ => true
  | _ => false

def fileNo : OutputFile → ℕ
  | log _ => 0
  | raw _ fileNo | species _ fileNo => fileNo

/-- The value of the run number. -/
def number (f : OutputFile) : ℕ := (readDecimal f.runNum).getD 0

theorem number_eq {f : OutputFile} {n : ℕ} (h : f.runNum = decimal n) : f.number = n := by
  rw [number, h, readDecimal_decimal, Option.getD_some]

end OutputFile

/-- The names in the directory of the raw files. -/
def rawFilenames (files : List OutputFile) : List Text :=
  (files.filter OutputFile.isRaw).map OutputFile.name

/-- No log and no species file has a number above those of all raw files. -/
def RawAhead (files : List OutputFile) : Prop :=
  ∀ f ∈ files, ∃ r ∈ files, r.isRaw = true ∧ f.number ≤ r.number

/-! ### The program -/

/-- Where a run is; `noRun` is between two of them. -/
inductive Stage
  | noRun
  | read (runInt : ℤ)
  | chosen (runNum : Text)
  | truncated (runNum : Text)
  | updated (runNum : Text)
  | logging (runNum : Text)
  | launched (runNum : Text) (speciesNo rawNo : ℕ)
  deriving DecidableEq, Repr

/-- The number of the run, once it is chosen. -/
def Stage.runNum : Stage → Option Text
  | .noRun | .read _ => none
  | .chosen runNum | .truncated runNum | .updated runNum | .logging runNum
  | .launched runNum _ _ => some runNum

/-- What is in `run_num.txt`, if it exists, the output files, and the run. -/
structure Program where
  runNumFile : Option Text
  files : List OutputFile
  stage : Stage
  deriving DecidableEq, Repr

/-- Before the first run, the output directories empty. -/
def Program.fresh (runNumFile : Option Text) : Program := ⟨runNumFile, [], .noRun⟩

/-- The steps of a run. `loop` returns once it has a log; a run killed between
opening `run_num.txt` and writing to it leaves it empty, or removed. -/
inductive RunStep
  | getRunNum
  | chooseRunNum
  | openRunNumFile
  | writeRunNum
  | createLog
  | launch
  | createSpecies
  | createRaw
  | returns
  | kill (removed : Bool)
  deriving DecidableEq, Repr

def Program.step (s : Program) : RunStep → Option Program
  | .getRunNum =>
    match s.stage with
    | .noRun => some { s with stage := .read (Sprint3.getRunNum s.runNumFile) }
    | _ => none
  | .chooseRunNum =>
    match s.stage with
    | .read runInt =>
      some { s with stage := .chosen (Sprint3.chooseRunNum runInt (rawFilenames s.files)) }
    | _ => none
  | .openRunNumFile =>
    match s.stage with
    | .chosen runNum => some { s with runNumFile := some [], stage := .truncated runNum }
    | _ => none
  | .writeRunNum =>
    match s.stage with
    | .truncated runNum => some { s with runNumFile := some runNum, stage := .updated runNum }
    | _ => none
  | .createLog =>
    match s.stage with
    | .updated runNum => some { s with files := s.files ++ [.log runNum], stage := .logging runNum }
    | _ => none
  | .launch =>
    match s.stage with
    | .logging runNum => some { s with stage := .launched runNum 0 0 }
    | _ => none
  | .createSpecies =>
    match s.stage with
    | .launched runNum speciesNo rawNo =>
      some { s with
        files := s.files ++ [.species runNum speciesNo]
        stage := .launched runNum (speciesNo + 1) rawNo }
    | _ => none
  | .createRaw =>
    match s.stage with
    | .launched runNum speciesNo rawNo =>
      some { s with
        files := s.files ++ [.raw runNum rawNo]
        stage := .launched runNum speciesNo (rawNo + 1) }
    | _ => none
  | .returns =>
    match s.stage with
    | .logging _ | .launched _ _ _ => some { s with stage := .noRun }
    | _ => none
  | .kill removed =>
    match s.stage with
    | .truncated _ =>
      some { s with runNumFile := if removed then none else s.runNumFile, stage := .noRun }
    | _ => some { s with stage := .noRun }

/-- What a step does. -/
inductive Moved : Program → RunStep → Program → Prop
  | getRunNum {file files} :
    Moved ⟨file, files, .noRun⟩ .getRunNum ⟨file, files, .read (getRunNum file)⟩
  | chooseRunNum {file files runInt} : Moved ⟨file, files, .read runInt⟩ .chooseRunNum
    ⟨file, files, .chosen (chooseRunNum runInt (rawFilenames files))⟩
  | openRunNumFile {file files runNum} :
    Moved ⟨file, files, .chosen runNum⟩ .openRunNumFile ⟨some [], files, .truncated runNum⟩
  | writeRunNum {file files runNum} :
    Moved ⟨file, files, .truncated runNum⟩ .writeRunNum ⟨some runNum, files, .updated runNum⟩
  | createLog {file files runNum} : Moved ⟨file, files, .updated runNum⟩ .createLog
    ⟨file, files ++ [.log runNum], .logging runNum⟩
  | launch {file files runNum} :
    Moved ⟨file, files, .logging runNum⟩ .launch ⟨file, files, .launched runNum 0 0⟩
  | createFile {file files runNum i j i' j' f a} (hf : f.runNum = runNum) :
    Moved ⟨file, files, .launched runNum i j⟩ a ⟨file, files ++ [f], .launched runNum i' j'⟩
  | ends {file files stage a} : Moved ⟨file, files, stage⟩ a ⟨file, files, .noRun⟩
  | removed {file files stage a} : Moved ⟨file, files, stage⟩ a ⟨none, files, .noRun⟩

theorem moved {s s' : Program} {a : RunStep} (h : s.step a = some s') : Moved s a s' := by
  obtain ⟨file, files, stage⟩ := s
  cases a <;> cases stage <;> simp only [Program.step, Option.some.injEq, reduceCtorEq] at h
  case kill.truncated removed runNum =>
    subst h
    cases removed with
    | true => exact .removed
    | false => exact .ends
  all_goals
    subst h
    first
      | exact .getRunNum
      | exact .chooseRunNum
      | exact .openRunNumFile
      | exact .writeRunNum
      | exact .createLog
      | exact .launch
      | exact .createFile rfl
      | exact .ends

/-! ### Numbers in decimal -/

/-- A positive number, in decimal. -/
def Positive (runNum : Text) : Prop := ∃ n, runNum = decimal (n + 1)

theorem Positive.number_eq {f : OutputFile} (h : Positive f.runNum) :
    f.runNum = decimal f.number ∧ 0 < f.number := by
  obtain ⟨n, hn⟩ := h
  rw [OutputFile.number_eq hn, hn]
  exact ⟨rfl, Nat.succ_pos n⟩

section Choice

variable {files : List OutputFile} (hfiles : ∀ f ∈ files, Positive f.runNum)
include hfiles

theorem rawFilenames_eq : rawFilenames files =
    ((files.filter OutputFile.isRaw).map fun f => (f.number, f.fileNo)).map
      fun f => outFileText "rawHits".toList (decimal f.1) f.2 := by
  rw [rawFilenames, List.map_map]
  refine List.map_congr_left fun f hf => ?_
  obtain ⟨hmem, hraw⟩ := List.mem_filter.mp hf
  have hnum := (hfiles f hmem).number_eq.1
  cases f with
  | raw runNum fileNo => exact congrArg (outFileText _ · fileNo) hnum
  | log runNum => cases hraw
  | species runNum fileNo => cases hraw

/-- Without a number in `run_num.txt`, the highest of the raw files decides. -/
theorem chooseRunNum_parse {runInt : ℤ} (hneg : runInt < 0) :
    ∃ max, chooseRunNum runInt (rawFilenames files) = decimal (max + 1) ∧
      (∀ r ∈ files, r.isRaw = true → r.number ≤ max) ∧
      (max = 0 ∨ ∃ r ∈ files, r.isRaw = true ∧ r.number = max) := by
  obtain ⟨max, heq, hall, hmax⟩ :=
    parseForRunNum_spec ((files.filter OutputFile.isRaw).map fun f => (f.number, f.fileNo))
  refine ⟨max, ?_, fun r hr hraw => ?_, hmax.imp_right ?_⟩
  · rw [chooseRunNum, if_pos hneg, rawFilenames_eq hfiles, heq]
  · exact hall _ (List.mem_map.mpr ⟨r, List.mem_filter.mpr ⟨hr, hraw⟩, rfl⟩)
  · rintro ⟨f, hf, rfl⟩
    obtain ⟨r, hr, rfl⟩ := List.mem_map.mp hf
    obtain ⟨hmem, hraw⟩ := List.mem_filter.mp hr
    exact ⟨r, hmem, hraw, rfl⟩

theorem positive_chooseRunNum (runInt : ℤ) :
    Positive (chooseRunNum runInt (rawFilenames files)) := by
  rcases Int.lt_or_le runInt 0 with hneg | hread
  · obtain ⟨max, heq, -, -⟩ := chooseRunNum_parse hfiles hneg
    exact ⟨max, heq⟩
  · exact ⟨_, chooseRunNum_read hread _⟩

end Choice

/-- All numbers are positive, and in decimal. -/
structure Numbered (s : Program) : Prop where
  files : ∀ f ∈ s.files, Positive f.runNum
  stage : ∀ runNum, s.stage.runNum = some runNum → Positive runNum

theorem numbered_fresh (file : Option Text) : Numbered (.fresh file) := ⟨nofun, nofun⟩

theorem numbered_step {s s' : Program} {a : RunStep} (h : Numbered s) (hstep : s.step a = some s') :
    Numbered s' := by
  obtain ⟨hfiles, hstage⟩ := h
  have hadd : ∀ {file files runNum}, (∀ f ∈ files, Positive f.runNum) → Positive runNum →
      ∀ f : OutputFile, f.runNum = runNum → ∀ stage : Stage, stage.runNum = some runNum →
      Numbered ⟨file, files ++ [f], stage⟩ := by
    rintro file files runNum hfiles hpos f hf stage hstage
    refine ⟨fun g hg => ?_, fun rn hrn => ?_⟩
    · rcases List.mem_append.mp hg with hg | hg
      · exact hfiles g hg
      · rw [List.mem_singleton.mp hg, hf]
        exact hpos
    · rwa [← Option.some.inj (hstage.symm.trans hrn)]
  cases moved hstep with
  | getRunNum => exact ⟨hfiles, nofun⟩
  | chooseRunNum =>
    refine ⟨hfiles, fun rn hrn => ?_⟩
    rw [← Option.some.inj hrn]
    exact positive_chooseRunNum hfiles _
  | openRunNumFile => exact ⟨hfiles, hstage⟩
  | writeRunNum => exact ⟨hfiles, hstage⟩
  | createLog => exact hadd hfiles (hstage _ rfl) _ rfl _ rfl
  | launch => exact ⟨hfiles, hstage⟩
  | createFile hf => exact hadd hfiles (hstage _ rfl) _ hf _ rfl
  | ends => exact ⟨hfiles, nofun⟩
  | removed => exact ⟨hfiles, nofun⟩

theorem numbered_run {file : Option Text} {as : List RunStep} {s : Program}
    (hrun : run Program.step (.fresh file) as = some s) : Numbered s :=
  run_invariant hrun (fun _ s => Numbered s) (numbered_fresh file)
    fun _ _ _ _ _ h hstep => numbered_step h hstep

/-! ### Numbers ahead of the files -/

/-- The run has a number, and no file with it yet. -/
def Stage.pending : Stage → Option Text
  | .chosen runNum | .truncated runNum | .updated runNum => some runNum
  | _ => none

/-- The run's number is in `run_num.txt`. -/
def Stage.written : Stage → Option Text
  | .updated runNum | .logging runNum | .launched runNum _ _ => some runNum
  | _ => none

/-- A number in `run_num.txt` is not below any in a file's name, and a number
that is chosen is above them all. -/
structure Ahead (s : Program) : Prop where
  counted : 0 ≤ getRunNum s.runNumFile → ∀ f ∈ s.files, (f.number : ℤ) ≤ getRunNum s.runNumFile
  read : ∀ runInt, s.stage = .read runInt → runInt = getRunNum s.runNumFile
  pending : ∀ n, s.stage.pending = some (decimal n) → ∀ f ∈ s.files, f.number < n
  written : ∀ runNum, s.stage.written = some runNum → s.runNumFile = some runNum

/-- A run finds no number in `run_num.txt`, and is about to choose its own. -/
def Program.Fallback (s : Program) : Prop := ∃ runInt, s.stage = .read runInt ∧ runInt < 0

/-- The number that `updateRunNum` has returned is in the name of a file. -/
def Program.Reused (s : Program) : Prop :=
  ∃ runNum, s.stage = .updated runNum ∧ ∃ f ∈ s.files, f.runNum = runNum

theorem Ahead.not_reused {s : Program} (hnumbered : Numbered s) (h : Ahead s) : ¬ s.Reused := by
  rintro ⟨runNum, hstage, f, hf, rfl⟩
  have hnum := (hnumbered.files f hf).number_eq.1
  have hpending : s.stage.pending = some (decimal f.number) := by
    rw [hstage, Stage.pending, hnum]
  have hlt := h.pending f.number hpending f hf
  exact absurd hlt (Nat.lt_irrefl _)

theorem ahead_fresh (file : Option Text) : Ahead (.fresh file) := ⟨nofun, nofun, nofun, nofun⟩

theorem decimal_inj {m n : ℕ} (h : decimal m = decimal n) : m = n := by
  have hread := congrArg readDecimal h
  rwa [readDecimal_decimal, readDecimal_decimal, Option.some.injEq] at hread

/-- A number, what it ends at, and what follows. -/
theorem decimal_sep_inj {c : Char} (hc : c.isDigit = false) {m n : ℕ} {t u : Text} :
    decimal m ++ c :: t = decimal n ++ c :: u ↔ m = n ∧ t = u := by
  constructor
  · intro h
    have hm := (span_decimal m c hc t).1
    have hn := (span_decimal n c hc u).1
    have hmn : m = n := decimal_inj (by rw [← hm, h, hn])
    rw [hmn] at h
    exact ⟨hmn, (List.cons.inj (List.append_cancel_left h)).2⟩
  · rintro ⟨rfl, rfl⟩
    rfl

/-- A file with the number in `run_num.txt`. -/
theorem counted_concat {files : List OutputFile} {runNum : Text} (hpos : Positive runNum)
    (hcounted : 0 ≤ getRunNum (some runNum) →
      ∀ f ∈ files, (f.number : ℤ) ≤ getRunNum (some runNum))
    {f : OutputFile} (hf : f.runNum = runNum) :
    ∀ g ∈ files ++ [f], (g.number : ℤ) ≤ getRunNum (some runNum) := by
  obtain ⟨n, rfl⟩ := hpos
  rw [getRunNum_decimal] at hcounted ⊢
  intro g hg
  rcases List.mem_append.mp hg with hg | hg
  · exact hcounted (by omega) g hg
  · rw [List.mem_singleton.mp hg, OutputFile.number_eq hf]

/-- A number chosen is above those in the files' names. -/
theorem chooseRunNum_ahead {files : List OutputFile} (hfiles : ∀ f ∈ files, Positive f.runNum)
    {runInt : ℤ} (hcounted : 0 ≤ runInt → ∀ f ∈ files, (f.number : ℤ) ≤ runInt)
    (hsafe : runInt < 0 → RawAhead files) {n : ℕ}
    (hn : chooseRunNum runInt (rawFilenames files) = decimal n) :
    ∀ f ∈ files, f.number < n := by
  intro f hf
  rcases Int.lt_or_le runInt 0 with hneg | hread
  · obtain ⟨max, heq, hmax, -⟩ := chooseRunNum_parse hfiles hneg
    obtain ⟨r, hr, hraw, hle⟩ := hsafe hneg f hf
    rw [← decimal_inj (heq.symm.trans hn)]
    exact Nat.lt_succ_of_le (hle.trans (hmax r hr hraw))
  · have hle := hcounted hread f hf
    rw [chooseRunNum_read hread] at hn
    rw [← decimal_inj hn]
    omega

theorem ahead_step {s s' : Program} {a : RunStep} (hnumbered : Numbered s) (h : Ahead s)
    (hsafe : a = .chooseRunNum → s.Fallback → RawAhead s.files) (hstep : s.step a = some s') :
    Ahead s' := by
  obtain ⟨hcounted, hread, hpending, hwritten⟩ := h
  cases moved hstep with
  | getRunNum => exact ⟨hcounted, fun runInt hstage => (Stage.read.inj hstage).symm, nofun, nofun⟩
  | @chooseRunNum file files runInt =>
    refine ⟨hcounted, nofun, fun n hn => ?_, nofun⟩
    refine chooseRunNum_ahead hnumbered.files ?_ (fun hneg => hsafe rfl ⟨runInt, rfl, hneg⟩)
      (Option.some.inj hn)
    rw [hread runInt rfl]
    exact hcounted
  | openRunNumFile =>
    refine ⟨fun hneg => ?_, nofun, hpending, nofun⟩
    rw [getRunNum_empty] at hneg
    omega
  | @writeRunNum file files runNum =>
    refine ⟨fun _ f hf => ?_, nofun, hpending, fun rn hrn => hrn⟩
    obtain ⟨n, rfl⟩ := hnumbered.stage runNum rfl
    have hlt := hpending _ rfl f hf
    rw [getRunNum_decimal]
    omega
  | @createLog file files runNum =>
    obtain rfl : file = some runNum := hwritten runNum rfl
    exact ⟨fun _ => counted_concat (hnumbered.stage runNum rfl) hcounted rfl, nofun, nofun,
      hwritten⟩
  | launch => exact ⟨hcounted, nofun, nofun, hwritten⟩
  | @createFile file files runNum i j i' j' f a hf =>
    obtain rfl : file = some runNum := hwritten runNum rfl
    exact ⟨fun _ => counted_concat (hnumbered.stage runNum rfl) hcounted hf, nofun, nofun,
      hwritten⟩
  | ends => exact ⟨hcounted, nofun, nofun, nofun⟩
  | removed =>
    refine ⟨fun hneg => ?_, nofun, nofun, nofun⟩
    rw [getRunNum_missing] at hneg
    omega

/-! ### Histories -/

/-- Whenever a run of the history finds no number in `run_num.txt`, no log and
no species file has a number above those of all raw files. -/
def FallbacksAhead (file : Option Text) (as : List RunStep) : Prop :=
  ∀ pre post s, as = pre ++ .chooseRunNum :: post →
    run Program.step (.fresh file) pre = some s → s.Fallback → RawAhead s.files

/-- From `s` on, every run finds a number in `run_num.txt`. -/
def Reads : Program → List RunStep → Prop
  | _, [] => True
  | s, a :: as => (a = .chooseRunNum → ¬ s.Fallback) ∧ ∀ s', s.step a = some s' → Reads s' as

section Histories

variable {file : Option Text} {as : List RunStep} {s : Program}

theorem ahead_run (hsafe : FallbacksAhead file as)
    (hrun : run Program.step (.fresh file) as = some s) : Ahead s := by
  refine run_invariant hrun (fun as s => FallbacksAhead file as → Ahead s)
    (fun _ => ahead_fresh file) ?_ hsafe
  intro as s a s' hs ih hstep hsafe
  have hleft : FallbacksAhead file as :=
    fun pre post m has => hsafe pre (post ++ [a]) m (by rw [has]; simp)
  refine ahead_step (numbered_run hs) (ih hleft) ?_ hstep
  rintro rfl
  exact hsafe as [] s rfl hs

theorem ahead_reads : ∀ {fs : List RunStep} {s s' : Program}, Numbered s → Ahead s → Reads s fs →
    run Program.step s fs = some s' → Ahead s'
  | [], s, s', _, h, _, hrun => by
    obtain rfl : s = s' := Option.some.inj hrun
    exact h
  | a :: fs, s, s', hnumbered, h, hreads, hrun => by
    obtain ⟨m, hstep, hrun⟩ := Option.bind_eq_some_iff.mp hrun
    exact ahead_reads (numbered_step hnumbered hstep)
      (ahead_step hnumbered h (fun ha hf => absurd hf (hreads.1 ha)) hstep) (hreads.2 m hstep) hrun

theorem Reads.cons {a : RunStep} {m : Program} (hread : a = .chooseRunNum → ¬ s.Fallback)
    (hstep : s.step a = some m) (h : Reads m as) : Reads s (a :: as) := by
  refine ⟨hread, fun s' hs' => ?_⟩
  obtain rfl := Option.some.inj (hstep.symm.trans hs')
  exact h

theorem Reads.append : ∀ {as bs : List RunStep} {s m : Program}, Reads s as →
    run Program.step s as = some m → Reads m bs → Reads s (as ++ bs)
  | [], bs, s, m, _, hrun, hbs => by
    obtain rfl : s = m := Option.some.inj hrun
    exact hbs
  | a :: as, bs, s, m, has, hrun, hbs => by
    obtain ⟨s', hstep, hrun⟩ := Option.bind_eq_some_iff.mp hrun
    obtain ⟨hread, hreads⟩ := has
    exact .cons hread hstep ((hreads s' hstep).append hrun hbs)

/-- A run is killed once it has written its number, and the next takes one more. -/
def killedRun : List RunStep :=
  [.openRunNumFile, .writeRunNum, .kill false, .getRunNum, .chooseRunNum]

theorem killedRun_counts (file : Option Text) (files : List OutputFile) (c : ℕ) :
    run Program.step ⟨file, files, .chosen (decimal c)⟩ killedRun =
        some ⟨some (decimal c), files, .chosen (decimal (c + 1))⟩ ∧
      Reads ⟨file, files, .chosen (decimal c)⟩ killedRun := by
  have hnext : chooseRunNum (getRunNum (some (decimal c))) (rawFilenames files) =
      decimal (c + 1) := by
    rw [getRunNum_decimal, chooseRunNum_read (Int.natCast_nonneg c), Int.toNat_natCast]
  have hlast : Reads ⟨some (decimal c), files, .read (getRunNum (some (decimal c)))⟩
      [.chooseRunNum] := by
    refine ⟨?_, fun _ _ => trivial⟩
    rintro - ⟨runInt, hstage, hneg⟩
    obtain rfl : getRunNum (some (decimal c)) = runInt := Stage.read.inj hstage
    rw [getRunNum_decimal] at hneg
    omega
  constructor
  · rw [← hnext]
    rfl
  · refine .cons nofun rfl ?_
    refine .cons nofun rfl ?_
    refine .cons nofun rfl ?_
    exact .cons nofun rfl hlast

/-- Runs that count on come to every number above. -/
theorem count_up {files : List OutputFile} {f : OutputFile} (hf : f ∈ files) :
    ∀ (d c : ℕ) (file : Option Text), f.runNum = decimal (c + d) →
      ∃ fs s, run Program.step ⟨file, files, .chosen (decimal c)⟩ fs = some s ∧
        Reads ⟨file, files, .chosen (decimal c)⟩ fs ∧ s.Reused
  | 0, c, file, hnum => by
    refine ⟨[.openRunNumFile, .writeRunNum],
      ⟨some (decimal c), files, .updated (decimal c)⟩, rfl, ?_, decimal c, rfl, f, hf, hnum⟩
    exact .cons nofun rfl (.cons nofun rfl trivial)
  | d + 1, c, file, hnum => by
    obtain ⟨hrun, hreads⟩ := killedRun_counts file files c
    obtain ⟨fs, s, hfs, hfsReads, hreused⟩ :=
      count_up hf d (c + 1) (some (decimal c)) (by rw [hnum]; congr 1; omega)
    refine ⟨killedRun ++ fs, s, ?_, hreads.append hrun hfsReads, hreused⟩
    rw [run_append, hrun]
    exact hfs

/-- A run that finds no number, where the raw files are behind: a number comes
again, at once or in the runs that follow. -/
theorem reused_of_behind (hnumbered : Numbered s) (hfallback : s.Fallback)
    (hbehind : ¬ RawAhead s.files) : ∃ m fs s', s.step .chooseRunNum = some m ∧
      run Program.step m fs = some s' ∧ Reads m fs ∧ s'.Reused := by
  obtain ⟨file, files, stage⟩ := s
  obtain ⟨runInt, rfl, hneg⟩ := hfallback
  simp only [RawAhead, not_forall, not_exists, not_and, Nat.not_le] at hbehind
  obtain ⟨f, hf, hbehind⟩ := hbehind
  obtain ⟨hnum, hpos⟩ := (hnumbered.files f hf).number_eq
  obtain ⟨max, heq, -, hmax⟩ := chooseRunNum_parse hnumbered.files hneg
  have hlt : max < f.number := by
    rcases hmax with rfl | ⟨r, hr, hraw, rfl⟩
    · exact hpos
    · exact hbehind r hr hraw
  obtain ⟨fs, s', hfs, hreads, hreused⟩ := count_up hf (f.number - (max + 1)) (max + 1) file
    (by rw [hnum]; congr 1; omega)
  refine ⟨⟨file, files, .chosen (decimal (max + 1))⟩, fs, s', ?_, hfs, hreads, hreused⟩
  rw [← heq]
  rfl

/-- **When no number comes again.** In every history of runs, each of which
may return early or be killed at any step: whenever a run found no number in
`run_num.txt`, no log and no species file had a number above those of all raw
files, if and only if the number that a run takes is in the name of no file
there is, in the history and in all that continue it, or a part of it, by runs
that find a number. -/
theorem run_numbers (hrun : run Program.step (.fresh file) as = some s) :
    FallbacksAhead file as ↔ ∀ pre fs m s', pre <+: as →
      run Program.step (.fresh file) pre = some m → run Program.step m fs = some s' →
      Reads m fs → ¬ s'.Reused := by
  constructor
  · rintro hsafe pre fs m s' ⟨post, rfl⟩ hpre hfs hreads
    have hsafe' : FallbacksAhead file pre :=
      fun pre' post' m hpre' => hsafe pre' (post' ++ post) m (by rw [hpre']; simp)
    have hnumbered := numbered_run hpre
    have hall : run Program.step (.fresh file) (pre ++ fs) = some s' := by
      rw [run_append, hpre]
      exact hfs
    have hahead : Ahead m := ahead_run hsafe' hpre
    have hahead' : Ahead s' := ahead_reads hnumbered hahead hreads hfs
    exact hahead'.not_reused (numbered_run hall)
  · intro hnever pre post m has hpre hfallback
    by_contra hbehind
    obtain ⟨m', fs, s', hstep, hfs, hreads, hreused⟩ :=
      reused_of_behind (numbered_run hpre) hfallback hbehind
    have hprefix : pre ++ [.chooseRunNum] <+: as := ⟨post, by rw [has]; simp⟩
    have hchosen : run Program.step (.fresh file) (pre ++ [.chooseRunNum]) = some m' :=
      run_concat.mpr ⟨m, hpre, hstep⟩
    exact hnever (pre ++ [.chooseRunNum]) fs m' s' hprefix hchosen hfs hreads hreused

end Histories

/-- The first run returns before it has a raw file; the second is killed when
it has opened `run_num.txt`; the third starts. -/
def thirdRun : List RunStep :=
  [.getRunNum, .chooseRunNum, .openRunNumFile, .writeRunNum, .createLog, .returns,
    .getRunNum, .chooseRunNum, .openRunNumFile, .kill false,
    .getRunNum, .chooseRunNum, .openRunNumFile, .writeRunNum]

/-- It has the number of the first, and overwrites its log. -/
def Program.thirdStarts : Program := ⟨some "1".toList, [.log "1".toList], .updated "1".toList⟩

theorem run_numbers_thirdRun :
    ¬ ∀ file as s, run Program.step (.fresh file) as = some s → ¬ s.Reused := by
  intro hall
  have hrun : run Program.step (.fresh none) thirdRun = some .thirdStarts := by decide +kernel
  exact hall none thirdRun _ hrun ⟨_, rfl, _, List.mem_cons_self, rfl⟩

theorem run_numbers_behind : ¬ FallbacksAhead none thirdRun := by
  have hrun : run Program.step (.fresh none) thirdRun = some .thirdStarts := by decide +kernel
  intro hsafe
  exact (run_numbers hrun).mp hsafe thirdRun [] .thirdStarts .thirdStarts (List.prefix_refl _) hrun
    rfl trivial ⟨_, rfl, _, List.mem_cons_self, rfl⟩

end Sprint3
