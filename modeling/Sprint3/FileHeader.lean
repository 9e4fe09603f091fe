/-
# The header of the output files

`genHeader` inserts one line for each setting of the acquisition, and every
file of a run begins with these lines. All of them begin with `#`, and no line
of a hit does: so in every file, at any moment of any run, the comments are
the settings and the other lines are the data (`described_comments`). Two runs
write the same comments exactly if they were set up alike in all that the
header shows (`comments_identify`).

Key definitions: `headerLines`, `genHeader`, `Described`, `SameHeader`.
-/
import Sprint3.Connection
import Sprint3.Loop
import Sprint3.Rotation
import Sprint3.RunHistory
import Mathlib.Data.Rat.Defs

namespace Sprint3

open Bits Memory Monitor Run StorageManager Text

/-! ### The storage threads in a run of the loop -/

namespace Loop

variable {E : Type*} [AddCommMonoid E] [LinearOrder E] {sm : StorageManager E}
  {getEnergy : Px → E} {sort : ToaSort}

/-- What each step of a storage thread keeps, holds of it along every run. -/
theorem storage_run {P : SpeciesData E → Prop} {Q : RawData → Prop} {mem : Fin 4 → ℕ → Px}
    (hspecies : P (.fresh E)) (hraw : Q (.fresh (mem 2) (mem 3)))
    (hnextSpecies : ∀ {m m' : System (SpeciesData E)} {l : Label (List Px)}, P m.shared →
      next sm.handleSpeciesHits (SpeciesData.process getEnergy sort) m l = some m' → P m'.shared)
    (hnextRaw : ∀ {m m' : System RawData} {l : Label PxArray}, Q m.shared →
      next sm.handleRawHits RawData.receive m l = some m' → Q m'.shared)
    {es : List LoopStep} {s : Loop E}
    (hrun : run (step sm getEnergy sort) (.launched E mem) es = some s) :
    P s.speciesThread.shared ∧ Q s.rawThread.shared := by
  refine run_invariant hrun (fun _ s => P s.speciesThread.shared ∧ Q s.rawThread.shared)
    ⟨hspecies, hraw⟩ ?_
  intro es s e s' _ h hstep
  cases e with
  | rawHits a =>
    simp only [step, nextMain] at hstep
    cases hmain : s.main <;> simp only [hmain, reduceCtorEq] at hstep
    obtain ⟨m, -, rfl⟩ := Option.map_eq_some_iff.mp hstep
    exact h
  | rawHitsToWrite =>
    simp only [step, nextMain] at hstep
    cases hmain : s.main <;> simp only [hmain, reduceCtorEq] at hstep
    obtain ⟨m, hm, rfl⟩ := Option.map_eq_some_iff.mp hstep
    exact ⟨h.1, hnextRaw h.2 hm⟩
  | runAcqReturns =>
    simp only [step, nextMain] at hstep
    cases hmain : s.main <;> simp only [hmain, reduceCtorEq] at hstep
    obtain rfl := Option.some.inj hstep
    exact h
  | dpThread l =>
    simp only [step, nextDp] at hstep
    rw [Option.ite_none_left_eq_some] at hstep
    obtain ⟨-, hstep⟩ := hstep
    obtain ⟨m, -, hstep⟩ := Option.bind_eq_some_iff.mp hstep
    by_cases hworking : (l.ofConsumer && s.dpThread.thread.pc.working) = true
    · rw [if_pos hworking] at hstep
      obtain ⟨m', hm', rfl⟩ := Option.map_eq_some_iff.mp hstep
      simp only [process] at hm'
      split at hm'
      · obtain rfl := Option.some.inj hm'
        exact h
      · exact ⟨hnextSpecies h.1 hm', h.2⟩
    · rw [if_neg hworking] at hstep
      obtain rfl := Option.some.inj hstep
      exact h
  | speciesThread l =>
    simp only [step, nextSpecies] at hstep
    obtain ⟨-, m, hm, rfl⟩ := guarded_step.mp hstep
    exact ⟨hnextSpecies h.1 hm, h.2⟩
  | rawThread l =>
    simp only [step, nextRaw] at hstep
    obtain ⟨-, m, hm, rfl⟩ := guarded_step.mp hstep
    exact ⟨h.1, hnextRaw h.2 hm⟩

end Loop

/-! ### Comments and data -/

/-- A line of the header. -/
def isComment (l : Text) : Bool := l.head? = some '#'

/-- The lines of a text that are comments, and the others. -/
def comments (t : Text) : List Text := (lines t).filter isComment

def records (t : Text) : List Text := (lines t).filter fun l => !isComment l

/-- A file that begins with the header and goes on with data. -/
structure Described (header : Text) (f : OutFile) : Prop where
  header : f.header = header
  data : ∀ l ∈ f.dataLines, isComment l = false

/-- All files of a thread are described. -/
def OutFiles.Described (header : Text) (o : OutFiles) : Prop :=
  ∀ f ∈ o.files, Sprint3.Described header f

section Files

variable {header : Text} {f : OutFile} {o : OutFiles}

theorem OutFile.lines_text (f : OutFile) : lines f.text = lines f.header ++ f.dataLines := by
  rw [OutFile.text, lines_append f.header_ended, OutFile.dataLines_eq]

/-- A file falls apart into its header and its data. -/
theorem Described.split (h : Described header f) (hheader : ∀ l ∈ lines header, isComment l = true) :
    comments f.text = lines header ∧ records f.text = f.dataLines := by
  rw [comments, records, f.lines_text, h.header, List.filter_append, List.filter_append]
  have hcomments : (lines header).filter isComment = lines header :=
    List.filter_eq_self.mpr hheader
  have hnone : f.dataLines.filter isComment = [] :=
    List.filter_eq_nil_iff.mpr fun l hl => by simp [h.data l hl]
  have hheaderNone : (lines header).filter (fun l => !isComment l) = [] :=
    List.filter_eq_nil_iff.mpr fun l hl => by simp [hheader l hl]
  have hdata : f.dataLines.filter (fun l => !isComment l) = f.dataLines :=
    List.filter_eq_self.mpr fun l hl => by simp [h.data l hl]
  rw [hcomments, hnone, hheaderNone, hdata, List.append_nil, List.nil_append]
  exact ⟨rfl, rfl⟩

theorem Described.write (h : Described header f) {ls : List Text}
    (hls : ∀ l ∈ ls, isComment l = false ∧ '\n' ∉ l) : Described header (f.write ls) where
  header := h.header
  data l hl := by
    rw [OutFile.dataLines_write, lines_flatMap_line fun l hl => (hls l hl).2,
      List.mem_append] at hl
    rcases hl with hl | hl
    · exact h.data l hl
    · exact (hls l hl).1

theorem OutFiles.described_fresh (softMaxLines : ℕ) : (fresh softMaxLines).Described header := nofun

theorem OutFiles.Described.write (h : o.Described header) {ls : List Text}
    (hls : ∀ l ∈ ls, isComment l = false ∧ '\n' ∉ l) : (o.write ls).Described header := by
  intro f hf
  cases ho : o.outFile with
  | none =>
    refine h f ?_
    simpa [files, OutFiles.write, ho] using hf
  | some f' =>
    rw [files_write_open ho, List.mem_append, List.mem_singleton] at hf
    rcases hf with hf | rfl
    · exact h f (by rw [files_open ho]; exact List.mem_append_left _ hf)
    · exact (h f' (by rw [files_open ho]; simp)).write hls

theorem OutFiles.Described.close (h : o.Described header) : o.close.Described header := by
  intro f hf
  rw [files_close] at hf
  exact h f hf

/-- A file that is opened holds the header and nothing else. -/
theorem OutFiles.Described.check {E : Type*} {sm : StorageManager E}
    {filename storagePath : String} {softMaxLines : ℕ} (h : o.Described sm.header) :
    (sm.checkUpdateOutFile filename storagePath softMaxLines o).1.Described sm.header := by
  unfold StorageManager.checkUpdateOutFile
  by_cases hdue : o.count > softMaxLines
  · simp only [if_pos hdue]
    intro f hf
    rw [files, List.mem_append] at hf
    rcases hf with hf | hf
    · exact h f hf
    · simp only [StorageManager.nextOutFile] at hf
      split at hf
      · rw [Option.toList_some, List.mem_singleton] at hf
        rw [hf]
        refine ⟨rfl, fun l hl => ?_⟩
        rw [OutFile.dataLines_eq, lines_nil] at hl
        cases hl
      · cases hf
  · simp only [if_neg hdue]
    exact h

end Files

/-! ### Lines of hits -/

section Lines

theorem isComment_of_isDigit {c : Char} (hc : c.isDigit = true) (t : Text) :
    isComment (c :: t) = false := by
  have hne : c ≠ '#' := by
    rintro rfl
    cases hc
  simpa [isComment] using hne

theorem isComment_decimal (n : ℕ) (t : Text) : isComment (decimal n ++ t) = false := by
  obtain ⟨c, u, heq⟩ := List.exists_cons_of_ne_nil (decimal_ne_nil n)
  have hc : c.isDigit = true := isDigit_of_mem_decimal (n := n) (by simp [heq])
  rw [heq, List.cons_append]
  exact isComment_of_isDigit hc _

theorem isComment_rawLine (p : Px) : isComment (StorageManager.rawLine p) = false :=
  isComment_decimal _ _

variable {E : Type*} (sm : StorageManager E)

theorem isComment_loopLine (h : SpeciesHit E) : isComment (sm.loopLine h) = false :=
  isComment_decimal _ _

/-- The grade as a character is a control character. -/
theorem isComment_drainLine {h : SpeciesHit E} (hgrade : h.grade ≤ outlier) :
    isComment (sm.drainLine h) = false := by
  have hcode : h.grade.toNat ≤ 7 := UInt8.le_iff_toNat_le.mp hgrade
  have hne : Char.ofUInt8 h.grade ≠ '#' := by
    intro heq
    have hhash : h.grade.toNat = 35 := by
      rw [← toNat_ofUInt8, heq]
      rfl
    omega
  simpa [isComment, StorageManager.drainLine, StorageManager.speciesLine] using hne

end Lines

/-! ### The two threads -/

section Threads

variable {E : Type*} {sm : StorageManager E}

theorem described_writeRaw {header : Text} {d : RawData} (h : d.out.Described header) :
    d.write.out.Described header := by
  refine h.write ?_
  rw [List.forall_mem_map]
  exact fun p _ => ⟨isComment_rawLine p, newline_not_mem_rawLine p⟩

theorem raw_described : (Outline.always fun d : RawData => d.out.Described sm.header).Holds
    sm.handleRawHits RawData.receive where
  prepare h := by split <;> exact h.check
  take h := by split <;> exact h
  work h := described_writeRaw h
  lastPrepare h := h
  lastTake h := h
  lastWork {d} h := by
    have hcheck : (sm.checkRaw d).1.out.Described sm.header := OutFiles.Described.check h
    show (sm.handleRawHits.lastWork d).out.Described sm.header
    unfold handleRawHits
    simp only
    split
    · exact (described_writeRaw hcheck).close
    · exact hcheck
  produce {pc _ _} h := by
    rw [Outline.always_assertion] at h ⊢
    exact h

/-- The species files, and the hits that are still to be written. -/
def SpeciesDescribed (header : Text) (d : SpeciesData E) : Prop :=
  (∀ h ∈ d.q, h.grade ≤ outlier) ∧ d.out.Described header

variable [AddCommMonoid E] [LinearOrder E] {getEnergy : Px → E} {sort : ToaSort}

theorem species_described :
    (Outline.always fun d : SpeciesData E => SpeciesDescribed sm.header d).Holds
      sm.handleSpeciesHits (SpeciesData.process getEnergy sort) where
  prepare h := by split <;> exact ⟨h.1, h.2.check⟩
  take h := by
    refine ⟨nofun, h.2.write ?_⟩
    rw [List.forall_mem_map]
    exact fun hit _ => ⟨isComment_loopLine sm hit, sm.newline_not_mem_loopLine hit⟩
  work h := h
  lastPrepare h := by split <;> exact ⟨h.1, h.2.check⟩
  lastTake h := by
    refine ⟨nofun, h.2.write ?_⟩
    rw [List.forall_mem_map]
    exact fun hit hhit => ⟨isComment_drainLine sm (h.1 hit hhit),
      sm.newline_not_mem_drainLine (h.1 hit hhit)⟩
  lastWork h := ⟨h.1, h.2.close⟩
  produce {pc batch d} h := by
    rw [Outline.always_assertion] at h ⊢
    refine ⟨fun hit hhit => ?_, h.2⟩
    rw [SpeciesData.process, doProcessing_append, List.mem_append] at hhit
    rcases hhit with hhit | hhit
    · exact h.1 hit hhit
    · exact doProcessing_grade getEnergy sort batch hit hhit

/-- Every file of a run is described, whichever files could be opened. -/
theorem described_run {mem : Fin 4 → ℕ → Px} {es : List LoopStep} {s : Loop E}
    (hrun : run (Loop.step sm getEnergy sort) (.launched E mem) es = some s) :
    s.speciesThread.shared.out.Described sm.header ∧
      s.rawThread.shared.out.Described sm.header := by
  have hfiles := Loop.storage_run (P := SpeciesDescribed sm.header)
    (Q := fun d => d.out.Described sm.header) ⟨nofun, OutFiles.described_fresh _⟩
    (OutFiles.described_fresh _) (fun h hnext => always_next species_described h hnext)
    (fun h hnext => always_next raw_described h hnext) hrun
  exact ⟨hfiles.1.2, hfiles.2⟩

end Threads

/-! ### The header -/

/-- The description `genHeader` gives of a phase. -/
def Phase.description : Phase → String
  | phase1 => "PHASE_1"
  | phase2 => "PHASE_2"
  | phase4 => "PHASE_4"
  | phase8 => "PHASE_8"
  | phase16 => "PHASE_6"

def Freq.description : Freq → String
  | freq40 => "40 MHz"
  | freq80 => "80 MHz"
  | freq160 => "160 MHz"

/-- `pixel_config().words[i]`. -/
def Config.word (config : Config) (i : ℕ) : ℕ := ofBytes (slice config.pixelConfig (4 * i) 4)

/-- `duration_cast<seconds>` of a number of nanoseconds: what is behind the point is dropped. -/
def wholeSeconds (ns : ℚ) : ℤ := (ns / 10 ^ 9).num.tdiv (ns / 10 ^ 9).den

/-- The names of the DACs, each in front of its value. -/
def dacNames : List String :=
  ["#  - Ibias_Preamp_ON:    ", "#  - Ibias_Preamp_OFF:   ", "#  - VPReamp_NCAS:       ",
    "#  - Ibias_Ikrum:        ", "#  - Vfbk:               ", "#  - Vthreshold_fine:    ",
    "#  - Vthreshold_coarse:  ", "#  - Ibias_DiscS1_ON:    ", "#  - Ibias_DiscS1_OFF:   ",
    "#  - Ibias_DiscS2_ON:    ", "#  - Ibias_DiscS2_OFF:   ", "#  - Ibias_PixelDAC:     ",
    "#  - Ibias_TPbufferIn:   ", "#  - Ibias_TPbufferOut:  ", "#  - VTP_coarse:         ",
    "#  - VTP_fine:           ", "#  - Ibias_CP_PLL:       ", "#  - PLL_Vcntrl:         "]

/-- How a `float` is inserted: as some text within the line. -/
structure ShowFloat where
  show_ : UInt32 → Text
  line : ∀ b, '\n' ∉ show_ b

section Header

variable (showFloat : ShowFloat) (startTime : ℤ) (acqTime : ℚ) (config : Config)

/-- The lines of the settings in their order, each with what is inserted behind it. The time of
`config` is given in nanoseconds. -/
def headerSettings : List (String × Text) :=
  [("# Software: SPRINT3 ", "v0".toList),
    ("# Readout IP: ", "192.168.1.157".toList),
    ("# Chip ID: ", chipIdExpected),
    ("# Start of Acquisition (unix): ", toText startTime),
    ("#", []),
    ("# ------------ Acquisition Configuration ------------", []),
    ("# Acquisition Time:       ", toText (wholeSeconds acqTime) ++ ['s']),
    ("# No. of Frames:          ", toText config.noFrames.toInt),
    ("# Bias:                   ", showFloat.show_ config.bias ++ " V".toList),
    ("#", []),
    ("# Gray Coding:            ", (if config.grayDisable then "disabled" else "enabled").toList),
    ("# Polarity:               ",
      (if config.polarityHoles then "holes (h+)" else "electrons (e-)").toList),
    ("# Phase:                  ", config.phase.description.toList),
    ("# Clock Frequency:        ", config.freq.description.toList),
    ("#", []),
    ("# Pixel Configuration: ", decimal (config.word 0) ++ ' ' :: (decimal (config.word 1) ++
      " ... ".toList ++ (decimal (config.word 16382) ++ ' ' :: decimal (config.word 16383)))),
    ("#", []),
    ("# DACs:", [])]

/-- A line for each DAC. -/
def headerDacs : List (String × Text) :=
  dacNames.zip ((List.range 18).map fun i => decimal (config.dacs i).toNat)

/-- The lines that end the header. -/
def headerNotes : List String :=
  ["# ----  End Acquisition Configuration  ----",
    "#",
    "# raw format: x(int) y(int) toa(tics) tot(tics)",
    "# species format: grade(int) cluster_start_toa(tics) cluster_energy(keV)",
    "# NOTE: tics are since begining of acquisition; 1 tic = 1/Clk_Freq",
    "#----------------------------------------------------------------------------------------"]

def headerLines : List Text :=
  (headerSettings showFloat startTime acqTime config ++ headerDacs config).map
    (fun e => e.1.toList ++ e.2) ++ headerNotes.map String.toList

/-- `genHeader`: the lines inserted into the stream, each with its `std::endl`. -/
def StorageManager.genHeader {E : Type*} (sm : StorageManager E) : StorageManager E :=
  { sm with
    header := sm.header ++ (headerLines showFloat startTime acqTime config).flatMap line
    header_ended := sm.header_ended.append (ended_flatMap ended_line _) }

/-! ### Reading the header -/

theorem newline_not_mem_toText (i : ℤ) : '\n' ∉ toText i := by
  unfold toText
  split
  · simp [newline_not_mem_decimal]
  · exact newline_not_mem_decimal _

/-- A line that begins as a comment, and goes on with a value. -/
structure Entry (e : String × Text) : Prop where
  comment : isComment e.1.toList = true
  name : '\n' ∉ e.1.toList
  value : '\n' ∉ e.2

variable {showFloat startTime acqTime config}

theorem Entry.line {e : String × Text} (h : Entry e) :
    isComment (e.1.toList ++ e.2) = true ∧ '\n' ∉ e.1.toList ++ e.2 := by
  obtain ⟨hcomment, hname, hvalue⟩ := h
  refine ⟨?_, by simp [hname, hvalue]⟩
  simp only [isComment, decide_eq_true_eq] at hcomment ⊢
  obtain ⟨t, ht⟩ := List.head?_eq_some_iff.mp hcomment
  rw [ht]
  rfl

theorem entry_settings :
    ∀ e ∈ headerSettings showFloat startTime acqTime config, Entry e := by
  have hempty : '\n' ∉ ([] : Text) := List.not_mem_nil
  have htime : '\n' ∉ toText (wholeSeconds acqTime) ++ ['s'] := by
    simp [newline_not_mem_toText]
  have hbias : '\n' ∉ showFloat.show_ config.bias ++ " V".toList := by
    simp [showFloat.line]
  have hgray : '\n' ∉ (if config.grayDisable then "disabled" else "enabled").toList := by
    cases config.grayDisable <;> decide
  have hholes : '\n' ∉
      (if config.polarityHoles then "holes (h+)" else "electrons (e-)").toList := by
    cases config.polarityHoles <;> decide
  have hphase : '\n' ∉ config.phase.description.toList := by cases config.phase <;> decide
  have hfreq : '\n' ∉ config.freq.description.toList := by cases config.freq <;> decide
  have hwords : '\n' ∉ decimal (config.word 0) ++ ' ' :: (decimal (config.word 1) ++
      " ... ".toList ++ (decimal (config.word 16382) ++ ' ' :: decimal (config.word 16383))) := by
    simp [newline_not_mem_decimal]
  unfold headerSettings
  simp only [List.forall_mem_cons]
  refine ⟨⟨?_, ?_, by decide⟩, ⟨?_, ?_, by decide⟩, ⟨?_, ?_, by decide⟩,
    ⟨?_, ?_, newline_not_mem_toText _⟩, ⟨?_, ?_, hempty⟩, ⟨?_, ?_, hempty⟩, ⟨?_, ?_, htime⟩,
    ⟨?_, ?_, newline_not_mem_toText _⟩, ⟨?_, ?_, hbias⟩, ⟨?_, ?_, hempty⟩, ⟨?_, ?_, hgray⟩,
    ⟨?_, ?_, hholes⟩, ⟨?_, ?_, hphase⟩, ⟨?_, ?_, hfreq⟩, ⟨?_, ?_, hempty⟩, ⟨?_, ?_, hwords⟩,
    ⟨?_, ?_, hempty⟩, ⟨?_, ?_, hempty⟩, nofun⟩
  all_goals
    dsimp only
    decide

theorem entry_dacs : ∀ e ∈ headerDacs config, Entry e := by
  have hnames : ∀ name ∈ dacNames, isComment name.toList = true ∧ '\n' ∉ name.toList := by
    decide
  rintro ⟨name, value⟩ he
  obtain ⟨hname, hvalue⟩ := List.of_mem_zip he
  obtain ⟨i, -, rfl⟩ := List.mem_map.mp hvalue
  exact ⟨(hnames name hname).1, (hnames name hname).2, newline_not_mem_decimal _⟩

/-- Every line of the header is a comment. -/
theorem headerLines_comments : ∀ l ∈ headerLines showFloat startTime acqTime config,
    isComment l = true ∧ '\n' ∉ l := by
  have hnotes : ∀ note ∈ headerNotes, isComment note.toList = true ∧ '\n' ∉ note.toList := by
    decide
  intro l hl
  rw [headerLines, List.mem_append, List.mem_map, List.mem_map] at hl
  rcases hl with ⟨e, he, rfl⟩ | ⟨note, hnote, rfl⟩
  · rw [List.mem_append] at he
    rcases he with he | he
    · exact (entry_settings e he).line
    · exact (entry_dacs e he).line
  · exact hnotes note hnote

theorem lines_genHeader {E : Type*} {sm : StorageManager E} (hempty : sm.header = []) :
    lines (sm.genHeader showFloat startTime acqTime config).header =
      headerLines showFloat startTime acqTime config := by
  show lines (sm.header ++ (headerLines showFloat startTime acqTime config).flatMap line) = _
  rw [hempty, List.nil_append]
  exact lines_flatMap_line fun l hl => (headerLines_comments l hl).2

end Header

/-! ### What the header tells -/

theorem toText_inj {i j : ℤ} (h : toText i = toText j) : i = j := by
  have hsign : ∀ m n : ℕ, '-' :: decimal m ≠ decimal n := fun m n heq => by
    have hdigit : '-'.isDigit = true := isDigit_of_mem_decimal (n := n) (by simp [← heq])
    cases hdigit
  unfold toText at h
  by_cases hi : i < 0
  · by_cases hj : j < 0
    · rw [if_pos hi, if_pos hj] at h
      have habs := decimal_inj (List.cons.inj h).2
      omega
    · rw [if_pos hi, if_neg hj] at h
      exact absurd h (hsign _ _)
  · by_cases hj : j < 0
    · rw [if_neg hi, if_pos hj] at h
      exact absurd h.symm (hsign _ _)
    · rw [if_neg hi, if_neg hj] at h
      have habs := decimal_inj h
      omega

theorem Phase.description_inj {p q : Phase} (h : p.description.toList = q.description.toList) :
    p = q := by
  cases p <;> cases q <;> first | rfl | exact absurd h (by decide)

theorem Freq.description_inj {p q : Freq} (h : p.description.toList = q.description.toList) :
    p = q := by
  cases p <;> cases q <;> first | rfl | exact absurd h (by decide)

/-- Lines with the same names are the same exactly if the values are. -/
theorem map_entries_inj : ∀ {es es' : List (String × Text)},
    es.map Prod.fst = es'.map Prod.fst →
    (es.map (fun e => e.1.toList ++ e.2) = es'.map (fun e => e.1.toList ++ e.2) ↔
      es.map Prod.snd = es'.map Prod.snd)
  | [], [], _ => Iff.rfl
  | [], _ :: _, h => by cases h
  | _ :: _, [], h => by cases h
  | e :: es, e' :: es', h => by
    obtain ⟨hname, hnames⟩ := List.cons.inj h
    simp only [List.map_cons, List.cons.injEq, map_entries_inj hnames, hname,
      List.append_cancel_left_eq]

/-- Two acquisitions are alike in what the header shows. -/
structure SameHeader (showFloat : ShowFloat) (startTime startTime' : ℤ) (acqTime acqTime' : ℚ)
    (config config' : Config) : Prop where
  startTime : startTime = startTime'
  acqTime : wholeSeconds acqTime = wholeSeconds acqTime'
  noFrames : config.noFrames = config'.noFrames
  bias : showFloat.show_ config.bias = showFloat.show_ config'.bias
  grayDisable : config.grayDisable = config'.grayDisable
  polarityHoles : config.polarityHoles = config'.polarityHoles
  phase : config.phase = config'.phase
  freq : config.freq = config'.freq
  words : ∀ i ∈ [0, 1, 16382, 16383], config.word i = config'.word i
  dacs : ∀ i < 18, config.dacs i = config'.dacs i

section Same

variable {showFloat : ShowFloat} {startTime startTime' : ℤ} {acqTime acqTime' : ℚ}
  {config config' : Config}

theorem headerSettings_names :
    (headerSettings showFloat startTime acqTime config).map Prod.fst =
      (headerSettings showFloat startTime' acqTime' config').map Prod.fst := rfl

theorem headerDacs_fst : (headerDacs config).map Prod.fst = dacNames := rfl

theorem headerDacs_snd : (headerDacs config).map Prod.snd =
    (List.range 18).map fun i => decimal (config.dacs i).toNat := rfl

theorem headerDacs_inj (h : (headerDacs config).map Prod.snd = (headerDacs config').map Prod.snd) :
    ∀ i < 18, config.dacs i = config'.dacs i := by
  intro i hi
  rw [headerDacs_snd, headerDacs_snd, List.map_inj_left] at h
  exact UInt16.toNat_inj.mp (decimal_inj (h i (List.mem_range.mpr hi)))

/-- The values of the settings tell the settings. -/
theorem headerSettings_inj (h : (headerSettings showFloat startTime acqTime config).map Prod.snd =
      (headerSettings showFloat startTime' acqTime' config').map Prod.snd)
    (hdacs : ∀ i < 18, config.dacs i = config'.dacs i) :
    SameHeader showFloat startTime startTime' acqTime acqTime' config config' := by
  simp only [headerSettings, List.map_cons, List.map_nil, List.cons.injEq, true_and, and_true,
    List.append_cancel_right_eq] at h
  obtain ⟨htime, hacqTime, hnoFrames, hbias, hgray, hholes, hphase, hfreq, hwords⟩ := h
  have hdots : " ... ".toList = ' ' :: "... ".toList := by decide
  simp only [hdots, List.append_assoc, List.cons_append, decimal_sep_inj (show ' '.isDigit = false from rfl),
    List.append_cancel_left_eq] at hwords
  obtain ⟨hword0, hword1, hword2, hword3⟩ := hwords
  exact {
    startTime := toText_inj htime
    acqTime := toText_inj hacqTime
    noFrames := Int32.toInt_inj.mp (toText_inj hnoFrames)
    bias := hbias
    grayDisable := by
      cases ha : config.grayDisable <;> cases hb : config'.grayDisable <;>
        first | rfl | (rw [ha, hb] at hgray; exact absurd hgray (by decide))
    polarityHoles := by
      cases ha : config.polarityHoles <;> cases hb : config'.polarityHoles <;>
        first | rfl | (rw [ha, hb] at hholes; exact absurd hholes (by decide))
    phase := Phase.description_inj hphase
    freq := Freq.description_inj hfreq
    words := by
      simp only [List.forall_mem_cons]
      exact ⟨hword0, hword1, hword2, decimal_inj hword3, nofun⟩
    dacs := hdacs }

/-- The header tells its settings, and nothing else. -/
theorem headerLines_inj : headerLines showFloat startTime acqTime config =
      headerLines showFloat startTime' acqTime' config' ↔
    SameHeader showFloat startTime startTime' acqTime acqTime' config config' := by
  have hnames : (headerSettings showFloat startTime acqTime config ++ headerDacs config).map
      Prod.fst = (headerSettings showFloat startTime' acqTime' config' ++ headerDacs config').map
      Prod.fst := by
    rw [List.map_append, List.map_append, headerSettings_names, headerDacs_fst, headerDacs_fst]
  rw [headerLines, headerLines, List.append_cancel_right_eq, map_entries_inj hnames,
    List.map_append, List.map_append]
  constructor
  · intro h
    obtain ⟨hsettings, hdacs⟩ := List.append_inj h (by simp [headerSettings])
    exact headerSettings_inj hsettings (headerDacs_inj hdacs)
  · rintro ⟨rfl, hacqTime, hnoFrames, hbias, hgray, hholes, hphase, hfreq, hwords, hdacs⟩
    have hall : (headerDacs config).map Prod.snd = (headerDacs config').map Prod.snd := by
      rw [headerDacs_snd, headerDacs_snd, List.map_inj_left]
      intro i hi
      rw [hdacs i (List.mem_range.mp hi)]
    rw [hall, List.append_cancel_right_eq, headerSettings, headerSettings, hacqTime, hnoFrames,
      hbias, hgray, hholes, hphase, hfreq, hwords 0 (by decide), hwords 1 (by decide),
      hwords 16382 (by decide), hwords 16383 (by decide)]

end Same

/-! ### Every file of every run -/

section Runs

variable {E : Type*} [AddCommMonoid E] [LinearOrder E] {showFloat : ShowFloat}

/-- A file of a run falls apart into the header of the run and its data. -/
theorem described_comments {sm : StorageManager E} (hempty : sm.header = []) {startTime : ℤ}
    {acqTime : ℚ} {config : Config} {getEnergy : Px → E} {sort : ToaSort} {mem : Fin 4 → ℕ → Px}
    {es : List LoopStep} {s : Loop E}
    (hrun : run (Loop.step (sm.genHeader showFloat startTime acqTime config) getEnergy sort)
      (.launched E mem) es = some s) {f : OutFile}
    (hf : f ∈ s.speciesThread.shared.out.files ++ s.rawThread.shared.out.files) :
    comments f.text = headerLines showFloat startTime acqTime config ∧
      records f.text = f.dataLines := by
  obtain ⟨hspecies, hraw⟩ := described_run hrun
  have hdescribed : Described (sm.genHeader showFloat startTime acqTime config).header f := by
    rcases List.mem_append.mp hf with hf | hf
    · exact hspecies f hf
    · exact hraw f hf
  have hsplit := hdescribed.split fun l hl =>
    (headerLines_comments l (by rwa [lines_genHeader hempty] at hl)).1
  rwa [lines_genHeader hempty] at hsplit

/-- What is no comment in the files of a run is their data lines. -/
theorem records_run {sm : StorageManager E} (hempty : sm.header = []) {startTime : ℤ}
    {acqTime : ℚ} {config : Config} {getEnergy : Px → E} {sort : ToaSort} {mem : Fin 4 → ℕ → Px}
    {es : List LoopStep} {s : Loop E}
    (hrun : run (Loop.step (sm.genHeader showFloat startTime acqTime config) getEnergy sort)
      (.launched E mem) es = some s) :
    s.speciesThread.shared.out.files.flatMap (fun f => records f.text) =
        s.speciesThread.shared.out.dataLines ∧
      s.rawThread.shared.out.files.flatMap (fun f => records f.text) =
        s.rawThread.shared.out.dataLines :=
  ⟨List.flatMap_congr fun _ hf =>
      (described_comments hempty hrun (List.mem_append_left _ hf)).2,
    List.flatMap_congr fun _ hf =>
      (described_comments hempty hrun (List.mem_append_right _ hf)).2⟩

/-- `plain`, before it has a header. -/
def unheaded : StorageManager ℕ := { plain with header := [], header_ended := ended_nil }

/-- Some way to insert a `float`. -/
def showBits : ShowFloat := ⟨fun b => decimal b.toNat, fun _ => newline_not_mem_decimal _⟩

/-- The first check of `rawThread`. -/
def firstCheck : List LoopStep := .replicate 2 (.rawThread .consumer)

/-- After the first check a file is open. -/
theorem firstCheck_opens (startTime : ℤ) (acqTime : ℚ) (config : Config) :
    ∃ (s : Loop ℕ) (f : OutFile),
      run (Loop.step (unheaded.genHeader showBits startTime acqTime config) (fun p => p.tot.toNat)
        stableSort) (.launched ℕ fun _ => default) firstCheck = some s ∧
      f ∈ s.speciesThread.shared.out.files ++ s.rawThread.shared.out.files :=
  ⟨_, _, rfl, List.mem_singleton.mpr rfl⟩

/-- **The comments identify the setup.** The comments of every file of a run,
at any moment of the run and whichever files could be opened, are the header
lines of the run, and what is no comment in it is its data lines. So files of
two runs have the same comments exactly if the acquisitions started at the same
time and were set up alike in all that the header shows. -/
theorem comments_identify {sm sm' : StorageManager E} (hempty : sm.header = [])
    (hempty' : sm'.header = []) {startTime startTime' : ℤ} {acqTime acqTime' : ℚ}
    {config config' : Config} {getEnergy getEnergy' : Px → E} {sort sort' : ToaSort}
    {mem mem' : Fin 4 → ℕ → Px} {es es' : List LoopStep} {s s' : Loop E}
    (hrun : run (Loop.step (sm.genHeader showFloat startTime acqTime config) getEnergy sort)
      (.launched E mem) es = some s)
    (hrun' : run (Loop.step (sm'.genHeader showFloat startTime' acqTime' config') getEnergy' sort')
      (.launched E mem') es' = some s') {f f' : OutFile}
    (hf : f ∈ s.speciesThread.shared.out.files ++ s.rawThread.shared.out.files)
    (hf' : f' ∈ s'.speciesThread.shared.out.files ++ s'.rawThread.shared.out.files) :
    comments f.text = headerLines showFloat startTime acqTime config ∧
    comments f'.text = headerLines showFloat startTime' acqTime' config' ∧
    (comments f.text = comments f'.text ↔
      SameHeader showFloat startTime startTime' acqTime acqTime' config config') ∧
    records f.text = f.dataLines ∧ records f'.text = f'.dataLines := by
  obtain ⟨hcomments, hrecords⟩ := described_comments hempty hrun hf
  obtain ⟨hcomments', hrecords'⟩ := described_comments hempty' hrun' hf'
  refine ⟨hcomments, hcomments', ?_, hrecords, hrecords'⟩
  rw [hcomments, hcomments']
  exact headerLines_inj

/-- The same configuration, for a second more: the files tell. -/
theorem comments_identify_acqTime : ∃ (s s' : Loop ℕ) (f f' : OutFile),
    run (Loop.step (unheaded.genHeader showBits 100 (10 * 10 ^ 9) (loadConfig 10 fun _ => 0))
      (fun p => p.tot.toNat) stableSort) (.launched ℕ fun _ => default) firstCheck = some s ∧
    f ∈ s.speciesThread.shared.out.files ++ s.rawThread.shared.out.files ∧
    run (Loop.step (unheaded.genHeader showBits 100 (11 * 10 ^ 9) (loadConfig 11 fun _ => 0))
      (fun p => p.tot.toNat) stableSort) (.launched ℕ fun _ => default) firstCheck = some s' ∧
    f' ∈ s'.speciesThread.shared.out.files ++ s'.rawThread.shared.out.files ∧
    comments f.text ≠ comments f'.text := by
  obtain ⟨s, f, hrun, hf⟩ := firstCheck_opens 100 (10 * 10 ^ 9) (loadConfig 10 fun _ => 0)
  obtain ⟨s', f', hrun', hf'⟩ := firstCheck_opens 100 (11 * 10 ^ 9) (loadConfig 11 fun _ => 0)
  have hempty : unheaded.header = [] := rfl
  obtain ⟨-, -, hidentify, -⟩ := comments_identify hempty hempty hrun hrun' hf hf'
  have hdiffer : comments f.text ≠ comments f'.text := fun heq =>
    absurd (hidentify.mp heq).acqTime (by decide +kernel)
  exact ⟨s, s', f, f', hrun, hf, hrun', hf', hdiffer⟩

end Runs

end Sprint3
