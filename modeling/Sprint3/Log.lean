/-
# The log

All threads of the program write to one file through a `Logger`. An entry is
put together and written in four steps under its mutex: the clock is read and
the entry formatted, the entry is inserted into the stream, then the end of
its line, then the stream is flushed. So the file is never torn, however the
threads are interleaved (`log_lines`): it is what the constructor writes and an
entry for each call, in the order in which the calls got the mutex, whole, with
times that go back only if the clock does. Only the entry of the thread that is
inside may be unfinished. The entries are the lines of the file unless a
message holds the end of a line itself.
-/
import Sprint3.FileHeader
import Sprint3.Lib.Mutex

namespace Sprint3

open Mutex Run Text

/-! ### `Logger` -/

inductive LogLevel
  | debug
  | info
  | warning
  | error
  | fatal
  deriving DecidableEq, Repr

/-- Every level is in `logLevelMsgMap`. -/
def getLogLevelMsg : LogLevel → Text
  | .debug => "[DEBUG]".toList
  | .info => "[INFO]".toList
  | .warning => "[WARNING]".toList
  | .error => "[ERROR]".toList
  | .fatal => "[FATAL]".toList

/-- A call of `log` or `logException`, the latter with the name of the exception's type and
its `what()`. -/
inductive LogCall
  | log (level : LogLevel) (msg : Text)
  | logException (level : LogLevel) (msg typeName what : Text)
  deriving DecidableEq, Repr

namespace LogCall

def level : LogCall → LogLevel
  | log level _ | logException level _ _ _ => level

/-- What stands between the quotes. -/
def message : LogCall → Text
  | log _ msg => msg
  | logException _ msg typeName what =>
    msg ++ ": type-[".toList ++ typeName ++ "] what-[".toList ++ what ++ "]".toList

def entry (c : LogCall) (now : ℤ) : Text :=
  toText now ++ ' ' :: (getLogLevelMsg c.level ++ ' ' :: '"' :: (c.message ++ ['"']))

end LogCall

/-- Where a call is, behind the mutex. -/
inductive LogPc
  | format (c : LogCall)
  | insert (entry : Text)
  | endl (entry : Text)
  | flush (entry : Text)
  deriving DecidableEq, Repr

/-- The body of `log` and `logException`, over the text of the file. Each step is taken at some
time, and the first one reads it. -/
def logSection : Section Text LogCall LogPc ℤ where
  enter := .format
  step
    | .format c, now, file => (some (.insert (c.entry now)), file)
    | .insert entry, _, file => (some (.endl entry), file ++ entry)
    | .endl entry, _, file => (some (.flush entry), file ++ ['\n'])
    | .flush _, _, file => (none, file)

def formatNote : Text := "# format is: timestamp [LogLevel] \"message\"".toList

def createdCall : LogCall := .log .info "logfile created".toList

/-- The file as the constructor leaves it. -/
def Logger.created (now : ℤ) : Text := line formatNote ++ line (createdCall.entry now)

/-! ### Entries -/

/-- The time, the level and the message of an entry. -/
def readEntry (l : Text) : Text × Text × Text :=
  let rest := (l.dropWhile (· ≠ ' ')).tail
  (l.takeWhile (· ≠ ' '), rest.takeWhile (· ≠ ' '),
    (rest.dropWhile (· ≠ ' ')).tail.tail.dropLast)

theorem blank_not_mem_toText (i : ℤ) : ' ' ∉ toText i := by
  unfold toText
  split
  · simp [blank_not_mem_decimal]
  · exact blank_not_mem_decimal _

theorem getLogLevelMsg_word (level : LogLevel) :
    ' ' ∉ getLogLevelMsg level ∧ '\n' ∉ getLogLevelMsg level := by
  cases level <;> decide

/-- A word in front of a blank. -/
theorem span_word {w : Text} (hw : ' ' ∉ w) (t : Text) :
    (w ++ ' ' :: t).takeWhile (· ≠ ' ') = w ∧ ((w ++ ' ' :: t).dropWhile (· ≠ ' ')).tail = t := by
  have hne : ∀ c ∈ w, decide (c ≠ ' ') = true := fun c hc =>
    decide_eq_true fun heq => hw (heq ▸ hc)
  rw [List.takeWhile_append_of_pos hne, List.dropWhile_append_of_pos hne]
  simp

theorem readEntry_entry (c : LogCall) (now : ℤ) :
    readEntry (c.entry now) = (toText now, getLogLevelMsg c.level, c.message) := by
  obtain ⟨htime, hrest⟩ := span_word (blank_not_mem_toText now)
    (getLogLevelMsg c.level ++ ' ' :: '"' :: (c.message ++ ['"']))
  obtain ⟨hlevel, hquoted⟩ := span_word (getLogLevelMsg_word c.level).1 ('"' :: (c.message ++ ['"']))
  rw [readEntry, LogCall.entry, htime, hrest, hlevel, hquoted, List.tail_cons,
    List.dropLast_concat]

theorem newline_not_mem_entry {c : LogCall} (hc : '\n' ∉ c.message) (now : ℤ) :
    '\n' ∉ c.entry now := by
  simp [LogCall.entry, newline_not_mem_toText, (getLogLevelMsg_word c.level).2, hc]

/-! ### The file -/

/-- The entry of a visit, with the time that its first step reads. -/
def entryOf {ι : Type*} (v : Visit ι LogCall ℤ) : Text := v.arg.entry (v.reads.headD 0)

/-- What a call has written. -/
def LogPc.written : LogPc → Text
  | format _ | insert _ => []
  | endl entry => entry
  | flush entry => line entry

/-- Where a visit is. -/
def LogPc.Of {ι : Type*} (v : Visit ι LogCall ℤ) : LogPc → Prop
  | format c => v.arg = c ∧ v.reads = []
  | insert entry | endl entry | flush entry => entry = entryOf v ∧ v.reads ≠ []

/-- The file holds the lines of the visits that are over, and what the last one has written. -/
def Logged {ι : Type*} (t₀ : ℤ) (vs : List (Visit ι LogCall ℤ)) (place : Option (ι × LogPc))
    (file : Text) : Prop :=
  match place with
  | none => file = Logger.created t₀ ++ vs.flatMap (fun v => line (entryOf v)) ∧
      ∀ v ∈ vs, v.reads ≠ []
  | some (_, pc) => ∃ ws v, vs = ws ++ [v] ∧ pc.Of v ∧ (∀ v ∈ ws, v.reads ≠ []) ∧
      file = Logger.created t₀ ++ ws.flatMap (fun v => line (entryOf v)) ++ pc.written

section Threads

variable {ι : Type*} {t₀ : ℤ}

/-- A visit keeps its time. -/
theorem entryOf_concat {reads : List ℤ} (h : reads ≠ []) (i : ι) (c : LogCall) (now : ℤ) :
    entryOf ⟨i, c, reads ++ [now]⟩ = entryOf ⟨i, c, reads⟩ := by
  obtain ⟨time, reads, rfl⟩ := List.exists_cons_of_ne_nil h
  rfl

/-- A step of the visit that is going on. -/
theorem Logged.step {vs : List (Visit ι LogCall ℤ)} {i : ι} {c : LogCall} {reads : List ℤ}
    {pc : LogPc} {file : Text} (now : ℤ)
    (h : Logged t₀ (vs ++ [⟨i, c, reads⟩]) (some (i, pc)) file) :
    Logged t₀ (vs ++ [⟨i, c, reads ++ [now]⟩])
      ((logSection.step pc now file).1.map fun pc => (i, pc)) (logSection.step pc now file).2 := by
  obtain ⟨ws, v, hvs, hof, hreads, hfile⟩ := h
  obtain ⟨rfl, hv⟩ := List.append_inj' hvs rfl
  obtain rfl := List.singleton_inj.mp hv
  cases pc with
  | format c' =>
    obtain ⟨rfl, rfl⟩ := hof
    exact ⟨vs, _, rfl, ⟨rfl, by simp⟩, hreads, hfile⟩
  | insert entry =>
    obtain ⟨rfl, hne⟩ := hof
    refine ⟨vs, _, rfl, ⟨(entryOf_concat hne i c now).symm, by simp⟩, hreads, ?_⟩
    rw [hfile, LogPc.written, List.append_nil]
    rfl
  | endl entry =>
    obtain ⟨rfl, hne⟩ := hof
    refine ⟨vs, _, rfl, ⟨(entryOf_concat hne i c now).symm, by simp⟩, hreads, ?_⟩
    rw [hfile]
    exact List.append_assoc _ _ _
  | flush entry =>
    obtain ⟨rfl, hne⟩ := hof
    refine ⟨?_, ?_⟩
    · rw [List.flatMap_append, ← List.append_assoc, List.flatMap_singleton,
        entryOf_concat hne i c now]
      exact hfile
    · intro v hv
      rcases List.mem_append.mp hv with hv | hv
      · exact hreads v hv
      · obtain rfl := List.mem_singleton.mp hv
        simp

theorem logged_serial {vs : List (Visit ι LogCall ℤ)} {place : Option (ι × LogPc)} {file : Text}
    (h : Serial logSection (Logger.created t₀) vs place file) : Logged t₀ vs place file := by
  induction h with
  | start => exact ⟨(List.append_nil _).symm, nofun⟩
  | lock i c _ ih =>
    obtain ⟨hfile, hreads⟩ := ih
    exact ⟨_, _, rfl, ⟨rfl, rfl⟩, hreads, hfile.trans (List.append_nil _).symm⟩
  | step now _ ih => exact ih.step now

/-- The file is whole entries, and perhaps that of the visit that is going on. -/
theorem Logged.whole {vs : List (Visit ι LogCall ℤ)} {place : Option (ι × LogPc)} {file : Text}
    (h : Logged t₀ vs place file) : ∃ ws rest part, vs = ws ++ rest ∧ rest.length ≤ 1 ∧
      (place = none → rest = []) ∧ (∀ w ∈ ws, w.reads ≠ []) ∧
      file = Logger.created t₀ ++ ws.flatMap (fun v => line (entryOf v)) ++ part ∧
      (part = [] ∨ ∃ v, rest = [v] ∧ part = entryOf v) := by
  rcases place with _ | ⟨i, pc⟩
  · obtain ⟨rfl, hreads⟩ := h
    exact ⟨vs, [], [], (List.append_nil vs).symm, Nat.zero_le 1, fun _ => rfl, hreads,
      (List.append_nil _).symm, .inl rfl⟩
  · obtain ⟨ws, v, rfl, hof, hreads, rfl⟩ := h
    cases pc with
    | format _ | insert _ =>
      exact ⟨ws, [v], [], rfl, le_rfl, nofun, hreads, rfl, .inl rfl⟩
    | endl entry =>
      obtain ⟨rfl, -⟩ := hof
      exact ⟨ws, [v], _, rfl, le_rfl, nofun, hreads, rfl, .inr ⟨v, rfl, rfl⟩⟩
    | flush entry =>
      obtain ⟨rfl, hne⟩ := hof
      refine ⟨ws ++ [v], [], [], (List.append_nil _).symm, Nat.zero_le 1, nofun, ?_, ?_, .inl rfl⟩
      · intro w hw
        rcases List.mem_append.mp hw with hw | hw
        · exact hreads w hw
        · obtain rfl := List.mem_singleton.mp hw
          exact hne
      · rw [List.flatMap_append, List.flatMap_singleton, List.append_nil, ← List.append_assoc]
        rfl

/-- The lines of a file that has gone on with these, and part of another. -/
theorem lines_created (t₀ : ℤ) {ls : List Text} (hls : ∀ l ∈ ls, '\n' ∉ l) {part : Text}
    (hpart : '\n' ∉ part) : lines (Logger.created t₀ ++ ls.flatMap line ++ part) =
      formatNote :: createdCall.entry t₀ :: ls := by
  have hwhole : Logger.created t₀ ++ ls.flatMap line =
      (formatNote :: createdCall.entry t₀ :: ls).flatMap line := by
    rw [List.flatMap_cons, List.flatMap_cons, Logger.created, List.append_assoc]
  have hnone : lines part = [] := by
    rw [lines, List.splitOn_eq_singleton hpart]
    rfl
  rw [hwhole, lines_append (ended_flatMap ended_line _), hnone, List.append_nil]
  refine lines_flatMap_line fun l hl => ?_
  rcases List.mem_cons.mp hl with rfl | hl
  · decide
  · rcases List.mem_cons.mp hl with rfl | hl
    · exact newline_not_mem_entry (by decide) t₀
    · exact hls l hl

/-- The times of the visits are read one after the other. -/
theorem times_sublist : ∀ (ws rest : List (Visit ι LogCall ℤ)), (∀ w ∈ ws, w.reads ≠ []) →
    (ws.map fun w => w.reads.headD 0).Sublist
      (((ws ++ rest).flatMap fun v => v.reads.map fun e => (v.thread, e)).map Prod.snd)
  | [], _, _ => List.nil_sublist _
  | w :: ws, rest, h => by
    obtain ⟨time, reads, hreads⟩ := List.exists_cons_of_ne_nil (h w List.mem_cons_self)
    have hrest := times_sublist ws rest fun w' hw' => h w' (List.mem_cons_of_mem w hw')
    rw [List.map_cons, List.cons_append, List.flatMap_cons, List.map_append, hreads]
    exact (hrest.trans (List.sublist_append_right _ _)).cons_cons time

variable [DecidableEq ι]

/-- **The log.** However the threads are interleaved, only the one that holds
the mutex is inside, and the file is what the constructor wrote and the entries
of the calls let in, in their order, whole but for one that is not over. Each
reads back as its call, and the times are times read from the clock, in their
order. Where no message holds the end of a line, the entries are the lines of
the file. -/
theorem log_lines {es : List (Label ι LogCall ℤ)} {m : System ι Text LogPc}
    (hrun : run (next logSection) (start (Logger.created t₀)) es = some m) :
    Exclusive m ∧ ∃ (written : List ((ι × LogCall) × ℤ)) (part : Text),
      written.map Prod.fst <+: calls es ∧ (calls es).length ≤ written.length + 1 ∧
      (m.owner = none → written.map Prod.fst = calls es) ∧
      (written.map Prod.snd).Sublist ((reads es).map Prod.snd) ∧
      m.shared =
        Logger.created t₀ ++ written.flatMap (fun w => line (w.1.2.entry w.2)) ++ part ∧
      (part = [] ∨ ∃ c now, calls es = written.map Prod.fst ++ [c] ∧ part = c.2.entry now) ∧
      written.map (fun w => readEntry (w.1.2.entry w.2)) =
        written.map (fun w => (toText w.2, getLogLevelMsg w.1.2.level, w.1.2.message)) ∧
      ((∀ c ∈ calls es, '\n' ∉ c.2.message) → lines m.shared =
        formatNote :: createdCall.entry t₀ :: written.map (fun w => w.1.2.entry w.2)) := by
  obtain ⟨hexclusive, vs, hserial, hcalls, hreads⟩ := run_serial hrun
  obtain ⟨ws, rest, part, rfl, hrest, hfree, hne, hfile, hpart⟩ := (logged_serial hserial).whole
  let written := ws.map fun w => ((w.thread, w.arg), w.reads.headD 0)
  have hcalled : written.map Prod.fst = ws.map fun w => (w.thread, w.arg) := List.map_map
  have hentries : written.flatMap (fun w => line (w.1.2.entry w.2)) =
      ws.flatMap (fun v => line (entryOf v)) := List.flatMap_map ..
  have hall : calls es = written.map Prod.fst ++ rest.map fun w => (w.thread, w.arg) := by
    rw [← hcalls, hcalled, List.map_append]
  have hlast : part = [] ∨ ∃ c now, calls es = written.map Prod.fst ++ [c] ∧
      part = c.2.entry now := by
    rcases hpart with rfl | ⟨v, rfl, rfl⟩
    · exact .inl rfl
    · exact .inr ⟨(v.thread, v.arg), v.reads.headD 0, hall, rfl⟩
  refine ⟨hexclusive, written, part, ?_, ?_, ?_, ?_, ?_, hlast, ?_, ?_⟩
  · rw [hall]
    exact List.prefix_append _ _
  · simp only [hall, List.length_append, List.length_map]
    exact Nat.add_le_add_left hrest _
  · intro howner
    rw [hall, hfree (visiting_eq_none howner), List.map_nil, List.append_nil]
  · rw [← hreads, List.map_map]
    exact times_sublist ws rest hne
  · rw [hfile, hentries]
  · exact List.map_congr_left fun w _ => readEntry_entry _ _
  · intro hline
    have hwritten : ∀ l ∈ written.map (fun w => w.1.2.entry w.2), '\n' ∉ l := by
      refine List.forall_mem_map.mpr fun w hw => newline_not_mem_entry (hline w.1 ?_) _
      rw [hall]
      exact List.mem_append_left _ (List.mem_map_of_mem hw)
    have hnone : '\n' ∉ part := by
      rcases hlast with rfl | ⟨c, now, hc, rfl⟩
      · exact List.not_mem_nil
      · refine newline_not_mem_entry (hline c ?_) now
        rw [hc]
        exact List.mem_append_right _ List.mem_cons_self
    have hlines := lines_created t₀ hwritten hnone
    rwa [List.flatMap_map, hentries, ← hfile] at hlines

end Threads

/-- Two threads, the second of which has not ended its line. -/
def twoThreads : List (Label Bool LogCall ℤ) :=
  [.lock true (.log .info "DataProcessor thread launched".toList), .step true 5, .step true 5,
    .step true 5, .step true 6, .lock false (.log .info "acq frame started".toList),
    .step false 6, .step false 7]

theorem log_lines_twoThreads : ∃ m : System Bool Text LogPc,
    run (next logSection) (start (Logger.created 5)) twoThreads = some m ∧
      ∃ written : List ((Bool × LogCall) × ℤ),
        written.map Prod.fst <+: calls twoThreads ∧ 2 ≤ written.length + 1 ∧
          lines m.shared =
            formatNote :: createdCall.entry 5 :: written.map (fun w => w.1.2.entry w.2) := by
  have hrun : run (next logSection) (start (Logger.created 5)) twoThreads = some _ := rfl
  obtain ⟨-, written, part, hprefix, hlength, -, -, -, -, -, hlines⟩ := log_lines hrun
  exact ⟨_, rfl, written, hprefix, hlength, hlines (by decide)⟩

end Sprint3
