/-
# From the data socket to the files

The whole of `loop()` while it acquires: the main thread reads datagrams and
decodes them, and calls `pixels_received` with one array after the other; the
three other threads process and write what the calls have added to the two
buffers. `Pipeline` puts the read loop of the acquisition and the superloop
together: the call in hand is the oldest that has not returned.

When all threads have ended, the raw files read back as what the received
messages decode to, but for the pixels that the log tells of as discarded and
those the acquisition still buffered (`pipeline_raw`); and the energies of the
species files add up to those of the pixels behind them (`pipeline_energy`).

Key definitions: `Pipeline`, `Pipeline.step`, `Pipeline.Flows`.
-/
import Sprint3.AcquisitionEnd
import Sprint3.FileHeader

namespace Sprint3

open Bits Memory Monitor Run StorageManager Text
open Fifo (Kept kept_accepted)

/-! ### The program -/

/-- `discarded` of an `addElements`. -/
def PxArray.discarded (a : PxArray) (b : SafeBuff Px) : ℕ :=
  (b.addElements a.count a.px).discarded

/-- The pixels as an array in memory, if it holds them. -/
def arrayOf (px : List Px) : Option PxArray :=
  if h : pixelSize * px.length < 2 ^ 64 then some ⟨ofList px, px.length, h⟩ else none

/-- The read loop, whose context is the arrays it has called `pixels_received` with; how many of
these calls have returned; the threads; and how many elements of each buffer the log tells of as
discarded. -/
structure Pipeline (E : Type*) where
  reader : Reader (Unit × List (List Px))
  returned : ℕ
  loop : Loop E
  discarded : ℕ
  discardedToWrite : ℕ

/-- An iteration of the read loop, a section of the call in hand, the end of `runAcq`, or a step
of, or of `safe_finish` on, one of the other threads. -/
inductive PipelineStep
  | receive (e : Recv)
  | rawHits
  | rawHitsToWrite
  | runAcqReturns
  | dpThread (l : Label PxArray)
  | speciesThread (l : Label (List Px))
  | rawThread (l : Label PxArray)

namespace Pipeline

variable {E : Type*}

/-- The arrays of the calls so far. -/
def calls (s : Pipeline E) : List (List Px) := s.reader.acq.userCtx.2

/-- The call in hand. -/
def call (s : Pipeline E) : Option (List Px) := s.calls[s.returned]?

/-- The threads launched, and the acquisition of `runAcq` begun. -/
def start (E : Type*) (mem : Fin 4 → ℕ → Px) (mdBuffer : ℕ → UInt8) (pixelBuffer : ℕ → Px)
    (acqTimeSec : ℕ) (begin_ now : ℤ) : Pipeline E where
  reader := .start (runAcqAcquisition ((), []) mdBuffer pixelBuffer acqTimeSec begin_) now
  returned := 0
  loop := .launched E mem
  discarded := 0
  discardedToWrite := 0

variable [AddCommMonoid E] [LinearOrder E] (sm : StorageManager E) (getEnergy : Px → E)
  (sort : ToaSort)

/-- A step of another thread. -/
def stepLoop (s : Pipeline E) (e : LoopStep) : Option (Pipeline E) :=
  (s.loop.step sm getEnergy sort e).map fun loop => { s with loop := loop }

/-- A step of the program. The main thread does not read on before its call has returned. -/
def step (s : Pipeline E) : PipelineStep → Option (Pipeline E)
  | .receive e =>
    match s.loop.main, s.call with
    | .acquiring, none =>
      (readLoop (logged noHandlers) s.reader e).map fun reader => { s with reader := reader }
    | _, _ => none
  | .rawHits =>
    (s.call.bind arrayOf).bind fun a =>
      (s.loop.step sm getEnergy sort (.rawHits a)).map fun loop =>
        { s with
          loop := loop
          discarded := s.discarded + a.discarded s.loop.dpThread.shared.rawHits.buff }
  | .rawHitsToWrite =>
    match s.loop.main with
    | .received a =>
      (s.loop.step sm getEnergy sort .rawHitsToWrite).map fun loop =>
        { s with
          returned := s.returned + 1
          loop := loop
          discardedToWrite :=
            s.discardedToWrite + a.discarded s.loop.rawThread.shared.rawHitsToWrite.buff }
    | _ => none
  | .runAcqReturns =>
    if s.call = none ∧ s.reader.acq.state ≠ .running then s.stepLoop sm getEnergy sort .runAcqReturns
    else none
  | .dpThread l => s.stepLoop sm getEnergy sort (.dpThread l)
  | .speciesThread l => s.stepLoop sm getEnergy sort (.speciesThread l)
  | .rawThread l => s.stepLoop sm getEnergy sort (.rawThread l)

/-- The receives of a run. -/
def receive? : PipelineStep → Option Recv
  | .receive e => some e
  | _ => none

def receives (es : List PipelineStep) : List Recv := es.filterMap receive?

end Pipeline

/-! ### What a call keeps -/

section Calls

theorem arrayOf_eq_some {px : List Px} {a : PxArray} (h : arrayOf px = some a) :
    slice a.px 0 a.count = px := by
  unfold arrayOf at h
  split at h
  · obtain rfl := Option.some.inj h
    exact slice_ofList px
  · cases h

/-- A section keeps the elements that fit, and the log tells how many did not. -/
theorem PxArray.kept (a : PxArray) {b : SafeBuff Px} (hb : b.Ok) :
    Kept (slice a.px 0 a.count) (a.accepted b) (a.discarded b) := by
  have hkept : Kept (slice a.px 0 a.count)
      (Fifo.accepted maxBuffEl b.numElements (slice a.px 0 a.count)) _ :=
    kept_accepted b.numElements _
  rw [← SafeBuff.accepted_eq_take hb a.px a.inRange, slice_length] at hkept
  have hdiscarded : a.discarded b = a.count - (maxBuffEl - b.numElements) := by
    rw [discarded, SafeBuff.addElements_eq hb a.px a.inRange]
  rw [hdiscarded]
  exact hkept

/-- A message only adds calls. -/
theorem calls_message (acq : Acquisition (Unit × List (List Px))) (m : ℕ → UInt8) (i : ℕ) :
    acq.userCtx.2 <+:
      (handleMeasurementData (logged noHandlers) acq (load64 m i)).userCtx.2 := by
  have hflush : ∀ acq : Acquisition (Unit × List (List Px)),
      acq.userCtx.2 <+: (flushBuffer (logged noHandlers) acq).userCtx.2 := fun acq =>
    List.prefix_append _ _
  generalize hacq' : handleMeasurementData (logged noHandlers) acq (load64 m i) = acq'
  cases hacq' ▸ handled (logged noHandlers) acq m i with
  | pixel hdr =>
    unfold handlePixel
    by_cases hfull : acq.pixelBufferValid = acq.pixelBufferMaxValid
    · simp only [if_pos hfull]
      exact hflush acq
    · simp only [if_neg hfull]
      exact List.prefix_refl _
  | frameFinished hdr =>
    unfold handleCurrentFrameFinished
    simp only
    split <;> exact hflush acq
  | _ => exact List.prefix_refl _

/-- An iteration of the read loop only adds calls. -/
theorem calls_readLoop {r r' : Reader (Unit × List (List Px))} {e : Recv}
    (hdecode : r.acq.decodeData = true) (h : readLoop (logged noHandlers) r e = some r') :
    r.acq.userCtx.2 <+: r'.acq.userCtx.2 := by
  have hrun : run (readLoop (logged noHandlers)) r [e] = some r' := by simpa [run] using h
  exact messages_run (logged noHandlers) (P := fun _ acq => r.acq.userCtx.2 <+: acq.userCtx.2)
    (fun _ acq m i h => h.trans (calls_message acq m i)) (fun _ _ _ h => h)
    (fun _ _ h => h.trans (List.prefix_append _ _)) (fun _ _ _ h => h) (List.prefix_refl _)
    hdecode hrun

end Calls

/-! ### The steps of the superloop -/

namespace Loop

variable {E : Type*} [AddCommMonoid E] [LinearOrder E] {sm : StorageManager E}
  {getEnergy : Px → E} {sort : ToaSort} {s s' : Loop E}

theorem step_rawHits {a : PxArray} (h : s.step sm getEnergy sort (.rawHits a) = some s') :
    s.main = .acquiring ∧ s'.main = .received a ∧
      s'.accepted = s.accepted ++ a.accepted s.dpThread.shared.rawHits.buff ∧
      s'.acceptedToWrite = s.acceptedToWrite := by
  simp only [step, nextMain] at h
  cases hmain : s.main <;> simp only [hmain, reduceCtorEq] at h
  obtain ⟨m, -, rfl⟩ := Option.map_eq_some_iff.mp h
  exact ⟨rfl, rfl, rfl, rfl⟩

theorem step_rawHitsToWrite (h : s.step sm getEnergy sort .rawHitsToWrite = some s') :
    ∃ a, s.main = .received a ∧ s'.main = .acquiring ∧ s'.accepted = s.accepted ∧
      s'.acceptedToWrite =
        s.acceptedToWrite ++ a.accepted s.rawThread.shared.rawHitsToWrite.buff := by
  simp only [step, nextMain] at h
  cases hmain : s.main <;> simp only [hmain, reduceCtorEq] at h
  obtain ⟨m, -, rfl⟩ := Option.map_eq_some_iff.mp h
  exact ⟨_, rfl, rfl, rfl, rfl⟩

theorem step_runAcqReturns (h : s.step sm getEnergy sort .runAcqReturns = some s') :
    s.main = .acquiring ∧ s' = { s with main := .destructors } := by
  simp only [step, nextMain] at h
  cases hmain : s.main <;> simp only [hmain, reduceCtorEq] at h
  exact ⟨rfl, (Option.some.inj h).symm⟩

/-- What the main thread knows. -/
def known (s : Loop E) : Main × List Px × List Px := (s.main, s.accepted, s.acceptedToWrite)

/-- The other threads do not touch it. -/
theorem step_thread {e : LoopStep}
    (he : (∃ l, e = .dpThread l) ∨ (∃ l, e = .speciesThread l) ∨ ∃ l, e = .rawThread l)
    (h : s.step sm getEnergy sort e = some s') : s'.known = s.known := by
  rcases he with ⟨l, rfl⟩ | ⟨l, rfl⟩ | ⟨l, rfl⟩
  · simp only [step, nextDp] at h
    rw [Option.ite_none_left_eq_some] at h
    obtain ⟨-, h⟩ := h
    obtain ⟨m, -, h⟩ := Option.bind_eq_some_iff.mp h
    by_cases hworking : (l.ofConsumer && s.dpThread.thread.pc.working) = true
    · rw [if_pos hworking] at h
      obtain ⟨m', -, rfl⟩ := Option.map_eq_some_iff.mp h
      rfl
    · rw [if_neg hworking] at h
      obtain rfl := Option.some.inj h
      rfl
  · simp only [step, nextSpecies] at h
    obtain ⟨-, m, -, rfl⟩ := guarded_step.mp h
    rfl
  · simp only [step, nextRaw] at h
    obtain ⟨-, m, -, rfl⟩ := guarded_step.mp h
    rfl

/-- While the main thread acquires, both buffers are in order. -/
theorem Balance.buffs_ok (h : Balance sm getEnergy sort s)
    (hmain : s.main.inDestructors = false) :
    s.dpThread.shared.rawHits.buff.Ok ∧ s.rawThread.shared.rawHitsToWrite.buff.Ok := by
  have hdp := h.dpRuns hmain
  have hspecies := h.speciesRuns (by simp [hdp])
  have hraw := h.rawRuns (by simp [hspecies])
  exact ⟨h.dp.running_ok hdp, (h.raw.running_ok hraw).1⟩

/-- `rawThread` is finished last. -/
theorem Balance.joined (h : Balance sm getEnergy sort s) (hexit : s.rawThread.finish = .joined) :
    s.dpThread.finish = .joined ∧ s.speciesThread.finish = .joined := by
  have hspecies : s.speciesThread.finish = .joined := by
    by_contra hj
    simp [h.rawRuns hj] at hexit
  have hdp : s.dpThread.finish = .joined := by
    by_contra hj
    simp [h.speciesRuns hj] at hspecies
  exact ⟨hdp, hspecies⟩

end Loop

/-! ### What holds in every run -/

namespace Pipeline

variable {E : Type*}

/-- The calls whose first section is over. -/
def begun (s : Pipeline E) : ℕ :=
  match s.loop.main with
  | .received _ => s.returned + 1
  | _ => s.returned

section Calls

variable {s : Pipeline E}

/-- A call in hand is the oldest that has not returned. -/
theorem take_call {px : List Px} (hcall : s.call = some px) :
    s.calls.take (s.returned + 1) = s.calls.take s.returned ++ [px] := by
  rw [List.take_add_one]
  exact congrArg (s.calls.take s.returned ++ ·.toList) hcall

theorem take_all (hcall : s.call = none) : s.calls.take s.returned = s.calls :=
  List.take_of_length_le (List.getElem?_eq_none_iff.mp hcall)

theorem begun_of_main (hmain : ∀ a, s.loop.main ≠ .received a) : s.begun = s.returned := by
  unfold begun
  split
  · exact absurd ‹_› (hmain _)
  · rfl

end Calls

variable [AddCommMonoid E] [LinearOrder E] {sm : StorageManager E} {getEnergy : Px → E}
  {sort : ToaSort}

variable (sm getEnergy sort) in
/-- After a run: the read loop has read the run's receives; the superloop has made a run of its
own; and of the arrays of the calls, what the two buffers have accepted is what is not told of as
discarded. -/
structure Flows (mem : Fin 4 → ℕ → Px) (first : Reader (Unit × List (List Px)))
    (es : List PipelineStep) (s : Pipeline E) : Prop where
  reads : run (readLoop (logged noHandlers)) first (receives es) = some s.reader
  loops : ∃ ls, run (Loop.step sm getEnergy sort) (.launched E mem) ls = some s.loop
  returned_le : s.returned ≤ s.calls.length
  inHand : ∀ a, s.loop.main = .received a → s.call = some (slice a.px 0 a.count)
  kept : Kept (s.calls.take s.begun).flatten s.loop.accepted s.discarded
  keptToWrite : Kept (s.calls.take s.returned).flatten s.loop.acceptedToWrite s.discardedToWrite
  ended : s.loop.main.inDestructors = true → s.call = none

section Steps

variable {mem : Fin 4 → ℕ → Px} {first : Reader (Unit × List (List Px))}
  {es : List PipelineStep} {s s' : Pipeline E} (hflows : Flows sm getEnergy sort mem first es s)

theorem receives_concat (es : List PipelineStep) (e : PipelineStep) :
    receives (es ++ [e]) = receives es ++ (receive? e).toList := by
  rw [receives, List.filterMap_append]
  cases e <;> rfl

include hflows

/-- A step of the superloop that leaves the main thread where it is. -/
theorem flows_thread {e : PipelineStep} {e' : LoopStep} (he : receive? e = none)
    (he' : (∃ l, e' = .dpThread l) ∨ (∃ l, e' = .speciesThread l) ∨ ∃ l, e' = .rawThread l)
    (hstep : s.stepLoop sm getEnergy sort e' = some s') :
    Flows sm getEnergy sort mem first (es ++ [e]) s' := by
  unfold stepLoop at hstep
  obtain ⟨loop, hloop, rfl⟩ := Option.map_eq_some_iff.mp hstep
  have hknown := Loop.step_thread he' hloop
  simp only [Loop.known, Prod.mk.injEq] at hknown
  obtain ⟨hmain, haccepted, htoWrite⟩ := hknown
  obtain ⟨ls, hls⟩ := hflows.loops
  have hbegun : ({ s with loop := loop } : Pipeline E).begun = s.begun := by
    simp only [begun, hmain]
  exact {
    reads := by rw [receives_concat, he, Option.toList_none, List.append_nil]; exact hflows.reads
    loops := ⟨ls ++ [e'], run_concat.mpr ⟨_, hls, hloop⟩⟩
    returned_le := hflows.returned_le
    inHand := fun a ha => hflows.inHand a (hmain ▸ ha)
    kept := by
      rw [hbegun]
      show Kept _ loop.accepted _
      rw [haccepted]
      exact hflows.kept
    keptToWrite := by
      show Kept _ loop.acceptedToWrite _
      rw [htoWrite]
      exact hflows.keptToWrite
    ended := fun ha => hflows.ended (hmain ▸ ha) }

theorem flows_receive (hfirst : first.acq.decodeData = true) {e : Recv}
    (hstep : s.step sm getEnergy sort (.receive e) = some s') :
    Flows sm getEnergy sort mem first (es ++ [.receive e]) s' := by
  simp only [step] at hstep
  split at hstep
  case h_1 hmain hcall =>
    obtain ⟨reader, hread, rfl⟩ := Option.map_eq_some_iff.mp hstep
    have hdecode := (frame_run (logged noHandlers) hflows.reads).decodeData.trans hfirst
    have hcalls : s.calls <+: reader.acq.userCtx.2 := calls_readLoop hdecode hread
    have htake : reader.acq.userCtx.2.take s.returned = s.calls.take s.returned := by
      obtain ⟨more, hmore⟩ := hcalls
      rw [← hmore, List.take_append_of_le_length hflows.returned_le]
    have hbegun : ({ s with reader := reader } : Pipeline E).begun = s.returned :=
      begun_of_main fun a ha => by cases hmain.symm.trans ha
    have hbegun' : s.begun = s.returned := begun_of_main fun a ha => by cases hmain.symm.trans ha
    exact {
      reads := by
        rw [receives_concat]
        exact run_concat.mpr ⟨_, hflows.reads, hread⟩
      loops := hflows.loops
      returned_le := hflows.returned_le.trans hcalls.length_le
      inHand := fun a ha => by cases hmain.symm.trans ha
      kept := by
        rw [hbegun]
        show Kept (reader.acq.userCtx.2.take s.returned).flatten _ _
        rw [htake, ← hbegun']
        exact hflows.kept
      keptToWrite := by
        show Kept (reader.acq.userCtx.2.take s.returned).flatten _ _
        rw [htake]
        exact hflows.keptToWrite
      ended := fun ha => by
        rw [show s.loop.main = .acquiring from hmain] at ha
        cases ha }
  case h_2 => cases hstep

theorem flows_rawHits (hopens : ∀ path, sm.opens path = true)
    (hstep : s.step sm getEnergy sort .rawHits = some s') :
    Flows sm getEnergy sort mem first (es ++ [.rawHits]) s' := by
  simp only [step] at hstep
  obtain ⟨a, ha, hstep⟩ := Option.bind_eq_some_iff.mp hstep
  obtain ⟨px, hcall, harray⟩ := Option.bind_eq_some_iff.mp ha
  obtain ⟨loop, hloop, rfl⟩ := Option.map_eq_some_iff.mp hstep
  obtain ⟨hmain, hmain', haccepted, htoWrite⟩ := Loop.step_rawHits hloop
  obtain ⟨ls, hls⟩ := hflows.loops
  obtain ⟨hok, -⟩ := (Loop.balance_run hopens hls).buffs_ok (by rw [hmain]; rfl)
  have hpx := arrayOf_eq_some harray
  have hbegun : s.begun = s.returned := begun_of_main fun b hb => by cases hmain.symm.trans hb
  exact {
    reads := by
      rw [receives_concat]
      simpa [receive?] using hflows.reads
    loops := ⟨ls ++ [.rawHits a], run_concat.mpr ⟨_, hls, hloop⟩⟩
    returned_le := hflows.returned_le
    inHand := fun b hb => by
      obtain rfl := Main.received.inj (hmain'.symm.trans hb)
      rw [hpx]
      exact hcall
    kept := by
      have hnew : Kept [px].flatten (a.accepted s.loop.dpThread.shared.rawHits.buff)
          (a.discarded s.loop.dpThread.shared.rawHits.buff) := by
        have hkept := a.kept hok
        rwa [hpx, ← List.flatten_singleton (l := px)] at hkept
      have hkept := hflows.kept
      rw [hbegun] at hkept
      have hbegun' : ({ s with
          loop := loop
          discarded := s.discarded + a.discarded s.loop.dpThread.shared.rawHits.buff } :
          Pipeline E).begun = s.returned + 1 := by
        simp only [begun, hmain']
      rw [hbegun']
      show Kept (s.calls.take (s.returned + 1)).flatten loop.accepted _
      rw [take_call hcall, List.flatten_append, haccepted]
      exact hkept.append hnew
    keptToWrite := by
      show Kept _ loop.acceptedToWrite _
      rw [htoWrite]
      exact hflows.keptToWrite
    ended := fun hb => by
      rw [hmain'] at hb
      cases hb }

theorem flows_rawHitsToWrite (hopens : ∀ path, sm.opens path = true)
    (hstep : s.step sm getEnergy sort .rawHitsToWrite = some s') :
    Flows sm getEnergy sort mem first (es ++ [.rawHitsToWrite]) s' := by
  simp only [step] at hstep
  cases hmain : s.loop.main with
  | received a =>
    simp only [hmain] at hstep
    obtain ⟨loop, hloop, rfl⟩ := Option.map_eq_some_iff.mp hstep
    obtain ⟨b, hb, hmain', haccepted, htoWrite⟩ := Loop.step_rawHitsToWrite hloop
    obtain rfl := Main.received.inj (hmain.symm.trans hb)
    obtain ⟨ls, hls⟩ := hflows.loops
    obtain ⟨-, hok⟩ := (Loop.balance_run hopens hls).buffs_ok (by rw [hmain]; rfl)
    have hcall := hflows.inHand a hmain
    have hbegun : s.begun = s.returned + 1 := by simp only [begun, hmain]
    have hlt : s.returned < s.calls.length := (List.getElem?_eq_some_iff.mp hcall).1
    exact {
      reads := by
        rw [receives_concat]
        simpa [receive?] using hflows.reads
      loops := ⟨ls ++ [.rawHitsToWrite], run_concat.mpr ⟨_, hls, hloop⟩⟩
      returned_le := hlt
      inHand := fun b hb => by cases hmain'.symm.trans hb
      kept := by
        rw [begun_of_main fun b hb => by cases hmain'.symm.trans hb]
        show Kept (s.calls.take (s.returned + 1)).flatten loop.accepted _
        rw [haccepted, ← hbegun]
        exact hflows.kept
      keptToWrite := by
        show Kept (s.calls.take (s.returned + 1)).flatten loop.acceptedToWrite _
        rw [take_call hcall, List.flatten_append, List.flatten_singleton, htoWrite]
        exact hflows.keptToWrite.append (a.kept hok)
      ended := fun hb => by
        rw [hmain'] at hb
        cases hb }
  | acquiring => simp only [hmain, reduceCtorEq] at hstep
  | destructors => simp only [hmain, reduceCtorEq] at hstep

theorem flows_runAcqReturns (hstep : s.step sm getEnergy sort .runAcqReturns = some s') :
    Flows sm getEnergy sort mem first (es ++ [.runAcqReturns]) s' := by
  simp only [step, stepLoop] at hstep
  rw [Option.ite_none_right_eq_some] at hstep
  obtain ⟨⟨hcall, -⟩, hstep⟩ := hstep
  obtain ⟨loop, hloop, rfl⟩ := Option.map_eq_some_iff.mp hstep
  obtain ⟨hmain, hmain'⟩ := Loop.step_runAcqReturns hloop
  obtain ⟨ls, hls⟩ := hflows.loops
  have hbegun : s.begun = s.returned := begun_of_main fun b hb => by cases hmain.symm.trans hb
  exact {
    reads := by
      rw [receives_concat]
      simpa [receive?] using hflows.reads
    loops := ⟨ls ++ [.runAcqReturns], run_concat.mpr ⟨_, hls, hloop⟩⟩
    returned_le := hflows.returned_le
    inHand := fun b hb => by
      rw [hmain'] at hb
      cases hb
    kept := by
      have hbegun' : ({ s with loop := loop } : Pipeline E).begun = s.returned := by
        simp only [begun, hmain']
      have hkept := hflows.kept
      rw [hbegun] at hkept
      rw [hbegun', hmain']
      exact hkept
    keptToWrite := by
      rw [hmain']
      exact hflows.keptToWrite
    ended := fun _ => hcall }

/-- A step of the program. -/
theorem flows_step (hopens : ∀ path, sm.opens path = true) (hfirst : first.acq.decodeData = true)
    {e : PipelineStep} (hstep : s.step sm getEnergy sort e = some s') :
    Flows sm getEnergy sort mem first (es ++ [e]) s' := by
  cases e with
  | receive e => exact flows_receive hflows hfirst hstep
  | rawHits => exact flows_rawHits hflows hopens hstep
  | rawHitsToWrite => exact flows_rawHitsToWrite hflows hopens hstep
  | runAcqReturns => exact flows_runAcqReturns hflows hstep
  | dpThread l => exact flows_thread hflows rfl (.inl ⟨l, rfl⟩) hstep
  | speciesThread l => exact flows_thread hflows rfl (.inr (.inl ⟨l, rfl⟩)) hstep
  | rawThread l => exact flows_thread hflows rfl (.inr (.inr ⟨l, rfl⟩)) hstep

end Steps

/-- Every run keeps the flow. -/
theorem flows_run (hopens : ∀ path, sm.opens path = true) {mem : Fin 4 → ℕ → Px}
    {mdBuffer : ℕ → UInt8} {pixelBuffer : ℕ → Px} {acqTimeSec : ℕ} {begin_ now : ℤ}
    {es : List PipelineStep} {s : Pipeline E}
    (hrun : run (step sm getEnergy sort) (start E mem mdBuffer pixelBuffer acqTimeSec begin_ now)
      es = some s) :
    Flows sm getEnergy sort mem
      (.start (runAcqAcquisition ((), []) mdBuffer pixelBuffer acqTimeSec begin_) now) es s := by
  refine run_invariant hrun (fun es s => Flows sm getEnergy sort mem
    (.start (runAcqAcquisition ((), []) mdBuffer pixelBuffer acqTimeSec begin_) now) es s) ?_ ?_
  · exact {
      reads := rfl
      loops := ⟨[], rfl⟩
      returned_le := Nat.le_refl _
      inHand := nofun
      kept := Kept.nil
      keptToWrite := Kept.nil
      ended := nofun }
  · intro es s e s' _ hflows hstep
    exact flows_step hflows hopens rfl hstep

/-- When `rawThread` has been joined, all calls have returned. -/
theorem Flows.joined {mem : Fin 4 → ℕ → Px} {first : Reader (Unit × List (List Px))}
    {es : List PipelineStep} {s : Pipeline E} (hopens : ∀ path, sm.opens path = true)
    (h : Flows sm getEnergy sort mem first es s) (hexit : s.loop.rawThread.finish = .joined) :
    Kept s.calls.flatten s.loop.accepted s.discarded ∧
      Kept s.calls.flatten s.loop.acceptedToWrite s.discardedToWrite := by
  obtain ⟨ls, hls⟩ := h.loops
  have hbalance := Loop.balance_run hopens hls
  obtain ⟨hdp, -⟩ := hbalance.joined hexit
  have hmain : s.loop.main.inDestructors = true := by
    by_contra hmain
    simp [hbalance.dpRuns (Bool.not_eq_true _ ▸ hmain)] at hdp
  have hcall := h.ended hmain
  have hbegun : s.begun = s.returned := begun_of_main fun a ha => by
    rw [ha] at hmain
    cases hmain
  have hkept := h.kept
  have hkeptToWrite := h.keptToWrite
  rw [hbegun, take_all hcall] at hkept
  rw [take_all hcall] at hkeptToWrite
  exact ⟨hkept, hkeptToWrite⟩

/-- What the messages of a run decode to: the arrays of the calls, and what is still buffered. -/
theorem Flows.decoded {mem : Fin 4 → ℕ → Px} {mdBuffer : ℕ → UInt8} {pixelBuffer : ℕ → Px}
    {acqTimeSec : ℕ} {begin_ now : ℤ} {es : List PipelineStep} {s : Pipeline E}
    (h : Flows sm getEnergy sort mem
      (.start (runAcqAcquisition ((), []) mdBuffer pixelBuffer acqTimeSec begin_) now) es s) :
    refDecode 0 (streamMds mdBuffer (receives es)) =
      s.calls.flatten ++ slice s.reader.acq.pixelBuffer 0 s.reader.acq.pixelBufferValid := by
  have hroom : 0 < pixelSize * 65536 / pixelSize := by decide
  have hinv := decodeInv_run noHandlers hroom
    ⟨rfl, rfl, rfl, Nat.zero_le _, fun _ h => absurd h List.not_mem_nil, rfl, rfl⟩ h.reads
  exact hinv.pixels.symm

end Pipeline

/-! ### Raw lines -/

/-- The four numbers of a line of a raw file. -/
def readRaw (l : Text) : Option (ℕ × ℕ × ℕ × ℕ) :=
  match fields l with
  | [x, y, toa, tot] =>
    (readDecimal x).bind fun x => (readDecimal y).bind fun y => (readDecimal toa).bind fun toa =>
      (readDecimal tot).map fun tot => (x, y, toa, tot)
  | _ => none

/-- What a pixel is to read back as. -/
def ofPx (p : Px) : Option (ℕ × ℕ × ℕ × ℕ) :=
  some (p.coord.x.toNat, p.coord.y.toNat, p.toa.toNat, p.tot.toNat)

theorem readRaw_rawLine (p : Px) : readRaw (rawLine p) = ofPx p := by
  have hlast : fields (decimal p.tot.toNat) = [decimal p.tot.toNat] :=
    List.splitOn_eq_singleton (blank_not_mem_decimal _)
  rw [readRaw, rawLine, fields_cons (blank_not_mem_decimal _), fields_cons (blank_not_mem_decimal _),
    fields_cons (blank_not_mem_decimal _), hlast]
  simp only [readDecimal_decimal, Option.bind_some, Option.map_some]
  rfl

/-! ### The energy of a batch -/

section Energies

variable {E : Type*} [AddCommMonoid E] [LinearOrder E] (getEnergy : Px → E)

/-- The energy of the clusters closed so far and of the open one. -/
def Cluster.total (st : Cluster E × List (Closed E)) : E :=
  (st.2.map Closed.totEnergy).sum + st.1.totEnergy

/-- A hit adds its energy to the total, whichever cluster it comes to. -/
theorem total_clusterStep (workBuf : ℕ → Px) (st : Cluster E × List (Closed E)) (i : ℕ) :
    Cluster.total (clusterStep getEnergy workBuf st i) =
      Cluster.total st + getEnergy (workBuf i) := by
  unfold clusterStep
  by_cases hjoins : (workBuf i).toa < st.1.clustTOAMax
  · simp only [if_pos hjoins, Cluster.total, Cluster.join]
    exact (add_assoc _ _ _).symm
  · simp only [if_neg hjoins, Cluster.total, Cluster.start, Cluster.close, List.map_append,
      List.map_singleton, List.sum_append, List.sum_singleton]

theorem total_foldl (workBuf : ℕ → Px) : ∀ (n i : ℕ) (st : Cluster E × List (Closed E)),
    Cluster.total ((List.range' i n).foldl (clusterStep getEnergy workBuf) st) =
      Cluster.total st + ((slice workBuf i n).map getEnergy).sum
  | 0, _, _ => by simp
  | n + 1, i, st => by
    have hslice : slice workBuf i (n + 1) = workBuf i :: slice workBuf (i + 1) n := rfl
    rw [List.range'_succ, List.foldl_cons, total_foldl workBuf n (i + 1), total_clusterStep,
      hslice, List.map_cons, List.sum_cons, add_assoc]

/-- The clusters hold the energy of the hits. -/
theorem sum_clusters (workBuf : ℕ → Px) {n : ℕ} (hn : 0 < n) :
    ((clusters getEnergy workBuf n).map Closed.totEnergy).sum =
      ((slice workBuf 0 n).map getEnergy).sum := by
  obtain ⟨k, rfl⟩ := Nat.exists_eq_add_one.mpr hn
  have htotal := total_foldl getEnergy workBuf k 1 (Cluster.start getEnergy 0 (workBuf 0), [])
  have hstart : Cluster.total (Cluster.start getEnergy 0 (workBuf 0), []) =
      getEnergy (workBuf 0) := by
    simp [Cluster.total, Cluster.start]
  have hslice : slice workBuf 0 (k + 1) = workBuf 0 :: slice workBuf 1 k := rfl
  rw [hstart] at htotal
  rw [hslice, List.map_cons, List.sum_cons, ← htotal]
  simp only [clusters, Nat.add_sub_cancel, Cluster.total, List.map_append, List.map_singleton,
    List.sum_append, List.sum_singleton]
  rfl

/-- `doProcessing` neither loses nor makes up energy. -/
theorem sum_doProcessing (sort : ToaSort) (hits : List Px) :
    ((doProcessing getEnergy sort [] hits).map SpeciesHit.totalE).sum =
      (hits.map getEnergy).sum := by
  unfold doProcessing
  by_cases hempty : hits.length = 0
  · rw [if_pos hempty, List.length_eq_zero_iff.mp hempty]
    rfl
  · rw [if_neg hempty]
    simp only [List.nil_append, List.map_map]
    have htotal : SpeciesHit.totalE ∘ Closed.speciesHit (ofList (sort.run hits)) =
        (Closed.totEnergy : Closed E → E) := rfl
    rw [htotal, sum_clusters getEnergy _ (Nat.pos_of_ne_zero hempty)]
    have hrun : slice (ofList (sort.run hits)) 0 hits.length = sort.run hits := by
      rw [← ToaSort.length_run sort hits]
      exact slice_ofList _
    rw [hrun]
    exact ((sort.perm hits).map getEnergy).sum_eq

theorem sum_processBatches (sort : ToaSort) : ∀ (batches : List (List Px)) (q : List (SpeciesHit E)),
    ((processBatches getEnergy sort q batches).map SpeciesHit.totalE).sum =
      (q.map SpeciesHit.totalE).sum + (batches.flatten.map getEnergy).sum
  | [], q => by simp [processBatches]
  | batch :: batches, q => by
    have ih := sum_processBatches sort batches (doProcessing getEnergy sort q batch)
    calc ((processBatches getEnergy sort q (batch :: batches)).map SpeciesHit.totalE).sum
        = ((doProcessing getEnergy sort q batch).map SpeciesHit.totalE).sum +
            (batches.flatten.map getEnergy).sum := ih
      _ = (q.map SpeciesHit.totalE).sum + ((batch :: batches).flatten.map getEnergy).sum := by
          rw [doProcessing_append, List.map_append, List.sum_append, sum_doProcessing,
            List.flatten_cons, List.map_append, List.sum_append, add_assoc]

end Energies

/-! ### The whole way -/

section Whole

variable {E : Type*} [AddCommMonoid E] [LinearOrder E]

/-- **From the socket to the raw files.** When all threads of a run in which
every open succeeds have ended, what is no comment in the raw files, file after
file, reads back as pixels that the received messages decode to, in their
order. Missing are exactly as many as the log tells of as discarded, and those
that the acquisition still buffered; if none was discarded, those only. -/
theorem pipeline_raw {sm : StorageManager E} (hempty : sm.header = [])
    (hopens : ∀ path, sm.opens path = true) (showFloat : ShowFloat) (startTime : ℤ) (acqTime : ℚ)
    (config : Config) (getEnergy : Px → E) (sort : ToaSort) (mem : Fin 4 → ℕ → Px)
    (mdBuffer : ℕ → UInt8) (pixelBuffer : ℕ → Px) (acqTimeSec : ℕ) (begin_ now : ℤ)
    {es : List PipelineStep} {s : Pipeline E}
    (hrun : run (Pipeline.step (sm.genHeader showFloat startTime acqTime config) getEnergy sort)
      (.start E mem mdBuffer pixelBuffer acqTimeSec begin_ now) es = some s)
    (hexit : s.loop.rawThread.finish = .joined) :
    let decoded := refDecode 0 (streamMds mdBuffer (Pipeline.receives es))
    let buffered := slice s.reader.acq.pixelBuffer 0 s.reader.acq.pixelBufferValid
    ∃ written,
      (s.loop.rawThread.shared.out.files.flatMap fun f => records f.text).map readRaw =
        written.map ofPx ∧
      Kept decoded written (s.discardedToWrite + buffered.length) ∧
      (s.discardedToWrite = 0 → decoded = written ++ buffered) := by
  intro decoded buffered
  have hopens' : ∀ path, (sm.genHeader showFloat startTime acqTime config).opens path = true :=
    hopens
  have hflows := Pipeline.flows_run hopens' hrun
  have hdecoded : decoded = s.calls.flatten ++ buffered := hflows.decoded
  obtain ⟨-, hkept⟩ := hflows.joined hopens' hexit
  obtain ⟨ls, hls⟩ := hflows.loops
  have hraw := (Loop.balance_run hopens' hls).raw
  have hlines : s.loop.rawThread.shared.out.dataLines = s.loop.acceptedToWrite.map rawLine :=
    hraw.ended (hraw.orderly.joined hexit)
  refine ⟨s.loop.acceptedToWrite, ?_, ?_, fun hnone => ?_⟩
  · rw [(records_run hempty hls).2, hlines, List.map_map]
    exact List.map_congr_left fun p _ => readRaw_rawLine p
  · rw [hdecoded]
    have hbuffered : Kept buffered [] buffered.length := ⟨List.nil_sublist _, Nat.zero_add _⟩
    simpa using hkept.append hbuffered
  · rw [hnone] at hkept
    rw [hdecoded, hkept.all]

/-- **No energy is lost.** When all threads of a run in which every open
succeeds have ended, what is no comment in the species files is one line for
each of some species hits, and their energies add up to those of the pixels
accepted for processing: all that the received messages decode to, but for as
many as the log tells of as discarded and those the acquisition still buffered. -/
theorem pipeline_energy {sm : StorageManager E} (hempty : sm.header = [])
    (hopens : ∀ path, sm.opens path = true) (showFloat : ShowFloat) (startTime : ℤ) (acqTime : ℚ)
    (config : Config) (getEnergy : Px → E) (sort : ToaSort) (mem : Fin 4 → ℕ → Px)
    (mdBuffer : ℕ → UInt8) (pixelBuffer : ℕ → Px) (acqTimeSec : ℕ) (begin_ now : ℤ)
    {es : List PipelineStep} {s : Pipeline E}
    (hrun : run (Pipeline.step (sm.genHeader showFloat startTime acqTime config) getEnergy sort)
      (.start E mem mdBuffer pixelBuffer acqTimeSec begin_ now) es = some s)
    (hexit : s.loop.rawThread.finish = .joined) :
    let decoded := refDecode 0 (streamMds mdBuffer (Pipeline.receives es))
    let buffered := slice s.reader.acq.pixelBuffer 0 s.reader.acq.pixelBufferValid
    ∃ hits accepted,
      List.Forall₂ sm.IsLine hits
        (s.loop.speciesThread.shared.out.files.flatMap fun f => records f.text) ∧
      (hits.map SpeciesHit.totalE).sum = (accepted.map getEnergy).sum ∧
      Kept decoded accepted (s.discarded + buffered.length) ∧
      (s.discarded = 0 → decoded = accepted ++ buffered) := by
  intro decoded buffered
  have hopens' : ∀ path, (sm.genHeader showFloat startTime acqTime config).opens path = true :=
    hopens
  have hflows := Pipeline.flows_run hopens' hrun
  have hdecoded : decoded = s.calls.flatten ++ buffered := hflows.decoded
  obtain ⟨hkept, -⟩ := hflows.joined hopens' hexit
  obtain ⟨ls, hls⟩ := hflows.loops
  have hbalance := Loop.balance_run hopens' hls
  obtain ⟨hdp, hspecies⟩ := hbalance.joined hexit
  have hbatches : s.loop.dpThread.shared.batches.flatten = s.loop.accepted :=
    hbalance.dp.ended (hbalance.dp.orderly.joined hdp)
  have hlines : List.Forall₂ sm.IsLine
      (processBatches getEnergy sort [] s.loop.dpThread.shared.batches)
      s.loop.speciesThread.shared.out.dataLines :=
    hbalance.species.ended (hbalance.species.orderly.joined hspecies)
  refine ⟨processBatches getEnergy sort [] s.loop.dpThread.shared.batches, s.loop.accepted, ?_, ?_,
    ?_, fun hnone => ?_⟩
  · rw [(records_run hempty hls).1]
    exact hlines
  · rw [sum_processBatches, hbatches, List.map_nil, List.sum_nil, zero_add]
  · rw [hdecoded]
    have hbuffered : Kept buffered [] buffered.length := ⟨List.nil_sublist _, Nat.zero_add _⟩
    simpa using hkept.append hbuffered
  · rw [hnone] at hkept
    rw [hdecoded, hkept.all]

/-- A pixel and the end of its frame, and then the end of all threads. -/
def onePixelThenEnd : List PipelineStep :=
  [[.receive (.data (pixelMd.bytes ++ frameFinishedMd.bytes) 1), .rawHits, .rawHitsToWrite,
      .runAcqReturns, .dpThread .requestStop, .dpThread .notifyAll],
    .replicate 5 (.dpThread .consumer),
    [.dpThread .join, .speciesThread .requestStop, .speciesThread .notifyAll],
    .replicate 5 (.speciesThread .consumer),
    [.speciesThread .join, .rawThread .requestStop, .rawThread .notifyAll],
    .replicate 5 (.rawThread .consumer), [.rawThread .join]].flatten

/-- The program on it. -/
def runOnePixel : Option (Pipeline ℕ) :=
  run (Pipeline.step (unheaded.genHeader showBits 100 (10 * 10 ^ 9) (loadConfig 10 fun _ => 0))
    (fun p => p.tot.toNat) stableSort) (.start ℕ (fun _ => default) default default 10 0 0)
    onePixelThenEnd

theorem runOnePixel_joined : ∃ s, runOnePixel = some s ∧ s.loop.rawThread.finish = .joined ∧
    s.discarded = 0 ∧ s.discardedToWrite = 0 ∧ s.reader.acq.pixelBufferValid = 0 := by
  have hrun : runOnePixel.map (fun s => (s.loop.rawThread.finish, s.discarded, s.discardedToWrite,
      s.reader.acq.pixelBufferValid)) = some (.joined, 0, 0, 0) := by
    decide +kernel
  obtain ⟨s, hs, hvalues⟩ := Option.map_eq_some_iff.mp hrun
  simp only [Prod.mk.injEq] at hvalues
  exact ⟨s, hs, hvalues⟩

theorem decoded_onePixel : refDecode 0 (streamMds default (Pipeline.receives onePixelThenEnd)) =
    [⟨⟨10, 10⟩, 1, 0, 1⟩] := by
  decide +kernel

theorem pipeline_raw_onePixel : ∃ s : Pipeline ℕ, runOnePixel = some s ∧
    (s.loop.rawThread.shared.out.files.flatMap fun f => records f.text).map readRaw =
      [some (10, 10, 1, 1)] := by
  obtain ⟨s, hrun, hexit, -, hnone, hbuffered⟩ := runOnePixel_joined
  have hempty : unheaded.header = [] := rfl
  obtain ⟨written, hread, -, hall⟩ := pipeline_raw hempty (fun _ => rfl) showBits 100
    (10 * 10 ^ 9) (loadConfig 10 fun _ => 0) (fun p => p.tot.toNat) stableSort (fun _ => default)
    default default 10 0 0 hrun hexit
  have hwritten := hall hnone
  rw [decoded_onePixel, hbuffered, slice_zero, List.append_nil] at hwritten
  refine ⟨s, hrun, ?_⟩
  rw [hread, ← hwritten]
  rfl

theorem pipeline_energy_onePixel : ∃ (s : Pipeline ℕ) (hits : List (SpeciesHit ℕ)),
    runOnePixel = some s ∧
      List.Forall₂ unheaded.IsLine hits
        (s.loop.speciesThread.shared.out.files.flatMap fun f => records f.text) ∧
      (hits.map SpeciesHit.totalE).sum = 1 := by
  obtain ⟨s, hrun, hexit, hnone, -, hbuffered⟩ := runOnePixel_joined
  have hempty : unheaded.header = [] := rfl
  obtain ⟨hits, accepted, hlines, hsum, -, hall⟩ := pipeline_energy hempty (fun _ => rfl) showBits
    100 (10 * 10 ^ 9) (loadConfig 10 fun _ => 0) (fun p => p.tot.toNat) stableSort
    (fun _ => default) default default 10 0 0 hrun hexit
  have haccepted := hall hnone
  rw [decoded_onePixel, hbuffered, slice_zero, List.append_nil] at haccepted
  refine ⟨s, hits, hrun, hlines, ?_⟩
  rw [hsum, ← haccepted]
  rfl

end Whole

end Sprint3
