/-
# One run of the superloop

`loop()` of `main.cpp` from the launch of the threads to its end: the calls of
`pixels_received` while `runAcq` reads the acquisition, and the destructors of
`DataProcessor` and `StorageManager`, which finish `dpThread`, `speciesThread`
and `rawThread` in this order. An atomic step is a section a mutex guards, or
lies between two of them. A blocked thread may wake up at any time: that
covers every `notify_one`.

Each thread finds its ledger balanced after every run (`balance_run`); it is
asked to stop only after those before it have ended, so nothing comes to a
buffer or queue any more (`loop_conserves`).
-/
import Sprint3.AcqController
import Sprint3.ProcessingLoop
import Sprint3.StorageLedgers

namespace Sprint3

open Monitor Run StorageManager

/-- Where the main thread is: ahead of a call of `pixels_received`, or between
its two sections, or in the destructors. -/
inductive Main
  | acquiring
  | received (a : PxArray)
  | destructors

def Main.inDestructors : Main → Bool
  | .destructors => true
  | _ => false

/-- The main thread, the three others, and the pixels accepted so far into the
two buffers. -/
structure Loop (E : Type*) where
  main : Main
  accepted : List Px
  acceptedToWrite : List Px
  dpThread : System DpData
  speciesThread : System (SpeciesData E)
  rawThread : System RawData

/-- The threads launched, the buffers and arrays in memory that holds anything. -/
def Loop.launched (E : Type*) (mem : Fin 4 → ℕ → Px) : Loop E where
  main := .acquiring
  accepted := []
  acceptedToWrite := []
  dpThread := .launched (.fresh (mem 0) (mem 1))
  speciesThread := .launched (.fresh E)
  rawThread := .launched (.fresh (mem 2) (mem 3))

/-- A section of `pixels_received`, the end of `runAcq`, or a step of, or of
`safe_finish` on, one of the threads. -/
inductive LoopStep
  | rawHits (a : PxArray)
  | rawHitsToWrite
  | runAcqReturns
  | dpThread (l : Label PxArray)
  | speciesThread (l : Label (List Px))
  | rawThread (l : Label PxArray)

/-- The two sections of `pixels_received` are what `AcqController` does. -/
theorem pixelsReceived_sections (c : AcqController) (a : PxArray) :
    (c.pixelsReceived a.px a.count).rawHitsBuff = a.addTo c.rawHitsBuff ∧
      (c.pixelsReceived a.px a.count).rawHitsToWriteBuff = a.addTo c.rawHitsToWriteBuff :=
  ⟨rfl, rfl⟩

variable {E : Type*} [AddCommMonoid E] [LinearOrder E]

namespace Loop

variable (sm : StorageManager E) (getEnergy : Px → E) (sort : ToaSort)

def nextMain (s : Loop E) : LoopStep → Option (Loop E)
  | .rawHits a =>
    match s.main with
    | .acquiring =>
      (next processingLoop DpData.receive s.dpThread (.produce a)).map fun m =>
        { s with
          main := .received a
          accepted := s.accepted ++ a.accepted s.dpThread.shared.rawHits.buff
          dpThread := m }
    | _ => none
  | .rawHitsToWrite =>
    match s.main with
    | .received a =>
      (next sm.handleRawHits RawData.receive s.rawThread (.produce a)).map fun m =>
        { s with
          main := .acquiring
          acceptedToWrite :=
            s.acceptedToWrite ++ a.accepted s.rawThread.shared.rawHitsToWrite.buff
          rawThread := m }
    | _ => none
  | .runAcqReturns =>
    match s.main with
    | .acquiring => some { s with main := .destructors }
    | _ => none
  | _ => none

/-- `doProcessing` on the batch in hand. It returns at once if that is empty,
and needs the mutex of `speciesHitsQ` otherwise. -/
def process (s : Loop E) : Option (System (SpeciesData E)) :=
  let hits := s.dpThread.shared.rawHits.hits
  if hits.length = 0 then some s.speciesThread
  else next sm.handleSpeciesHits (SpeciesData.process getEnergy sort) s.speciesThread (.produce hits)

/-- A step of `dpThread`; the main thread finishes it first. -/
def nextDp (s : Loop E) (l : Label PxArray) : Option (Loop E) :=
  if l.ofProducer = true ∨ l.ofFinisher = true ∧ s.main.inDestructors = false then none
  else
    (next processingLoop DpData.receive s.dpThread l).bind fun m =>
      if l.ofConsumer && s.dpThread.thread.pc.working then
        (s.process sm getEnergy sort).map fun m' => { s with dpThread := m, speciesThread := m' }
      else some { s with dpThread := m }

/-- A step of `speciesThread`; the main thread finishes it after `dpThread`. -/
def nextSpecies (s : Loop E) (l : Label (List Px)) : Option (Loop E) :=
  if l.ofProducer = true ∨ l.ofFinisher = true ∧ s.dpThread.finish ≠ .joined then none
  else
    (next sm.handleSpeciesHits (SpeciesData.process getEnergy sort) s.speciesThread l).map
      fun m => { s with speciesThread := m }

/-- A step of `rawThread`; the main thread finishes it last. -/
def nextRaw (s : Loop E) (l : Label PxArray) : Option (Loop E) :=
  if l.ofProducer = true ∨ l.ofFinisher = true ∧ s.speciesThread.finish ≠ .joined then none
  else
    (next sm.handleRawHits RawData.receive s.rawThread l).map fun m => { s with rawThread := m }

/-- A step of the program. -/
def step (s : Loop E) : LoopStep → Option (Loop E)
  | .dpThread l => s.nextDp sm getEnergy sort l
  | .speciesThread l => s.nextSpecies sm getEnergy sort l
  | .rawThread l => s.nextRaw sm l
  | e => s.nextMain sm e

/-! ### The balance -/

/-- The three ledgers are balanced, and each thread is finished after those
before it. -/
structure Balance (s : Loop E) : Prop where
  dp : Balanced dpLedger s.accepted s.dpThread
  species : Balanced (sm.speciesLedger getEnergy sort)
    (processBatches getEnergy sort [] s.dpThread.shared.batches) s.speciesThread
  raw : Balanced rawLedger s.acceptedToWrite s.rawThread
  dpRuns : s.main.inDestructors = false → s.dpThread.finish = .requestStop
  speciesRuns : s.dpThread.finish ≠ .joined → s.speciesThread.finish = .requestStop
  rawRuns : s.speciesThread.finish ≠ .joined → s.rawThread.finish = .requestStop

theorem balance_launched (mem : Fin 4 → ℕ → Px) :
    Balance sm getEnergy sort (.launched E mem) where
  dp := balanced_launched (SafeBuff.fresh_ok _) rfl rfl
  species := balanced_launched ⟨nofun, .inr (Nat.lt_succ_self _)⟩ .nil rfl
  raw := balanced_launched ⟨SafeBuff.fresh_ok _, .inr (Nat.lt_succ_self _)⟩ rfl rfl
  dpRuns _ := rfl
  speciesRuns _ := rfl
  rawRuns _ := rfl

/-- The batches handed to `doProcessing` after a step of `dpThread`. -/
theorem batches_next {m m' : System DpData} {l : Label PxArray}
    (h : next processingLoop DpData.receive m l = some m') :
    m'.shared.batches =
      if l.ofConsumer && m.thread.pc.working then m.shared.batches ++ [m.shared.rawHits.hits]
      else m.shared.batches := by
  cases stepped h with
  | consumer hstep =>
    unfold Consumer.step at hstep
    cases hpc : m.thread.pc <;> simp only [hpc, reduceCtorEq] at hstep
    case take =>
      obtain ⟨rfl, rfl⟩ := Prod.mk.inj (Option.some.inj hstep)
      simp only [processingLoop, Label.ofConsumer, Pc.working, Bool.and_false, Bool.false_eq_true,
        ↓reduceIte]
      split <;> rfl
    all_goals
      obtain ⟨rfl, rfl⟩ := Prod.mk.inj (Option.some.inj hstep)
      rfl
  | _ => rfl

/-- What a thread's step is guarded by, and what it leads to. -/
theorem guarded_step {α β : Type*} {p q : Prop} {fin fin' : Finish}
    [Decidable (p ∨ q ∧ fin ≠ fin')] {o : Option α} {f : α → β} {b : β} :
    (if p ∨ q ∧ fin ≠ fin' then none else o.map f) = some b ↔
      (¬p ∧ (q → fin = fin')) ∧ ∃ a, o = some a ∧ f a = b := by
  rw [Option.ite_none_left_eq_some, Option.map_eq_some_iff, not_or, not_and, not_not]

section Steps

variable {sm getEnergy sort} {s s' : Loop E} (hopens : ∀ path, sm.opens path = true)

/-- While it works, no thread after `dpThread` is asked to stop. -/
theorem Balance.speciesRunning (h : Balance sm getEnergy sort s)
    (hworking : s.dpThread.thread.pc.working = true) : s.speciesThread.finish = .requestStop := by
  refine h.speciesRuns fun hjoined => ?_
  rw [h.dp.orderly.joined hjoined] at hworking
  cases hworking

include hopens

/-- A batch handed over goes to the ledger of `speciesThread`. -/
theorem balance_process (h : Balance sm getEnergy sort s)
    (hworking : s.dpThread.thread.pc.working = true) {m : System (SpeciesData E)}
    (hm : s.process sm getEnergy sort = some m) :
    Balanced (sm.speciesLedger getEnergy sort) (processBatches getEnergy sort []
        (s.dpThread.shared.batches ++ [s.dpThread.shared.rawHits.hits])) m ∧
      m.finish = s.speciesThread.finish := by
  have hbatches : processBatches getEnergy sort []
        (s.dpThread.shared.batches ++ [s.dpThread.shared.rawHits.hits]) =
      processBatches getEnergy sort [] s.dpThread.shared.batches ++
        doProcessing getEnergy sort [] s.dpThread.shared.rawHits.hits :=
    calc processBatches getEnergy sort []
          (s.dpThread.shared.batches ++ [s.dpThread.shared.rawHits.hits])
        = doProcessing getEnergy sort (processBatches getEnergy sort [] s.dpThread.shared.batches)
            s.dpThread.shared.rawHits.hits := List.foldl_append
      _ = _ := doProcessing_append getEnergy sort _ _
  unfold process at hm
  simp only at hm
  split at hm
  case isTrue hempty =>
    obtain rfl := Option.some.inj hm
    rw [hbatches, doProcessing, if_pos hempty, List.append_nil]
    exact ⟨h.species, rfl⟩
  case isFalse =>
    rw [hbatches]
    exact ⟨balanced_produce (species_keeps sm hopens) h.species
      (h.species.orderly.running (h.speciesRunning hworking)) hm, finish_next hm rfl⟩

theorem balance_nextDp (h : Balance sm getEnergy sort s) {l : Label PxArray}
    (hstep : s.nextDp sm getEnergy sort l = some s') : Balance sm getEnergy sort s' := by
  unfold nextDp at hstep
  rw [Option.ite_none_left_eq_some] at hstep
  obtain ⟨hguard, hstep⟩ := hstep
  obtain ⟨m, hm, hstep⟩ := Option.bind_eq_some_iff.mp hstep
  push Not at hguard
  have hdp := balanced_next dp_keeps h.dp (by rintro e rfl; exact hguard.1 rfl) hm
  have hbatches := batches_next hm
  have hruns : s.main.inDestructors = false → m.finish = .requestStop := fun hmain =>
    (finish_next hm (by simpa using fun hl => hguard.2 hl hmain)).trans (h.dpRuns hmain)
  have hspecies : m.finish ≠ .joined → s.speciesThread.finish = .requestStop := fun hjoined =>
    h.speciesRuns fun hj => hjoined (joined_next hm hj)
  split at hstep
  case isTrue hworking =>
    obtain ⟨m', hm', rfl⟩ := Option.map_eq_some_iff.mp hstep
    rw [if_pos hworking] at hbatches
    obtain ⟨hbalanced, hfinish⟩ :=
      balance_process hopens h (Bool.and_eq_true_iff.mp hworking).2 hm'
    exact {
      dp := hdp
      species := hbatches ▸ hbalanced
      raw := h.raw
      dpRuns := hruns
      speciesRuns := fun hj => hfinish.trans (hspecies hj)
      rawRuns := fun hj => h.rawRuns (hfinish ▸ hj) }
  case isFalse hidle =>
    obtain rfl := Option.some.inj hstep
    rw [if_neg hidle] at hbatches
    exact {
      dp := hdp
      species := by rw [hbatches]; exact h.species
      raw := h.raw
      dpRuns := hruns
      speciesRuns := hspecies
      rawRuns := h.rawRuns }

theorem balance_nextSpecies (h : Balance sm getEnergy sort s) {l : Label (List Px)}
    (hstep : s.nextSpecies sm getEnergy sort l = some s') : Balance sm getEnergy sort s' := by
  unfold nextSpecies at hstep
  obtain ⟨hguard, m, hm, rfl⟩ := guarded_step.mp hstep
  exact {
    dp := h.dp
    species := balanced_next (species_keeps sm hopens) h.species
      (by rintro e rfl; exact hguard.1 rfl) hm
    raw := h.raw
    dpRuns := h.dpRuns
    speciesRuns := fun hj => (finish_next hm (by simpa using fun hl => hj (hguard.2 hl))).trans
      (h.speciesRuns hj)
    rawRuns := fun hj => h.rawRuns fun hj' => hj (joined_next hm hj') }

theorem balance_nextRaw (h : Balance sm getEnergy sort s) {l : Label PxArray}
    (hstep : s.nextRaw sm l = some s') : Balance sm getEnergy sort s' := by
  unfold nextRaw at hstep
  obtain ⟨hguard, m, hm, rfl⟩ := guarded_step.mp hstep
  exact { h with
    raw := balanced_next (raw_keeps sm hopens) h.raw (by rintro e rfl; exact hguard.1 rfl) hm
    rawRuns := fun hj => (finish_next hm (by simpa using fun hl => hj (hguard.2 hl))).trans
      (h.rawRuns hj) }

theorem balance_nextMain (h : Balance sm getEnergy sort s) {e : LoopStep}
    (hstep : s.nextMain sm e = some s') : Balance sm getEnergy sort s' := by
  cases e with
  | rawHits a =>
    simp only [nextMain] at hstep
    cases hmain : s.main <;> simp only [hmain, reduceCtorEq] at hstep
    obtain ⟨m, hm, rfl⟩ := Option.map_eq_some_iff.mp hstep
    have hruns := h.dpRuns (by rw [hmain]; rfl)
    have hfinish := (finish_next hm rfl).trans hruns
    exact {
      dp := balanced_produce dp_keeps h.dp (h.dp.orderly.running hruns) hm
      species := by
        rw [show m.shared.batches = _ from batches_next hm]
        exact h.species
      raw := h.raw
      dpRuns := fun _ => hfinish
      speciesRuns := fun _ => h.speciesRuns (by simp [hruns])
      rawRuns := h.rawRuns }
  | rawHitsToWrite =>
    simp only [nextMain] at hstep
    cases hmain : s.main <;> simp only [hmain, reduceCtorEq] at hstep
    obtain ⟨m, hm, rfl⟩ := Option.map_eq_some_iff.mp hstep
    have hruns := h.dpRuns (by rw [hmain]; rfl)
    have hraw := h.rawRuns (by simp [h.speciesRuns (by simp [hruns])])
    exact { h with
      raw := balanced_produce (raw_keeps sm hopens) h.raw (h.raw.orderly.running hraw) hm
      dpRuns := fun _ => hruns
      rawRuns := fun _ => (finish_next hm rfl).trans hraw }
  | runAcqReturns =>
    simp only [nextMain] at hstep
    cases hmain : s.main <;> simp only [hmain, reduceCtorEq] at hstep
    obtain rfl := Option.some.inj hstep
    exact { h with dpRuns := nofun }
  | dpThread l => cases hstep
  | speciesThread l => cases hstep
  | rawThread l => cases hstep

/-- Every run keeps the three ledgers balanced. -/
theorem balance_run {mem : Fin 4 → ℕ → Px} {es : List LoopStep}
    (hrun : run (step sm getEnergy sort) (.launched E mem) es = some s) :
    Balance sm getEnergy sort s := by
  refine run_invariant hrun (fun _ s => Balance sm getEnergy sort s)
    (balance_launched sm getEnergy sort mem) ?_
  intro es s e s' _ h hstep
  cases e with
  | dpThread l => exact balance_nextDp hopens h hstep
  | speciesThread l => exact balance_nextSpecies hopens h hstep
  | rawThread l => exact balance_nextRaw hopens h hstep
  | rawHits a => exact balance_nextMain (e := .rawHits a) hopens h hstep
  | rawHitsToWrite => exact balance_nextMain (e := .rawHitsToWrite) hopens h hstep
  | runAcqReturns => exact balance_nextMain (e := .runAcqReturns) hopens h hstep

end Steps

end Loop

/-- **No hit is lost.** When all destructors have run, the batches handed to
`doProcessing` are the pixels accepted into `rawHitsBuff`; the data lines of
the raw files, in file-number order, are the pixels accepted into
`rawHitsToWriteBuff`; and the species files hold one line for each species hit
that `doProcessing` makes of the batches, in order. -/
theorem loop_conserves (sm : StorageManager E) (hopens : ∀ path, sm.opens path = true)
    (getEnergy : Px → E) (sort : ToaSort) (mem : Fin 4 → ℕ → Px) {es : List LoopStep} {s : Loop E}
    (hrun : run (Loop.step sm getEnergy sort) (.launched E mem) es = some s)
    (hexit : s.rawThread.finish = .joined) :
    s.dpThread.shared.batches.flatten = s.accepted ∧
      s.rawThread.shared.out.dataLines = s.acceptedToWrite.map rawLine ∧
      List.Forall₂ sm.IsLine (processBatches getEnergy sort [] s.dpThread.shared.batches)
        s.speciesThread.shared.out.dataLines := by
  have h := Loop.balance_run hopens hrun
  have hspecies : s.speciesThread.finish = .joined := by
    by_contra hj
    simp [h.rawRuns hj] at hexit
  have hdp : s.dpThread.finish = .joined := by
    by_contra hj
    simp [h.speciesRuns hj] at hspecies
  exact ⟨h.dp.ended (h.dp.orderly.joined hdp), h.raw.ended (h.raw.orderly.joined hexit),
    h.species.ended (h.species.orderly.joined hspecies)⟩

/-- A call with one pixel. -/
def onePixel (toa : UInt64) : PxArray := ⟨fun _ => ⟨⟨3, 4⟩, toa, 0, 7⟩, 1, by decide⟩

/-- Two calls: the pixel of the first goes through the loops of `dpThread` and
`speciesThread`, that of the second through what comes after them. -/
def twoCalls : List LoopStep :=
  [.replicate 5 (.dpThread .consumer), .replicate 6 (.speciesThread .consumer),
    [.rawHits (onePixel 20), .rawHitsToWrite, .dpThread .wake],
    .replicate 3 (.dpThread .consumer), [.speciesThread .wake],
    .replicate 3 (.speciesThread .consumer), [.rawHits (onePixel 90), .rawHitsToWrite],
    [.runAcqReturns, .dpThread .requestStop, .dpThread .notifyAll],
    .replicate 5 (.dpThread .consumer),
    [.dpThread .join, .speciesThread .requestStop, .speciesThread .notifyAll],
    .replicate 5 (.speciesThread .consumer),
    [.speciesThread .join, .rawThread .requestStop, .rawThread .notifyAll],
    .replicate 5 (.rawThread .consumer), [.rawThread .join]].flatten

theorem loop_conserves_twoCalls :
    ∃ s, run (Loop.step StorageManager.plain (fun p => p.tot.toNat) stableSort)
        (.launched ℕ fun _ => default) twoCalls = some s ∧ s.rawThread.finish = .joined ∧
      s.dpThread.shared.batches.flatten = s.accepted ∧
      s.rawThread.shared.out.dataLines = s.acceptedToWrite.map rawLine ∧
      List.Forall₂ StorageManager.plain.IsLine
        (processBatches (fun p => p.tot.toNat) stableSort [] s.dpThread.shared.batches)
        s.speciesThread.shared.out.dataLines := by
  have hjoined : (run (Loop.step StorageManager.plain (fun p => p.tot.toNat) stableSort)
      (.launched ℕ fun _ => default) twoCalls).map (·.rawThread.finish) = some .joined := by
    decide +kernel
  obtain ⟨s, hrun, hexit⟩ := Option.map_eq_some_iff.mp hjoined
  exact ⟨s, hrun, hexit, loop_conserves StorageManager.plain (fun _ => rfl) (fun p => p.tot.toNat)
    stableSort (fun _ => default) hrun hexit⟩

end Sprint3
