/-
# Hits that wait for their writer

`pixels_received` notifies `rawThread` only if its call leaves more than
`RAW_HIT_NOTIF_INC` hits in `rawHitsToWriteBuff`; `doProcessing` notifies
`speciesThread` behind every batch that is not empty. Both writers look before
they wait. So the raw files lag behind a writer that is blocked by a few hits
at most (`raw_hits_waiting`), and the species files not at all
(`species_hits_waiting`). A blocked writer is woken by a notification only.
-/
import Sprint3.Lib.Selective
import Sprint3.SpeciesFiles
import Sprint3.StorageLedgers

namespace Sprint3

open Memory Monitor Run StorageManager

/-! ### The raw hits -/

/-- `notifyRaw`, from what `addElements` returns. -/
def notifyRaw (a : PxArray) (d : RawData) : Bool :=
  decide ((d.rawHitsToWrite.buff.addElements a.count a.px).total > rawHitNotifInc)

/-- `rawThread`, and the calls of `pixels_received` with their second section
and its `notify_one`. -/
def StorageManager.nextRawCalls {E : Type*} (sm : StorageManager E) :
    Served RawData Px → Act PxArray → Option (Served RawData Px) :=
  nextServed sm.handleRawHits RawData.receive rawLedger.added notifyRaw

/-- A call that is not going to notify leaves few hits. -/
theorem few_of_not_notifyRaw {a : PxArray} {d : RawData} (h : notifyRaw a d = false) :
    (d.receive a).rawHitsToWrite.buff.numElements ≤ rawHitNotifInc :=
  Nat.le_of_not_lt (of_decide_eq_false h)

/-- Behind few hits, an array finds room unless it nearly fills the buffer itself. -/
theorem accepted_behind_few {b : SafeBuff Px} (hb : b.Ok) (hfew : b.numElements ≤ rawHitNotifInc)
    {a : PxArray} (ha : a.count + rawHitNotifInc ≤ maxBuffEl) :
    a.accepted b = slice a.px 0 a.count := by
  have hroom : a.count - (maxBuffEl - b.numElements) = 0 := by omega
  rw [PxArray.accepted, SafeBuff.addElements_eq hb a.px a.inRange, hroom, Nat.sub_zero]

/-- **What waits while the raw writer is blocked.** In a run of any calls in
which every file opens, whenever `rawThread` is blocked and no call is about to
notify it: the hits in the buffer are the last of those received, and no more
than `RAW_HIT_NOTIF_INC`; the hits before them are in the files, a line each;
and the next call discards nothing, unless it nearly fills the buffer itself. -/
theorem raw_hits_waiting {E : Type*} (sm : StorageManager E)
    (hopens : ∀ path, sm.opens path = true) (mem mem' : ℕ → Px) {as : List (Act PxArray)}
    {n : Served RawData Px}
    (hrun : run sm.nextRawCalls (.launched (.fresh mem mem')) as = some n)
    (hfinish : n.system.finish = .requestStop) (hasleep : n.system.thread.pc = .asleep)
    (hnone : n.inFlight = 0) :
    (∃ written, n.system.shared.out.dataLines = written.map rawLine ∧
      n.received = written ++ n.system.shared.rawHitsToWrite.buff.contents) ∧
    n.system.shared.rawHitsToWrite.buff.numElements ≤ rawHitNotifInc ∧
    ∀ a : PxArray, a.count + rawHitNotifInc ≤ maxBuffEl →
      a.accepted n.system.shared.rawHitsToWrite.buff = slice a.px 0 a.count := by
  have hok : rawLedger.ok (.fresh mem mem') :=
    ⟨SafeBuff.fresh_ok mem, .inr (Nat.lt_succ_self _)⟩
  have hbalanced := balanced_served (sm.raw_keeps hopens) hok rfl rfl hrun hfinish
  have hready : ∀ d, sm.handleRawHits.ready d = false →
      d.rawHitsToWrite.buff.numElements ≤ rawHitNotifInc := fun d hready => by
    have hnot : ¬ 0 < d.rawHitsToWrite.buff.numElements := of_decide_eq_false hready
    omega
  have hfew : n.system.shared.rawHitsToWrite.buff.numElements ≤ rawHitNotifInc :=
    blocked_content (fun d => d.rawHitsToWrite.buff.numElements ≤ rawHitNotifInc) rfl hready
      (fun _ _ _ => few_of_not_notifyRaw) hrun hasleep hnone
  refine ⟨?_, hfew, fun a => accepted_behind_few (hbalanced.running_ok hfinish).1 hfew⟩
  exact blocked_done (sm.raw_keeps hopens) hok rfl rfl hrun hfinish hasleep

/-- A call brings as many hits as need no notification, once the thread is blocked. -/
def unnotified : List (Act PxArray) :=
  .replicate 6 .consumer ++ [.add ⟨fun _ => ⟨⟨3, 4⟩, 20, 0, 7⟩, 1000, by decide⟩]

theorem raw_hits_waiting_unnotified :
    ∃ n, run plain.nextRawCalls (.launched (.fresh default default)) unnotified = some n ∧
      n.system.shared.rawHitsToWrite.buff.numElements = rawHitNotifInc ∧
      ∃ written, n.system.shared.out.dataLines = written.map rawLine ∧
        n.received = written ++ n.system.shared.rawHitsToWrite.buff.contents := by
  have hends : (run plain.nextRawCalls (.launched (.fresh default default)) unnotified).map
      (fun n => (n.system.finish, n.system.thread.pc, n.inFlight,
        n.system.shared.rawHitsToWrite.buff.numElements)) =
      some (.requestStop, .asleep, 0, rawHitNotifInc) := by
    decide +kernel
  obtain ⟨n, hrun, hend⟩ := Option.map_eq_some_iff.mp hends
  obtain ⟨hfinish, hasleep, hnone, hfew⟩ := by simpa only [Prod.mk.injEq] using hend
  exact ⟨n, hrun, hfew,
    (raw_hits_waiting plain (fun _ => rfl) default default hrun hfinish hasleep hnone).1⟩

/-! ### The species hits -/

section Species

variable {E : Type*} [AddCommMonoid E] [LinearOrder E] (sm : StorageManager E) (getEnergy : Px → E)
  (sort : ToaSort)

/-- `speciesThread`, and the calls of `doProcessing` with their section and
their `notify_one`. A call with an empty batch returns at once. -/
def StorageManager.nextSpeciesCalls :
    Served (SpeciesData E) (SpeciesHit E) → Act (List Px) →
      Option (Served (SpeciesData E) (SpeciesHit E)) :=
  nextServed sm.handleSpeciesHits (SpeciesData.process getEnergy sort)
    (fun batch _ => doProcessing getEnergy sort [] batch) fun batch _ => !batch.isEmpty

variable {getEnergy sort}

/-- The thread runs as it does on the hits of these calls. -/
theorem enqueued_calls {as : List (Act (List Px))} {n : Served (SpeciesData E) (SpeciesHit E)}
    (hrun : run (sm.nextSpeciesCalls getEnergy sort) (.launched (.fresh E)) as = some n) :
    ∃ ls, run (next sm.handleSpeciesHits SpeciesData.enqueue) (.launched (.fresh E)) ls =
      some n.system ∧ n.received = enqueued ls := by
  refine run_invariant hrun (fun _ n => ∃ ls, run (next sm.handleSpeciesHits SpeciesData.enqueue)
    (.launched (.fresh E)) ls = some n.system ∧ n.received = enqueued ls) ⟨[], rfl, rfl⟩ ?_
  rintro as n a n' - ⟨ls, hls, hreceived⟩ hnext
  have hother {m} (l : Label (List (SpeciesHit E))) (hl : enqueued [l] = [])
      (hm : next sm.handleSpeciesHits SpeciesData.enqueue n.system l = some m) :
      ∃ ls, run (next sm.handleSpeciesHits SpeciesData.enqueue) (.launched (.fresh E)) ls = some m ∧
        n.received = enqueued ls :=
    ⟨ls ++ [l], run_concat.mpr ⟨_, hls, hm⟩, by rw [enqueued_append, hl, List.append_nil, hreceived]⟩
  cases served_step hnext with
  | @add batch m hm =>
    refine ⟨ls ++ [.produce (doProcessing getEnergy sort [] batch)],
      run_concat.mpr ⟨_, hls, ?_⟩, ?_⟩
    · rw [← hm, next, next, SpeciesData.enqueue, SpeciesData.process,
        doProcessing_append getEnergy sort n.system.shared.q]
    · rw [enqueued_append, ← hreceived]
      exact congrArg (n.received ++ ·) (List.append_nil _).symm
  | @other a m hadd hm =>
    cases a with
    | add batch => exact absurd rfl (hadd batch)
    | notifyOne => exact hother .wake rfl hm
    | consumer => exact hother .consumer rfl hm
    | requestStop => exact hother .requestStop rfl hm
    | notifyAll => exact hother .notifyAll rfl hm
    | join => exact hother .join rfl hm

/-- **Nothing waits while the species writer is blocked.** In a run of any
calls of `doProcessing`, whenever `speciesThread` is blocked and no call is
about to notify it, the queue is empty, and the data lines of the files are
those of the species hits of these calls, in order. -/
theorem species_hits_waiting {as : List (Act (List Px))} {n : Served (SpeciesData E) (SpeciesHit E)}
    (hrun : run (sm.nextSpeciesCalls getEnergy sort) (.launched (.fresh E)) as = some n)
    (hasleep : n.system.thread.pc = .asleep) (hnone : n.inFlight = 0) :
    n.system.shared.q = [] ∧ n.system.shared.out.dataLines = n.received.map sm.loopLine := by
  have hready : ∀ d, sm.handleSpeciesHits.ready d = false → d.q = [] := fun d hready => by
    have hnot : ¬ 0 < d.q.length := of_decide_eq_false hready
    exact List.length_eq_zero_iff.mp (Nat.eq_zero_of_not_pos hnot)
  have hq : n.system.shared.q = [] := by
    refine blocked_content (fun d => d.q = []) rfl hready (fun batch d hd hquiet => ?_) hrun
      hasleep hnone
    have hbatch : batch = [] := by simpa using hquiet
    rw [hbatch]
    exact hd
  obtain ⟨ls, hls, hreceived⟩ := enqueued_calls sm hrun
  obtain ⟨looped, drained, htally⟩ := sm.tally_run hls
  obtain rfl : drained = [] := htally.undrained (by rw [hasleep]; rfl)
  have hlooped : looped = n.received := by
    rw [hreceived, htally.enqueued, hq, List.append_nil, List.append_nil]
  refine ⟨hq, ?_⟩
  rw [htally.written, hlooped]
  exact List.append_nil _

end Species

/-- A call of `doProcessing` once the thread is blocked, which wakes up, writes and blocks. -/
def oneBatch : List (Act (List Px)) :=
  .replicate 6 .consumer ++ [.add [⟨⟨3, 4⟩, 20, 0, 7⟩], .notifyOne] ++ .replicate 9 .consumer

theorem species_hits_waiting_oneBatch :
    ∃ n, run (plain.nextSpeciesCalls (fun p => p.tot.toNat) stableSort) (.launched (.fresh ℕ))
        oneBatch = some n ∧
      n.received.length = 1 ∧ n.system.shared.out.dataLines = n.received.map plain.loopLine := by
  have hends : (run (plain.nextSpeciesCalls (fun p => p.tot.toNat) stableSort)
      (.launched (.fresh ℕ)) oneBatch).map
      (fun n => (n.system.thread.pc, n.inFlight, n.received.length)) = some (.asleep, 0, 1) := by
    decide +kernel
  obtain ⟨n, hrun, hend⟩ := Option.map_eq_some_iff.mp hends
  obtain ⟨hasleep, hnone, hlength⟩ := by simpa only [Prod.mk.injEq] using hend
  exact ⟨n, hrun, hlength, (species_hits_waiting plain hrun hasleep hnone).2⟩

end Sprint3
