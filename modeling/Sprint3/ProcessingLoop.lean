/-
# The processing loop

`DataProcessor::processingLoop`, as a consumer of `rawHitsBuff`: it takes
everything there is and hands it to `doProcessing`, batch by batch. It waits
without a predicate, and goes back to wait if it finds nothing.
-/
import Sprint3.Lib.Ledger
import Sprint3.Intake

namespace Sprint3

open Monitor

/-- `rawHitsBuff` with the variables of `processingLoop`, and the batches
handed to `doProcessing`. -/
structure DpData where
  rawHits : Intake
  batches : List (List Px)

namespace DpData

def fresh (mem mem' : ℕ → Px) : DpData := ⟨.fresh mem mem', []⟩

def receive (a : PxArray) (d : DpData) : DpData := { d with rawHits := d.rawHits.receive a }

/-- The call of `doProcessing`. -/
def process (d : DpData) : DpData := { d with batches := d.batches ++ [d.rawHits.hits] }

end DpData

def processingLoop : Consumer DpData where
  usesPred := false
  ready _ := false
  prepare d := (d, true)
  goesOn d := decide (d.rawHits.buff.numElements ≠ 0)
  take d :=
    if d.rawHits.buff.numElements = 0 then d else { d with rawHits := d.rawHits.copyClear }
  work d := d.process
  lastPrepare d := (d, true)
  lastTake d := { d with rawHits := d.rawHits.copyClear }
  lastWork d := d.process

/-! ### Its ledger -/

def dpLedger : Ledger DpData PxArray Px where
  ok d := d.rawHits.buff.Ok
  prepared _ := True
  lastPrepared _ := True
  done d hits := d.batches.flatten = hits
  inHand d := d.rawHits.hits
  left d := d.rawHits.buff.contents
  added a d := a.accepted d.rawHits.buff

theorem dp_copyClear {d : DpData} (hd : d.rawHits.buff.Ok) :
    dpLedger.Kept false d true { d with rawHits := d.rawHits.copyClear } := by
  refine ⟨Intake.copyClear_ok hd, ?_⟩
  rintro received ⟨hits, hdone, rfl⟩
  refine ⟨hits, hdone, ?_⟩
  simp [dpLedger, Intake.copyClear_hits hd, Intake.copyClear_contents hd]

theorem dp_process (d : DpData) (received : List Px) (h : dpLedger.Account true d received) :
    dpLedger.Account false d.process received := by
  obtain ⟨hits, hdone, rfl⟩ := h
  obtain rfl : d.batches.flatten = hits := hdone
  exact ⟨_, rfl, by simp [DpData.process, dpLedger]⟩

theorem dp_keeps : dpLedger.Keeps processingLoop DpData.receive where
  prepare hok := ⟨⟨hok, fun _ h => h⟩, rfl, trivial⟩
  take {d} hok _ := by
    refine ⟨?_, trivial⟩
    by_cases hempty : d.rawHits.buff.numElements = 0
    · simp only [processingLoop, hempty, ↓reduceIte, ne_eq, not_true_eq_false, decide_false]
      exact ⟨hok, fun _ h => h⟩
    · simp only [processingLoop, hempty, ↓reduceIte, ne_eq, not_false_eq_true, decide_true]
      exact dp_copyClear hok
  work {d} hok _ := ⟨hok, dp_process d⟩
  lastPrepare hok := ⟨⟨hok, fun _ h => h⟩, rfl, trivial⟩
  lastTake hok _ := ⟨dp_copyClear hok, Intake.copyClear_contents hok⟩
  lastWork {d} _ hleft := ⟨hleft, dp_process d⟩
  produce {d a} hok := by
    refine ⟨a.addTo_ok hok, fun _ => trivial, fun _ => trivial, ?_⟩
    rintro working received ⟨hits, hdone, rfl⟩
    refine ⟨hits, hdone, ?_⟩
    simp only [dpLedger, DpData.receive, Intake.receive, a.addTo_contents hok, List.append_assoc]
    rfl

end Sprint3
