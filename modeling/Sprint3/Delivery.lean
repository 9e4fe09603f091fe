/-
# Hits that are added and not processed

`pixels_received` adds hits to `rawHitsBuff` under its mutex, releases it, and
calls `notify_one`; `processingLoop` waits without a predicate and does not
look into the buffer first. So a call that notifies while the loop is
elsewhere may leave the loop blocked on a buffer with hits in it
(`delivery_lost`); `delivery` says exactly when none does. The two loops of
`StorageManager` look before they wait (`storage_heard`).
-/
import Sprint3.Lib.Notify
import Sprint3.ProcessingLoop
import Sprint3.StorageManager

namespace Sprint3

open Monitor Run

namespace DpData

def HasHits (d : DpData) : Prop := 0 < d.rawHits.buff.numElements

/-- `pixels_received` and `processingLoop`, step by step. -/
abbrev nextDelivery : Notified DpData → Act PxArray → Option (Notified DpData) :=
  nextAct processingLoop receive

end DpData

open DpData

/-- No state of a run has `dpThread` blocked in `cv_.wait` with hits in the
buffer and no call between `addElements` and `notify_one`. -/
def NeverUnheard (mem mem' : ℕ → Px) : Prop :=
  ∀ as n, run nextDelivery (.launched (.fresh mem mem')) as = some n → ¬ Unheard HasHits n

/-- **The law of the delivery.** All steps of a run are heard if and only if
no state of it, nor the one that `dpThread` takes it to next, has the thread
blocked on hits with no call left to wake it. -/
theorem delivery (mem mem' : ℕ → Px) {as : List (Act PxArray)} {n : Notified DpData}
    (hrun : run nextDelivery (.launched (.fresh mem mem')) as = some n) :
    AllHeard processingLoop receive HasHits (.fresh mem mem') as ↔
      ∀ as' n', as' <+: as ∨ as' = as ++ [.consumer] →
        run nextDelivery (.launched (.fresh mem mem')) as' = some n' → ¬ Unheard HasHits n' :=
  heard_iff hrun

/-- A call ends before the thread first waits. -/
def callBeforeWait : List (Act PxArray) :=
  [.add ⟨fun _ => ⟨⟨3, 4⟩, 20, 0, 7⟩, 1, one_inMemory⟩, .notifyOne] ++ List.replicate 5 .consumer

theorem delivery_lost : ¬ NeverUnheard default default :=
  fun h => h callBeforeWait _ rfl ⟨rfl, Nat.one_pos, rfl⟩

theorem delivery_callBeforeWait :
    ¬ AllHeard processingLoop receive HasHits (.fresh default default) callBeforeWait :=
  fun hheard => (delivery default default rfl).mp hheard callBeforeWait _
    (.inl (List.prefix_refl _)) rfl ⟨rfl, Nat.one_pos, rfl⟩

/-- The loops that wait with a predicate never decide to wait on something. -/
theorem storage_heard {E : Type*} (sm : StorageManager E) :
    (∀ n : Notified (StorageManager.SpeciesData E),
      Heard sm.handleSpeciesHits (fun d => 0 < d.q.length) n
        (.consumer : Act (List (SpeciesHit E)))) ∧
      ∀ n : Notified StorageManager.RawData,
        Heard sm.handleRawHits (fun d => 0 < d.rawHitsToWrite.buff.numElements) n
          (.consumer : Act PxArray) :=
  ⟨heard_of_pred rfl fun _ => decide_eq_true, heard_of_pred rfl fun _ => decide_eq_true⟩

end Sprint3
