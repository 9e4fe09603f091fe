/-
# Shutting the threads down

`safe_finish` asks a thread to stop, notifies it and joins it, and holds the
mutex in none of the three. Each of the three threads looks at its stop flag,
or at its predicate, and then waits, with the mutex held in between. A
notification in between is lost, and nothing else keeps the destructor from
returning: `shutdown` says when a run hangs, `shutdown_hangs` that each thread
can.
-/
import Sprint3.ProcessingLoop
import Sprint3.StorageManager

namespace Sprint3

open Monitor Run

section Laws

variable {σ ε : Type*} (c : Consumer σ) (produce : ε → σ → σ) (s : σ)

/-- No state of a run of the thread and of `safe_finish` on it hangs. -/
def NeverHangs : Prop :=
  ∀ (ls : List (Label ε)) (m : System σ), run (next c produce) (.launched s) ls = some m →
    Quiet ls → ¬ Hung m

/-- No state of a run hangs, nor does the state the thread goes to next, if
the notification never comes between the thread's decision to wait and its
waiting, and only then. -/
def HangsUnlessClear : Prop :=
  ∀ (ls : List (Label ε)) (m : System σ), run (next c produce) (.launched s) ls = some m →
    Quiet ls → (Clear c produce s ls ↔ ∀ ls' m', ls' <+: ls ∨ ls' = ls ++ [.consumer] →
      run (next c produce) (.launched s) ls' = some m' → ¬ Hung m')

end Laws

/-- **The law of `safe_finish`**, for each of the three threads. -/
theorem shutdown {E : Type*} (sm : StorageManager E) (mem mem' : ℕ → Px) :
    HangsUnlessClear processingLoop DpData.receive (.fresh mem mem') ∧
      HangsUnlessClear sm.handleSpeciesHits StorageManager.SpeciesData.enqueue (.fresh E) ∧
      HangsUnlessClear sm.handleRawHits StorageManager.RawData.receive (.fresh mem mem') :=
  ⟨fun _ _ => clear_iff, fun _ _ => clear_iff, fun _ _ => clear_iff⟩

/-- The thread takes `steps` steps, `safe_finish` requests the stop and
notifies, and the thread takes one more. -/
def notifiedAfter {ε : Type*} (steps : ℕ) : List (Label ε) :=
  List.replicate steps .consumer ++ [.requestStop, .notifyAll, .consumer]

theorem quiet_notifiedAfter {ε : Type*} (steps : ℕ) : Quiet (notifiedAfter steps : List (Label ε)) := by
  have hwake : Label.wake ∉ (notifiedAfter steps : List (Label ε)) := by
    simp [notifiedAfter, List.mem_replicate]
  intro pre post hls hmem
  exact hwake (by rw [hls]; simp [hmem])

/-- Each thread, its buffer or queue empty, can be notified too early. -/
theorem shutdown_hangs :
    ¬ NeverHangs processingLoop DpData.receive (.fresh default default) ∧
      ¬ NeverHangs StorageManager.plain.handleSpeciesHits StorageManager.SpeciesData.enqueue
        (.fresh ℕ) ∧
      ¬ NeverHangs StorageManager.plain.handleRawHits StorageManager.RawData.receive
        (.fresh default default) :=
  ⟨fun h => h (notifiedAfter 4) _ rfl (quiet_notifiedAfter 4) ⟨rfl, rfl⟩,
    fun h => h (notifiedAfter 5) _ rfl (quiet_notifiedAfter 5) ⟨rfl, rfl⟩,
    fun h => h (notifiedAfter 5) _ rfl (quiet_notifiedAfter 5) ⟨rfl, rfl⟩⟩

/-- The run in which the processing loop hangs is not clear. -/
theorem shutdown_example :
    ¬ Clear processingLoop DpData.receive (.fresh default default) (notifiedAfter 4) :=
  fun hclear => ((shutdown StorageManager.plain default default).1 (notifiedAfter 4) _ rfl
    (quiet_notifiedAfter 4)).mp hclear (notifiedAfter 4) _ (.inl (List.prefix_refl _)) rfl ⟨rfl, rfl⟩

end Sprint3
