/-
# Consumers of a guarded resource, and how they are stopped

A mutex and a condition variable guard a resource. A consumer takes from it in
a loop: it prepares, locks, and, unless it is asked to stop, waits (with a
predicate or without one), takes, unlocks and works on what it took. Asked to
stop, it takes once more and ends. Another thread finishes it: it sets the
stop flag, notifies, and joins; it does not hold the mutex in any of these.

A consumer that has decided to wait and does not wait yet misses the
notification. `clear_iff` says that this is the only way to wait for it
forever.
-/
import Sprint3.Lib.Run

namespace Monitor

open Run

/-! ### The consumer -/

/-- Where a consumer is: the step it takes next. -/
inductive Pc
  | head
  | prepare
  | lock
  | test
  | eval
  | sleep
  | asleep
  | woken
  | take
  | work
  | lastPrepare
  | lastLock
  | lastTake
  | lastWork
  | done
  deriving DecidableEq, Repr

/-- The consumer holds the mutex. -/
def Pc.holds : Pc → Bool
  | .test | .eval | .sleep | .take | .lastTake => true
  | _ => false

/-- A consumer has left its loop. -/
def Pc.last : Pc → Bool
  | .lastPrepare | .lastLock | .lastTake | .lastWork | .done => true
  | _ => false

/-- What a consumer does to the state `σ`, in its loop and after it. It gives
up if it cannot prepare, and goes back to the head of the loop from `take` if
it does not go on. -/
structure Consumer (σ : Type*) where
  /-- It waits with a predicate. -/
  usesPred : Bool
  /-- The predicate, apart from the stop flag. -/
  ready : σ → Bool
  prepare : σ → σ × Bool
  goesOn : σ → Bool
  take : σ → σ
  work : σ → σ
  lastPrepare : σ → σ × Bool
  lastTake : σ → σ
  lastWork : σ → σ

/-- A consumer's thread: where it is, and its stop flag. -/
structure Thread where
  pc : Pc
  stop : Bool
  deriving DecidableEq, Repr

namespace Thread

def launched : Thread := ⟨.head, false⟩

def requestStop (t : Thread) : Thread := { t with stop := true }

/-- A notification wakes a thread that is blocked, and no other. -/
def notify (t : Thread) : Thread := if t.pc = .asleep then { t with pc := .woken } else t

@[simp] theorem requestStop_stop (t : Thread) : t.requestStop.stop = true := rfl

@[simp] theorem notify_stop (t : Thread) : t.notify.stop = t.stop := by
  unfold notify
  split <;> rfl

theorem notify_pc (t : Thread) :
    t.notify.pc = .woken ∧ t.pc = .asleep ∨ t.notify.pc = t.pc ∧ t.pc ≠ .asleep := by
  unfold notify
  by_cases h : t.pc = .asleep
  · exact .inl ⟨by rw [if_pos h], h⟩
  · exact .inr ⟨by rw [if_neg h], h⟩

end Thread

variable {σ : Type*}

/-- The consumer's next step, if it is neither blocked nor at its end. -/
def Consumer.step (c : Consumer σ) (t : Thread) (s : σ) : Option (Pc × σ) :=
  match t.pc with
  | .head => some (if t.stop then .lastPrepare else .prepare, s)
  | .prepare => some (if (c.prepare s).2 then .lock else .done, (c.prepare s).1)
  | .lock => some (.test, s)
  | .test => some (if t.stop then .take else if c.usesPred then .eval else .sleep, s)
  | .eval => some (if t.stop || c.ready s then .take else .sleep, s)
  | .sleep => some (.asleep, s)
  | .asleep => none
  | .woken => some (if c.usesPred then .eval else .take, s)
  | .take => some (if c.goesOn s then .work else .head, c.take s)
  | .work => some (.head, c.work s)
  | .lastPrepare => some (if (c.lastPrepare s).2 then .lastLock else .done, (c.lastPrepare s).1)
  | .lastLock => some (.lastTake, s)
  | .lastTake => some (.lastWork, c.lastTake s)
  | .lastWork => some (.done, c.lastWork s)
  | .done => none

section Step

variable {c : Consumer σ} {t : Thread} {s s' : σ} {pc : Pc}

/-- A consumer decides to wait only if it is not asked to stop. -/
theorem step_sleep (h : c.step t s = some (pc, s')) (hpc : pc = .sleep) : t.stop = false := by
  subst hpc
  cases hstop : t.stop with
  | false => rfl
  | true =>
    unfold Consumer.step at h
    cases htpc : t.pc <;>
      simp only [htpc, hstop, Bool.true_or, ↓reduceIte, reduceCtorEq, Option.some.injEq,
        Prod.mk.injEq, false_and] at h
    all_goals
      obtain ⟨hpc, -⟩ := h
      split at hpc <;> cases hpc

/-- A consumer blocks only where it has decided to wait. -/
theorem step_asleep (h : c.step t s = some (pc, s')) (hpc : pc = .asleep) : t.pc = .sleep := by
  subst hpc
  unfold Consumer.step at h
  cases htpc : t.pc <;> simp only [htpc, reduceCtorEq, Option.some.injEq, Prod.mk.injEq] at h
  case sleep => rfl
  case test =>
    obtain ⟨hpc, -⟩ := h
    split at hpc
    · cases hpc
    · split at hpc <;> cases hpc
  all_goals
    obtain ⟨hpc, -⟩ := h
    first | cases hpc | (split at hpc <;> cases hpc)

end Step

/-! ### Finishing a consumer -/

/-- What the finisher does next. -/
inductive Finish
  | requestStop
  | notifyAll
  | join
  | joined
  deriving DecidableEq, Repr

/-- A consumer, its finisher, and what the mutex guards. -/
structure System (σ : Type*) where
  thread : Thread
  finish : Finish
  shared : σ

/-- A consumer just launched. -/
def System.launched (s : σ) : System σ := ⟨.launched, .requestStop, s⟩

/-- A step of the consumer, of a producer, or of the finisher; or the consumer
wakes up, notified by another or spuriously. -/
inductive Label (ε : Type*)
  | consumer
  | produce (e : ε)
  | wake
  | requestStop
  | notifyAll
  | join
  deriving DecidableEq

variable {ε : Type*}

def Label.ofConsumer : Label ε → Bool
  | .consumer => true
  | _ => false

def Label.ofProducer : Label ε → Bool
  | .produce _ => true
  | _ => false

def Label.ofFinisher : Label ε → Bool
  | .requestStop | .notifyAll | .join => true
  | _ => false

/-- The system's step. A producer needs the mutex. -/
def next (c : Consumer σ) (produce : ε → σ → σ) (m : System σ) : Label ε → Option (System σ)
  | .consumer => (c.step m.thread m.shared).map fun r =>
    { m with thread := { m.thread with pc := r.1 }, shared := r.2 }
  | .produce e => if m.thread.pc.holds then none else some { m with shared := produce e m.shared }
  | .wake => some { m with thread := m.thread.notify }
  | .requestStop =>
    if m.finish = .requestStop then
      some { m with thread := m.thread.requestStop, finish := .notifyAll }
    else none
  | .notifyAll =>
    if m.finish = .notifyAll then some { m with thread := m.thread.notify, finish := .join }
    else none
  | .join =>
    if m.finish = .join ∧ m.thread.pc = .done then some { m with finish := .joined } else none

/-- What a step does, by its label. -/
inductive Stepped (c : Consumer σ) (produce : ε → σ → σ) (m : System σ) :
    Label ε → System σ → Prop
  | consumer {pc s} (h : c.step m.thread m.shared = some (pc, s)) :
    Stepped c produce m .consumer ⟨⟨pc, m.thread.stop⟩, m.finish, s⟩
  | produce {e} (h : m.thread.pc.holds = false) :
    Stepped c produce m (.produce e) ⟨m.thread, m.finish, produce e m.shared⟩
  | wake : Stepped c produce m .wake ⟨m.thread.notify, m.finish, m.shared⟩
  | requestStop (h : m.finish = .requestStop) :
    Stepped c produce m .requestStop ⟨m.thread.requestStop, .notifyAll, m.shared⟩
  | notifyAll (h : m.finish = .notifyAll) :
    Stepped c produce m .notifyAll ⟨m.thread.notify, .join, m.shared⟩
  | join (h : m.finish = .join) (hdone : m.thread.pc = .done) :
    Stepped c produce m .join ⟨m.thread, .joined, m.shared⟩

section Next

variable {c : Consumer σ} {produce : ε → σ → σ} {m m' : System σ} {l : Label ε}

theorem stepped (h : next c produce m l = some m') : Stepped c produce m l m' := by
  cases l with
  | consumer =>
    obtain ⟨⟨pc, s⟩, hstep, rfl⟩ := Option.map_eq_some_iff.mp h
    exact .consumer hstep
  | produce e =>
    rw [next, Option.ite_none_left_eq_some] at h
    obtain ⟨hholds, h⟩ := h
    obtain rfl := Option.some.inj h
    exact .produce (Bool.not_eq_true _ ▸ hholds)
  | wake =>
    obtain rfl := Option.some.inj h
    exact .wake
  | requestStop =>
    obtain ⟨hf, h⟩ := Option.ite_none_right_eq_some.mp h
    obtain rfl := Option.some.inj h
    exact .requestStop hf
  | notifyAll =>
    obtain ⟨hf, h⟩ := Option.ite_none_right_eq_some.mp h
    obtain rfl := Option.some.inj h
    exact .notifyAll hf
  | join =>
    obtain ⟨⟨hf, hdone⟩, h⟩ := Option.ite_none_right_eq_some.mp h
    obtain rfl := Option.some.inj h
    exact .join hf hdone

theorem finish_next (h : next c produce m l = some m') (hl : l.ofFinisher = false) :
    m'.finish = m.finish := by
  cases stepped h <;> first | rfl | cases hl

theorem joined_next (h : next c produce m l = some m') (hj : m.finish = .joined) :
    m'.finish = .joined := by
  cases stepped h with
  | requestStop hf => simp [hj] at hf
  | notifyAll hf => simp [hj] at hf
  | join => rfl
  | _ => exact hj

/-- The stop flag is what the finisher has set, and a joined consumer has ended. -/
structure Orderly (m : System σ) : Prop where
  stop : m.thread.stop = true ↔ m.finish ≠ .requestStop
  joined : m.finish = .joined → m.thread.pc = .done

/-- A consumer whose finisher has not begun is not asked to stop. -/
theorem Orderly.running (h : Orderly m) (hf : m.finish = .requestStop) : m.thread.stop = false := by
  rw [← Bool.not_eq_true, h.stop]
  exact not_not_intro hf

theorem orderly_launched (s : σ) : Orderly (System.launched s) :=
  ⟨by simp [System.launched, Thread.launched], by simp [System.launched]⟩

theorem Thread.notify_done {t : Thread} (h : t.pc = .done) : t.notify = t := by
  simp [notify, h]

theorem orderly_next (h : Orderly m) (hnext : next c produce m l = some m') : Orderly m' := by
  cases stepped hnext with
  | consumer hstep =>
    refine ⟨h.stop, fun hj => ?_⟩
    simp [Consumer.step, h.joined hj] at hstep
  | produce => exact ⟨h.stop, h.joined⟩
  | wake =>
    refine ⟨by simpa using h.stop, fun hj => ?_⟩
    rw [Thread.notify_done (h.joined hj)]
    exact h.joined hj
  | requestStop => exact ⟨by simp, by simp⟩
  | notifyAll hf => exact ⟨by simpa [hf] using h.stop, by simp⟩
  | join hf hdone => exact ⟨by simpa [hf] using h.stop, fun _ => hdone⟩

end Next

/-! ### A consumer that is never woken -/

section Shutdown

variable (c : Consumer σ) (produce : ε → σ → σ)

/-- The finisher waits for a consumer that is blocked. -/
def Hung (m : System σ) : Prop := m.finish = .join ∧ m.thread.pc = .asleep

instance : DecidablePred (Hung (σ := σ)) := fun m => by
  unfold Hung
  infer_instance

/-- After the stop is requested, nothing wakes the consumer but the finisher. -/
def Quiet (ls : List (Label ε)) : Prop :=
  ∀ pre post, ls = pre ++ .requestStop :: post → .wake ∉ post

/-- The finisher never notifies a consumer that has decided to wait and does
not wait yet. -/
def Clear (s : σ) (ls : List (Label ε)) : Prop :=
  ∀ pre post m, ls = pre ++ .notifyAll :: post →
    run (next c produce) (.launched s) pre = some m → m.thread.pc ≠ .sleep

variable {c produce} {s : σ} {ls : List (Label ε)} {l : Label ε} {m : System σ}

theorem Quiet.left (h : Quiet (ls ++ [l])) : Quiet ls := by
  intro pre post hls hmem
  exact h pre (post ++ [l]) (by rw [hls]; simp) (List.mem_append_left _ hmem)

theorem Quiet.wake (h : Quiet (ls ++ [l])) (hstop : .requestStop ∈ ls) : l ≠ .wake := by
  obtain ⟨pre, post, rfl⟩ := List.append_of_mem hstop
  rintro rfl
  exact h pre (post ++ [.wake]) (by simp) (by simp)

theorem Clear.left (h : Clear c produce s (ls ++ [l])) : Clear c produce s ls :=
  fun pre post m hls => h pre (post ++ [l]) m (by rw [hls]; simp)

/-- A stop that is asked for was requested. -/
theorem requestStop_mem (hrun : run (next c produce) (.launched s) ls = some m) :
    Orderly m ∧ (m.finish ≠ .requestStop → .requestStop ∈ ls) := by
  refine run_invariant hrun (fun ls m => Orderly m ∧ (m.finish ≠ .requestStop → .requestStop ∈ ls))
    ⟨orderly_launched s, fun h => absurd rfl h⟩ ?_
  intro ls m l m' _ ⟨ho, hmem⟩ hnext
  refine ⟨orderly_next ho hnext, fun hf => ?_⟩
  cases stepped hnext with
  | consumer => exact List.mem_append_left _ (hmem hf)
  | produce => exact List.mem_append_left _ (hmem hf)
  | wake => exact List.mem_append_left _ (hmem hf)
  | requestStop => simp
  | notifyAll hfin => exact List.mem_append_left _ (hmem (by simp [hfin]))
  | join hfin => exact List.mem_append_left _ (hmem (by simp [hfin]))

/-- Notified while it was blocked or before it decided to wait, the consumer
does not wait again. -/
theorem awake_of_clear (hrun : run (next c produce) (.launched s) ls = some m) (hquiet : Quiet ls)
    (hclear : Clear c produce s ls) (hfin : m.finish = .join ∨ m.finish = .joined) :
    m.thread.pc ≠ .sleep ∧ m.thread.pc ≠ .asleep := by
  refine run_invariant hrun (fun ls m => Quiet ls → Clear c produce s ls →
    m.finish = .join ∨ m.finish = .joined → m.thread.pc ≠ .sleep ∧ m.thread.pc ≠ .asleep)
    (by simp [System.launched]) ?_ hquiet hclear hfin
  intro ls m l m' hm ih hnext hquiet hclear hfin
  have ho := (requestStop_mem hm).1
  cases stepped hnext with
  | @consumer pc s' hstep =>
    have hawake := ih hquiet.left hclear.left hfin
    have hstop : m.thread.stop = true := ho.stop.mpr (by rcases hfin with hf | hf <;> simp_all)
    refine ⟨fun hpc => ?_, fun hpc => ?_⟩
    · simp [step_sleep hstep hpc] at hstop
    · exact hawake.1 (step_asleep hstep hpc)
  | produce => exact ih hquiet.left hclear.left hfin
  | wake =>
    have hawake := ih hquiet.left hclear.left hfin
    rw [Thread.notify, if_neg hawake.2]
    exact hawake
  | requestStop => simp at hfin
  | notifyAll =>
    have hsleep : m.thread.pc ≠ .sleep := hclear ls [] m rfl hm
    rcases m.thread.notify_pc with ⟨hpc, -⟩ | ⟨hpc, hne⟩
    · simp [hpc]
    · simp [hpc, hsleep, hne]
  | join hf => exact ih hquiet.left hclear.left (.inl hf)

/-- Notified between deciding to wait and waiting, it waits for ever. -/
theorem stuck_of_not_clear (hrun : run (next c produce) (.launched s) ls = some m)
    (hquiet : Quiet ls) (hclear : ¬ Clear c produce s ls) :
    m.finish = .join ∧ (m.thread.pc = .sleep ∨ m.thread.pc = .asleep) := by
  simp only [Clear, not_forall, not_not] at hclear
  obtain ⟨pre, post, m₁, rfl, hpre, hsleep⟩ := hclear
  obtain ⟨m₁', m₂, hpre', hnotify, hpost⟩ := run_split hrun
  obtain rfl : m₁ = m₁' := Option.some.inj (hpre.symm.trans hpre')
  cases stepped hnotify with
  | notifyAll hf =>
  have hmem : .requestStop ∈ pre := (requestStop_mem hpre).2 (by simp [hf])
  have hwake : ∀ l ∈ post, l ≠ .wake := by
    obtain ⟨as, bs, rfl⟩ := List.append_of_mem hmem
    rintro l hl rfl
    exact hquiet as (bs ++ .notifyAll :: post) (by simp) (by simp [hl])
  refine run_invariant hpost (fun post m => (∀ l ∈ post, l ≠ .wake) →
    m.finish = .join ∧ (m.thread.pc = .sleep ∨ m.thread.pc = .asleep)) ?_ ?_ hwake
  · simp [Thread.notify, hsleep]
  · intro es m l m' _ ih hnext hwake
    obtain ⟨hfin, hpc⟩ := ih fun l hl => hwake l (List.mem_append_left _ hl)
    cases stepped hnext with
    | consumer hstep =>
      refine ⟨hfin, .inr ?_⟩
      rcases hpc with hpc | hpc
      · simp only [Consumer.step, hpc, Option.some.injEq, Prod.mk.injEq] at hstep
        exact hstep.1.symm
      · simp [Consumer.step, hpc] at hstep
    | produce => exact ⟨hfin, hpc⟩
    | wake => exact absurd rfl (hwake .wake (by simp))
    | requestStop hf => simp [hf] at hfin
    | notifyAll hf => simp [hf] at hfin
    | join _ hdone => simp [hdone] at hpc

/-- **The law of the shutdown.** No state of a run hangs, nor does the one the
consumer takes it to next, if the notification comes at no time when the
consumer has decided to wait and does not wait yet, and only then. -/
theorem clear_iff (hrun : run (next c produce) (.launched s) ls = some m) (hquiet : Quiet ls) :
    Clear c produce s ls ↔ ∀ ls' m', ls' <+: ls ∨ ls' = ls ++ [.consumer] →
      run (next c produce) (.launched s) ls' = some m' → ¬ Hung m' := by
  constructor
  · intro hclear ls' m' hls hrun' ⟨hfin, hasleep⟩
    have hquiet' : Quiet ls' := by
      intro pre post hpre hmem
      rcases hls with ⟨rest, rfl⟩ | rfl
      · exact hquiet pre (post ++ rest) (by rw [hpre]; simp) (List.mem_append_left _ hmem)
      · rcases concat_eq_append_cons.mp hpre with ⟨-, h, -⟩ | ⟨post', rfl, h⟩
        · cases h
        · exact hquiet pre post' h (by simpa using hmem)
    have hclear' : Clear c produce s ls' := by
      intro pre post m₁ hpre
      rcases hls with ⟨rest, rfl⟩ | rfl
      · exact hclear pre (post ++ rest) m₁ (by rw [hpre]; simp)
      · rcases concat_eq_append_cons.mp hpre with ⟨-, h, -⟩ | ⟨post', -, h⟩
        · cases h
        · exact hclear pre post' m₁ h
    exact (awake_of_clear hrun' hquiet' hclear' (.inl hfin)).2 hasleep
  · intro hnever
    by_contra hclear
    obtain ⟨hfin, hsleep | hasleep⟩ := stuck_of_not_clear hrun hquiet hclear
    · have hstep : next c produce m (.consumer : Label ε) =
          some ⟨⟨.asleep, m.thread.stop⟩, m.finish, m.shared⟩ := by
        simp [next, Consumer.step, hsleep]
      exact hnever _ _ (.inr rfl) (run_concat.mpr ⟨m, hrun, hstep⟩) ⟨hfin, rfl⟩
    · exact hnever ls m (.inl (List.prefix_refl ls)) hrun ⟨hfin, hasleep⟩

end Shutdown

end Monitor
