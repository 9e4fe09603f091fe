/-
# Notifications a consumer does not hear

A producer adds to the guarded resource, releases the mutex, and notifies the
consumer; in between its call is in flight. A notification wakes a consumer
that is blocked, and nothing else does. `heard_iff` says when a consumer is
never blocked on something that was added, with no call left in flight to wake
it: if it decides to wait only on nothing or with a call in flight, and the
last call in flight does not notify it between its decision and its blocking.
-/
import Sprint3.Lib.Monitor

namespace Monitor

open Run

variable {σ ε : Type*}

/-- A consumer with its finisher, and the number of calls in flight. -/
structure Notified (σ : Type*) where
  system : System σ
  inFlight : ℕ

def Notified.launched (s : σ) : Notified σ := ⟨.launched s, 0⟩

/-- The two steps of a call, and those of the consumer and of the finisher. -/
inductive Act (ε : Type*)
  | add (e : ε)
  | notifyOne
  | consumer
  | requestStop
  | notifyAll
  | join

def Act.label : Act ε → Label ε
  | .add e => .produce e
  | .notifyOne => .wake
  | .consumer => .consumer
  | .requestStop => .requestStop
  | .notifyAll => .notifyAll
  | .join => .join

/-- The calls in flight after this step. -/
def Act.inFlight : Act ε → ℕ → ℕ
  | .add _, n => n + 1
  | .notifyOne, n => n - 1
  | _, n => n

/-- The system's step. Only a call in flight notifies. -/
def nextAct (c : Consumer σ) (produce : ε → σ → σ) (n : Notified σ) (a : Act ε) :
    Option (Notified σ) :=
  match a, n.inFlight with
  | .notifyOne, 0 => none
  | a, k => (next c produce n.system a.label).map fun m => ⟨m, a.inFlight k⟩

section Law

variable (c : Consumer σ) (produce : ε → σ → σ) (hasData : σ → Prop)

/-- Blocked on something that was added, with no call left to wake it. -/
def Unheard (n : Notified σ) : Prop :=
  n.system.thread.pc = .asleep ∧ hasData n.system.shared ∧ n.inFlight = 0

/-- A step that leaves no notification unheard: the consumer decides to wait
only on nothing or with a call in flight, and is not notified by the last call
in flight before it blocks. -/
def Heard (n : Notified σ) : Act ε → Prop
  | .consumer => (c.step n.system.thread n.system.shared).map Prod.fst = some .sleep →
      hasData n.system.shared → n.inFlight ≠ 0
  | .notifyOne => n.system.thread.pc = .sleep → hasData n.system.shared → n.inFlight ≠ 1
  | _ => True

/-- All steps of a run are such. -/
def AllHeard (s : σ) (as : List (Act ε)) : Prop :=
  ∀ pre a post n, as = pre ++ a :: post → run (nextAct c produce) (.launched s) pre = some n →
    Heard c hasData n a

/-- About to block, with nobody left to wake it. -/
def Doomed (n : Notified σ) : Prop :=
  n.system.thread.pc = .sleep ∧ hasData n.system.shared ∧ n.inFlight = 0

variable {c produce hasData}

theorem acted {n n' : Notified σ} {a : Act ε} (h : nextAct c produce n a = some n') :
    ∃ m, next c produce n.system a.label = some m ∧ n' = ⟨m, a.inFlight n.inFlight⟩ := by
  unfold nextAct at h
  split at h
  · cases h
  · obtain ⟨m, hm, rfl⟩ := Option.map_eq_some_iff.mp h
    exact ⟨m, hm, rfl⟩

theorem inFlight_of_notifyOne {n n' : Notified σ}
    (h : nextAct c produce n (.notifyOne : Act ε) = some n') : n.inFlight ≠ 0 := by
  intro hnone
  simp [nextAct, hnone] at h

/-- Deciding to wait, and blocking, leave the resource as it is. -/
theorem shared_of_sleep {t : Thread} {s s' : σ} {pc : Pc} (h : c.step t s = some (pc, s'))
    (hpc : pc = .sleep ∨ pc = .asleep) : s' = s := by
  unfold Consumer.step at h
  cases htpc : t.pc <;> simp only [htpc, reduceCtorEq, Option.some.injEq, Prod.mk.injEq] at h
  case head | lock | test | eval | sleep | woken | lastLock => exact h.2.symm
  case work | lastTake | lastWork =>
    obtain ⟨rfl, -⟩ := h
    simp at hpc
  case prepare | take | lastPrepare =>
    obtain ⟨rfl, -⟩ := h
    split at hpc <;> simp at hpc

/-- A consumer that looks before it waits does not wait on anything. -/
theorem heard_of_pred (hpred : c.usesPred = true) (hready : ∀ s, hasData s → c.ready s = true)
    (n : Notified σ) : Heard c hasData n (.consumer : Act ε) := by
  intro hsleep hdata
  exfalso
  unfold Consumer.step at hsleep
  cases hpc : n.system.thread.pc <;>
    simp only [hpc, hpred, hready _ hdata, Bool.or_true, ↓reduceIte, Option.map_some,
      Option.map_none, Option.some.injEq, reduceCtorEq] at hsleep
  all_goals
    split at hsleep <;> cases hsleep

variable {n n' : Notified σ} {s : σ} {as : List (Act ε)}

/-- Waiting, it waits for nothing, or has a call in flight to wake it. -/
def Expecting (hasData : σ → Prop) (n : Notified σ) : Prop :=
  n.system.thread.pc = .sleep ∨ n.system.thread.pc = .asleep → hasData n.system.shared →
    n.inFlight ≠ 0

theorem expecting_next {a : Act ε} (h : Expecting hasData n) (hheard : Heard c hasData n a)
    (hnext : nextAct c produce n a = some n') : Expecting hasData n' := by
  obtain ⟨m, hm, rfl⟩ := acted hnext
  intro hpc hdata
  cases a with
  | add e => exact Nat.succ_ne_zero _
  | notifyOne =>
    have hflight := inFlight_of_notifyOne hnext
    cases stepped hm with
    | wake =>
    rcases n.system.thread.notify_pc with ⟨hwoken, -⟩ | ⟨hsame, hawake⟩
    · simp [hwoken] at hpc
    · have hsleep : n.system.thread.pc = .sleep := by
        simpa [hsame, hawake] using hpc
      have hlast := hheard hsleep hdata
      show n.inFlight - 1 ≠ 0
      omega
  | consumer =>
    cases stepped hm with
    | @consumer pc s' hstep =>
    obtain rfl := shared_of_sleep hstep hpc
    rcases hpc with rfl | rfl
    · exact hheard (by rw [hstep]; rfl) hdata
    · exact h (.inl (step_asleep hstep rfl)) hdata
  | requestStop =>
    cases stepped hm with
    | requestStop => exact h hpc hdata
  | notifyAll =>
    cases stepped hm with
    | notifyAll =>
    rcases n.system.thread.notify_pc with ⟨hwoken, -⟩ | ⟨hsame, -⟩
    · simp [hwoken] at hpc
    · exact h (hsame ▸ hpc) hdata
  | join =>
    cases stepped hm with
    | join => exact h hpc hdata

theorem AllHeard.left {a : Act ε} (h : AllHeard c produce hasData s (as ++ [a])) :
    AllHeard c produce hasData s as :=
  fun pre b post n has => h pre b (post ++ [a]) n (by rw [has]; simp)

theorem expecting_run (hrun : run (nextAct c produce) (.launched s) as = some n)
    (hheard : AllHeard c produce hasData s as) : Expecting hasData n := by
  refine run_invariant hrun (fun as n => AllHeard c produce hasData s as → Expecting hasData n)
    (fun _ => by simp [Expecting, Notified.launched, System.launched, Thread.launched]) ?_ hheard
  intro as n a n' hn ih hnext hheard
  exact expecting_next (ih hheard.left) (hheard as a [] n rfl hn) hnext

/-! ### A notification that is not heard -/

theorem doomed_of_not_heard {a : Act ε} (hheard : ¬ Heard c hasData n a)
    (hnext : nextAct c produce n a = some n') : Doomed hasData n' := by
  obtain ⟨m, hm, rfl⟩ := acted hnext
  cases a with
  | notifyOne =>
    simp only [Heard, Classical.not_imp, not_not] at hheard
    obtain ⟨hsleep, hdata, hlast⟩ := hheard
    cases stepped hm with
    | wake =>
    refine ⟨?_, hdata, by simp [Act.inFlight, hlast]⟩
    simp [Thread.notify, hsleep]
  | consumer =>
    simp only [Heard, Classical.not_imp, not_not] at hheard
    obtain ⟨hsleep, hdata, hnone⟩ := hheard
    cases stepped hm with
    | @consumer pc s' hstep =>
    rw [hstep] at hsleep
    obtain rfl : pc = .sleep := Option.some.inj hsleep
    obtain rfl := shared_of_sleep hstep (.inl rfl)
    exact ⟨rfl, hdata, hnone⟩
  | _ => exact absurd trivial hheard

/-- Nothing but blocking is left to the consumer. -/
theorem doomed_next {a : Act ε} (h : Doomed hasData n) (hnext : nextAct c produce n a = some n') :
    Doomed hasData n' ∨ Unheard hasData n' := by
  obtain ⟨hsleep, hdata, hnone⟩ := h
  obtain ⟨m, hm, rfl⟩ := acted hnext
  cases a with
  | add e =>
    cases stepped hm with
    | produce hholds => simp [hsleep, Pc.holds] at hholds
  | notifyOne => exact absurd hnone (inFlight_of_notifyOne hnext)
  | consumer =>
    cases stepped hm with
    | consumer hstep =>
    simp only [Consumer.step, hsleep, Option.some.injEq, Prod.mk.injEq] at hstep
    obtain ⟨rfl, rfl⟩ := hstep
    exact .inr ⟨rfl, hdata, hnone⟩
  | requestStop =>
    cases stepped hm with
    | requestStop => exact .inl ⟨hsleep, hdata, hnone⟩
  | notifyAll =>
    cases stepped hm with
    | notifyAll => exact .inl ⟨by simp [Thread.notify, hsleep], hdata, hnone⟩
  | join =>
    cases stepped hm with
    | join _ hdone => simp [hsleep] at hdone

/-- From there on, a state is unheard, or it is the next one of the consumer. -/
theorem doomed_run {fs : List (Act ε)} {n₁ : Notified σ} (h : Doomed hasData n₁)
    (hrun : run (nextAct c produce) n₁ fs = some n) :
    Doomed hasData n ∨ ∃ fs' n', fs' <+: fs ∧ run (nextAct c produce) n₁ fs' = some n' ∧
      Unheard hasData n' := by
  refine run_invariant hrun (fun fs n => Doomed hasData n ∨ ∃ fs' n', fs' <+: fs ∧
    run (nextAct c produce) n₁ fs' = some n' ∧ Unheard hasData n') (.inl h) ?_
  intro fs n a n' hn ih hnext
  rcases ih with hdoomed | ⟨fs', n'', hprefix, hrun', hunheard⟩
  · rcases doomed_next hdoomed hnext with hdoomed | hunheard
    · exact .inl hdoomed
    · exact .inr ⟨fs ++ [a], n', List.prefix_refl _, run_concat.mpr ⟨n, hn, hnext⟩, hunheard⟩
  · exact .inr ⟨fs', n'', hprefix.trans (List.prefix_append _ _), hrun', hunheard⟩

/-- **The law of the notification.** All steps of a run are heard if and only
if no state of it is unheard, nor the one the consumer takes it to next. -/
theorem heard_iff (hrun : run (nextAct c produce) (.launched s) as = some n) :
    AllHeard c produce hasData s as ↔ ∀ as' n', as' <+: as ∨ as' = as ++ [.consumer] →
      run (nextAct c produce) (.launched s) as' = some n' → ¬ Unheard hasData n' := by
  constructor
  · intro hheard as' n' has hrun' ⟨hasleep, hdata, hnone⟩
    rcases has with ⟨rest, rfl⟩ | rfl
    · have hheard' : AllHeard c produce hasData s as' :=
        fun pre a post n has => hheard pre a (post ++ rest) n (by rw [has]; simp)
      have hexpecting : Expecting hasData n' := expecting_run hrun' hheard'
      exact hexpecting (.inr hasleep) hdata hnone
    · obtain ⟨n₁, hn₁, hnext⟩ := run_concat.mp hrun'
      obtain rfl : n = n₁ := Option.some.inj (hrun.symm.trans hn₁)
      obtain ⟨m, hm, rfl⟩ := acted hnext
      cases stepped hm with
      | consumer hstep =>
      obtain rfl := shared_of_sleep hstep (.inr hasleep)
      have hexpecting : Expecting hasData n := expecting_run hrun hheard
      exact hexpecting (.inl (step_asleep hstep hasleep)) hdata hnone
  · intro hnever
    by_contra hheard
    simp only [AllHeard, not_forall] at hheard
    obtain ⟨pre, a, post, n₁, rfl, hpre, hheard⟩ := hheard
    obtain ⟨n₁', n₂, hpre', hnext, hpost⟩ := run_split hrun
    obtain rfl : n₁ = n₁' := Option.some.inj (hpre.symm.trans hpre')
    have hdoomed : Doomed hasData n₂ := doomed_of_not_heard hheard hnext
    rcases doomed_run hdoomed hpost with hdoomed | hfound
    · have hstep : nextAct c produce n (.consumer : Act ε) =
          some ⟨⟨⟨.asleep, n.system.thread.stop⟩, n.system.finish, n.system.shared⟩,
            n.inFlight⟩ := by
        simp [nextAct, next, Act.label, Act.inFlight, Consumer.step, hdoomed.1]
      have hblocked := run_concat.mpr ⟨n, hrun, hstep⟩
      exact hnever _ _ (.inr rfl) hblocked ⟨rfl, hdoomed.2⟩
    · obtain ⟨fs, n', ⟨rest, rfl⟩, hfs, hunheard⟩ := hfound
      refine hnever (pre ++ a :: fs) n' (.inl ⟨rest, by simp⟩) ?_ hunheard
      rw [run_append, hpre]
      simp [run, hnext, hfs]

end Law

end Monitor
