/-
# Proof outlines of a consumer

An assertion for each stretch of a consumer's code, like the comments of an
annotated program: if every operation takes its own assertion to the one that
follows, and no producer breaks an assertion, then in every run the assertion
at hand holds (`outline_run`).
-/
import Sprint3.Lib.Monitor

namespace Monitor

open Run

variable {σ ε : Type*}

/-- An assertion for each stretch of a consumer's code. -/
structure Outline (σ : Type*) where
  /-- Between two turns. -/
  turn : σ → Prop
  /-- Prepared, until it has taken. -/
  prepared : σ → Prop
  working : σ → Prop
  lastPrepared : σ → Prop
  /-- After the last take. -/
  emptied : σ → Prop
  done : σ → Prop

namespace Outline

/-- The assertion at hand. -/
def assertion (O : Outline σ) : Pc → σ → Prop
  | .head | .prepare | .lastPrepare => O.turn
  | .lock | .test | .eval | .sleep | .asleep | .woken | .take => O.prepared
  | .work => O.working
  | .lastLock | .lastTake => O.lastPrepared
  | .lastWork => O.emptied
  | .done => O.done

/-- Each operation of `c` meets its assertions, and `produce` breaks none. -/
structure Holds (O : Outline σ) (c : Consumer σ) (produce : ε → σ → σ) : Prop where
  prepare {s} : O.turn s →
    if (c.prepare s).2 then O.prepared (c.prepare s).1 else O.done (c.prepare s).1
  take {s} : O.prepared s → if c.goesOn s then O.working (c.take s) else O.turn (c.take s)
  work {s} : O.working s → O.turn (c.work s)
  lastPrepare {s} : O.turn s →
    if (c.lastPrepare s).2 then O.lastPrepared (c.lastPrepare s).1 else O.done (c.lastPrepare s).1
  lastTake {s} : O.lastPrepared s → O.emptied (c.lastTake s)
  lastWork {s} : O.emptied s → O.done (c.lastWork s)
  produce {pc e s} : O.assertion pc s → O.assertion pc (produce e s)

end Outline

section Outlines

variable {O : Outline σ} {c : Consumer σ} {produce : ε → σ → σ} {m m' : System σ}
  (hholds : O.Holds c produce)

include hholds

theorem outline_consumer (h : O.assertion m.thread.pc m.shared) {pc : Pc} {s : σ}
    (hstep : c.step m.thread m.shared = some (pc, s)) : O.assertion pc s := by
  unfold Consumer.step at hstep
  cases hpc : m.thread.pc <;> rw [hpc] at h <;> simp only [hpc, reduceCtorEq] at hstep
  case head =>
    obtain ⟨rfl, rfl⟩ := Prod.mk.inj (Option.some.inj hstep)
    split <;> exact h
  case prepare =>
    obtain ⟨rfl, rfl⟩ := Prod.mk.inj (Option.some.inj hstep)
    have hprepare := hholds.prepare h
    split at hprepare
    case isTrue hopen => rwa [if_pos hopen]
    case isFalse hopen => rwa [if_neg hopen]
  case test =>
    obtain ⟨rfl, rfl⟩ := Prod.mk.inj (Option.some.inj hstep)
    split
    · exact h
    · split <;> exact h
  case eval =>
    obtain ⟨rfl, rfl⟩ := Prod.mk.inj (Option.some.inj hstep)
    split <;> exact h
  case woken =>
    obtain ⟨rfl, rfl⟩ := Prod.mk.inj (Option.some.inj hstep)
    split <;> exact h
  case take =>
    obtain ⟨rfl, rfl⟩ := Prod.mk.inj (Option.some.inj hstep)
    have htake := hholds.take h
    split at htake
    case isTrue hgo => rwa [if_pos hgo]
    case isFalse hgo => rwa [if_neg hgo]
  case work =>
    obtain ⟨rfl, rfl⟩ := Prod.mk.inj (Option.some.inj hstep)
    exact hholds.work h
  case lastPrepare =>
    obtain ⟨rfl, rfl⟩ := Prod.mk.inj (Option.some.inj hstep)
    have hprepare := hholds.lastPrepare h
    split at hprepare
    case isTrue hopen => rwa [if_pos hopen]
    case isFalse hopen => rwa [if_neg hopen]
  case lastTake =>
    obtain ⟨rfl, rfl⟩ := Prod.mk.inj (Option.some.inj hstep)
    exact hholds.lastTake h
  case lastWork =>
    obtain ⟨rfl, rfl⟩ := Prod.mk.inj (Option.some.inj hstep)
    exact hholds.lastWork h
  -- The other steps leave the state alone, and stay in their stretch.
  all_goals
    obtain ⟨rfl, rfl⟩ := Prod.mk.inj (Option.some.inj hstep)
    exact h

theorem outline_next {l : Label ε} (h : O.assertion m.thread.pc m.shared)
    (hnext : next c produce m l = some m') : O.assertion m'.thread.pc m'.shared := by
  have hnotify : O.assertion m.thread.notify.pc m.shared := by
    rcases m.thread.notify_pc with ⟨hpc, hasleep⟩ | ⟨hpc, -⟩
    · rw [hpc]
      rwa [hasleep] at h
    · rwa [hpc]
  cases stepped hnext with
  | consumer hstep => exact outline_consumer hholds h hstep
  | produce => exact hholds.produce h
  | wake => exact hnotify
  | requestStop => exact h
  | notifyAll => exact hnotify
  | join => exact h

end Outlines

/-! ### One assertion throughout -/

/-- The outline that asserts the same of every stretch. -/
def Outline.always (P : σ → Prop) : Outline σ := ⟨P, P, P, P, P, P⟩

@[simp] theorem Outline.always_assertion (P : σ → Prop) (pc : Pc) (s : σ) :
    (always P).assertion pc s ↔ P s := by
  cases pc <;> exact Iff.rfl

/-- What every operation keeps, every step keeps. -/
theorem always_next {P : σ → Prop} {c : Consumer σ} {produce : ε → σ → σ} {m m' : System σ}
    (hholds : (Outline.always P).Holds c produce) (h : P m.shared) {l : Label ε}
    (hnext : next c produce m l = some m') : P m'.shared :=
  (Outline.always_assertion P _ _).mp
    (outline_next hholds ((Outline.always_assertion P _ _).mpr h) hnext)

end Monitor
