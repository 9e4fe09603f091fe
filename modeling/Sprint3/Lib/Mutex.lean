/-
# Sections under a mutex

Any number of threads visit a section of code that a mutex guards, each visit
with an argument of its own. A step of a visit changes the shared state, reads
something from outside, and goes on or leaves; who waits for the mutex takes
no step. In whatever order the threads take their steps, only the one that
holds the mutex is inside (`exclusive_run`), and the shared state is what the
visits make of it one after the other, in the order in which they were let in
(`run_serial`).
-/
import Sprint3.Lib.Run
import Mathlib.Logic.Function.Basic

namespace Mutex

open Run

/-- Where a visit begins, and what a step does at some place of it. -/
structure Section (σ α β ε : Type*) where
  enter : α → β
  step : β → ε → σ → Option β × σ

structure System (ι σ β : Type*) where
  shared : σ
  /-- The thread that holds the mutex. -/
  owner : Option ι
  /-- Where a thread is in the section. -/
  inside : ι → Option β

inductive Label (ι α ε : Type*)
  | lock (i : ι) (a : α)
  | step (i : ι) (e : ε)

/-- A visit: the thread, its argument and what its steps have read. -/
structure Visit (ι α ε : Type*) where
  thread : ι
  arg : α
  reads : List ε

variable {ι σ α β ε : Type*}

def start (s : σ) : System ι σ β := ⟨s, none, fun _ => none⟩

/-- The last step of a visit gives the mutex back. -/
def next [DecidableEq ι] (c : Section σ α β ε) (m : System ι σ β) :
    Label ι α ε → Option (System ι σ β)
  | .lock i a =>
    if m.owner = none ∧ m.inside i = none then
      some ⟨m.shared, some i, Function.update m.inside i (some (c.enter a))⟩
    else none
  | .step i e => (m.inside i).map fun b =>
    ⟨(c.step b e m.shared).2, if (c.step b e m.shared).1.isSome then m.owner else none,
      Function.update m.inside i (c.step b e m.shared).1⟩

/-- The calls, in the order in which they were let in. -/
def calls (es : List (Label ι α ε)) : List (ι × α) :=
  es.filterMap fun
    | .lock i a => some (i, a)
    | .step _ _ => none

/-- What was read, in its order. -/
def reads (es : List (Label ι α ε)) : List (ι × ε) :=
  es.filterMap fun
    | .lock _ _ => none
    | .step i e => some (i, e)

section Concat

variable (es : List (Label ι α ε)) (i : ι)

theorem calls_lock (a : α) : calls (es ++ [.lock i a]) = calls es ++ [(i, a)] :=
  List.filterMap_append

theorem calls_step (e : ε) : calls (es ++ [.step i e]) = calls es := by
  simp [calls]

theorem reads_lock (a : α) : reads (es ++ [.lock i a]) = reads es := by
  simp [reads]

theorem reads_step (e : ε) : reads (es ++ [.step i e]) = reads es ++ [(i, e)] :=
  List.filterMap_append

end Concat

/-! ### Visits one after the other -/

/-- Visits one after the other: where the last of them is, and the state. -/
inductive Serial (c : Section σ α β ε) (s₀ : σ) :
    List (Visit ι α ε) → Option (ι × β) → σ → Prop
  | start : Serial c s₀ [] none s₀
  | lock {vs s} (i : ι) (a : α) : Serial c s₀ vs none s →
      Serial c s₀ (vs ++ [⟨i, a, []⟩]) (some (i, c.enter a)) s
  | step {vs i a es b s} (e : ε) : Serial c s₀ (vs ++ [⟨i, a, es⟩]) (some (i, b)) s →
      Serial c s₀ (vs ++ [⟨i, a, es ++ [e]⟩]) ((c.step b e s).1.map fun b => (i, b))
        (c.step b e s).2

variable {c : Section σ α β ε} {s₀ : σ}

/-- Who is inside made the last visit. -/
theorem Serial.last {vs : List (Visit ι α ε)} {i : ι} {b : β} {s : σ}
    (h : Serial c s₀ vs (some (i, b)) s) : ∃ ws a es, vs = ws ++ [⟨i, a, es⟩] := by
  generalize hplace : some (i, b) = place at h
  cases h with
  | start => cases hplace
  | lock j a _ =>
    obtain ⟨rfl, -⟩ := Prod.mk.inj (Option.some.inj hplace)
    exact ⟨_, a, [], rfl⟩
  | step e _ =>
    obtain ⟨_, -, heq⟩ := Option.map_eq_some_iff.mp hplace.symm
    obtain ⟨rfl, -⟩ := Prod.mk.inj heq
    exact ⟨_, _, _, rfl⟩

/-! ### One at a time -/

/-- Inside is who holds the mutex. -/
def Exclusive (m : System ι σ β) : Prop := ∀ i, m.inside i ≠ none ↔ m.owner = some i

/-- The visit that is going on. -/
def System.visiting (m : System ι σ β) : Option (ι × β) :=
  m.owner.bind fun i => (m.inside i).map fun b => (i, b)

variable {m m' : System ι σ β} {i : ι}

theorem visiting_eq_none (howner : m.owner = none) : m.visiting = none := by
  rw [System.visiting, howner]
  rfl

theorem Exclusive.visiting_eq_some (h : Exclusive m) {b : β} (hb : m.inside i = some b) :
    m.owner = some i ∧ m.visiting = some (i, b) := by
  have howner : m.owner = some i := (h i).mp (by simp [hb])
  refine ⟨howner, ?_⟩
  rw [System.visiting, howner, Option.bind_some, hb]
  rfl

variable [DecidableEq ι]

theorem Exclusive.lock (h : Exclusive m) (howner : m.owner = none) (b : β) :
    Exclusive ⟨m.shared, some i, Function.update m.inside i (some b)⟩ := by
  intro j
  by_cases hj : j = i
  · subst hj
    simp
  · have hother := (h j).not.mpr (by simp [howner])
    simpa [Function.update_of_ne hj, Ne.symm hj] using hother

theorem Exclusive.step (h : Exclusive m) (howner : m.owner = some i) (s : σ) (b : Option β) :
    Exclusive ⟨s, if b.isSome then m.owner else none, Function.update m.inside i b⟩ := by
  intro j
  by_cases hj : j = i
  · subst hj
    cases b with
    | none => simp
    | some b => simp [howner]
  · have hother := (h j).not.mpr (by simp [howner, Ne.symm hj])
    cases b with
    | none => simpa [Function.update_of_ne hj] using hother
    | some b => simpa [Function.update_of_ne hj, howner, Ne.symm hj] using hother

/-- What a run leaves is what some visits one after the other leave, those of the calls let in. -/
structure Explained (c : Section σ α β ε) (s₀ : σ) (es : List (Label ι α ε)) (m : System ι σ β)
    (vs : List (Visit ι α ε)) : Prop where
  serial : Serial c s₀ vs m.visiting m.shared
  calls : (vs.map fun v => (v.thread, v.arg)) = Mutex.calls es
  reads : (vs.flatMap fun v => v.reads.map fun e => (v.thread, e)) = Mutex.reads es

/-- **Visits are serial.** After any run only the thread that holds the mutex
is inside, and visits one after the other explain the state. -/
theorem run_serial {es : List (Label ι α ε)} (hrun : run (next c) (start s₀) es = some m) :
    Exclusive m ∧ ∃ vs, Explained c s₀ es m vs := by
  refine run_invariant hrun (fun es m => Exclusive m ∧ ∃ vs, Explained c s₀ es m vs) ?_ ?_
  · exact ⟨fun i => by simp [start], [], .start, rfl, rfl⟩
  · rintro es m (⟨i, a⟩ | ⟨i, e⟩) m' - ⟨hexclusive, vs, hserial, hcalls, hreads⟩ hnext
    · by_cases hfree : m.owner = none ∧ m.inside i = none
      · rw [next, if_pos hfree] at hnext
        obtain rfl := Option.some.inj hnext
        rw [visiting_eq_none hfree.1] at hserial
        refine ⟨hexclusive.lock hfree.1 _, vs ++ [⟨i, a, []⟩], ?_, ?_, ?_⟩
        · have hvisiting : System.visiting ⟨m.shared, some i,
              Function.update m.inside i (some (c.enter a))⟩ = some (i, c.enter a) := by
            simp [System.visiting]
          rw [hvisiting]
          exact hserial.lock i a
        · rw [calls_lock, ← hcalls, List.map_append]
          rfl
        · rw [reads_lock, ← hreads, List.flatMap_append]
          exact List.append_nil _
      · rw [next, if_neg hfree] at hnext
        cases hnext
    · obtain ⟨b, hb, rfl⟩ := Option.map_eq_some_iff.mp hnext
      obtain ⟨howner, hvisiting⟩ := hexclusive.visiting_eq_some hb
      rw [hvisiting] at hserial
      obtain ⟨ws, a, rs, rfl⟩ := hserial.last
      refine ⟨hexclusive.step howner _ _, ws ++ [⟨i, a, rs ++ [e]⟩], ?_, ?_, ?_⟩
      · have hplace : System.visiting ⟨(c.step b e m.shared).2,
            if (c.step b e m.shared).1.isSome then m.owner else none,
            Function.update m.inside i (c.step b e m.shared).1⟩ =
              (c.step b e m.shared).1.map fun b => (i, b) := by
          cases (c.step b e m.shared).1 <;> simp [System.visiting, howner]
        rw [hplace]
        exact hserial.step e
      · rw [calls_step, ← hcalls, List.map_append, List.map_append]
        rfl
      · rw [reads_step, ← hreads, List.flatMap_append, List.flatMap_append, List.append_assoc]
        simp

end Mutex
