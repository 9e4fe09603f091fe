/-
# A bounded FIFO

A queue of at most `cap` elements, what it does with elements offered to it
(it accepts the longest prefix that fits and rejects the rest) and with a
request for `n` elements (it hands out the oldest `min n length`), and what
a whole run of such operations conserves: what was handed out, followed by
what is queued, is what was accepted (`run_conserves`), and every element
offered was handed out, is queued or was rejected (`run_counts`).

Key definitions: `Fifo`, `Fifo.offer`, `Fifo.poll`, `Fifo.run`.
-/
import Mathlib.Data.List.Basic
import Mathlib.Tactic.Basic

/-- At most `cap` elements, oldest first. -/
structure Fifo (cap : ℕ) (T : Type*) where
  items : List T
  bounded : items.length ≤ cap

namespace Fifo

variable {cap : ℕ} {T : Type*}

def empty : Fifo cap T := ⟨[], Nat.zero_le _⟩

/-- The part of `xs` that fits behind `n` queued elements. -/
def accepted (cap n : ℕ) (xs : List T) : List T := xs.take (cap - n)

/-- `accepted` is a prefix that fits, and every prefix that fits is a prefix of it. -/
theorem accepted_longest {n : ℕ} (hn : n ≤ cap) (xs : List T) :
    accepted cap n xs <+: xs ∧ n + (accepted cap n xs).length ≤ cap ∧
      ∀ p, p <+: xs → n + p.length ≤ cap → p <+: accepted cap n xs := by
  refine ⟨List.take_prefix _ _, ?_, fun p hp hfit => ?_⟩
  · simp only [accepted, List.length_take]
    omega
  · rw [List.prefix_iff_eq_take.mp hp]
    exact List.take_prefix_take_left (by omega)

def offer (f : Fifo cap T) (xs : List T) : Fifo cap T where
  items := f.items ++ accepted cap f.items.length xs
  bounded := by
    have h := (accepted_longest f.bounded xs).2.1
    simpa using h

def poll (f : Fifo cap T) (n : ℕ) : Fifo cap T where
  items := f.items.drop n
  bounded := by
    have h := f.bounded
    simp only [List.length_drop]
    omega

/-- What a client asks of the queue. -/
inductive Op (T : Type*)
  | offer (xs : List T)
  | poll (n : ℕ)

/-- What the client sees: of an offer how many elements were rejected and how
many are queued now, of a poll the elements handed out. -/
inductive Answer (T : Type*)
  | offered (rejected size : ℕ)
  | polled (xs : List T)

def apply (f : Fifo cap T) : Op T → Fifo cap T
  | .offer xs => f.offer xs
  | .poll n => f.poll n

def answer (f : Fifo cap T) : Op T → Answer T
  | .offer xs => .offered (xs.length - (cap - f.items.length)) (f.offer xs).items.length
  | .poll n => .polled (f.items.take n)

def run (f : Fifo cap T) (ops : List (Op T)) : Fifo cap T := ops.foldl apply f

def answers : Fifo cap T → List (Op T) → List (Answer T)
  | _, [] => []
  | f, op :: ops => f.answer op :: answers (f.apply op) ops

/-- The elements a run hands out, in order. -/
def handedOut : List (Answer T) → List T
  | [] => []
  | .offered _ _ :: as => handedOut as
  | .polled xs :: as => xs ++ handedOut as

/-- How many elements a run rejects. -/
def rejected : List (Answer T) → ℕ
  | [] => 0
  | .offered r _ :: as => r + rejected as
  | .polled _ :: as => rejected as

/-- How many elements a client offers. -/
def offeredCount : List (Op T) → ℕ
  | [] => 0
  | .offer xs :: ops => xs.length + offeredCount ops
  | .poll _ :: ops => offeredCount ops

/-- The accepted prefixes of a run's offers, in order. -/
def allAccepted : Fifo cap T → List (Op T) → List T
  | _, [] => []
  | f, .offer xs :: ops => accepted cap f.items.length xs ++ allAccepted (f.offer xs) ops
  | f, .poll n :: ops => allAccepted (f.poll n) ops

@[simp] theorem run_nil (f : Fifo cap T) : f.run [] = f := rfl

@[simp] theorem run_cons (f : Fifo cap T) (op : Op T) (ops : List (Op T)) :
    f.run (op :: ops) = (f.apply op).run ops := rfl

/-- **Nothing is lost or reordered.** What is handed out, then what is still
queued, is what was queued at first, then what was accepted. -/
theorem run_conserves : ∀ (ops : List (Op T)) (f : Fifo cap T),
    handedOut (f.answers ops) ++ (f.run ops).items = f.items ++ f.allAccepted ops
  | [], f => by simp [answers, handedOut, allAccepted]
  | .offer xs :: ops, f => by
    have ih := run_conserves ops (f.offer xs)
    simp only [answers, answer, handedOut, run_cons, apply, allAccepted]
    rw [ih]
    simp [offer]
  | .poll n :: ops, f => by
    have ih := run_conserves ops (f.poll n)
    simp only [answers, answer, handedOut, run_cons, apply, allAccepted]
    rw [List.append_assoc, ih, ← List.append_assoc]
    simp [poll]

/-- Every element offered was handed out, is queued or was rejected. -/
theorem run_counts : ∀ (ops : List (Op T)) (f : Fifo cap T),
    (handedOut (f.answers ops)).length + (f.run ops).items.length + rejected (f.answers ops) =
      f.items.length + offeredCount ops
  | [], f => by simp [answers, handedOut, rejected, offeredCount]
  | .offer xs :: ops, f => by
    have ih := run_counts ops (f.offer xs)
    simp only [answers, answer, handedOut, rejected, run_cons, apply, offeredCount]
    simp only [offer, List.length_append, accepted, List.length_take] at ih ⊢
    omega
  | .poll n :: ops, f => by
    have ih := run_counts ops (f.poll n)
    simp only [answers, answer, handedOut, rejected, run_cons, apply, offeredCount,
      List.length_append]
    simp only [poll, List.length_drop, List.length_take] at ih ⊢
    omega

/-! ### What is kept of what is offered -/

/-- Of the elements offered, in order, these were kept and `lost` were not. -/
structure Kept (offered kept : List T) (lost : ℕ) : Prop where
  sublist : kept.Sublist offered
  length : kept.length + lost = offered.length

theorem Kept.nil : Kept ([] : List T) [] 0 := ⟨.slnil, rfl⟩

theorem Kept.append {offered offered' kept kept' : List T} {lost lost' : ℕ}
    (h : Kept offered kept lost) (h' : Kept offered' kept' lost') :
    Kept (offered ++ offered') (kept ++ kept') (lost + lost') where
  sublist := h.sublist.append h'.sublist
  length := by
    have hlen := h.length
    have hlen' := h'.length
    simp only [List.length_append]
    omega

theorem kept_accepted (n : ℕ) (xs : List T) :
    Kept xs (accepted cap n xs) (xs.length - (cap - n)) where
  sublist := List.take_sublist _ _
  length := by
    simp only [accepted, List.length_take]
    omega

/-- If nothing is lost, everything is kept. -/
theorem Kept.all {offered kept : List T} (h : Kept offered kept 0) : kept = offered :=
  h.sublist.eq_of_length h.length

end Fifo
