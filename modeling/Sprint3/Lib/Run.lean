/-
# Runs of a system

A system is a partial function `next` from states and labels to states: what
one labelled step does, if it can be taken. Its `run` on a list of labels is
the state after exactly these steps, if each of them can be taken.

`run_invariant` is the rule for what holds after every run, over the labels so
far; `run_split` gives the state before any of them, and `seen` what each step
shows in the state it is taken in. `Followed` says of a history that what is of
one kind is followed by something of another.
-/
import Mathlib.Data.List.Induction
import Mathlib.Tactic.Basic

namespace Run

/-! ### Runs -/

section Runs

variable {σ ε : Type*} (next : σ → ε → Option σ)

/-- The state after these steps. -/
def run : σ → List ε → Option σ
  | s, [] => some s
  | s, e :: es => (next s e).bind fun m => run m es

/-- What is seen of the steps of a run, each in the state it is taken in. -/
def seen {ο : Type*} (see : σ → ε → ο) : σ → List ε → List ο
  | _, [] => []
  | s, e :: es => see s e :: (next s e).elim [] fun m => seen see m es

variable {next}

theorem run_append {s : σ} (es fs : List ε) :
    run next s (es ++ fs) = (run next s es).bind fun m => run next m fs := by
  induction es generalizing s with
  | nil => rfl
  | cons e es ih => simp only [List.cons_append, run, ih, Option.bind_assoc]

/-- The last step of a run. -/
theorem run_concat {s s' : σ} {es : List ε} {e : ε} : run next s (es ++ [e]) = some s' ↔
    ∃ m, run next s es = some m ∧ next m e = some s' := by
  rw [run_append, Option.bind_eq_some_iff]
  refine exists_congr fun m => and_congr_right fun _ => ?_
  simp [run]

/-- What is seen of the last step. -/
theorem seen_concat {ο : Type*} (see : σ → ε → ο) {s s' : σ} {es : List ε} (e : ε)
    (h : run next s es = some s') :
    seen next see s (es ++ [e]) = seen next see s es ++ [see s' e] := by
  induction es generalizing s with
  | nil =>
    obtain rfl := Option.some.inj h
    rw [List.nil_append, seen, seen]
    cases next s e <;> rfl
  | cons e' es ih =>
    obtain ⟨m, hm, hrest⟩ := Option.bind_eq_some_iff.mp h
    rw [List.cons_append, seen, hm, Option.elim_some, ih hrest, seen, hm, Option.elim_some,
      List.cons_append]

/-- Any step of a run. -/
theorem run_split {s s' : σ} {es fs : List ε} {e : ε} (h : run next s (es ++ e :: fs) = some s') :
    ∃ m m', run next s es = some m ∧ next m e = some m' ∧ run next m' fs = some s' := by
  rw [run_append, Option.bind_eq_some_iff] at h
  obtain ⟨m, hm, h⟩ := h
  obtain ⟨m', hm', h⟩ := Option.bind_eq_some_iff.mp h
  exact ⟨m, m', hm, hm', h⟩

/-- **The rule of the run.** What holds at the start, and is kept by every
step that can be taken, holds after every run. -/
theorem run_invariant {s s' : σ} {es : List ε} (hrun : run next s es = some s')
    (P : List ε → σ → Prop) (hstart : P [] s)
    (hnext : ∀ es m e m', run next s es = some m → P es m → next m e = some m' →
      P (es ++ [e]) m') : P es s' := by
  induction es using List.reverseRecOn generalizing s' with
  | nil =>
    obtain rfl : s = s' := Option.some.inj hrun
    exact hstart
  | append_singleton es e ih =>
    obtain ⟨m, hm, hstep⟩ := run_concat.mp hrun
    exact hnext es m e s' hm (ih hm) hstep

end Runs

/-! ### Histories -/

section Histories

variable {α : Type*}

/-- An element of a history that has just grown: the new one, or one of the others. -/
theorem concat_eq_append_cons {l pre post : List α} {x y : α} :
    l ++ [x] = pre ++ y :: post ↔
      (pre = l ∧ y = x ∧ post = []) ∨ ∃ post', post = post' ++ [x] ∧ l = pre ++ y :: post' := by
  constructor
  · intro h
    rcases List.eq_nil_or_concat post with rfl | ⟨post', z, rfl⟩
    · obtain ⟨hl, hx⟩ := List.append_inj' h rfl
      exact .inl ⟨hl.symm, (List.singleton_inj.mp hx).symm, rfl⟩
    · rw [List.concat_eq_append, ← List.cons_append, ← List.append_assoc] at h
      obtain ⟨hl, hx⟩ := List.append_inj' h rfl
      obtain rfl := List.singleton_inj.mp hx
      exact .inr ⟨post', List.concat_eq_append, hl⟩
  · rintro (⟨rfl, rfl, rfl⟩ | ⟨post', rfl, rfl⟩)
    · rfl
    · simp

/-- Everything of kind `p` is followed by something of kind `q`. -/
def Followed (p q : α → Prop) (l : List α) : Prop :=
  ∀ pre a post, l = pre ++ a :: post → p a → ∃ b ∈ post, q b

variable {p q : α → Prop}

theorem followed_nil : Followed p q [] := fun pre a post h => by simp at h

/-- Whatever comes last decides, unless it is of neither kind. -/
theorem followed_concat_right {x : α} (l : List α) (hp : ¬ p x) (hq : q x) :
    Followed p q (l ++ [x]) := by
  intro pre a post h ha
  rcases concat_eq_append_cons.mp h with ⟨-, rfl, -⟩ | ⟨post', rfl, -⟩
  · exact absurd ha hp
  · exact ⟨x, by simp, hq⟩

theorem not_followed_concat_left {x : α} (l : List α) (hp : p x) : ¬ Followed p q (l ++ [x]) :=
  fun h => by simpa using h l x [] rfl hp

theorem followed_concat_neither {x : α} {l : List α} (hp : ¬ p x) (hq : ¬ q x) :
    Followed p q (l ++ [x]) ↔ Followed p q l := by
  constructor
  · intro h pre a post hl ha
    obtain ⟨b, hb, hqb⟩ := h pre a (post ++ [x]) (by rw [hl]; simp) ha
    rcases List.mem_append.mp hb with hb | hb
    · exact ⟨b, hb, hqb⟩
    · exact absurd (List.mem_singleton.mp hb ▸ hqb) hq
  · intro h pre a post hl ha
    rcases concat_eq_append_cons.mp hl with ⟨-, rfl, -⟩ | ⟨post', rfl, hl'⟩
    · exact absurd ha hp
    · obtain ⟨b, hb, hqb⟩ := h pre a post' hl' ha
      exact ⟨b, List.mem_append_left _ hb, hqb⟩

end Histories

end Run
