/-
# Programs that add to a log

A program `Emits` a plan if, whatever was in its log, it adds all of the plan
when it returns, and the beginning of it when it fails. The plans of programs
that follow each other follow each other, those of the iterations of a loop as
well, so the plan of a program is read off its text.
-/
import Sprint3.Lib.Hoare
import Mathlib.Data.List.Infix
import Mathlib.Data.List.Range

namespace Hoare

universe u

variable {ε σ α γ β : Type u} {log : σ → List β}

/-- The program adds the plan to the log if it returns, and the beginning of it if it fails. -/
def Emits (log : σ → List β) (x : EStateM ε σ α) (plan : List β) : Prop :=
  ∀ l, Triple (fun s => log s = l) x (fun s => log s = l ++ plan)
    (fun s => ∃ p, p <+: plan ∧ log s = l ++ p)

namespace Emits

variable {x : EStateM ε σ α} {plan plan' : List β}

theorem pure (a : α) : Emits log (Pure.pure a : EStateM ε σ α) [] := by
  intro l s hs
  show log s = l ++ []
  rw [hs, List.append_nil]

/-- A program that adds its plan at the end, if it does not fail. -/
theorem of_last (hx : ∀ l, Triple (fun s => log s = l) x (fun s => log s = l ++ plan)
    (fun s => log s = l)) : Emits log x plan :=
  fun l => (hx l).weaken fun _ hs => ⟨[], List.nil_prefix, by rw [hs, List.append_nil]⟩

/-- A program that leaves the log alone. -/
theorem of_silent (hx : ∀ l, Triple (fun s => log s = l) x (fun s => log s = l)
    (fun s => log s = l)) : Emits log x [] :=
  of_last fun l => by
    rw [List.append_nil]
    exact hx l

/-- The beginning of a plan is the beginning of a longer one. -/
theorem weaken {plan'' : List β} (hx : Emits log x plan) {l : List β} (hplan : plan <+: plan'') :
    Triple (fun s => log s = l) x (fun s => log s = l ++ plan)
      (fun s => ∃ p, p <+: plan'' ∧ log s = l ++ p) :=
  (hx l).weaken fun _ ⟨p, hp, hs⟩ => ⟨p, hp.trans hplan, hs⟩

/-- **One program after the other.** -/
theorem bind {f : α → EStateM ε σ γ} (hx : Emits log x plan) (hf : ∀ a, Emits log (f a) plan') :
    Emits log (x >>= f) (plan ++ plan') := by
  intro l
  refine (hx.weaken (List.prefix_append plan plan')).bind fun a => ?_
  intro s hs
  have hfs := hf a (l ++ plan) s hs
  cases hrun : f a s with
  | ok c s' =>
    rw [hrun] at hfs
    rw [← List.append_assoc]
    exact hfs
  | error e s' =>
    rw [hrun] at hfs
    obtain ⟨p, hp, hlog⟩ := hfs
    exact ⟨plan ++ p, (List.prefix_append_right_inj plan).mpr hp, by rw [hlog, List.append_assoc]⟩

/-- A program in front that leaves the log alone. -/
theorem bind_silent {f : α → EStateM ε σ γ} (hx : Emits log x []) (hf : ∀ a, Emits log (f a) plan) :
    Emits log (x >>= f) plan :=
  hx.bind hf

/-- A counted loop, one plan after the other. -/
theorem upTo {f : ℕ → EStateM ε σ PUnit} {plan : ℕ → List β} (hf : ∀ i, Emits log (f i) (plan i))
    (n : ℕ) : Emits log (Hoare.upTo f n) ((List.range n).flatMap plan) := by
  induction n with
  | zero => exact Emits.pure PUnit.unit
  | succ n ih =>
    have hlast : (List.range (n + 1)).flatMap plan = (List.range n).flatMap plan ++ plan n := by
      rw [List.range_succ, List.flatMap_append, List.flatMap_singleton]
    rw [hlast]
    exact ih.bind fun _ => hf n

/-- What the log holds once the program has returned. -/
theorem post (hx : Emits log x plan) {s s' : σ} {a : α} (h : x s = .ok a s') :
    log s' = log s ++ plan :=
  (hx (log s)).post rfl h

/-- What it holds once the program has failed. -/
theorem fails (hx : Emits log x plan) {s s' : σ} {e : ε} (h : x s = .error e s') :
    ∃ p, p <+: plan ∧ log s' = log s ++ p := by
  have hs := hx (log s) s rfl
  rwa [h] at hs

end Emits
end Hoare
