/-
# Loops with a guard

`Passes` is the execution of a loop: the states in which its body is entered,
in their order, and the state in which it is left. A loop with an invariant,
under which each pass takes something off a variant, is left after at most as
many passes as the variant says (`Passes.of_variant`); the invariant holds
whenever the body is entered, and at the end (`Passes.invariant`).
-/
import Mathlib.Data.List.Basic
import Mathlib.Tactic.Basic

namespace While

variable {σ : Type*} {guard : σ → Prop} {body : σ → σ}

/-- The loop enters its body in the states of the list and is left in the last state. -/
inductive Passes (guard : σ → Prop) (body : σ → σ) : σ → List σ → σ → Prop
  | leave {s : σ} (hguard : ¬guard s) : Passes guard body s [] s
  | enter {s s' : σ} {entered : List σ} (hguard : guard s)
      (hrest : Passes guard body (body s) entered s') : Passes guard body s (s :: entered) s'

namespace Passes

variable {inv : σ → Prop}

/-- **A loop with a variant ends.** -/
theorem of_variant (variant : σ → ℕ)
    (hbody : ∀ s, inv s → guard s → inv (body s) ∧ variant (body s) < variant s) {s : σ}
    (hinv : inv s) :
    ∃ entered s', Passes guard body s entered s' ∧ entered.length ≤ variant s := by
  induction hn : variant s using Nat.strongRecOn generalizing s with
  | ind n ih =>
    by_cases hguard : guard s
    · obtain ⟨hkept, hless⟩ := hbody s hinv hguard
      obtain ⟨entered, s', hrest, hlen⟩ := ih (variant (body s)) (by omega) hkept rfl
      refine ⟨s :: entered, s', .enter hguard hrest, ?_⟩
      rw [List.length_cons]
      omega
    · exact ⟨[], s, .leave hguard, Nat.zero_le _⟩

/-- What holds at the first test and is kept by the body holds at every test. -/
theorem invariant {s s' : σ} {entered : List σ} (h : Passes guard body s entered s')
    (hbody : ∀ s, inv s → guard s → inv (body s)) (hinv : inv s) :
    (∀ e ∈ entered, inv e ∧ guard e) ∧ inv s' ∧ ¬guard s' := by
  induction h with
  | leave hguard => exact ⟨by simp, hinv, hguard⟩
  | enter hguard _ ih =>
    obtain ⟨hentered, hleft⟩ := ih (hbody _ hinv hguard)
    refine ⟨?_, hleft⟩
    intro e he
    rcases List.mem_cons.mp he with rfl | he
    · exact ⟨hinv, hguard⟩
    · exact hentered e he

end Passes
end While
