/-
# Programs that return or fail

Rules for `EStateM` programs, in which a failing step ends the program. A
`Triple` says what holds of the state when the program returns and what when
it fails; `Triple.bind` composes two, `Triple.upTo` is the rule of a counted
loop.
-/
import Mathlib.Data.Nat.Notation

namespace Hoare

universe u

variable {ε σ α β : Type u} {P Q R E : σ → Prop}

/-- A step that returns is followed by the next one. -/
theorem bind_ok {x : EStateM ε σ α} {f : α → EStateM ε σ β} {s s' : σ} {a : α}
    (h : x s = .ok a s') : (x >>= f) s = f a s' := by
  change EStateM.bind x f s = f a s'
  rw [EStateM.bind, h]

/-- A step that fails is the last one. -/
theorem bind_error {x : EStateM ε σ α} {f : α → EStateM ε σ β} {s s' : σ} {e : ε}
    (h : x s = .error e s') : (x >>= f) s = .error e s' := by
  change EStateM.bind x f s = .error e s'
  rw [EStateM.bind, h]

/-- Started with `P`, the program returns with `Q` or fails with `E`. -/
def Triple (P : σ → Prop) (x : EStateM ε σ α) (Q E : σ → Prop) : Prop :=
  ∀ s, P s → match x s with
    | .ok _ s' => Q s'
    | .error _ s' => E s'

/-- `f 0, …, f (n - 1)`, in this order. -/
def upTo (f : ℕ → EStateM ε σ PUnit) : ℕ → EStateM ε σ PUnit
  | 0 => pure ⟨⟩
  | n + 1 => do
    upTo f n
    f n

namespace Triple

theorem bind {x : EStateM ε σ α} {f : α → EStateM ε σ β} (hx : Triple P x Q E)
    (hf : ∀ a, Triple Q (f a) R E) : Triple P (x >>= f) R E := by
  intro s hs
  have hq := hx s hs
  change match EStateM.bind x f s with
    | .ok _ s' => R s'
    | .error _ s' => E s'
  unfold EStateM.bind
  cases hxs : x s with
  | error e s' => rwa [hxs] at hq
  | ok a s' =>
    rw [hxs] at hq
    exact hf a s' hq

/-- Less said of a failure. -/
theorem weaken {E' : σ → Prop} {x : EStateM ε σ α} (hx : Triple P x Q E) (hE : ∀ s, E s → E' s) :
    Triple P x Q E' := by
  intro s hs
  have hq := hx s hs
  cases hxs : x s with
  | ok a s' => rwa [hxs] at hq
  | error e s' =>
    rw [hxs] at hq
    exact hE s' hq

theorem upTo {I : ℕ → σ → Prop} {f : ℕ → EStateM ε σ PUnit} {n : ℕ}
    (h : ∀ i < n, Triple (I i) (f i) (I (i + 1)) E) : Triple (I 0) (Hoare.upTo f n) (I n) E := by
  induction n with
  | zero => exact fun _ hs => hs
  | succ n ih =>
    exact (ih fun i hi => h i (Nat.lt_succ_of_lt hi)).bind fun _ => h n (Nat.lt_succ_self n)

/-- What holds once the program has returned. -/
theorem post {x : EStateM ε σ α} (h : Triple P x Q E) {s s' : σ} {a : α} (hs : P s)
    (hx : x s = .ok a s') : Q s' := by
  have hq := h s hs
  rwa [hx] at hq

/-- A program that cannot fail returns. -/
theorem returns {x : EStateM ε σ α} (h : Triple P x Q E) {s : σ} (hs : P s) (hE : ∀ s, ¬E s) :
    ∃ a s', x s = .ok a s' := by
  have hq := h s hs
  cases hx : x s with
  | ok a s' => exact ⟨a, s', rfl⟩
  | error e s' =>
    rw [hx] at hq
    exact absurd hq (hE s')

end Triple
end Hoare
