/-
# Calls that do not always notify

A call of a producer adds to the guarded resource, and notifies the consumer
afterwards only if what it added, or found, makes it worth while. A consumer
with a predicate looks before it blocks. So while it is blocked with no call
in flight to wake it, there is no more for it than calls are content to leave
unnotified (`blocked_content`); the rest of what was received is done, by its
ledger (`blocked_done`).
-/
import Sprint3.Lib.Ledger
import Sprint3.Lib.Notify

namespace Monitor

open Run

variable {σ ε α : Type*}

/-- A consumer with its finisher, the number of calls in flight that are going
to notify it, and what was received so far. -/
structure Served (σ α : Type*) where
  system : System σ
  inFlight : ℕ
  received : List α

def Served.launched (s : σ) : Served σ α := ⟨.launched s, 0, []⟩

section Calls

variable (c : Consumer σ) (produce : ε → σ → σ) (added : ε → σ → List α) (notifies : ε → σ → Bool)

/-- The system's step. A call decides under the mutex whether it is going to
notify; the other steps are those of `nextAct`. -/
def nextServed (n : Served σ α) : Act ε → Option (Served σ α)
  | .add e => (next c produce n.system (.produce e)).map fun m =>
    { system := m
      inFlight := if notifies e n.system.shared then n.inFlight + 1 else n.inFlight
      received := n.received ++ added e n.system.shared }
  | a => (nextAct c produce ⟨n.system, n.inFlight⟩ a).map fun m =>
    { n with system := m.system, inFlight := m.inFlight }

/-- What a step of the calls can do. -/
inductive ServedStep (n : Served σ α) : Act ε → Served σ α → Prop
  | add {e m} (h : next c produce n.system (.produce e) = some m) :
    ServedStep n (.add e) ⟨m, if notifies e n.system.shared then n.inFlight + 1 else n.inFlight,
      n.received ++ added e n.system.shared⟩
  | other {a m} (hadd : ∀ e, a ≠ .add e) (h : next c produce n.system a.label = some m) :
    ServedStep n a ⟨m, a.inFlight n.inFlight, n.received⟩

/-- Before it blocks it has seen that nothing is ready; once it is blocked, a
call is in flight to wake it or there is only what calls are content to leave. -/
structure Attentive (content : σ → Prop) (n : Served σ α) : Prop where
  looked : n.system.thread.pc = .sleep → c.ready n.system.shared = false
  blocked : n.system.thread.pc = .asleep → n.inFlight = 0 → content n.system.shared

end Calls

variable {c : Consumer σ} {produce : ε → σ → σ} {added : ε → σ → List α} {notifies : ε → σ → Bool}
  {n n' : Served σ α} {s : σ} {as : List (Act ε)} {a : Act ε}

theorem served_step (h : nextServed c produce added notifies n a = some n') :
    ServedStep c produce added notifies n a n' := by
  have hother (hadd : ∀ e, a ≠ .add e)
      (h : (nextAct c produce ⟨n.system, n.inFlight⟩ a).map
        (fun m => ({ n with system := m.system, inFlight := m.inFlight } : Served σ α)) = some n') :
      ServedStep c produce added notifies n a n' := by
    obtain ⟨m, hm, rfl⟩ := Option.map_eq_some_iff.mp h
    obtain ⟨m, hnext, rfl⟩ := acted hm
    exact .other hadd hnext
  cases a with
  | add e =>
    obtain ⟨m, hm, rfl⟩ := Option.map_eq_some_iff.mp h
    exact .add hm
  | _ => exact hother nofun h

/-! ### What it is blocked on -/

section Blocked

variable {content : σ → Prop} (hpred : c.usesPred = true)
  (hready : ∀ s, c.ready s = false → content s)
  (hleave : ∀ e s, content s → notifies e s = false → content (produce e s))

include hpred in
/-- A consumer with a predicate decides to wait only where nothing is ready. -/
theorem unready_of_sleep {t : Thread} {s' : σ} (h : c.step t s = some (.sleep, s')) :
    c.ready s = false := by
  unfold Consumer.step at h
  cases hpc : t.pc <;>
    simp only [hpc, hpred, reduceCtorEq, ↓reduceIte, Option.some.injEq, Prod.mk.injEq, false_and]
      at h
  case eval =>
    by_contra hready
    rw [Bool.not_eq_false] at hready
    simp [hready] at h
  all_goals
    obtain ⟨hpc, -⟩ := h
    split at hpc <;> cases hpc

include hpred hready hleave in
theorem Attentive.step (h : Attentive c content n)
    (hnext : nextServed c produce added notifies n a = some n') : Attentive c content n' := by
  cases served_step hnext with
  | @add e m hm =>
    cases stepped hm with
    | produce hholds =>
    refine ⟨fun hpc => ?_, fun hpc hnone => ?_⟩
    · rw [show n.system.thread.pc = .sleep from hpc] at hholds
      cases hholds
    · cases hnotifies : notifies e n.system.shared with
      | true => simp [hnotifies] at hnone
      | false =>
        rw [hnotifies] at hnone
        exact hleave e _ (h.blocked hpc hnone) hnotifies
  | @other a m hadd hm =>
    -- A notification leaves no thread blocked.
    have hnotify {fin inFlight received} :
        Attentive c content (⟨⟨n.system.thread.notify, fin, n.system.shared⟩, inFlight, received⟩ :
          Served σ α) := by
      rcases n.system.thread.notify_pc with ⟨hwoken, -⟩ | ⟨hsame, hawake⟩
      · exact ⟨fun hpc => by simp [hwoken] at hpc, fun hpc => by simp [hwoken] at hpc⟩
      · exact ⟨fun hpc => h.looked (hsame ▸ hpc), fun hpc => absurd (hsame ▸ hpc) hawake⟩
    cases a with
    | add e => exact absurd rfl (hadd e)
    | notifyOne =>
      cases stepped hm with
      | wake => exact hnotify
    | consumer =>
      cases stepped hm with
      | @consumer pc s' hstep =>
      refine ⟨fun hpc => ?_, fun hpc _ => ?_⟩
      · obtain rfl : pc = .sleep := hpc
        obtain rfl := shared_of_sleep hstep (.inl rfl)
        exact unready_of_sleep hpred hstep
      · obtain rfl : pc = .asleep := hpc
        obtain rfl := shared_of_sleep hstep (.inr rfl)
        exact hready _ (h.looked (step_asleep hstep rfl))
    | requestStop =>
      cases stepped hm with
      | requestStop => exact ⟨h.looked, h.blocked⟩
    | notifyAll =>
      cases stepped hm with
      | notifyAll => exact hnotify
    | join =>
      cases stepped hm with
      | join => exact ⟨h.looked, h.blocked⟩

variable (content) in
include hpred hready hleave in
/-- **Blocked with nobody left to wake it, it has only what calls leave.** -/
theorem blocked_content
    (hrun : run (nextServed c produce added notifies) (.launched s) as = some n)
    (hasleep : n.system.thread.pc = .asleep) (hnone : n.inFlight = 0) :
    content n.system.shared := by
  have hattentive : Attentive c content n :=
    run_invariant hrun (fun _ n => Attentive c content n) ⟨nofun, nofun⟩
      fun _ _ _ _ _ h hnext => h.step hpred hready hleave hnext
  exact hattentive.blocked hasleep hnone

end Blocked

/-! ### What it has done -/

section Done

variable {L : Ledger σ ε α}

/-- A finisher that has not begun had not begun before. -/
theorem running_before {m m' : System σ} {l : Label ε} (h : next c produce m l = some m')
    (hfinish : m'.finish = .requestStop) : m.finish = .requestStop := by
  cases stepped h with
  | requestStop | notifyAll | join => cases hfinish
  | _ => exact hfinish

/-- The balance of a consumer whose finisher has not begun. -/
theorem balanced_served (hkeeps : L.Keeps c produce) (hok : L.ok s) (hdone : L.done s [])
    (hleft : L.left s = [])
    (hrun : run (nextServed c produce L.added notifies) (.launched s) as = some n)
    (hfinish : n.system.finish = .requestStop) : Balanced L n.received n.system := by
  refine run_invariant hrun (fun _ n => n.system.finish = .requestStop →
    Balanced L n.received n.system) (fun _ => balanced_launched hok hdone hleft) ?_ hfinish
  rintro as n a n' - ih hnext hfinish
  cases served_step hnext with
  | @add e m hm =>
    have hbefore := running_before hm hfinish
    have hbalanced := ih hbefore
    exact balanced_produce hkeeps hbalanced (hbalanced.orderly.running hbefore) hm
  | @other a m hadd hm =>
    refine balanced_next hkeeps (ih (running_before hm hfinish)) ?_ hm
    intro e hlabel
    cases a with
    | add e' => exact hadd e' rfl
    | _ => cases hlabel

/-- **Blocked, it has done all it received but what is left.** -/
theorem blocked_done (hkeeps : L.Keeps c produce) (hok : L.ok s) (hdone : L.done s [])
    (hleft : L.left s = [])
    (hrun : run (nextServed c produce L.added notifies) (.launched s) as = some n)
    (hfinish : n.system.finish = .requestStop) (hasleep : n.system.thread.pc = .asleep) :
    ∃ d, L.done n.system.shared d ∧ n.received = d ++ L.left n.system.shared := by
  obtain ⟨d, hd, hreceived⟩ :=
    (balanced_served hkeeps hok hdone hleft hrun hfinish).account
  rw [hasleep] at hreceived
  exact ⟨d, hd, by simpa [Pc.working] using hreceived⟩

end Done

end Monitor
