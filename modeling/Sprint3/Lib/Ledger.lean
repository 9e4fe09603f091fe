/-
# A consumer that loses nothing

A `Ledger` reads off a consumer's state what it has done so far, what it has
in hand, and what is left for it, as lists of elements. If no operation of
the consumer changes the three taken together, if its work empties its hand,
and if its last take empties the resource (`Ledger.Keeps`), then whatever the
schedule, once the consumer has ended it has done exactly what was left for it
before it was asked to stop, in order (`Balanced.ended`).
-/
import Sprint3.Lib.Monitor

namespace Monitor

variable {σ ε α : Type*}

/-! ### Where a consumer stands -/

/-- Between a successful preparation and the end of the turn. -/
def Pc.prepared : Pc → Bool
  | .lock | .test | .eval | .sleep | .asleep | .woken | .take | .work => true
  | _ => false

/-- Between a successful last preparation and the last take. -/
def Pc.lastPrepared : Pc → Bool
  | .lastLock | .lastTake => true
  | _ => false

/-- At work on what was taken. -/
def Pc.working : Pc → Bool
  | .work | .lastWork => true
  | _ => false

/-- The last take is over. -/
def Pc.emptied : Pc → Bool
  | .lastWork | .done => true
  | _ => false

theorem Pc.last_of_emptied {pc : Pc} (h : pc.emptied = true) : pc.last = true := by
  cases pc <;> simp_all [emptied, last]

/-! ### Ledgers -/

/-- How a consumer's state is read. -/
structure Ledger (σ ε α : Type*) where
  ok : σ → Prop
  /-- Ready for a turn, and for the last one. -/
  prepared : σ → Prop
  lastPrepared : σ → Prop
  done : σ → List α → Prop
  inHand : σ → List α
  left : σ → List α
  /-- What a producer adds. -/
  added : ε → σ → List α

namespace Ledger

/-- What was received so far is done, in hand if the consumer is at work, or left. -/
def Account (L : Ledger σ ε α) (working : Bool) (s : σ) (received : List α) : Prop :=
  ∃ d, L.done s d ∧ received = d ++ (if working then L.inHand s else []) ++ L.left s

/-- An operation that takes `s` to `s'`, and the consumer to or from work, keeps the account. -/
structure Kept (L : Ledger σ ε α) (working : Bool) (s : σ) (working' : Bool) (s' : σ) : Prop where
  ok : L.ok s'
  account : ∀ received, L.Account working s received → L.Account working' s' received

/-- What the operations of a consumer and its producers must do. -/
structure Keeps (L : Ledger σ ε α) (c : Consumer σ) (produce : ε → σ → σ) : Prop where
  prepare {s} : L.ok s → L.Kept false s false (c.prepare s).1 ∧ (c.prepare s).2 = true ∧
    L.prepared (c.prepare s).1
  take {s} : L.ok s → L.prepared s → L.Kept false s (c.goesOn s) (c.take s) ∧ L.prepared (c.take s)
  work {s} : L.ok s → L.prepared s → L.Kept true s false (c.work s)
  lastPrepare {s} : L.ok s → L.Kept false s false (c.lastPrepare s).1 ∧
    (c.lastPrepare s).2 = true ∧ L.lastPrepared (c.lastPrepare s).1
  lastTake {s} : L.ok s → L.lastPrepared s → L.Kept false s true (c.lastTake s) ∧
    L.left (c.lastTake s) = []
  lastWork {s} : L.ok s → L.left s = [] → L.left (c.lastWork s) = [] ∧
    ∀ received, L.Account true s received → L.Account false (c.lastWork s) received
  produce {s e} : L.ok s → L.ok (produce e s) ∧ (L.prepared s → L.prepared (produce e s)) ∧
    (L.lastPrepared s → L.lastPrepared (produce e s)) ∧
    ∀ working received, L.Account working s received →
      L.Account working (produce e s) (received ++ L.added e s)

end Ledger

/-- The account is kept, and the consumer stands where it says it does. -/
structure Balanced (L : Ledger σ ε α) (received : List α) (m : System σ) : Prop where
  orderly : Orderly m
  ok : m.thread.pc ≠ .done → L.ok m.shared
  account : L.Account m.thread.pc.working m.shared received
  prepared : m.thread.pc.prepared = true → L.prepared m.shared
  lastPrepared : m.thread.pc.lastPrepared = true → L.lastPrepared m.shared
  emptied : m.thread.pc.emptied = true → L.left m.shared = []
  last : m.thread.pc.last = true → m.thread.stop = true

section Balance

variable {L : Ledger σ ε α} {c : Consumer σ} {produce : ε → σ → σ} (hkeeps : L.Keeps c produce)
  {received : List α} {m m' : System σ}

theorem balanced_launched {s : σ} (hok : L.ok s) (hdone : L.done s []) (hleft : L.left s = []) :
    Balanced L [] (System.launched s) where
  orderly := orderly_launched s
  ok _ := hok
  account := ⟨[], hdone, by rw [show (System.launched s).shared = s from rfl, hleft]; rfl⟩
  prepared := nofun
  lastPrepared := nofun
  emptied := nofun
  last := nofun

/-- A consumer that has ended has done all it received. -/
theorem Balanced.ended (h : Balanced L received m) (hpc : m.thread.pc = .done) :
    L.done m.shared received := by
  obtain ⟨d, hdone, hreceived⟩ := h.account
  rw [h.emptied (by rw [hpc]; rfl), hpc, List.append_nil] at hreceived
  simpa [Pc.working, hreceived] using hdone

/-- A consumer whose finisher has not begun is at work on a state that is in order. -/
theorem Balanced.running_ok (h : Balanced L received m) (hfinish : m.finish = .requestStop) :
    L.ok m.shared := by
  refine h.ok fun hdone => ?_
  have hstop := h.last (by rw [hdone]; rfl)
  rw [h.orderly.running hfinish] at hstop
  cases hstop

include hkeeps

/-- A step of the consumer keeps the balance. -/
theorem balanced_consumer (h : Balanced L received m) {pc : Pc} {s : σ}
    (hstep : c.step m.thread m.shared = some (pc, s))
    (ho : Orderly ⟨⟨pc, m.thread.stop⟩, m.finish, s⟩) :
    Balanced L received ⟨⟨pc, m.thread.stop⟩, m.finish, s⟩ := by
  obtain ⟨-, hok, haccount, hprepared, hlastPrepared, hemptied, hlast⟩ := h
  -- A step that leaves the state alone and stays in the turn.
  have hturn : s = m.shared → L.ok m.shared → L.Account false m.shared received →
      L.prepared m.shared → pc.prepared = true → pc.working = false →
      Balanced L received ⟨⟨pc, m.thread.stop⟩, m.finish, s⟩ := by
    rintro rfl hok haccount hp hpc hidle
    refine ⟨ho, fun _ => hok, hidle ▸ haccount, fun _ => hp, ?_, ?_, ?_⟩ <;>
      cases pc <;> simp_all [Pc.prepared, Pc.lastPrepared, Pc.emptied, Pc.last]
  unfold Consumer.step at hstep
  cases hpc : m.thread.pc <;>
    simp only [hpc, Pc.prepared, Pc.lastPrepared, Pc.working, Pc.emptied, Pc.last, forall_const,
      reduceCtorEq, Bool.false_eq_true, false_implies, ne_eq, not_false_eq_true]
      at hstep hok haccount hprepared hlastPrepared hemptied hlast
  case head =>
    obtain ⟨rfl, rfl⟩ := Prod.mk.inj (Option.some.inj hstep)
    cases hstop : m.thread.stop with
    | true =>
      simp only [hstop] at ho ⊢
      exact ⟨ho, fun _ => hok, haccount, nofun, nofun, nofun, fun _ => rfl⟩
    | false =>
      simp only [hstop] at ho ⊢
      exact ⟨ho, fun _ => hok, haccount, nofun, nofun, nofun, nofun⟩
  case prepare =>
    obtain ⟨rfl, rfl⟩ := Prod.mk.inj (Option.some.inj hstep)
    obtain ⟨hkept, hprep, hready⟩ := hkeeps.prepare hok
    rw [if_pos hprep] at ho ⊢
    exact ⟨ho, fun _ => hkept.ok, hkept.account _ haccount, fun _ => hready, nofun, nofun, nofun⟩
  case lock =>
    obtain ⟨rfl, rfl⟩ := Prod.mk.inj (Option.some.inj hstep)
    exact hturn rfl hok haccount hprepared rfl rfl
  case test =>
    obtain ⟨rfl, rfl⟩ := Prod.mk.inj (Option.some.inj hstep)
    apply hturn rfl hok haccount hprepared
    · split
      · rfl
      · split <;> rfl
    · split
      · rfl
      · split <;> rfl
  case eval =>
    obtain ⟨rfl, rfl⟩ := Prod.mk.inj (Option.some.inj hstep)
    apply hturn rfl hok haccount hprepared <;> split <;> rfl
  case sleep =>
    obtain ⟨rfl, rfl⟩ := Prod.mk.inj (Option.some.inj hstep)
    exact hturn rfl hok haccount hprepared rfl rfl
  case woken =>
    obtain ⟨rfl, rfl⟩ := Prod.mk.inj (Option.some.inj hstep)
    apply hturn rfl hok haccount hprepared <;> split <;> rfl
  case take =>
    obtain ⟨rfl, rfl⟩ := Prod.mk.inj (Option.some.inj hstep)
    obtain ⟨hkept, hready⟩ := hkeeps.take hok hprepared
    cases hgo : c.goesOn m.shared with
    | true =>
      simp only [hgo] at ho hkept ⊢
      exact ⟨ho, fun _ => hkept.ok, hkept.account _ haccount, fun _ => hready, nofun, nofun, nofun⟩
    | false =>
      simp only [hgo] at ho hkept ⊢
      exact ⟨ho, fun _ => hkept.ok, hkept.account _ haccount, nofun, nofun, nofun, nofun⟩
  case work =>
    obtain ⟨rfl, rfl⟩ := Prod.mk.inj (Option.some.inj hstep)
    have hkept := hkeeps.work hok hprepared
    exact ⟨ho, fun _ => hkept.ok, hkept.account _ haccount, nofun, nofun, nofun, nofun⟩
  case lastPrepare =>
    obtain ⟨rfl, rfl⟩ := Prod.mk.inj (Option.some.inj hstep)
    obtain ⟨hkept, hprep, hready⟩ := hkeeps.lastPrepare hok
    rw [if_pos hprep] at ho ⊢
    exact ⟨ho, fun _ => hkept.ok, hkept.account _ haccount, nofun, fun _ => hready, nofun,
      fun _ => hlast⟩
  case lastLock =>
    obtain ⟨rfl, rfl⟩ := Prod.mk.inj (Option.some.inj hstep)
    exact ⟨ho, fun _ => hok, haccount, nofun, fun _ => hlastPrepared, nofun, fun _ => hlast⟩
  case lastTake =>
    obtain ⟨rfl, rfl⟩ := Prod.mk.inj (Option.some.inj hstep)
    obtain ⟨hkept, hleft⟩ := hkeeps.lastTake hok hlastPrepared
    exact ⟨ho, fun _ => hkept.ok, hkept.account _ haccount, nofun, nofun, fun _ => hleft,
      fun _ => hlast⟩
  case lastWork =>
    obtain ⟨rfl, rfl⟩ := Prod.mk.inj (Option.some.inj hstep)
    obtain ⟨hleft, hkept⟩ := hkeeps.lastWork hok hemptied
    exact ⟨ho, fun h => absurd rfl h, hkept _ haccount, nofun, nofun, fun _ => hleft,
      fun _ => hlast⟩

/-- What producers add before the stop is what is received. -/
theorem balanced_produce {e : ε} (h : Balanced L received m) (hstop : m.thread.stop = false)
    (hnext : next c produce m (.produce e) = some m') :
    Balanced L (received ++ L.added e m.shared) m' := by
  have ho := orderly_next h.orderly hnext
  obtain ⟨-, hok, haccount, hprepared, hlastPrepared, -, hlast⟩ := h
  have hrunning : m.thread.pc ≠ .done := fun hpc => by
    rw [hlast (by rw [hpc]; rfl)] at hstop
    cases hstop
  obtain ⟨hok', hprepared', hlastPrepared', haccount'⟩ := hkeeps.produce (e := e) (hok hrunning)
  cases stepped hnext with
  | produce =>
  refine ⟨ho, fun _ => hok', haccount' _ _ haccount, fun hpc => hprepared' (hprepared hpc),
    fun hpc => hlastPrepared' (hlastPrepared hpc), fun hpc => ?_, hlast⟩
  rw [hlast (Pc.last_of_emptied hpc)] at hstop
  cases hstop

/-- Every other step keeps the balance. -/
theorem balanced_next {l : Label ε} (h : Balanced L received m) (hl : ∀ e, l ≠ .produce e)
    (hnext : next c produce m l = some m') : Balanced L received m' := by
  have ho := orderly_next h.orderly hnext
  have hnotify : ∀ fin, Orderly ⟨m.thread.notify, fin, m.shared⟩ →
      Balanced L received ⟨m.thread.notify, fin, m.shared⟩ := by
    intro fin ho
    rcases m.thread.notify_pc with ⟨hpc, hasleep⟩ | ⟨hpc, -⟩
    · obtain ⟨-, hok, haccount, hprepared, -, -, -⟩ := h
      rw [hasleep] at hok hprepared haccount
      refine ⟨ho, fun _ => hok nofun, ?_, fun _ => hprepared rfl, ?_, ?_, ?_⟩
      · rw [hpc]
        exact haccount
      all_goals simp [hpc, Pc.lastPrepared, Pc.emptied, Pc.last]
    · exact ⟨ho, by simpa [hpc] using h.ok, by simpa [hpc] using h.account, by simpa [hpc] using h.prepared,
        by simpa [hpc] using h.lastPrepared, by simpa [hpc] using h.emptied,
        by simpa [hpc] using h.last⟩
  cases stepped hnext with
  | consumer hstep => exact balanced_consumer hkeeps h hstep ho
  | produce => exact absurd rfl (hl _)
  | wake => exact hnotify _ ho
  | requestStop => exact { h with orderly := ho, last := fun _ => rfl }
  | notifyAll => exact hnotify _ ho
  | join => exact { h with orderly := ho }

end Balance

end Monitor
