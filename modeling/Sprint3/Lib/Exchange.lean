/-
# Responses in order

Requests go out one after the other and their responses come back in the same
order, without saying which request they answer. A reader that takes the
oldest response after each request gets the right one as long as it takes one
for each; once it has given up on `k` of them it is `Behind` by `k`, and stays
so: from then on each response it takes answers the request `k` before
(`Exchanged.next`), and it gets its own only if `k` is zero
(`Exchanged.acknowledged_iff`).
-/
import Mathlib.Data.List.Basic
import Mathlib.Data.List.Range

namespace Exchange

/-- The requests so far, the responses not taken yet (the oldest first), and of each response
taken the request it was taken for and the request it answers. -/
structure Channel where
  issued : ℕ
  pending : List ℕ
  taken : List (ℕ × ℕ)
  deriving DecidableEq, Repr

namespace Channel

def empty : Channel := ⟨0, [], []⟩

/-- The next request. -/
def issue (c : Channel) : Channel :=
  { c with issued := c.issued + 1, pending := c.pending ++ [c.issued] }

/-- The oldest response, taken for the latest request. -/
def take (c : Channel) : Option (ℕ × Channel) :=
  match c.pending with
  | [] => none
  | n :: pending => some (n, { c with pending, taken := c.taken ++ [(c.issued - 1, n)] })

/-- The responses to the last `k` requests are not taken yet. -/
structure Behind (k : ℕ) (c : Channel) : Prop where
  le : k ≤ c.issued
  pending : c.pending = List.range' (c.issued - k) k

theorem behind_empty : Behind 0 empty := ⟨le_rfl, rfl⟩

theorem Behind.issue {k : ℕ} {c : Channel} (h : Behind k c) : Behind (k + 1) c.issue where
  le := Nat.succ_le_succ h.le
  pending := by
    have hle := h.le
    have hsub : c.issued + 1 - (k + 1) = c.issued - k := by omega
    have hlast : c.issued - k + k = c.issued := by omega
    simp only [Channel.issue, h.pending, hsub, List.range'_1_concat, hlast]

/-- The response taken by a reader that is behind. -/
theorem Behind.take {k : ℕ} {c : Channel} (h : Behind (k + 1) c) :
    ∃ c', c.take = some (c.issued - 1 - k, c') ∧ Behind k c' ∧ c'.issued = c.issued ∧
      c'.taken = c.taken ++ [(c.issued - 1, c.issued - 1 - k)] := by
  have hle := h.le
  have hsub : c.issued - (k + 1) = c.issued - 1 - k := by omega
  have hnext : c.issued - 1 - k + 1 = c.issued - k := by omega
  refine ⟨⟨c.issued, List.range' (c.issued - k) k, c.taken ++ [(c.issued - 1, c.issued - 1 - k)]⟩,
    ?_, ⟨by change k ≤ c.issued; omega, rfl⟩, rfl, rfl⟩
  unfold Channel.take
  rw [h.pending, List.range'_succ, hsub, hnext]

/-- From `c` to `c'`, each request was followed by the taking of its own response. -/
def Acknowledged (c c' : Channel) : Prop :=
  c'.taken = c.taken ++ (List.range' c.issued (c'.issued - c.issued)).map fun n => (n, n)

instance (c c' : Channel) : Decidable (Acknowledged c c') :=
  inferInstanceAs (Decidable (_ = _))

end Channel

open Channel

/-- From `c` to `c'`, `m` requests were each followed by the taking of a response, all of them
`k` behind. -/
structure Exchanged (k m : ℕ) (c c' : Channel) : Prop where
  behind : c'.Behind k
  issued : c'.issued = c.issued + m
  taken : c'.taken = c.taken ++ (List.range' c.issued m).map fun n => (n, n - k)

namespace Exchanged

variable {k m : ℕ} {c c' : Channel}

theorem refl (h : c.Behind k) : Exchanged k 0 c c := ⟨h, rfl, by simp⟩

/-- One more request and the response taken for it. -/
theorem next (h : Exchanged k m c c') :
    ∃ c'', c'.issue.take = some (c'.issued - k, c'') ∧ Exchanged k (m + 1) c c'' := by
  obtain ⟨c'', htake, hbehind, hissued, htaken⟩ := h.behind.issue.take
  refine ⟨c'', htake, hbehind, ?_, ?_⟩
  · rw [hissued, Channel.issue, h.issued, Nat.add_assoc]
  · have hlast : c'.issue.issued - 1 = c.issued + m := by
      rw [Channel.issue, h.issued, Nat.add_sub_cancel]
    have hprev : c'.issue.taken = c'.taken := rfl
    rw [htaken, hlast, hprev, h.taken, List.range'_1_concat, List.map_append, List.append_assoc]
    rfl

/-- Each request got its own response exactly if no response was left over before. -/
theorem acknowledged_iff (h : Exchanged k (m + 1) c c') (hc : c.Behind k) :
    Acknowledged c c' ↔ k = 0 := by
  have hm : c'.issued - c.issued = m + 1 := by
    rw [h.issued, Nat.add_sub_cancel_left]
  rw [Acknowledged, h.taken, hm, List.append_cancel_left_eq]
  constructor
  · intro heq
    have hfirst : c.issued - k = c.issued := by
      simpa [List.range'_succ] using (List.cons.inj heq).1
    have hle := hc.le
    omega
  · rintro rfl
    rfl

end Exchanged
end Exchange
