/-
# Handles

A table of resources that are acquired, changed and released by handle. To use
a handle that is not live is a fault, and the table counts them. `Holds` says
that the live resources are exactly those somebody knows of and that no fault
was made; acquiring, changing and releasing what is held keeps it.
-/
import Mathlib.Data.List.Basic
import Mathlib.Data.List.Nodup
import Mathlib.Tactic.Basic

namespace Handles

variable {α : Type*}

/-- The resources ever created, those that are live, with what is known of them, and the faults. -/
structure Table (α : Type*) where
  created : ℕ
  live : List (ℕ × α)
  faults : ℕ
  deriving DecidableEq, Repr

namespace Table

def empty : Table α := ⟨0, [], 0⟩

/-- A fault is made. -/
def fault (t : Table α) : Table α := { t with faults := t.faults + 1 }

/-- A new resource; its handle is the number of those before. -/
def acquire (t : Table α) (a : α) : Table α :=
  { t with created := t.created + 1, live := t.live ++ [(t.created, a)] }

/-- What is known of a resource changes. -/
def update (t : Table α) (h : ℕ) (a : α) : Table α :=
  if h ∈ t.live.map Prod.fst then
    { t with live := t.live.map fun p => if p.1 = h then (h, a) else p }
  else t.fault

def release (t : Table α) (h : ℕ) : Table α :=
  if h ∈ t.live.map Prod.fst then { t with live := t.live.filter fun p => p.1 ≠ h } else t.fault

/-- The live resources are these, and no fault was made. -/
structure Holds (t : Table α) (owned : List (ℕ × α)) : Prop where
  live : t.live = owned
  below : ∀ p ∈ owned, p.1 < t.created
  nodup : (owned.map Prod.fst).Nodup
  faults : t.faults = 0

theorem holds_empty : Holds (empty : Table α) [] := ⟨rfl, by simp, List.nodup_nil, rfl⟩

namespace Holds

variable {t : Table α} {owned post : List (ℕ × α)}

theorem not_mem_created (h : t.Holds owned) : t.created ∉ owned.map Prod.fst := by
  intro hmem
  obtain ⟨p, hp, heq⟩ := List.mem_map.mp hmem
  have hlt := h.below p hp
  omega

theorem acquire (h : t.Holds owned) (a : α) : (t.acquire a).Holds (owned ++ [(t.created, a)]) where
  live := by rw [Table.acquire, h.live]
  below := by
    intro p hp
    rcases List.mem_append.mp hp with hp | hp
    · exact Nat.lt_succ_of_lt (h.below p hp)
    · obtain rfl := List.mem_singleton.mp hp
      exact Nat.lt_succ_self _
  nodup := by
    rw [List.map_append]
    refine List.Nodup.append h.nodup (List.nodup_singleton _) ?_
    intro n hn hn'
    obtain rfl := List.mem_singleton.mp hn'
    exact h.not_mem_created hn
  faults := h.faults

/-- A handle that comes once is not among those before and after it. -/
theorem fst_ne {pre : List (ℕ × α)} {n : ℕ} {a : α}
    (hnodup : ((pre ++ (n, a) :: post).map Prod.fst).Nodup) : ∀ p ∈ pre ++ post, p.1 ≠ n := by
  rw [List.map_append, List.map_cons, List.nodup_middle] at hnodup
  intro p hp heq
  apply (List.nodup_cons.mp hnodup).1
  rw [← List.map_append]
  exact List.mem_map.mpr ⟨p, hp, heq⟩

theorem update {pre : List (ℕ × α)} {n : ℕ} {a : α} (h : t.Holds (pre ++ (n, a) :: post))
    (b : α) : (t.update n b).Holds (pre ++ (n, b) :: post) := by
  have hne := fst_ne h.nodup
  have hmem : n ∈ t.live.map Prod.fst := by simp [h.live]
  have hsame : ∀ l : List (ℕ × α), (∀ p ∈ l, p ∈ pre ++ post) →
      (l.map fun p => if p.1 = n then (n, b) else p) = l := by
    intro l hl
    rw [List.map_congr_left fun p hp => if_neg (hne p (hl p hp)), List.map_id']
  rw [Table.update, if_pos hmem]
  refine ⟨?_, ?_, ?_, h.faults⟩
  · change t.live.map _ = _
    rw [h.live, List.map_append, List.map_cons, if_pos rfl,
      hsame pre fun p hp => List.mem_append_left _ hp,
      hsame post fun p hp => List.mem_append_right _ hp]
  · intro p hp
    rcases List.mem_append.mp hp with hp | hp
    · exact h.below p (List.mem_append_left _ hp)
    · rcases List.mem_cons.mp hp with rfl | hp
      · exact h.below (n, a) (by simp)
      · exact h.below p (by simp [hp])
  · have hnodup := h.nodup
    rw [List.map_append, List.map_cons] at hnodup ⊢
    exact hnodup

theorem release (pre : List (ℕ × α)) {n : ℕ} {a : α} (h : t.Holds (pre ++ (n, a) :: post)) :
    (t.release n).Holds (pre ++ post) := by
  have hne := fst_ne h.nodup
  have hmem : n ∈ t.live.map Prod.fst := by simp [h.live]
  have hsame : ∀ l : List (ℕ × α), (∀ p ∈ l, p ∈ pre ++ post) →
      (l.filter fun p => p.1 ≠ n) = l := by
    intro l hl
    rw [List.filter_eq_self]
    intro p hp
    simpa using hne p (hl p hp)
  have hsub : (pre ++ post).Sublist (pre ++ (n, a) :: post) :=
    (List.sublist_cons_self _ _).append_left pre
  rw [Table.release, if_pos hmem]
  refine ⟨?_, fun p hp => h.below p (hsub.subset hp), h.nodup.sublist (hsub.map _), h.faults⟩
  change t.live.filter _ = _
  have hdrop : (((n, a) :: post).filter fun p => p.1 ≠ n) = post.filter fun p => p.1 ≠ n :=
    List.filter_cons_of_neg (by simp)
  rw [h.live, List.filter_append, hdrop, hsame pre fun p hp => List.mem_append_left _ hp,
    hsame post fun p hp => List.mem_append_right _ hp]

end Holds
end Table
end Handles
